import GamePath.Engine.SelectorTable

/-!
# Return paths (`ReturnKey` and `ReturnPath` in `split_capture.rs`)

What a split capture remembers of each flow that goes through the tunnel, so that a reply can be put
back where the flow came from. The counters of a flow are left out. Times are in milliseconds.
-/

namespace GamePath.Engine.SplitCapture

/-- The flow a reply belongs to. -/
structure ReturnKey where
  protocol : UInt8
  remoteIp : Octets
  localPort : UInt16
  remotePort : UInt16
  deriving DecidableEq

/-- Where the packets of a flow came from. -/
structure ReturnPath where
  localIp : Octets
  interfaceIndex : UInt32
  subinterfaceIndex : UInt32
  processId : Option UInt32
  lastSeen : Nat
  /-- Set for a redirected lookup: replies are rewritten to come from it. -/
  resolver : Option Octets
  node : UInt8

namespace ReturnKey

/-- The key of a packet the application sent. -/
def outbound (fields : Ipv4Fields) : ReturnKey :=
  ⟨fields.protocol, fields.destination, fields.sourcePort, fields.destinationPort⟩

/-- The key of a reply to such a packet. -/
def inbound (fields : Ipv4Fields) : ReturnKey :=
  ⟨fields.protocol, fields.source, fields.destinationPort, fields.sourcePort⟩

end ReturnKey

/-- Soft ceiling for reply routing state. -/
def returnPathTarget : Nat := 4096

/-- How long a flow stays visible after its last packet. -/
def activeConnectionWindow : Nat := 30_000

end GamePath.Engine.SplitCapture
