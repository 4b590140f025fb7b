import GamePath.Engine.Dns
import GamePath.Engine.DirectRoutes
import GamePath.Engine.Ipv4Fragments
import GamePath.Engine.SelectorTable

/-!
# Which captured packets are tunnelled (`run_selected_capture` and `run_pending_syns`)

Split mode takes every outgoing packet off the network stack and decides what becomes of it. A
packet is selected by the table, by the owner of its socket, as a lookup or as an address a proxy
invented, and several checks then take the selection back. A SYN that nothing selects is held for a
few milliseconds and decided again from the table as it is then, by another thread.

What the code asks of the operating system (who owns a socket, whose lookup it is) is part of
`Sockets`, an argument for each packet. The atomic flags are read once for each use, so a flag that
is read twice is two arguments.
-/

namespace GamePath.Engine.SplitCapture

open Direct (Text DirectList isFakeIp isGloballyRoutableIpv4)

/-! ## The packet -/

def isLaterFragment (bytes : Bytes) : Bool :=
  Ipv4Fragments.isFragment bytes &&
    decide (Dns.u16At bytes 6 &&& Ipv4Fragments.offsetMask ≠ 0)

def isFirstFragment (bytes : Bytes) : Bool :=
  Ipv4Fragments.isFragment bytes &&
    decide (Dns.u16At bytes 6 &&& Ipv4Fragments.offsetMask = 0)

/-- `usize::from(packet[0] & 0x0f) * 4`. -/
def headerLength (bytes : Bytes) : Nat := (bytes.getD 0 0 &&& 0x0f).toNat * 4

/-- The four bytes from a position. -/
def octetsAt (bytes : Bytes) (position : Nat) : Octets :=
  (bytes.getD position 0, bytes.getD (position + 1) 0, bytes.getD (position + 2) 0,
    bytes.getD (position + 3) 0)

def ipv4Fields (bytes : Bytes) : Option Ipv4Fields :=
  if bytes.length < 20 ∨ bytes.getD 0 0 >>> 4 ≠ 4 then none
  else
    let header := headerLength bytes
    if header < 20 ∨ bytes.length < header + 4 then none
    else
      let protocol := bytes.getD 9 0
      let ports :=
        if protocol = 6 ∨ protocol = 17 then (Dns.u16At bytes header, Dns.u16At bytes (header + 2))
        else if protocol = 1 ∧ header + 8 ≤ bytes.length then
          (Dns.u16At bytes (header + 4), Dns.u16At bytes (header + 4))
        else (0, 0)
      some ⟨octetsAt bytes 12, octetsAt bytes 16, protocol, ports.1, ports.2⟩

def isTcpSyn (bytes : Bytes) : Bool :=
  if bytes.length < 20 ∨ bytes.getD 0 0 >>> 4 ≠ 4 ∨ bytes.getD 9 0 ≠ 6 then false
  else (bytes[headerLength bytes + 13]?).any fun flags => decide (flags &&& 0x02 ≠ 0)

def lookupName (bytes : Bytes) (fields : Ipv4Fields) : Option Text :=
  if fields.protocol ≠ 17 ∨ fields.destinationPort ≠ 53 then none
  else if headerLength bytes + 8 ≤ bytes.length then
    Dns.questionName (bytes.drop (headerLength bytes + 8))
  else none

/-- A lookup, by its protocol and port. -/
def Ipv4Fields.isLookup (fields : Ipv4Fields) : Bool :=
  (fields.protocol == 6 || fields.protocol == 17) && fields.destinationPort == 53

def isOutsideNameResolution (fields : Ipv4Fields) : Bool :=
  fields.isLookup && !isGloballyRoutableIpv4 fields.destination

/-! ## Names -/

def hostnameMatches (name target : Text) : Bool :=
  if ['*', '.'].isPrefixOf target then
    let suffix := target.drop 2
    name == suffix || ('.' :: suffix).isSuffixOf name
  else name == target

/-- How specific a hostname rule is: one without a wildcard before one with, then by length. -/
def specificity (rule : Text) : Nat × Nat :=
  (if ['*', '.'].isPrefixOf rule then 0 else 1, Direct.utf8Len rule)

/-- `most_specific_rule`; `max_by_key` keeps the last one of several. -/
def mostSpecificRule (name : Text) (rules : List Text) : Option Text :=
  (rules.filter (hostnameMatches name)).foldl
    (fun best rule =>
      match best with
      | none => some rule
      | some held =>
        if (specificity rule).1 < (specificity held).1 ∨
            ((specificity rule).1 = (specificity held).1 ∧
              (specificity rule).2 < (specificity held).2) then some held
        else some rule)
    none

/-! ## The session -/

/-- What a split session was started with and has learned, as far as a packet is decided by it. -/
structure Registry where
  applications : List String
  folders : List String
  targets : TargetNodes
  hostnames : List (Text × UInt8)
  ownHostnames : List Text
  direct : DirectList
  directLearned : List Octets
  proxyNodes : UInt64
  fakeIpNode : Option UInt8
  killSwitch : Bool

namespace Registry

/-- `path_matches` for the session's rules. -/
def matchesPath (registry : Registry) (path : String) : Bool :=
  registry.applications.contains path ||
    registry.folders.any fun folder => folderContains folder path

/-- `TargetNodes::for_name`. -/
def nodeForName (registry : Registry) (name : Text) : Option UInt8 :=
  (mostSpecificRule name (registry.hostnames.map Prod.fst)).bind fun rule =>
    (registry.hostnames.find? fun entry => entry.1 == rule).map Prod.snd

def isDirect (registry : Registry) (destination : Octets) : Bool :=
  registry.direct.contains destination ||
    (registry.direct.hasDomains && registry.directLearned.contains destination)

def isProxyNode (registry : Registry) (node : UInt8) : Bool :=
  decide (node.toNat < 64) && registry.proxyNodes.toNat.testBit node.toNat

/-- The destination is one a proxy invented. -/
def isFake (registry : Registry) (destination : Octets) : Bool :=
  registry.fakeIpNode.isSome && isFakeIp destination

end Registry

/-- What the operating system and the atomic flags answer while one packet is decided. -/
structure Sockets where
  exitSocket : Bool
  dnsSocketProcess : Option (UInt32 × String)
  udpOwner : Option (UInt32 × String)
  tcpSocketProcess : Option (UInt32 × String)
  /-- A proxy's process owns the lookup's socket. -/
  proxyLookup : Bool
  /-- The proxy of a node owns the packet's connection. -/
  proxyOwns : UInt8 → Bool
  /-- `lookup_is_from_an_application`, which is asked twice. -/
  fromApplication : Bool
  fromApplicationLater : Bool
  remoteEnabled : Bool
  ownAppsOnly : Bool
  yieldForeign : Bool
  yieldForeignLater : Bool
  /-- The tunnel carries the packet's flow already. -/
  carried : Bool

/-- `is_exit_socket`. -/
def Sockets.isExit (sockets : Sockets) (fields : Ipv4Fields) : Bool :=
  (fields.protocol == 6 || fields.protocol == 17) && sockets.exitSocket

def isProxyUpstream (owns : UInt8 → Bool) (node : UInt8) (fields : Ipv4Fields) : Bool :=
  fields.protocol == 6 && owns node

inductive DnsRoute where
  | normal
  | remote
  deriving DecidableEq

/-- `dns_policy::route`. -/
def dnsRoute (remoteEnabled ownAppsOnly yieldForeignApps ruleSelected applicationOwned bootstrap :
    Bool) :
    DnsRoute :=
  if !remoteEnabled || bootstrap then .normal
  else if ruleSelected || (!ownAppsOnly && !(yieldForeignApps && applicationOwned)) then .remote
  else .normal

def processSocketSelector (protocol : UInt8) (localPort remotePort : UInt16) : TrafficSelector :=
  .flow protocol localPort
    (if protocol = 6 ∧ remotePort ≠ 0 then some remotePort else none)

/-! ## Classification -/

/-- The variables of the decision, with the selector that was added for the owner of the socket. -/
structure Choice where
  selected : Bool
  processId : Option UInt32
  node : UInt8
  learned : Option (TrafficSelector × UInt32 × String)

/-- What the table says. -/
def fromTable (table : SelectorTable) (fields : Ipv4Fields) : Choice :=
  match table.lookup fields with
  | some found => ⟨true, found.processId, found.node, none⟩
  | none => ⟨false, none, 0, none⟩

variable (registry : Registry)

/-- The owner of the socket is a process of the session. -/
def ownedBy (selector : TrafficSelector) (owner : UInt32 × String) : Choice :=
  ⟨true, some owner.1, registry.targets.forPath owner.2, some (selector, owner.1, owner.2)⟩

/-- The owner of a lookup's socket, and whether it could not be told. -/
def claimLookup (sockets : Sockets) (fields : Ipv4Fields) (choice : Choice) :
    Choice × Bool :=
  if !choice.selected && !sockets.isExit fields && fields.isLookup then
    match sockets.dnsSocketProcess with
    | some owner =>
      if registry.matchesPath owner.2 then
        (ownedBy registry
          (processSocketSelector fields.protocol fields.sourcePort fields.destinationPort) owner,
          false)
      else (choice, false)
    | none => (choice, true)
  else (choice, false)

/-- The owner of a datagram's socket. -/
def claimDatagram (sockets : Sockets) (fields : Ipv4Fields) (direct : Bool)
    (choice : Choice) : Choice :=
  if !choice.selected && !direct && !sockets.isExit fields && fields.protocol == 17 &&
      (!registry.applications.isEmpty || !registry.folders.isEmpty) &&
      (isGloballyRoutableIpv4 fields.destination || fields.destinationPort == 53) then
    match sockets.udpOwner with
    | some owner =>
      ownedBy registry (processSocketSelector 17 fields.sourcePort fields.destinationPort) owner
    | none => choice
  else choice

/-- A lookup of one of the engine's own names, or on one of its own sockets. -/
def isOwnLookup (sockets : Sockets) (fields : Ipv4Fields) (question : Option Text) : Bool :=
  sockets.isExit fields || (fields.isLookup && sockets.proxyLookup) ||
    (question.any registry.ownHostnames.contains && !sockets.fromApplication)

/-- What is handed to `route_selected_packet`. -/
structure Routed where
  fields : Ipv4Fields
  processId : Option UInt32
  node : UInt8
  holdOnFailure : Bool
  redirect : Option Octets
  deriving DecidableEq

/-- What becomes of a captured packet. -/
inductive Verdict where
  /-- A later fragment goes where its first one went. -/
  | followsFirst
  /-- A packet without fields is put back, or dropped with its later fragments. -/
  | unreadable (firstFragment : Bool)
  /-- A lookup whose owner cannot be told is dropped. -/
  | held (firstFragment : Bool)
  /-- A SYN that nothing selects waits for another look. -/
  | pending (fields : Ipv4Fields)
  | reinjected (firstFragment : Bool)
  | routed (call : Routed) (firstFragment : Bool)
  deriving DecidableEq

/-- The checks that take a selection back, and the packet's way. -/
def conclude (sockets : Sockets) (fields : Ipv4Fields)
    (firstFragment direct remoteDns : Bool) (redirect : Option Octets)
    (choice : Choice) : Verdict :=
  -- A proxy's or an adapter node's own sockets are never sent back into it.
  let selected := choice.selected &&
    !(sockets.isExit fields ||
      (!fields.isLookup && isProxyUpstream sockets.proxyOwns choice.node fields))
  -- What the far end of the tunnel cannot reach is not sent there.
  let selected := selected &&
    (registry.isFake fields.destination || redirect.isSome ||
      isGloballyRoutableIpv4 fields.destination)
  -- A flow that the tunnel carries stays there.
  let selected := selected &&
    !(direct && !registry.isFake fields.destination && redirect.isNone && !sockets.carried)
  if selected then
    .routed ⟨fields, choice.processId, choice.node, registry.killSwitch || remoteDns, redirect⟩
      firstFragment
  else .reinjected firstFragment

/-- The choice for an address that a proxy invented. -/
def claimFake (fields : Ipv4Fields) (choice : Choice) : Choice :=
  if registry.isFake fields.destination then
    { choice with
      selected := true
      node :=
        if choice.selected && registry.isProxyNode choice.node then choice.node
        else registry.fakeIpNode.getD 0 }
  else choice

/-- The resolver that a redirected lookup was sent to. -/
def redirectOf (remoteDns : Bool) (fields : Ipv4Fields) : Option Octets :=
  if remoteDns && isOutsideNameResolution fields then some fields.destination else none

/-- The choice for a redirected lookup. -/
def claimRedirect (redirect : Option Octets) (choice : Choice) : Choice :=
  if redirect.isSome then { choice with selected := true } else choice

/-- The owner of an unselected SYN's socket; without one the SYN is held. -/
def decideSyn (sockets : Sockets) (bytes : Bytes) (fields : Ipv4Fields)
    (firstFragment direct remoteDns : Bool) (redirect : Option Octets)
    (choice : Choice) : Verdict :=
  if !choice.selected && !direct && !fields.isLookup && !sockets.isExit fields && !firstFragment &&
      isTcpSyn bytes then
    match sockets.tcpSocketProcess with
    | some owner =>
      conclude registry sockets fields firstFragment direct remoteDns redirect
        (ownedBy registry (.flow 6 fields.sourcePort (some fields.destinationPort)) owner)
    | none => .pending fields
  else conclude registry sockets fields firstFragment direct remoteDns redirect choice

/-- The decision from the choice that the rules made. -/
def classifyRest (sockets : Sockets) (bytes : Bytes) (fields : Ipv4Fields)
    (firstFragment direct remoteDns : Bool) (choice : Choice) : Verdict :=
  let redirect := redirectOf remoteDns fields
  decideSyn registry sockets bytes fields firstFragment direct remoteDns redirect
    (claimFake registry fields (claimRedirect redirect choice))

/-- The decision of `run_selected_capture` about one packet. -/
def classify (table : SelectorTable) (sockets : Sockets) (bytes : Bytes) :
    Verdict :=
  if isLaterFragment bytes then .followsFirst
  else
    let firstFragment := isFirstFragment bytes
    match ipv4Fields bytes with
    | none => .unreadable firstFragment
    | some fields =>
      -- Name resolution is never direct.
      let direct := !fields.isLookup && registry.isDirect fields.destination
      let (choice, uncertain) :=
        claimLookup registry sockets fields (fromTable table fields)
      let choice := claimDatagram registry sockets fields direct choice
      let question := lookupName bytes fields
      let ownLookup := isOwnLookup registry sockets fields question
      let ruleSelected := choice.selected
      if fields.isLookup && sockets.remoteEnabled && sockets.ownAppsOnly && uncertain &&
          !ownLookup && !ruleSelected then
        .held firstFragment
      else
        let foreign := fields.isLookup && !ruleSelected && sockets.yieldForeign &&
          sockets.fromApplicationLater
        let remoteDns := fields.isLookup &&
          decide (dnsRoute sockets.remoteEnabled sockets.ownAppsOnly sockets.yieldForeignLater
            ruleSelected foreign ownLookup = .remote)
        let choice :=
          if fields.isLookup then
            { choice with
              selected := remoteDns
              node :=
                if remoteDns then
                  (question.bind registry.nodeForName).getD
                    (if ruleSelected then choice.node else 0)
                else choice.node }
          else choice
        classifyRest registry sockets bytes fields firstFragment direct remoteDns choice

/-! ## The second look -/

/-- What the thread of `run_pending_syns` meets when it takes a held SYN. -/
structure SecondLook where
  /-- The queue had room for the SYN. -/
  queued : Bool
  stop : Bool
  table : SelectorTable
  proxyOwns : UInt8 → Bool

/-- The decision of `run_pending_syns`. -/
def decidePending (look : SecondLook) (fields : Ipv4Fields) : Option Routed :=
  if look.stop then none
  else
    match look.table.lookup fields with
    | none => none
    | some found =>
      if isProxyUpstream look.proxyOwns found.node fields then none
      else some ⟨fields, found.processId, found.node, registry.killSwitch, none⟩

/-- What is handed to `route_selected_packet` for a captured packet, at once or after it was held.
-/
def handedOver (table : SelectorTable) (sockets : Sockets) (bytes : Bytes)
    (look : SecondLook) : Option Routed :=
  match classify registry table sockets bytes with
  | .routed call _ => some call
  | .pending fields => if look.queued then decidePending registry look fields else none
  | _ => none

end GamePath.Engine.SplitCapture
