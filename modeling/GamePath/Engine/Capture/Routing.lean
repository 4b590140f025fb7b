import GamePath.Engine.CaptureClassifier
import GamePath.Engine.Capture.ReturnPaths

/-!
# Into the tunnel and back (`route_selected_packet` and `run_reply_injector`)

A selected packet gets the tunnel address of a node as its source, and one public resolver as its
destination when it is a redirected lookup. What it had before is kept under its return key, from
which the reply gets the addresses that the application expects. Checksums and the MSS option hold
no address and no port and are left as they are.

The driver and the tunnel may fail at each packet and at each piece of one; what they answer is an
input.
-/

namespace GamePath.Engine.SplitCapture

open Lib

def tunnelResolver : Octets := (8, 8, 8, 8)

variable (bytes : Bytes)

/-- `packet[i..i + 4].copy_from_slice(&octets)`. -/
def setOctets (i : Nat) (octets : Octets) : Bytes :=
  (((bytes.set i octets.1).set (i + 1) octets.2.1).set (i + 2) octets.2.2.1).set
    (i + 3) octets.2.2.2

/-! ## Nodes -/

/-- The tunnel addresses of `SessionNodes`, of which there is at least one. -/
structure SessionNodes where
  addresses : List Octets
  nonempty : addresses ≠ []

namespace SessionNodes

/-- `SessionNodes::address`. An index past the end is the default node's. -/
def address (nodes : SessionNodes) (node : UInt8) : Octets :=
  (nodes.addresses[node.toNat]?).getD (nodes.addresses.head nodes.nonempty)

def setAddress (nodes : SessionNodes) (node : Nat) (address : Octets) : SessionNodes :=
  ⟨nodes.addresses.set node address, by simpa using nodes.nonempty⟩

def owns (nodes : SessionNodes) (address : Octets) : Bool := nodes.addresses.contains address

end SessionNodes

/-! ## Towards the tunnel -/

/-- The interface a packet was captured on, as `Address` has it. -/
structure Interface where
  interfaceIndex : UInt32
  subinterfaceIndex : UInt32

/-- What the nodes of a session can carry. -/
structure Limits where
  /-- `registry.limits(node).tunnel_mtu`. -/
  tunnelMtu : UInt8 → Nat
  relayReassembles : Bool

/-- The fields of the packet that goes into the tunnel, its source apart. -/
def Routed.tunnelFields (call : Routed) : Ipv4Fields :=
  if call.redirect.isSome then { call.fields with destination := tunnelResolver } else call.fields

/-- The key under which the way back is kept. -/
def Routed.returnKey (call : Routed) : ReturnKey := ReturnKey.outbound call.tunnelFields

/-- The return paths. -/
abbrev ReturnPaths := KeyedMap ReturnKey ReturnPath

/-- Full of paths, the table gives up the oldest one that no process owns and nothing has used
lately. -/
def makeRoom (paths : ReturnPaths) (key : ReturnKey) (now pick : Nat) : ReturnPaths :=
  if (paths.get? key).isNone && decide (returnPathTarget ≤ paths.size) then
    let idle := paths.retain fun _ path =>
      path.processId.isNone && decide (activeConnectionWindow < now - path.lastSeen)
    match idle.minBy (fun path => path.lastSeen) pick with
    | some (oldest, _) => paths.erase oldest
    | none => paths
  else paths

/-- What `route_selected_packet` does with the return paths, and the node it takes: a flow stays on
the node it started on. -/
def recordPath (paths : ReturnPaths) (call : Routed) (address : Interface) (now pick : Nat) :
    ReturnPaths × UInt8 :=
  let key := call.returnKey
  let paths := makeRoom paths key now pick
  let carried := (paths.get? key).filter fun path => decide (path.processId = call.processId)
  let node := (carried.map ReturnPath.node).getD call.node
  (paths.insert key
    ⟨call.fields.source, address.interfaceIndex, address.subinterfaceIndex, call.processId, now,
      call.redirect, node⟩,
    node)

/-- The packet with its addresses in the tunnel. -/
def readdressed (nodes : SessionNodes) (node : UInt8) (redirect : Option Octets)
    (bytes : Bytes) : Bytes :=
  let bytes := setOctets bytes 12 (nodes.address node)
  if redirect.isSome then setOctets bytes 16 tunnelResolver else bytes

/-- The answer of `readdress_transport_checksum`: the packet holds its own checksum field. -/
def holdsChecksum : Bool :=
  let protocol := bytes.getD 9 0
  if protocol = 6 then decide (headerLength bytes + 16 + 2 ≤ bytes.length)
  else if protocol = 17 then decide (headerLength bytes + 6 + 2 ≤ bytes.length)
  else true

def fragment (mtu : Nat) : Option (List Bytes) :=
  if bytes.length < 20 ∨ Dns.u16At bytes 6 &&& Ipv4Fragments.dontFragment ≠ 0 then none
  else Ipv4Fragments.splitForTunnel bytes mtu

/-- What `send_within` hands over one after the other. -/
def tunnelPieces (limits : Limits) (node : UInt8) (bytes : Bytes) : List Bytes :=
  let split :=
    if limits.relayReassembles then Ipv4Fragments.splitForTunnel bytes (limits.tunnelMtu node)
    else fragment bytes (limits.tunnelMtu node)
  split.getD [bytes]

/-- The loop of `send_within`: the pieces that were handed over before one failed, and the result.
-/
def sendPieces : List Bytes → List (Option Bool) → List Bytes × Option Bool
  | [], _ => ([], some false)
  | piece :: pieces, answers =>
    match answers.headD none with
    | none => ([], none)
    | some sent =>
      let rest := sendPieces pieces answers.tail
      (piece :: rest.1, rest.2.map (sent || ·))

/-- `icmp::fragmentation_needed`: what a router would answer to a packet that must not be split. -/
def fragmentationNeeded (mtu : Nat) : Option Bytes :=
  let total := (Dns.u16At bytes 2).toNat
  let flags := Dns.u16At bytes 6
  if bytes.length < 8 ∨ bytes.getD 0 0 >>> 4 ≠ 4 ∨ headerLength bytes < 20 ∨ bytes.length < total ∨
    total ≤ mtu ∨
      flags &&& 0x4000 = 0 ∨ flags &&& 0x3fff ≠ 0 ∨
      -- An error is never answered with an error.
      (bytes.getD 9 0 = 1 ∧ bytes[headerLength bytes]? ≠ some 0 ∧
        bytes[headerLength bytes]? ≠ some 8) then none
  else
    let quoted := bytes.take (min (headerLength bytes + 8) total)
    let length := UInt16.ofNat (28 + quoted.length)
    let header : Bytes := [0x45, 0, hiByte length, loByte length, 0, 0, 0x40, 0, 64, 1, 0, 0] ++
      (bytes.drop 16).take 4 ++ (bytes.drop 12).take 4
    let body : Bytes := [3, 4, 0, 0, 0, 0, hiByte (UInt16.ofNat mtu), loByte (UInt16.ofNat mtu)] ++
      quoted
    some (setU16 header 10 (internetChecksum header) ++ setU16 body 2 (internetChecksum body))

/-- What the driver and the tunnel answer while one packet is sent. -/
structure Transmission where
  /-- The sender could be told the size. -/
  signalled : Bool
  /-- The driver updated the checksums. -/
  checksummed : Bool
  /-- For each piece: whether it was accepted, or nothing if the tunnel failed. -/
  answers : List (Option Bool)

/-- What became of a packet for the tunnel. -/
inductive Carriage where
  /-- Its sender was told the size instead. -/
  | answered (reply : Bytes)
  | tunnelled (bytes : Bytes) (pieces : List Bytes)
  /-- Some of its pieces may be in the tunnel. -/
  | failed (pieces : List Bytes)

/-- The node is known to carry the packet. -/
def Carriage.isCarried : Carriage → Bool
  | .failed _ => false
  | _ => true

/-- Hands a packet to the tunnel with the addresses it has there. -/
def handOver (nodes : SessionNodes) (limits : Limits) (node : UInt8) (redirect : Option Octets)
    (checksummed : Bool) (answers : List (Option Bool)) (bytes : Bytes) : Carriage :=
  let tunnelled := readdressed nodes node redirect bytes
  if checksummed then
    match sendPieces (tunnelPieces limits node tunnelled) answers with
    | (pieces, some _) => .tunnelled tunnelled pieces
    | (pieces, none) => .failed pieces
  else .failed []

/-- The rest of `route_selected_packet`, less what it does with a packet that was not carried. -/
def transmit (nodes : SessionNodes) (limits : Limits) (node : UInt8) (redirect : Option Octets)
    (transmission : Transmission) (bytes : Bytes) : Carriage :=
  let checksummed :=
    if isFirstFragment bytes then
      holdsChecksum bytes && transmission.checksummed else transmission.checksummed
  let carriage := handOver nodes limits node redirect checksummed transmission.answers bytes
  -- Without a relay, nothing rebuilds what was split, so the sender is told the size.
  if limits.relayReassembles then carriage
  else
    match fragmentationNeeded bytes (limits.tunnelMtu node) with
    | some reply => if transmission.signalled then .answered reply else carriage
    | none => carriage

/-! ## Back to the host -/

/-- `icmp_error_quote`: the flow of the packet that an ICMP error is about, if it can be read. -/
def icmpErrorQuote : Option (Option Ipv4Fields) :=
  let header := headerLength bytes
  if bytes.getD 9 0 ≠ 1 ∨
      (bytes[header]? ≠ some 3 ∧ bytes[header]? ≠ some 11 ∧ bytes[header]? ≠ some 12) then none
  else some (if header + 8 ≤ bytes.length then ipv4Fields (bytes.drop (header + 8)) else none)

def readdressIcmpError (localIp : Octets) (resolver : Option Octets) : Bytes :=
  let quote := headerLength bytes + 8
  let bytes := setOctets (setOctets bytes 16 localIp) (quote + 12) localIp
  match resolver with
  | some resolver => setOctets bytes (quote + 16) resolver
  | none => bytes

/-- The reply with the addresses the application expects. -/
def returned (path : ReturnPath) (bytes : Bytes) : Bytes :=
  let bytes := setOctets bytes 16 path.localIp
  match path.resolver with
  | some resolver => setOctets bytes 12 resolver
  | none => bytes

/-- What becomes of a packet that came back through the tunnel. -/
inductive Reply where
  | unmatched
  /-- An ICMP error, with the packet that is injected if its flow is known. -/
  | icmpError (bytes : Option Bytes)
  | injected (bytes : Bytes)
  deriving DecidableEq

/-- `run_reply_injector` for one whole packet, and the return paths afterwards. -/
def injectReply (nodes : SessionNodes) (paths : ReturnPaths) (bytes : Bytes) (now : Nat) :
    ReturnPaths × Reply :=
  match ipv4Fields bytes with
  | none => (paths, .unmatched)
  | some fields =>
    if !nodes.owns fields.destination then (paths, .unmatched)
    else
      match icmpErrorQuote bytes with
      | some quoted =>
        let path := (quoted.filter fun flow => nodes.owns flow.source).bind fun flow =>
          paths.get? (ReturnKey.outbound flow)
        (paths, .icmpError (path.map fun path =>
          readdressIcmpError bytes path.localIp path.resolver))
      | none =>
        match paths.get? (ReturnKey.inbound fields) with
        | none => (paths, .unmatched)
        | some path =>
          (paths.insert (ReturnKey.inbound fields) { path with lastSeen := now },
            .injected (returned path bytes))

end GamePath.Engine.SplitCapture
