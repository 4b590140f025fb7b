import GamePath.Lib.Slots
import GamePath.Engine.Tun2socks.Packet

/-!
# The TCP sockets of the forwarding stack

The stack answers the applications' connections with smoltcp. A socket is modelled as the stack sees
it: its state, its two endpoints and an in-order stream of bytes either way. What came from the
application is kept whole, the bytes the stack has taken apart from those still in the receive
buffer; so is what the stack handed over for the application.

Which socket a packet goes to is modelled: a SYN goes to the first socket, in the order of the
slots, that listens on its destination, and any other segment to the socket whose endpoints match.
What a connection makes of a segment or of the time is left open, within what TCP allows
(`Socket.Moves`).
-/

namespace GamePath.Engine.Tun2socks

open Lib
open Socks (SocketAddr)

def tcpReceiveBuffer : Nat := 128 * 1024

def tcpSendBuffer : Nat := 128 * 1024

/-- `tcp::State`. -/
inductive TcpState where
  | closed
  | listen
  | synSent
  | synReceived
  | established
  | finWait1
  | finWait2
  | closeWait
  | closing
  | lastAck
  | timeWait
  deriving DecidableEq

structure Socket where
  state : TcpState
  /-- The destination it listens on, its own end of a connection. -/
  endpoint : SocketAddr
  remote : Option SocketAddr
  /-- What the stack has taken of the application's bytes. -/
  taken : Bytes
  /-- The receive buffer. -/
  unread : Bytes
  /-- Every byte the stack handed over for the application. -/
  accepted : Bytes
  /-- How many of these are in the send buffer. -/
  queued : Nat
  /-- The application has ended its side. -/
  finReceived : Bool
  /-- The stack has closed its side with `close`. -/
  closeCalled : Bool

namespace Socket

variable (s : Socket)

def mayRecv : Bool :=
  match s.state with
  | .established | .finWait1 | .finWait2 => true
  | _ => !s.unread.isEmpty

def canRecv : Bool := s.mayRecv && !s.unread.isEmpty

def maySend : Bool :=
  match s.state with
  | .established | .closeWait => true
  | _ => false

def canSend : Bool := s.maySend && s.queued < tcpSendBuffer

/-- `recv_slice` into a buffer of a length. It is an error before the connection is open. -/
def recvSlice (length : Nat) : Option Bytes × Socket :=
  if s.mayRecv then
    (some (s.unread.take length),
      { s with taken := s.taken ++ s.unread.take length, unread := s.unread.drop length })
  else (none, s)

/-- `send_slice`: how many bytes were taken. It is an error when nothing may be sent. -/
def sendSlice (bytes : Bytes) : Option Nat × Socket :=
  if s.maySend then
    let count := min bytes.length (tcpSendBuffer - s.queued)
    (some count, { s with accepted := s.accepted ++ bytes.take count, queued := s.queued + count })
  else (none, s)

def close : Socket :=
  let state :=
    match s.state with
    | .listen | .synSent => .closed
    | .synReceived | .established => .finWait1
    | .closeWait => .lastAck
    | state => state
  { s with state, closeCalled := true }

def abort : Socket := { s with state := .closed }

/-- A new socket that listens on a destination, unless its port is zero. -/
def listenOn (endpoint : SocketAddr) : Option Socket :=
  if endpoint.port = 0 then none else some ⟨.listen, endpoint, none, [], [], [], 0, false, false⟩

/-- Whether there is a connection, open or half open. -/
def inUse : Bool := s.state != .closed && s.state != .listen

end Socket

/-! ## Segments -/

/-- What a whole packet is to smoltcp, with its two ends. -/
structure Segment where
  source : SocketAddr
  destination : SocketAddr
  syn : Bool
  ack : Bool
  rst : Bool
  fin : Bool
  deriving DecidableEq

/-- The segment a packet holds, unless it is a fragment or too short. -/
def segmentOf (packet : Bytes) : Option Segment :=
  match parseIpv4 packet with
  | none => none
  | some ip =>
    if ip.protocol ≠ protocolTcp ∨ ip.fragmented then none
    else
      (parseTcp ip.payload).map fun head =>
        { source := ⟨ip.source, head.sourcePort⟩
          destination := ⟨ip.destination, head.destinationPort⟩
          syn := head.syn
          ack := head.ack
          rst := head.rst
          fin := ((ip.payload[13]?).getD 0) &&& 0x01 != 0 }

/-- The packet of a segment without data, with these flags. -/
def bareSegment (source destination : SocketAddr) (flags : UInt8) : Bytes :=
  ipv4Packet source.ip destination.ip protocolTcp
    (beU16 source.port ++ beU16 destination.port ++ beU32 0 ++ beU32 0 ++ [0x50, flags, 0, 0, 0,
      0, 0, 0])

namespace Segment

variable (g : Segment)

/-- At most one of SYN, FIN and RST; smoltcp drops the others. -/
def wellFormed : Bool := !(g.syn && g.fin) && !(g.syn && g.rst) && !(g.fin && g.rst)

/-- A SYN that a listening socket takes. -/
def opens : Bool := g.syn && !g.ack

/-- The socket listens on the segment's destination. -/
def heardBy (s : Socket) : Bool := s.state == .listen && s.endpoint == g.destination

/-- The socket's two endpoints are the segment's. -/
def belongsTo (s : Socket) : Bool :=
  s.inUse && s.endpoint == g.destination && s.remote == some g.source

/-- A listening socket takes a SYN. -/
def takenBy (s : Socket) : Socket := { s with state := .synReceived, remote := some g.source }

end Segment

/-! ## What a connection may do -/

/-- What a socket may become by a segment of its connection or by the time: bytes are added to the
receive buffer until the application ends its side, and a reset closes the socket, or makes it
listen again where its connection was not open yet. -/
structure Socket.Moves (reset : Bool) (s s' : Socket) : Prop where
  endpoint : s'.endpoint = s.endpoint
  taken : s'.taken = s.taken
  accepted : s'.accepted = s.accepted
  closeCalled : s'.closeCalled = s.closeCalled
  unread : ∃ more, s'.unread = s.unread ++ more ∧ (s.finReceived = true → more = [])
  bounded : s.unread.length ≤ tcpReceiveBuffer → s'.unread.length ≤ tcpReceiveBuffer
  finReceived : s.finReceived = true → s'.finReceived = true
  remote : s'.inUse = true → s'.remote = s.remote
  listen : s'.state = .listen → s.state = .listen ∨ (reset = true ∧ s.state = .synReceived)
  synReceived : s'.state = .synReceived → s.state = .synReceived
  closed : s.state = .closed → s'.state = .closed

theorem Socket.Moves.refl (reset : Bool) (s : Socket) : s.Moves reset s where
  endpoint := rfl
  taken := rfl
  accepted := rfl
  closeCalled := rfl
  unread := ⟨[], (List.append_nil _).symm, fun _ => rfl⟩
  bounded h := h
  finReceived h := h
  remote _ := rfl
  listen h := .inl h
  synReceived h := h
  closed h := h

/-- What the connections make of the segments and of the time during one `poll`, and what smoltcp
puts together from fragments. -/
structure Reactions where
  /-- The socket after a segment of its connection, by the segment's place in the queue. -/
  segment : Nat → Socket → Segment → Socket
  segment_moves : ∀ n s g, Socket.Moves g.rst s (segment n s g)
  /-- The socket of a slot after its timers ran and its segments went out. -/
  egress : Nat → Socket → Socket
  egress_moves : ∀ i s, Socket.Moves false s (egress i s)
  /-- The whole packet that a fragment completes. -/
  reassembled : Nat → Bytes → Option Bytes

/-- Half open connections open, and nothing else happens on its own. -/
def Reactions.opening : Reactions where
  segment _ s _ := s
  segment_moves _ s g := Socket.Moves.refl g.rst s
  egress _ s := if s.state = .synReceived then { s with state := .established } else s
  egress_moves _ s := by
    split
    next hstate =>
      refine ⟨rfl, rfl, rfl, rfl, ⟨[], (List.append_nil _).symm, fun _ => rfl⟩, id, id,
        fun _ => rfl, ?_, ?_, ?_⟩
      · exact nofun
      · exact nofun
      · exact fun h => nomatch (hstate.symm.trans h)
    · exact Socket.Moves.refl false s
  reassembled _ _ := none

abbrev SocketSet := Slots Socket

namespace SocketSet

/-- A segment arrives. -/
def receive (r : Reactions) (n : Nat) (sockets : SocketSet) (g : Segment) : SocketSet :=
  if g.wellFormed then
    match if g.opens then sockets.first g.heardBy else none with
    | some i => sockets.modify i g.takenBy
    | none =>
      match sockets.first g.belongsTo with
      | some i => sockets.modify i fun s => r.segment n s g
      | none => sockets
  else sockets

/-- A packet of the device arrives; a fragment counts once it completes a packet. -/
def ingress (r : Reactions) (n : Nat) (sockets : SocketSet) (packet : Bytes) : SocketSet :=
  match segmentOf packet with
  | some g => sockets.receive r n g
  | none =>
    match (r.reassembled n packet).bind segmentOf with
    | some g => sockets.receive r n g
    | none => sockets

/-- The packets of the device, in order. -/
def ingressAll (r : Reactions) : Nat → SocketSet → List Bytes → SocketSet
  | _, sockets, [] => sockets
  | n, sockets, packet :: packets => ingressAll r (n + 1) (sockets.ingress r n packet) packets

def poll (r : Reactions) (sockets : SocketSet) (rx : List Bytes) : SocketSet :=
  (ingressAll r 0 sockets rx).mapSlots r.egress

end SocketSet

end GamePath.Engine.Tun2socks
