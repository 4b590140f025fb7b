import GamePath.Lib.Run
import GamePath.Engine.Tun2socks.Smoltcp
import GamePath.Engine.Tun2socks.Upstream

/-!
# The TCP flows of the forwarding stack (`tun2socks/stack.rs`)

A connection is only answered once the exit has opened its far end: the held SYN is fed to smoltcp
then, or refused with a reset. From then on every turn carries bytes both ways, and the ends of the
two sides once everything before them was delivered.

`step` runs one event of the stack's loop on its TCP side: a packet of an application, the readiness
of a stream, a turn, the shutdown. What the outside does during it is part of the event. The answer
lists the flows that `remove_tcp` removed, each as it was then, with its socket.
-/

namespace GamePath.Engine.Tun2socks

open Lib
open Socks (SocketAddr Token)

def pendingLimit : Nat := 256 * 1024

def dialTimeout : Nat := secs 10

def maxTcpFlows : Nat := 2048

structure FlowKey where
  localPort : UInt16
  remote : SocketAddr
  deriving DecidableEq

structure TcpFlow where
  upstream : Upstream
  heldSyn : Option (Bytes × UInt32)
  socket : Option Nat
  toApp : Bytes
  proxyFinished : Bool
  appFinished : Bool
  started : Instant

/-! ## One flow in a turn -/

/-- What a turn finds out about a flow. -/
inductive Outcome where
  | goesOn
  | accepted (leftover : Bytes)
  | refused (reason : String)
  | finished

namespace TcpFlow

/-- The flow of a connection that was just dialled. -/
def opened (upstream : Upstream) (syn : Bytes) (sequence : UInt32) (now : Instant) : TcpFlow :=
  ⟨upstream, some (syn, sequence), none, [], false, false, now⟩

variable (flow : TcpFlow)

/-- Waits for an adapter connection. -/
def pumpConnecting (o : Outside) : Outcome × TcpFlow :=
  match flow.upstream.pollConnect o with
  | (some (.ok ()), upstream, _) => (.accepted [], { flow with upstream })
  | (some (.error reason), upstream, _) => (.refused reason, { flow with upstream })
  | (none, upstream, o) =>
    if dialTimeout < o.now.1 - flow.started then (.refused "the far end did not answer in time",
      { flow with upstream })
    else (.goesOn, { flow with upstream })

/-- Goes on with the handshake. -/
def pumpHandshake (o : Outside) : Outcome × TcpFlow :=
  let (data, closed, upstream, o) := flow.upstream.read 4096 o
  if data.isEmpty && !closed && !upstream.closed then
    if dialTimeout < o.now.1 - flow.started then (.refused "the proxy did not answer in time",
      { flow with upstream })
    else (.goesOn, { flow with upstream })
  else
    match upstream.advance data o with
    | (.ok (some (_, leftover)), upstream, _) => (.accepted leftover, { flow with upstream })
    | (.ok none, upstream, _) =>
      if closed || upstream.closed then (.refused "the proxy closed the connection",
        { flow with upstream })
      else (.goesOn, { flow with upstream })
    | (.error reason, upstream, _) => (.refused reason, { flow with upstream })

/-- Takes what the application sent, as long as not too much waits for the proxy. Every turn takes a
byte, so that the length of the receive buffer is turns enough. -/
def takeFromApp : Nat → Bytes → Socket → Bytes × Socket
  | 0, outgoing, s => (outgoing, s)
  | turns + 1, outgoing, s =>
    if s.canRecv && outgoing.length < pendingLimit then
      match s.recvSlice bufferLength with
      | (none, s) => (outgoing, s)
      | (some bytes, s) => if bytes.isEmpty then (outgoing, s) else takeFromApp turns
        (outgoing ++ bytes) s
    else (outgoing, s)

/-- Application to proxy. -/
def pumpOut (s : Socket) (o : Outside) : TcpFlow × Socket × Outside :=
  let (outgoing, s) := takeFromApp s.unread.length flow.upstream.outgoing s
  let (upstream, o) := { flow.upstream with outgoing }.flush o
  ({ flow with upstream }, s, o)

/-- Proxy to the bytes that wait for the application. -/
def readProxy (o : Outside) : TcpFlow × Outside :=
  if flow.upstream.readPending && flow.toApp.length < pendingLimit && !flow.proxyFinished then
    let (data, done, upstream, o) := flow.upstream.read (pendingLimit - flow.toApp.length) o
    ({ flow with
      upstream, toApp := flow.toApp ++ data, proxyFinished := flow.proxyFinished || done }, o)
  else (flow, o)

/-- Hands what waits to the application's socket. -/
def sendApp (s : Socket) : TcpFlow × Socket :=
  if !flow.toApp.isEmpty && s.canSend then
    match s.sendSlice flow.toApp with
    | (some sent, s) => ({ flow with toApp := flow.toApp.drop sent }, s)
    | (none, s) => (flow, s)
  else (flow, s)

/-- The proxy's end, once everything before it is delivered. -/
def closeApp (s : Socket) : Socket :=
  if flow.proxyFinished && flow.toApp.isEmpty && s.maySend then s.close else s

/-- The application's end, once everything before it is delivered. -/
def endUpstream (s : Socket) : TcpFlow :=
  if !flow.appFinished && !s.mayRecv && flow.upstream.outgoing.isEmpty &&
      (s.state == .closeWait || s.state == .lastAck || s.state == .closed) then
    let stream := { flow.upstream.stream with shutWrite := true }
    { flow with appFinished := true, upstream := { flow.upstream with stream } }
  else flow

/-- The connection is cut when its stream broke. -/
def abortApp (s : Socket) : Socket :=
  if flow.upstream.closed && !flow.proxyFinished then s.abort else s

/-- Whether the flow is over. Still listening long after the SYN was handed over means that smoltcp
never took it. -/
def isOver (s : Socket) (o : Outside) : Bool :=
  (s.state == .listen && decide (2 * dialTimeout < o.now.1 - flow.started)) || s.state == .closed ||
    s.state == .timeWait

/-- The two directions of an open connection. -/
def relay (s : Socket) (o : Outside) : Outcome × TcpFlow × Socket :=
  let (flow, s, o) := flow.pumpOut s o
  let (flow, o) := flow.readProxy o
  let (flow, s) := flow.sendApp s
  let s := flow.closeApp s
  let flow := flow.endUpstream s
  let s := flow.abortApp s
  (if flow.isOver s o then .finished else .goesOn, flow, s)

/-- The flow after what waits for the proxy was written. -/
def afterFlush (o : Outside) : TcpFlow := { flow with upstream := (flow.upstream.flush o).1 }

/-- The body of the loop of `pump_tcp`, with the flow's socket. -/
def pump (socket : Option Socket) (o : Outside) : Outcome × TcpFlow × Option Socket :=
  if flow.upstream.connecting then ((flow.pumpConnecting o).1, (flow.pumpConnecting o).2, socket)
  else
    let after := flow.afterFlush o
    let o := (flow.upstream.flush o).2
    if after.upstream.handshake.isSome then
      ((after.pumpHandshake o).1, (after.pumpHandshake o).2, socket)
    else
      match socket with
      | none => (.goesOn, after, none)
      | some s => ((after.relay s o).1, (after.relay s o).2.1, some (after.relay s o).2.2)

end TcpFlow

/-! ## The flows -/

/-- The TCP side of `Stack`. -/
structure Forwarding where
  /-- `config.client`. -/
  client : Octets
  /-- `config.exit`. -/
  exit : Exit
  /-- `device.rx`. -/
  rx : List Bytes
  sockets : SocketSet
  tcp : KeyedMap FlowKey TcpFlow
  /-- The resets emitted so far. -/
  emitted : List Bytes

/-- A flow that was removed, as it was, with its socket. -/
structure Removed where
  key : FlowKey
  flow : TcpFlow
  socket : Option Socket

namespace Forwarding

/-- A stack without flows. -/
def new (client : Octets) (exit : Exit) : Forwarding :=
  ⟨client, exit, [], Slots.empty, KeyedMap.empty, []⟩

variable (s : Forwarding)

/-- The socket of a flow. -/
def socketOf (flow : TcpFlow) : Option Socket := flow.socket.bind s.sockets.get?

/-- Puts the socket of a flow back. -/
def putSocket (sockets : SocketSet) (flow : TcpFlow) (socket : Option Socket) : SocketSet :=
  match flow.socket with
  | none => sockets
  | some handle => sockets.modify handle fun old => socket.getD old

/-- Removes the socket of a flow. -/
def dropSocket (sockets : SocketSet) (flow : TcpFlow) : SocketSet :=
  match flow.socket with
  | none => sockets
  | some handle => sockets.remove handle

/-- Answers a segment of a flow with a reset. -/
def reset (key : FlowKey) (sequence : UInt32) : Forwarding :=
  { s with emitted := s.emitted ++ [buildTcpReset key.remote ⟨s.client, key.localPort⟩
    (sequence + 1)] }

def removeTcp (key : FlowKey) : Forwarding × List Removed :=
  match s.tcp.get? key with
  | none => (s, [])
  | some flow =>
    ({ s with tcp := s.tcp.erase key, sockets := dropSocket s.sockets flow },
      [⟨key, flow, s.socketOf flow⟩])

/-- Removes flows, one after the other. -/
def removeAll (s : Forwarding) : List FlowKey → Forwarding × List Removed
  | [] => (s, [])
  | key :: keys =>
    let (s, removed) := s.removeTcp key
    let (s, more) := removeAll s keys
    (s, removed ++ more)

/-- `open_tcp`, with whether the dial succeeded. -/
def openTcp (key : FlowKey) (syn : Bytes) (sequence : UInt32) (token : Token) (dialled : Bool)
    (now : Instant) : Forwarding :=
  if maxTcpFlows ≤ s.tcp.size then s.reset key sequence
  else if dialled then
    let upstream := Upstream.dial token s.exit .connect key.remote
    { s with tcp := s.tcp.insert key (.opened upstream syn sequence now) }
  else s.reset key sequence

/-- `on_app_packet`, for the packets of TCP. -/
def onAppPacket (packet : Bytes) (token : Token) (dialled : Bool) (now : Instant) :
    Forwarding × List Removed :=
  match parseIpv4 packet with
  | none => (s, [])
  | some ip =>
    if ip.protocol ≠ protocolTcp then (s, [])
    else
      match if ip.fragmented then none else parseTcp ip.payload with
      -- A fragment is reassembled by smoltcp itself.
      | none => ({ s with rx := s.rx ++ [packet] }, [])
      | some head =>
        let key : FlowKey := ⟨head.sourcePort, ⟨ip.destination, head.destinationPort⟩⟩
        match s.tcp.get? key with
        | some flow =>
          if flow.socket.isNone && head.rst then s.removeTcp key
          else if flow.socket.isSome then ({ s with rx := s.rx ++ [packet] }, [])
          -- A retransmitted SYN while the proxy is still dialling.
          else if head.syn then
            ({ s with tcp := s.tcp.insert key { flow with heldSyn := some (packet,
                head.sequence) } }, [])
          else (s, [])
        | none =>
          if head.syn && !head.ack then (s.openTcp key packet head.sequence token dialled now, [])
          -- Part of a connection this stack does not know, which can only be one it already ended.
          else if !head.rst then (s.reset key head.sequence, [])
          else (s, [])

/-- `accept_tcp`: the proxy opened the far end, and the held SYN is handed to smoltcp, listening on
exactly that destination. -/
def acceptTcp (key : FlowKey) (leftover : Bytes) : Forwarding :=
  match s.tcp.get? key with
  | none => s
  | some flow =>
    match Socket.listenOn key.remote with
    | none =>
      { s with
        tcp := s.tcp.insert key { flow with upstream := { flow.upstream with closed := true } } }
    | some socket =>
      let flow' :=
        { flow with socket := some s.sockets.firstFree, toApp := leftover, heldSyn := none }
      { s with
        sockets := s.sockets.add socket
        tcp := s.tcp.insert key flow'
        rx := s.rx ++ (flow.heldSyn.map Prod.fst).toList }

/-- A refused flow answers the SYN it holds. -/
def refuseHeld (key : FlowKey) : Forwarding :=
  match (s.tcp.get? key).bind TcpFlow.heldSyn with
  | none => s
  | some (_, sequence) => s.reset key sequence

/-- The flows of a turn so far, with what it has found out about them. -/
structure Pumped where
  state : Forwarding
  accepted : List (FlowKey × Bytes)
  refused : List (FlowKey × String)
  finished : List FlowKey

/-- One round of the loop of `pump_tcp`. -/
def pumpOne (outside : FlowKey → Outside) (p : Pumped) (key : FlowKey) : Pumped :=
  match p.state.tcp.get? key with
  | none => p
  | some flow =>
    let (outcome, flow, socket) := flow.pump (p.state.socketOf flow) (outside key)
    let sockets := putSocket p.state.sockets flow socket
    let p := { p with state := { p.state with sockets, tcp := p.state.tcp.insert key flow } }
    match outcome with
    | .goesOn => p
    | .accepted leftover => { p with accepted := p.accepted ++ [(key, leftover)] }
    | .refused reason => { p with refused := p.refused ++ [(key, reason)] }
    | .finished => { p with finished := p.finished ++ [key] }

/-- The loop of `pump_tcp` over the flows. -/
def pumpFlows (order : List FlowKey) (outside : FlowKey → Outside) : Pumped :=
  (s.tcp.keysIn order).foldl (pumpOne outside) ⟨s, [], [], []⟩

def pumpTcp (order : List FlowKey) (outside : FlowKey → Outside) : Forwarding × List Removed :=
  let p := s.pumpFlows order outside
  let s := p.accepted.foldl (fun s entry => s.acceptTcp entry.1 entry.2) p.state
  let s := p.refused.foldl (fun s entry => s.refuseHeld entry.1) s
  s.removeAll (p.finished ++ p.refused.map Prod.fst)

/-- `Interface::poll` on the packets that wait. -/
def poll (r : Reactions) : Forwarding :=
  { s with sockets := SocketSet.poll r s.sockets s.rx, rx := [] }

/-- `turn`, on the TCP side. -/
def turn (s : Forwarding) (first : Reactions) (order : List FlowKey) (outside : FlowKey → Outside)
    (second : Reactions) : Forwarding × List Removed :=
  let (s, removed) := (s.poll first).pumpTcp order outside
  -- Data written into sockets above goes out in this same turn.
  (s.poll second, removed)

/-- The readiness of a flow's stream. -/
def ready (key : FlowKey) (readable : Bool) (o : Outside) : Forwarding :=
  match s.tcp.get? key with
  | none => s
  | some flow =>
    let upstream := { flow.upstream with readPending := flow.upstream.readPending || readable }
    { s with tcp := s.tcp.insert key { flow with upstream := (upstream.flush o).1 } }

/-- `shutdown`, on the TCP side. -/
def shutdown (order : List FlowKey) : Forwarding × List Removed := s.removeAll (s.tcp.keysIn order)

end Forwarding

/-- An event of the stack's loop, with what the outside does during it. `order` is the order in
which the hash map of flows is met. -/
inductive Event where
  | packet (bytes : Bytes) (token : Token) (dialled : Bool) (now : Instant)
  | ready (key : FlowKey) (readable : Bool) (outside : Outside)
  | turn (first : Reactions) (order : List FlowKey) (outside : FlowKey → Outside)
    (second : Reactions)
  | shutdown (order : List FlowKey)

/-- One event. -/
def Forwarding.step (s : Forwarding) : Event → Forwarding × List Removed
  | .packet bytes token dialled now => s.onAppPacket bytes token dialled now
  | .ready key readable outside => (s.ready key readable outside, [])
  | .turn first order outside second => s.turn first order outside second
  | .shutdown order => s.shutdown order

end GamePath.Engine.Tun2socks
