import GamePath.Lib.UntilIdle
import GamePath.Engine.Socks.Connection
import GamePath.Engine.Socks.Resolver

/-!
# The LAN proxy's event loop (`server.rs`)

Every turn of the loop reads what clients sent (`advance`), takes their datagrams, lets the egress
move packets, finishes lookups, writes back what arrived (`deliver`), expires handshakes and reaps
what is finished. The pieces are functions on the server, whose state includes what is outside it;
`turn` is one after the other. Counters that only the status report reads are left out.

`advance` repeats `step` until it makes no progress. The repetition is given a number of turns, and
`none` says that they were not enough.
-/

namespace GamePath.Engine.Socks

open Lib
open Direct (Text)

def firstConnection : Nat := 16

def maxConnections : Nat := 1024

def maxConnectionsPerClient : Nat := 512

def maxAssociationsPerClient : Nat := 32

def pendingDatagramsPerAssociation : Nat := 64

structure Association where
  control : Token
  clientIp : Octets
  clientPort : Option UInt16
  flow : FlowId
  pendingLookups : Nat

inductive Waiter where
  | connect (token : Token)
  | datagram (association : Nat) (port : UInt16) (payload : Bytes)

/-- `Server`, with the world it runs in and, of `ClientBook`, the connections that are relayed. -/
structure Server (ω : Type) where
  world : ω
  udpReadable : Bool
  port : UInt16
  resolver : Resolver Waiter
  connections : KeyedMap Token Connection
  associations : KeyedMap Nat Association
  nextToken : Nat
  nextAssociation : Nat
  activeTcp : KeyedMap Octets Nat
  credentials : Option (Text × Text)

def clientAllowed (address : Octets) : Bool :=
  Direct.isPrivate address || address.1 == 127 || (address.1 == 169 && address.2.1 == 254) ||
    (address.1 == 100 && 64 ≤ address.2.1 && address.2.1 < 128)

namespace Server

variable {ω : Type}

/-- `Server::new`, for the resolvers of the egress. -/
def new (world : ω) (port : UInt16) (resolvers : List Octets) (credentials : Option (Text × Text)) :
    Server ω where
  world := world
  udpReadable := false
  port := port
  resolver := Resolver.new resolvers
  connections := KeyedMap.empty
  associations := KeyedMap.empty
  nextToken := firstConnection
  nextAssociation := 0
  activeTcp := KeyedMap.empty
  credentials := credentials

/-- Stores a connection. -/
def put (s : Server ω) (token : Token) (c : Connection) : Server ω :=
  { s with connections := s.connections.insert token c }

/-- How many connections of a client are relayed. -/
def active (s : Server ω) (client : Octets) : Nat := (s.activeTcp.get? client).getD 0

variable (W : World ω)

/-- `connection.fail` for a connection of the server. -/
def failConnection (s : Server ω) (token : Token) (c : Connection) (code : Reply) :
    Server ω :=
  let (c, w) := c.fail W code s.world
  { s with world := w }.put token c

/-! ## Accepting -/

/-- One turn of the loop of `accept`, for a client that connected from an address. `registered` is
whether its stream could be registered. -/
def accept (s : Server ω) (client localAddress : SocketAddr) (registered : Bool) :
    Server ω :=
  if !clientAllowed client.ip || s.connections.size ≥ maxConnections ||
      s.active client.ip ≥ maxConnectionsPerClient then s
  else
    let token := s.nextToken
    let s := { s with nextToken := s.nextToken + 1 }
    if registered then
      let (now, w) := W.now s.world
      { s with world := w }.put token
        { client := client
          localAddress := localAddress
          phase := .sniff
          protocol := .socks
          input := []
          output := []
          readable := true
          writable := true
          clientDone := false
          upstreamShut := false
          clientShut := false
          deadline := some (now + handshakeTimeout)
          counted := false
          finished := false }
    else s

/-- Readiness of a connection's stream. -/
def ready (s : Server ω) (token : Token) (readable writable : Bool) : Server ω :=
  match s.connections.get? token with
  | none => s
  | some c =>
    s.put token { c with readable := c.readable || readable, writable := c.writable || writable }

/-! ## Connecting -/

/-- `Server::open`. -/
def openFlow (s : Server ω) (token : Token) (address : SocketAddr) (kind : ReplyKind) :
    Server ω :=
  match s.connections.get? token with
  | none => s
  | some c =>
    if !destinationAllowed address.ip then s.failConnection W token c .notAllowed
    else
      match W.tcpConnect s.world address with
      | (.ok flow, w) =>
        let (now, w) := W.now w
        { s with world := w }.put token
          { c with phase := .connecting flow kind, deadline := some (now + connectTimeout) }
      | (.error _, w) => { s with world := w }.failConnection W token c .generalFailure

def beginConnect (s : Server ω) (token : Token) (target : Target) (kind : ReplyKind) :
    Server ω :=
  match s.connections.get? token with
  | none => s
  | some c =>
    match target with
    | .ipv6 => s.failConnection W token c .addressTypeNotSupported
    | .ip address => s.openFlow W token address kind
    | .domain name port =>
      match s.resolver.lookup W s.world name (.connect token) with
      | (.ready ip, resolver, w) =>
        { s with resolver := resolver, world := w }.openFlow W token ⟨ip, port⟩ kind
      | (.pending, resolver, w) =>
        let (now, w) := W.now w
        { s with resolver := resolver, world := w }.put token
          { c with phase := .resolving port kind, deadline := some (now + connectTimeout) }
      | (.failed _, resolver, w) =>
        { s with resolver := resolver, world := w }.failConnection W token c .hostUnreachable

def associate (s : Server ω) (token : Token) (target : Target) : Server ω :=
  match s.connections.get? token with
  | none => s
  | some c =>
    let opened := (s.associations.entries.filter fun e => e.2.clientIp = c.client.ip).length
    if opened ≥ maxAssociationsPerClient then s.failConnection W token c .generalFailure
    else
      match W.udpOpen s.world with
      | (.error _, w) => { s with world := w }.failConnection W token c .generalFailure
      | (.ok flow, w) =>
        let clientPort :=
          match target with
          | .ip address => if address.port ≠ 0 then some address.port else none
          | _ => none
        let id := s.nextAssociation + 1
        let c := c.send (reply .succeeded ⟨c.localAddress.ip, s.port⟩)
        { s with
          world := w
          nextAssociation := id
          associations := s.associations.insert id ⟨token, c.client.ip, clientPort, flow, 0⟩ }.put
          token { c with phase := .udpControl id, deadline := none }

/-! ## Advancing -/

def step (s : Server ω) (token : Token) : Bool × Server ω :=
  match s.connections.get? token with
  | none => (false, s)
  | some c =>
    let stepped := c.step W s.credentials token s.world
    let s := { s with world := stepped.world }.put token stepped.connection
    (stepped.progressed,
      match stepped.next with
      | some (.connect target kind) => s.beginConnect W token target kind
      | some (.associate target) => s.associate W token target
      | none => s)

/-- The loop of `advance`, with a number of turns. -/
def stepUntilIdle (token : Token) (fuel : Nat) (s : Server ω) : Option (Server ω) :=
  untilIdle (fun s => s.step W token) fuel s

/-- The read at the start of `advance`, and whether the loop follows. -/
def readAhead (s : Server ω) (token : Token) : Bool × Server ω :=
  match s.connections.get? token with
  | none => (false, s)
  | some c =>
    let limit :=
      match c.phase with
      | .relaying _ => readChunk
      | _ => 64 * 1024
    -- A connection waiting on the tunnel keeps what it has; reading on would buffer without bound.
    let paused :=
      match c.phase with
      | .resolving _ _ => true
      | .connecting _ _ => true
      | .relaying _ => !c.input.isEmpty
      | _ => false
    if paused then (true, s)
    else
      match c.readClient W token limit s.world with
      | (true, c, w) => (true, { s with world := w }.put token c)
      | (false, c, w) => (false, { s with world := w }.put token { c with finished := true })

def advance (fuel : Nat) (s : Server ω) (token : Token) : Option (Server ω) :=
  match s.readAhead W token with
  | (false, s) => some s
  | (true, s) => stepUntilIdle W token fuel s

/-! ## Datagrams -/

def sendDatagram (s : Server ω) (flow : FlowId) (target : SocketAddr) (payload : Bytes) :
    Server ω :=
  if !destinationAllowed target.ip then s
  else { s with world := (W.udpSend s.world flow target payload).2 }

/-- One lookup that finished. -/
def finishLookup (s : Server ω) (finished : Waiter × Except Text Octets) : Server ω :=
  match finished.1 with
  | .connect token =>
    match s.connections.get? token with
    | none => s
    | some c =>
      match c.phase with
      | .resolving port kind =>
        let c := { c with phase := .closing }
        match finished.2 with
        | .ok ip => (s.put token c).openFlow W token ⟨ip, port⟩ kind
        | .error _ => s.failConnection W token c .hostUnreachable
      | _ => s
  | .datagram association port payload =>
    match s.associations.get? association with
    | none => s
    | some entry =>
      let s := { s with
        associations := s.associations.insert association
          { entry with pendingLookups := entry.pendingLookups - 1 } }
      match finished.2 with
      | .ok ip => s.sendDatagram W entry.flow ⟨ip, port⟩ payload
      | .error _ => s

def finishLookups (s : Server ω) : Server ω :=
  let (finished, resolver, w) := s.resolver.poll W s.world
  finished.foldl (finishLookup W) { s with resolver := resolver, world := w }

/-- `Server::association_for`. Which of several associations with the same port is met first is
`order`. -/
def associationFor (s : Server ω) (order : Nat) (source : SocketAddr) :
    Option (Nat × Association × Server ω) :=
  let exact := s.associations.findMap
    (fun id a =>
      if a.clientIp = source.ip ∧ a.clientPort = some source.port then some (id, a) else none) order
  match exact with
  | some (id, a) => some (id, a, s)
  | none =>
    let unbound := s.associations.entries.filter fun e =>
      e.2.clientIp = source.ip ∧ e.2.clientPort = none
    match unbound.argmin Prod.fst with
    | none => none
    | some (id, a) =>
      let a := { a with clientPort := some source.port }
      some (id, a, { s with associations := s.associations.insert id a })

/-- One turn of the loop of `receive_client_datagrams`. -/
def receiveDatagram (s : Server ω) (datagram : Datagram) : Server ω :=
  let (order, w) := W.hashOrder s.world
  match { s with world := w }.associationFor order datagram.1 with
  | none => { s with world := w }
  | some (id, association, s) =>
    match parseUdpDatagram datagram.2 with
    | none => s
    | some (.ipv6, _) => s
    | some (.ip target, payload) => s.sendDatagram W association.flow target payload
    | some (.domain name port, payload) =>
      if association.pendingLookups ≥ pendingDatagramsPerAssociation then s
      else
        match s.resolver.lookup W s.world name (.datagram id port payload) with
        | (.ready ip, resolver, w) =>
          { s with resolver := resolver, world := w }.sendDatagram W association.flow ⟨ip, port⟩
            payload
        | (.pending, resolver, w) =>
          { s with
            resolver := resolver
            world := w
            associations := s.associations.insert id
              { association with pendingLookups := association.pendingLookups + 1 } }
        | (.failed _, resolver, w) => { s with resolver := resolver, world := w }

def receiveClientDatagrams (s : Server ω) : Server ω :=
  if s.udpReadable then
    let (datagrams, w) := W.recvFrom s.world
    datagrams.foldl (receiveDatagram W) { s with world := w, udpReadable := false }
  else s

/-! ## Delivering -/

/-- The loop of `deliver` that reads the flow. A read that gives bytes takes from what the backlog
may hold. -/
def recvFlow (W : World ω) (flow : FlowId) : Nat → Connection → ω → Connection × ω
  | 0, c, w => (c, w)
  | fuel + 1, c, w =>
    if c.backlog < clientBacklog then
      match W.tcpRecv w flow readChunk with
      | ([], w) => (c, w)
      | (bytes, w) => recvFlow W flow fuel (c.send bytes) w
    else (c, w)

/-- `deliver` for a connection that is relayed. -/
def deliverRelayed (s : Server ω) (token : Token) (flow : FlowId) (c : Connection) :
    Server ω :=
  let (c, w) := recvFlow W flow (clientBacklog - c.backlog) c s.world
  match c.writeClient W token w with
  | (false, c, w) => { s with world := w }.put token { c with finished := true }
  | (true, c, w) =>
    let (state, w) := W.tcpState w flow
    let remoteDone := state = .remoteClosed ∨ state = .closed ∨ state = .refused
    let (c, w) :=
      if remoteDone ∧ c.backlog = 0 ∧ c.clientShut = false then
        ({ c with clientShut := true }, W.shutdownWrite w token)
      else (c, w)
    let (upstreamIdle, w) := W.tcpSendIdle w flow
    let bothDone := c.clientShut &&
      ((c.clientDone && upstreamIdle) || decide (state = .closed ∨ state = .refused))
    { s with world := w }.put token { c with finished := c.finished || bothDone }

/-- `deliver` for a connection that is neither connecting nor relayed. -/
def deliverReply (s : Server ω) (token : Token) (c : Connection) : Server ω :=
  match c.writeClient W token s.world with
  | (false, c, w) => { s with world := w }.put token { c with finished := true }
  | (true, c, w) =>
    let finished := c.finished || (decide (c.phase = .closing) && c.backlog == 0)
    { s with world := w }.put token { c with finished := finished }

/-- The connection of a flow that opened. -/
def established (c : Connection) (flow : FlowId) (kind : ReplyKind) : Connection :=
  let c :=
    match kind with
    | .socks => c.send (reply .succeeded unspecified)
    | .httpTunnel => c.send httpEstablished
    | .httpForward head => { c with input := head ++ c.input }
  { c with phase := .relaying flow, deadline := none, counted := true }

/-- `deliver` for a connection whose flow is open by now. -/
def deliverOpened (s : Server ω) (token : Token) : Server ω :=
  match s.connections.get? token with
  | none => s
  | some c =>
    match c.phase with
    | .relaying flow => s.deliverRelayed W token flow c
    | _ => s.deliverReply W token c

def deliver (s : Server ω) (token : Token) : Server ω :=
  match s.connections.get? token with
  | none => s
  | some c =>
    match c.phase with
    | .connecting flow kind =>
      let (state, w) := W.tcpState s.world flow
      let s := { s with world := w }
      match state with
      | .connecting => s
      | .opened | .remoteClosed =>
        let s := { s with activeTcp := s.activeTcp.insert c.client.ip (s.active c.client.ip + 1) }
        -- Anything the client sent ahead of the reply goes now.
        ((s.put token (established c flow kind)).step W token).2.deliverOpened W token
      | .refused =>
        { s with world := W.tcpRelease s.world flow }.failConnection W token c .connectionRefused
      | .closed =>
        { s with world := W.tcpRelease s.world flow }.failConnection W token c .generalFailure
    | .relaying flow => s.deliverRelayed W token flow c
    | _ => s.deliverReply W token c

/-- The datagrams that arrived for one association. -/
def deliverAssociation (s : Server ω) (association : Association) : Server ω :=
  let (datagrams, w) := W.udpRecv s.world association.flow
  match association.clientPort with
  | none => { s with world := w }
  | some port =>
    { s with
      world := datagrams.foldl
        (fun w datagram =>
          (W.sendTo w ⟨association.clientIp, port⟩ (udpDatagram datagram.1 datagram.2)).2) w }

def deliverDatagrams (s : Server ω) : Server ω :=
  s.associations.entries.foldl (fun s e => s.deliverAssociation W e.2) s

/-! ## The end of connections -/

/-- `expire` for one connection whose deadline has passed. -/
def expireConnection (s : Server ω) (token : Token) (c : Connection) : Server ω :=
  match c.phase with
  | .connecting flow _ =>
    { s with world := W.tcpRelease s.world flow }.failConnection W token c .ttlExpired
  | .resolving _ _ => s.failConnection W token c .hostUnreachable
  | _ => s.put token { c with phase := .closing, finished := true }

def expire (s : Server ω) : Server ω :=
  let (now, w) := W.now s.world
  s.connections.entries.foldl
    (fun s e => if e.2.deadline.any fun deadline => decide (deadline ≤ now) then
      s.expireConnection W e.1 e.2 else s)
    { s with world := w }

/-- The connection is gone, and what it held is given back. -/
def reapConnection (s : Server ω) (token : Token) (c : Connection) : Server ω :=
  let s := { s with connections := s.connections.erase token }
  let s :=
    match c.phase with
    | .connecting flow _ => { s with world := W.tcpRelease s.world flow }
    | .relaying flow => { s with world := W.tcpRelease s.world flow }
    | .udpControl id =>
      match s.associations.get? id with
      | none => s
      | some entry =>
        { s with
          associations := s.associations.erase id
          world := W.udpRelease s.world entry.flow }
    | _ => s
  if c.counted then
    { s with activeTcp := s.activeTcp.insert c.client.ip (s.active c.client.ip - 1) }
  else s

/-- An association whose control connection is gone. -/
def reapAssociation (s : Server ω) (id : Nat) (a : Association) : Server ω :=
  { s with associations := s.associations.erase id, world := W.udpRelease s.world a.flow }

def reap (s : Server ω) : Server ω :=
  let finished := s.connections.entries.filter fun e => e.2.finished
  let s := finished.foldl (fun s e => s.reapConnection W e.1 e.2) s
  let orphaned := s.associations.entries.filter fun e => (s.connections.get? e.2.control).isNone
  orphaned.foldl (fun s e => s.reapAssociation W e.1 e.2) s

def shutdown (s : Server ω) : Server ω :=
  let s := { s with connections := s.connections.mapValues fun _ c => { c with finished := true } }
  let s := s.reap W
  let (resolver, w) := s.resolver.release W s.world
  { s with resolver := resolver, world := W.drive w }

/-- The first half of `turn`: what the clients sent. -/
def advanceAll (W : World ω) (fuel : Nat) : List Token → Server ω → Option (Server ω)
  | [], s => some s
  | token :: tokens, s => (s.advance W fuel token).bind (advanceAll W fuel tokens)

/-- `Server::turn`, for the order in which the hash map gives its tokens. -/
def turn (fuel : Nat) (tokens : List Token) (s : Server ω) : Option (Server ω) :=
  (advanceAll W fuel tokens s).map fun s =>
    let s := s.receiveClientDatagrams W
    let s := { s with world := W.drive s.world }
    let s := s.finishLookups W
    let s := tokens.foldl (fun s token => s.deliver W token) s
    let s := s.deliverDatagrams W
    let s := { s with world := W.drive s.world }
    let s := s.expire W
    s.reap W

end Server

end GamePath.Engine.Socks
