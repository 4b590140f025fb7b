import Mathlib.Logic.Relation
import GamePath.Lib.Tally
import GamePath.Engine.Socks.ServerProgress

/-!
# What the LAN proxy does to its books (`server.rs`, `resolver.rs`)

`recorded` keeps beside a world the ledger of the flows that were opened and released and of the
addresses that were dialled and sent to. `Move` lists everything the event loop does to what it
holds. Every function of the server is a sequence of moves, so what one move keeps, the loop keeps.
-/

namespace GamePath.Engine.Socks

open List Lib
open Direct (Text)

/-- What was asked of the egress. -/
structure Ledger where
  opened : List FlowId
  released : List FlowId
  dialled : List SocketAddr
  sent : List SocketAddr

namespace Ledger

/-- The answer to an open. -/
def opens (l : Ledger) : Except Text FlowId → Ledger
  | .ok flow => { l with opened := [flow] ++ l.opened }
  | .error _ => l

/-- The answer to a dial, and its destination. -/
def dials (l : Ledger) (address : SocketAddr) (answer : Except Text FlowId) : Ledger :=
  { l.opens answer with dialled := address :: l.dialled }

def releases (l : Ledger) (flows : List FlowId) :
    Ledger := { l with released := flows ++ l.released }

/-- The destination of a datagram. -/
def sends (l : Ledger) (address : SocketAddr) : Ledger := { l with sent := address :: l.sent }

end Ledger

variable {ω : Type}

/-- A call that the ledger does not record. -/
def unrecorded {α : Type} (call : ω → α × ω) (w : ω × Ledger) : α × ω × Ledger :=
  ((call w.1).1, (call w.1).2, w.2)

/-- The world, with the ledger of what is asked of its egress. -/
def recorded (W : World ω) : World (ω × Ledger) where
  tcpConnect w address :=
    let answer := W.tcpConnect w.1 address
    (answer.1, answer.2, w.2.dials address answer.1)
  tcpState w flow := unrecorded (W.tcpState · flow) w
  tcpSend w flow bytes := unrecorded (W.tcpSend · flow bytes) w
  tcpRecv w flow room := unrecorded (W.tcpRecv · flow room) w
  tcpSendIdle w flow := unrecorded (W.tcpSendIdle · flow) w
  tcpShutdown w flow := (W.tcpShutdown w.1 flow, w.2)
  tcpRelease w flow := (W.tcpRelease w.1 flow, w.2.releases [flow])
  udpOpen w :=
    let answer := W.udpOpen w.1
    (answer.1, answer.2, w.2.opens answer.1)
  udpSend w flow address payload :=
    let answer := W.udpSend w.1 flow address payload
    (answer.1, answer.2, w.2.sends address)
  udpRecv w flow := unrecorded (W.udpRecv · flow) w
  udpRelease w flow := (W.udpRelease w.1 flow, w.2.releases [flow])
  drive w := (W.drive w.1, w.2)
  now := unrecorded W.now
  random := unrecorded W.random
  hashOrder := unrecorded W.hashOrder
  read w token room := unrecorded (W.read · token room) w
  write w token bytes := unrecorded (W.write · token bytes) w
  shutdownWrite w token := (W.shutdownWrite w.1 token, w.2)
  recvFrom := unrecorded W.recvFrom
  sendTo w address payload := unrecorded (W.sendTo · address payload) w
  base64 := W.base64

/-! ## The moves -/

/-- What a connection holds of the server. -/
inductive Holding where
  | nothing
  | opening (flow : FlowId)
  | relaying (flow : FlowId)
  | association (id : Nat)

/-- The flows the connection itself holds. -/
def Holding.flows : Holding → List FlowId
  | .opening flow => [flow]
  | .relaying flow => [flow]
  | _ => []

def Holding.relays : Holding → Bool
  | .relaying _ => true
  | _ => false

/-- What a connection holds in a phase. -/
def Phase.holding : Phase → Holding
  | .connecting flow _ => .opening flow
  | .relaying flow => .relaying flow
  | .udpControl id => .association id
  | _ => .nothing

/-- A connection and the world after something that changes nothing the server counts. Only a
connection that holds nothing is given another deadline. -/
structure Kept (x x' : Connection × ω × Ledger) : Prop where
  client : x'.1.client = x.1.client
  counted : x'.1.counted = x.1.counted
  holding : x'.1.phase.holding = x.1.phase.holding
  deadline : x'.1.deadline = x.1.deadline ∨ x.1.phase.holding = .nothing
  ledger : x'.2.2 = x.2.2

/-- The resolver and the world after something it does: it may open its flow, and sends to its
servers. -/
structure Resolving {τ : Type} (x x' : Resolver τ × ω × Ledger) : Prop where
  servers : x'.1.servers = x.1.servers
  opened : ∀ flow, x'.2.2.opened.count flow + x.1.flow.toList.count flow =
    x.2.2.opened.count flow + x'.1.flow.toList.count flow
  released : x'.2.2.released = x.2.2.released
  dialled : x'.2.2.dialled = x.2.2.dialled
  sent : ∀ address ∈ x'.2.2.sent,
    address ∈ x.2.2.sent ∨ address.port = 53 ∧ address.ip ∈ x.1.servers

open Server in
/-- One thing the server does to its connections, its associations and the flows. -/
inductive Move (s : Server (ω × Ledger)) : Server (ω × Ledger) → Prop where
  /-- Only the world changes. -/
  | idle {w : ω × Ledger} : w.2 = s.world.2 → Move s { s with world := w }
  | readable {b : Bool} : Move s { s with udpReadable := b }
  | send {w : ω × Ledger} {target : SocketAddr} : destinationAllowed target.ip = true →
      w.2 = s.world.2.sends target → Move s { s with world := w }
  | resolve {r : Resolver Waiter} {w : ω × Ledger} : Resolving (s.resolver, s.world) (r, w) →
      Move s { s with resolver := r, world := w }
  | release {flow : FlowId} {w : ω × Ledger} :
      s.resolver.flow = some flow → w.2 = s.world.2.releases [flow] →
      Move s { s with resolver := { s.resolver with flow := none }, world := w }
  /-- A client whose stream was not registered. -/
  | skip : Move s { s with nextToken := s.nextToken + 1 }
  | enter {c : Connection} {w : ω × Ledger} :
      clientAllowed c.client.ip = true → s.connections.size < maxConnections →
      c.phase = .sniff → c.counted = false → w.2 = s.world.2 →
      Move s ({ s with nextToken := s.nextToken + 1, world := w }.put s.nextToken c)
  | touch {token : Token} {c c' : Connection} {w : ω × Ledger} : s.connections.get? token = some c →
      Kept (c, s.world) (c', w) → Move s ({ s with world := w }.put token c')
  | dialFailed {address : SocketAddr} {error : Text} {w : ω × Ledger} :
      destinationAllowed address.ip = true →
      w.2 = s.world.2.dials address (.error error) → Move s { s with world := w }
  | dial {token : Token} {c : Connection} {address : SocketAddr} {flow : FlowId} {kind : ReplyKind}
      {deadline : Option Instant} {w : ω × Ledger} :
      s.connections.get? token = some c → c.phase.holding = .nothing →
      destinationAllowed address.ip = true → w.2 = s.world.2.dials address (.ok flow) →
      Move s ({ s with world := w }.put token
        { c with phase := .connecting flow kind, deadline := deadline })
  | establish {token : Token} {c c' : Connection} {flow : FlowId} :
      s.connections.get? token = some c → c.phase.holding = .opening flow →
      c'.client = c.client → c'.phase.holding = .relaying flow →
      c'.deadline = none → c'.counted = true →
      Move s ({ s with
        activeTcp := s.activeTcp.insert c.client.ip (s.active c.client.ip + 1) }.put token c')
  | drop {token : Token} {c c' : Connection} {flow : FlowId} {w : ω × Ledger} :
      s.connections.get? token = some c →
      c.phase.holding = .opening flow → c'.client = c.client → c'.phase.holding = .nothing →
      c'.counted = c.counted → w.2 = s.world.2.releases [flow] →
        Move s ({ s with world := w }.put token c')
  | associate {token : Token} {c c' : Connection} {flow : FlowId} {port : Option UInt16}
      {w : ω × Ledger} : s.connections.get? token = some c → c.phase.holding = .nothing →
      (s.associations.entries.filter fun e => e.2.clientIp = c.client.ip).length <
        maxAssociationsPerClient →
      c'.client = c.client → c'.counted = c.counted →
        c'.phase.holding = .association (s.nextAssociation + 1) →
      c'.deadline = none → w.2 = s.world.2.opens (.ok flow) →
      Move s ({ s with
        world := w
        nextAssociation := s.nextAssociation + 1
        associations := s.associations.insert (s.nextAssociation + 1)
          ⟨token, c.client.ip, port, flow, 0⟩ }.put token c')
  | rebind {id : Nat} {a a' : Association} :
      s.associations.get? id = some a → a'.control = a.control →
      a'.clientIp = a.clientIp → a'.flow = a.flow →
      Move s { s with associations := s.associations.insert id a' }
  | finish :
      Move s { s with
        connections := s.connections.mapValues fun _ c => { c with finished := true } }
  /-- The connection is gone, with its flow. -/
  | leave {token : Token} {c : Connection} {w : ω × Ledger} {counts : KeyedMap Octets Nat} :
      s.connections.get? token = some c → (∀ id, c.phase.holding ≠ .association id) →
      w.2 = s.world.2.releases c.phase.holding.flows →
      counts = (if c.phase.holding.relays then s.activeTcp.insert c.client.ip
        (s.active c.client.ip - 1) else s.activeTcp) →
      Move s { s with connections := s.connections.erase token, world := w, activeTcp := counts }
  | dissolve {token : Token} {c : Connection} {id : Nat} {a : Association} {w : ω × Ledger} :
      s.connections.get? token = some c → c.phase.holding = .association id →
        s.associations.get? id = some a →
      w.2 = s.world.2.releases [a.flow] →
      Move s { s with
        connections := s.connections.erase token
        associations := s.associations.erase id
        world := w }

/-- Any number of moves. -/
abbrev Moves (s s' : Server (ω × Ledger)) : Prop := Relation.ReflTransGen Move s s'

variable {W : World ω}

/-! ## Connections -/

namespace Kept

variable {x x' x'' : Connection × ω × Ledger}

theorem refl (x : Connection × ω × Ledger) : Kept x x := ⟨rfl, rfl, rfl, .inl rfl, rfl⟩

theorem trans (h : Kept x x') (h' : Kept x' x'') : Kept x x'' := by
  refine ⟨h'.client.trans h.client, h'.counted.trans h.counted, h'.holding.trans h.holding, ?_,
    h'.ledger.trans h.ledger⟩
  rcases h'.deadline with hsame | hnothing
  · exact h.deadline.imp_left hsame.trans
  · exact .inr (h.holding.symm.trans hnothing)

/-- A connection that holds nothing goes on to hold nothing. -/
theorem of_nothing (h : x.1.phase.holding = .nothing) (hclient : x'.1.client = x.1.client)
    (hcounted : x'.1.counted = x.1.counted) (h' : x'.1.phase.holding = .nothing)
    (hledger : x'.2.2 = x.2.2) :
    Kept x x' :=
  ⟨hclient, hcounted, h'.trans h.symm, .inr h, hledger⟩

end Kept

namespace Connection

abbrev Stepped.after (x : Stepped ω) : Connection × ω := (x.connection, x.world)

variable {c : Connection} {w : ω × Ledger}

/-- A failed connection is closing, and otherwise what it was. -/
theorem fail_frame (c : Connection) (code : Reply) (w : ω × Ledger) :
    (c.fail (recorded W) code w).1.client = c.client ∧
    (c.fail (recorded W) code w).1.counted = c.counted ∧ (c.fail (recorded W) code w).2.2 =
      w.2 := by
  unfold fail
  cases c.protocol <;> exact ⟨rfl, rfl, rfl⟩

theorem fail_kept (h : c.phase.holding = .nothing) (code : Reply) (w : ω × Ledger) :
    Kept (c, w) (c.fail (recorded W) code w) := by
  obtain ⟨hclient, hcounted, hledger⟩ := c.fail_frame (W := W) code w
  exact .of_nothing h hclient hcounted rfl hledger

variable (token : Token)

/-- Reading from a client changes nothing the server counts. -/
theorem readClientFrom_kept (limit fuel : Nat) :
    ∀ (c : Connection) (w : ω × Ledger),
    Kept (c, w) (readClientFrom (recorded W) token limit fuel c w).2 := by
  induction fuel with
  | zero => exact fun c w => Kept.refl (c, w)
  | succ fuel ih =>
    intro c w
    rw [readClientFrom]
    split
    · split
      all_goals
        next heq =>
          have hledger := (congrArg (fun answer => answer.2.2) heq).symm
          try refine Kept.trans ?_ (ih _ _)
          exact ⟨rfl, rfl, rfl, .inl rfl, hledger⟩
    · exact .refl _

theorem writeClientFrom_kept (fuel : Nat) : ∀ (c : Connection) (w : ω × Ledger),
    Kept (c, w) (writeClientFrom (recorded W) token fuel c w).2 := by
  induction fuel with
  | zero => exact fun c w => Kept.refl (c, w)
  | succ fuel ih =>
    intro c w
    rw [writeClientFrom]
    split
    · split
      all_goals
        next heq =>
          have hledger := (congrArg (fun answer => answer.2.2) heq).symm
          try refine Kept.trans ?_ (ih _ _)
          exact ⟨rfl, rfl, rfl, .inl rfl, hledger⟩
    · exact .refl _

theorem readClient_kept (limit : Nat) (c : Connection) (w : ω × Ledger) :
    Kept (c, w) (c.readClient (recorded W) token limit w).2 :=
  readClientFrom_kept token limit _ c w

theorem writeClient_kept (c : Connection) (w : ω × Ledger) :
    Kept (c, w) (c.writeClient (recorded W) token w).2 :=
  writeClientFrom_kept token _ c w

end Connection

theorem udpOpen_ledger {w w' : ω × Ledger} {answer : Except Text FlowId}
    (h : (recorded W).udpOpen w = (answer, w')) :
    w'.2 = w.2.opens answer := by
  cases h
  rfl

theorem tcpConnect_ledger {w w' : ω × Ledger} {address : SocketAddr} {answer : Except Text FlowId}
    (h : (recorded W).tcpConnect w address = (answer, w')) : w'.2 = w.2.dials address answer := by
  cases h
  rfl

namespace Connection

variable {c : Connection} {w : ω × Ledger} {token : Token} {credentials : Option (Text × Text)}

theorem sniff_kept (h : c.phase.holding = .nothing) (w : ω × Ledger) :
    Kept (c, w) (c.sniff.2, w) := by
  unfold sniff
  repeat' split
  all_goals first | exact .of_nothing h rfl rfl rfl rfl | exact .of_nothing h rfl rfl h rfl

theorem greet_kept (h : c.phase.holding = .nothing) (w : ω × Ledger) :
    Kept (c, w) ((c.greet credentials).2, w) := by
  unfold greet
  repeat' split
  all_goals first | exact .of_nothing h rfl rfl rfl rfl | exact .of_nothing h rfl rfl h rfl

theorem login_kept (h : c.phase.holding = .nothing) (w : ω × Ledger) :
    Kept (c, w) ((c.login credentials).2, w) := by
  unfold login
  split
  · exact .refl _
  · exact .of_nothing h rfl rfl h rfl
  · dsimp only
    split <;> exact .of_nothing h rfl rfl rfl rfl

theorem takeRequest_kept (h : c.phase.holding = .nothing) :
    Kept (c, w) (c.takeRequest (recorded W) w).after := by
  unfold takeRequest
  split
  · exact .refl _
  · exact fail_kept h _ w
  next request used _ =>
    split
    · exact .of_nothing h rfl rfl h rfl
    · split
      · exact .of_nothing h rfl rfl h rfl
      · have hread : Kept (c, w) ({ c with input := c.input.drop used }, w) :=
          .of_nothing h rfl rfl h rfl
        exact hread.trans (fail_kept (by exact h) _ w)

theorem takeHttpHead_kept (h : c.phase.holding = .nothing) :
    Kept (c, w) (c.takeHttpHead (recorded W) credentials w).after := by
  unfold takeHttpHead
  split
  · exact .refl _
  · exact fail_kept h _ w
  · dsimp only
    split
    · exact .of_nothing h rfl rfl h rfl
    · exact .of_nothing h rfl rfl rfl rfl

/-- Relaying changes nothing the server counts. -/
theorem relay_kept (token : Token) (flow : FlowId) (c : Connection) (w : ω × Ledger) :
    Kept (c, w) (c.relay (recorded W) token flow w).after := by
  have hsend : Kept (c, w) (c.sendInput (recorded W) flow w) := by
    unfold sendInput
    split
    · exact .refl _
    · exact ⟨rfl, rfl, rfl, .inl rfl, rfl⟩
  have hpass : ∀ (c : Connection) (w : ω × Ledger),
      Kept (c, w) (c.passEnd (recorded W) flow w) := by
    intro c w
    unfold passEnd
    split
    · exact ⟨rfl, rfl, rfl, .inl rfl, rfl⟩
    · exact .refl _
  have hread : ∀ (c : Connection) (w : ω × Ledger),
      Kept (c, w) (c.readMore (recorded W) token w).after := by
    intro c w
    have hfrom := readClient_kept (W := W) token readChunk c w
    unfold readMore
    split
    · split
      · next heq =>
        rw [heq] at hfrom
        exact hfrom.trans ⟨rfl, rfl, rfl, .inl rfl, rfl⟩
      · next heq =>
        rw [heq] at hfrom
        exact hfrom
    · exact .refl _
  exact (hsend.trans (hpass _ _)).trans (hread _ _)

theorem step_kept (credentials : Option (Text × Text)) (token : Token) (c : Connection)
    (w : ω × Ledger) :
    Kept (c, w) (c.step (recorded W) credentials token w).after := by
  unfold step
  split
  next h => exact sniff_kept (by rw [h]; rfl) w
  next h => exact greet_kept (by rw [h]; rfl) w
  next h => exact login_kept (by rw [h]; rfl) w
  next h => exact takeRequest_kept (by rw [h]; rfl)
  next h => exact takeHttpHead_kept (by rw [h]; rfl)
  · exact relay_kept _ _ c w
  · exact ⟨rfl, rfl, rfl, .inl rfl, rfl⟩
  all_goals exact .refl _

end Connection

/-! ## The resolver -/

namespace Resolver

variable {τ : Type} {r : Resolver τ} {w : ω × Ledger}

theorem resolving_of_ledger {r' : Resolver τ} {w' : ω × Ledger} (hservers : r'.servers = r.servers)
    (hflow : r'.flow = r.flow) (hledger : w'.2 = w.2) : Resolving (r, w) (r', w') := by
  refine ⟨hservers, ?_, by rw [hledger], by rw [hledger], fun address h => .inl (hledger ▸ h)⟩
  intro flow
  rw [hflow, hledger]

theorem resolving_trans {x x' x'' : Resolver τ × ω × Ledger} (h : Resolving x x')
    (h' : Resolving x' x'') :
    Resolving x x'' := by
  refine ⟨h'.servers.trans h.servers, ?_, h'.released.trans h.released, h'.dialled.trans h.dialled,
    ?_⟩
  · intro flow
    have hfirst := h.opened flow
    have hsecond := h'.opened flow
    omega
  · intro address hmem
    rcases h'.sent address hmem with hearlier | hserver
    · exact h.sent address hearlier
    · exact .inr (h.servers ▸ hserver)

theorem sendAll_resolving (flow : FlowId) (message : Bytes) (w : ω × Ledger) :
    Resolving (r, w) (r, sendAll (recorded W) r.servers flow message w) := by
  have hsent : ∀ (servers : List Octets) (w : ω × Ledger),
      (sendAll (recorded W) servers flow message w).2 =
      { w.2 with sent := (servers.map (⟨·, 53⟩)).reverse ++ w.2.sent } := by
    intro servers
    induction servers with
    | nil => exact fun w => rfl
    | cons server servers ih =>
      intro w
      refine (ih _).trans ?_
      rw [map_cons, reverse_cons, append_assoc]
      rfl
  have h := hsent r.servers w
  refine ⟨rfl, fun flow => ?_, by rw [h], by rw [h], fun address hmem => ?_⟩
  · rw [h]
  · rw [h, mem_append, mem_reverse, mem_map] at hmem
    rcases hmem with ⟨server, hserver, rfl⟩ | hmem
    · exact .inr ⟨rfl, hserver⟩
    · exact .inl hmem

/-- A new question goes to the resolvers only. -/
theorem start_resolving (r : Resolver τ) (w : ω × Ledger) (flow : FlowId) (name : Text)
    (waiter : τ) :
    Resolving (r, w) (r.start (recorded W) w flow name waiter).2 := by
  unfold start
  dsimp only
  split
  · exact resolving_of_ledger rfl rfl rfl
  · next message _ =>
    have hsent := sendAll_resolving (r := r) (W := W) flow message
      ((recorded W).now ((recorded W).random w).2).2
    exact ⟨rfl, hsent.opened, hsent.released, hsent.dialled, hsent.sent⟩

theorem ask_resolving (r : Resolver τ) (w : ω × Ledger) (name : Text) (waiter : τ) :
    Resolving (r, w) (r.ask (recorded W) w name waiter).2 := by
  unfold ask
  split
  · exact resolving_of_ledger rfl rfl rfl
  · split
    · exact start_resolving r w _ name waiter
    · next hflow =>
      split
      · next hopen => exact resolving_of_ledger rfl rfl (udpOpen_ledger hopen)
      · next flow w' hopen =>
        refine resolving_trans ?_ (start_resolving _ w' flow name waiter)
        have hledger := udpOpen_ledger hopen
        refine ⟨rfl, fun flow' => ?_, by rw [hledger]; rfl, by rw [hledger]; rfl,
          fun address hmem => ?_⟩
        · rw [hledger, hflow, Option.toList_some, count_singleton]
          exact count_cons
        · rw [hledger] at hmem
          exact .inl hmem

theorem lookup_resolving (r : Resolver τ) (w : ω × Ledger) (name : Text) (waiter : τ) :
    Resolving (r, w) (r.lookup (recorded W) w name waiter).2 := by
  unfold lookup
  split
  · exact ask_resolving r w name waiter
  · dsimp only
    split
    · split <;> exact resolving_of_ledger rfl rfl rfl
    · refine resolving_trans ?_ (ask_resolving r _ name waiter)
      exact resolving_of_ledger rfl rfl rfl

theorem receive_resolving (r : Resolver τ) (w : ω × Ledger) (datagram : Datagram) :
    Resolving (r, w) (r.receive (recorded W) w datagram).2 := by
  unfold receive
  dsimp only
  split
  · exact resolving_of_ledger rfl rfl rfl
  · split
    · exact resolving_of_ledger rfl rfl rfl
    · unfold settle makeRoom
      dsimp only
      split <;> exact resolving_of_ledger rfl rfl rfl

theorem receiveAll_resolving (datagrams : List Datagram) : ∀ (r : Resolver τ) (w : ω × Ledger),
    Resolving (r, w) (receiveAll (recorded W) r w datagrams).2 := by
  induction datagrams with
  | nil => exact fun r w => resolving_of_ledger rfl rfl rfl
  | cons datagram datagrams ih =>
      exact fun r w => resolving_trans (receive_resolving r w datagram) (ih _ _)

theorem resend_resolving (r : Resolver τ) (flow : FlowId) (now : Instant) (w : ω × Ledger) :
    Resolving (r, w) (r, r.resend (recorded W) flow now w) := by
  unfold resend
  induction r.pending.entries generalizing w with
  | nil => exact resolving_of_ledger rfl rfl rfl
  | cons entry entries ih =>
    refine resolving_trans ?_ (ih _)
    dsimp only
    split
    · exact sendAll_resolving flow _ w
    · exact resolving_of_ledger rfl rfl rfl

theorem retry_resolving (r : Resolver τ) (flow : FlowId) (w : ω × Ledger) :
    Resolving (r, w) (r.retry (recorded W) flow w).2 := by
  have hresend := fun r : Resolver τ =>
    resend_resolving (W := W) r flow ((recorded W).now w).1 ((recorded W).now w).2
  exact ⟨rfl, (hresend _).opened, (hresend _).released, (hresend _).dialled, (hresend _).sent⟩

theorem poll_resolving (r : Resolver τ) (w : ω × Ledger) :
    Resolving (r, w) (r.poll (recorded W) w).2 := by
  unfold poll
  split
  · exact resolving_of_ledger rfl rfl rfl
  · next flow _ =>
    have hread : Resolving (r, w) (r, ((recorded W).udpRecv w flow).2) :=
      resolving_of_ledger rfl rfl rfl
    exact resolving_trans (resolving_trans hread (receiveAll_resolving _ r _))
      (retry_resolving _ flow _)

end Resolver

namespace Server

variable {s s' : Server (ω × Ledger)} {token : Token} {c c' : Connection}

/-- A connection that holds nothing fails, from what it was or has become. -/
theorem failConnection_moves (hget : s.connections.get? token = some c)
    (hkept : Kept (c, s.world) (c', s.world)) (h : c'.phase.holding = .nothing) (code : Reply) :
    Moves s (s.failConnection (recorded W) token c' code) :=
  .single (.touch hget (hkept.trans (c'.fail_kept h code s.world)))

/-- A connection whose flow was never open fails, and the flow is released. -/
theorem drop_moves {flow : FlowId} (hget : s.connections.get? token = some c)
    (hphase : c.phase.holding = .opening flow) (code : Reply) :
    Moves s ({ s with world := (recorded W).tcpRelease s.world flow }.failConnection
        (recorded W) token c code) := by
  obtain ⟨hclient, hcounted, hfail⟩ := c.fail_frame (W := W) code
    ((recorded W).tcpRelease s.world flow)
  exact .single (.drop hget hphase hclient rfl hcounted hfail)

theorem openFlow_moves (h : ∀ c, s.connections.get? token = some c → c.phase.holding = .nothing)
    (address : SocketAddr) (kind : ReplyKind) :
    Moves s (s.openFlow (recorded W) token address kind) := by
  unfold openFlow
  split
  · exact .refl
  · next c hget =>
    split
    · exact failConnection_moves hget (.refl _) (h c hget) _
    · next hallowed =>
      rw [Bool.not_eq_true, Bool.not_eq_false'] at hallowed
      split
      all_goals
        rename_i hcall
        have hledger := tcpConnect_ledger hcall
      · exact .single (.dial hget (h c hget) hallowed hledger)
      · exact .head (.dialFailed hallowed hledger) (failConnection_moves (by exact hget) (.refl _)
      (h c hget) _)

theorem beginConnect_moves (h : ∀ c, s.connections.get? token = some c → c.phase.holding = .nothing)
    (target : Target) (kind : ReplyKind) :
    Moves s (s.beginConnect (recorded W) token target kind) := by
  unfold beginConnect
  split
  · exact .refl
  · next c hget =>
    split
    · exact failConnection_moves hget (.refl _) (h c hget) _
    · exact openFlow_moves h _ kind
    · next name port =>
      have hresolving := s.resolver.lookup_resolving (W := W) s.world name (.connect token)
      split
      all_goals
        rename_i heq
        rw [heq] at hresolving
        refine .head (.resolve hresolving) ?_
      · exact openFlow_moves (by exact h) _ kind
      · exact .single (.touch hget (.of_nothing (h c hget) rfl rfl rfl rfl))
      · exact failConnection_moves (by exact hget) (.refl _) (h c hget) _

theorem associate_moves (h : ∀ c, s.connections.get? token = some c → c.phase.holding = .nothing)
    (target : Target) :
    Moves s (s.associate (recorded W) token target) := by
  unfold associate
  split
  · exact .refl
  · next c hget =>
    dsimp only
    split
    · exact failConnection_moves hget (.refl _) (h c hget) _
    · next hopened =>
      split
      · next w hcall =>
        refine .head (.idle (udpOpen_ledger hcall)) ?_
        exact failConnection_moves (by exact hget) (.refl _) (h c hget) _
      · next flow w hcall =>
        exact .single (.associate (c := c) hget
          (h c hget) (Nat.lt_of_not_ge hopened) rfl rfl rfl rfl (udpOpen_ledger hcall))

theorem nothing_of_put (h : c.phase.holding = .nothing) :
    ∀ c', (s.put token c).connections.get? token = some c' → c'.phase.holding = .nothing := by
  intro c' hget
  rw [put_get?] at hget
  cases hget
  exact h

/-- A step of a connection, as moves of the server. -/
theorem step_moves (s : Server (ω × Ledger)) (token : Token) :
    Moves s (s.step (recorded W) token).2 := by
  unfold step
  split
  · exact .refl
  · next c hget =>
    have hkept := c.step_kept (W := W) s.credentials token s.world
    refine .head (.touch hget hkept) ?_
    dsimp only
    split
    all_goals try exact .refl
    all_goals
      rename_i hnext
      have hnothing : c.phase.holding = .nothing := by
        rcases Connection.rank_of_next (by rw [hnext]; exact Option.some_ne_none _) with
          h | h <;> rw [h] <;> rfl
    · exact beginConnect_moves (nothing_of_put (hkept.holding.trans hnothing)) _ _
    · exact associate_moves (nothing_of_put (hkept.holding.trans hnothing)) _

theorem stepUntilIdle_moves (fuel : Nat) : ∀ s : Server (ω × Ledger),
    stepUntilIdle (recorded W) token fuel s = some s' → Moves s s' := by
  induction fuel with
  | zero => rintro s ⟨⟩
  | succ fuel ih =>
    intro s h
    have hstep := s.step_moves (W := W) token
    rw [stepUntilIdle, untilIdle] at h
    split at h
    · next heq =>
      rw [heq] at hstep
      cases h
      exact hstep
    · next heq =>
      rw [heq] at hstep
      exact hstep.trans (ih _ h)

theorem readAhead_moves (s : Server (ω × Ledger)) (token : Token) :
    Moves s (s.readAhead (recorded W) token).2 := by
  unfold readAhead
  split
  · exact .refl
  · next c hget =>
    have hread : ∀ limit ok c' w', c.readClient (recorded W) token limit s.world = (ok, c', w') →
        Kept (c, s.world) (c', w') := by
      intro limit ok c' w' heq
      have hkept := c.readClient_kept (W := W) token limit s.world
      rw [heq] at hkept
      exact hkept
    dsimp only
    repeat' split
    all_goals try exact .refl
    all_goals
      rename_i heq
      exact .single (.touch hget ((hread _ _ _ _ heq).trans ⟨rfl, rfl, rfl, .inl rfl, rfl⟩))

theorem advance_moves {fuel : Nat} (h : s.advance (recorded W) fuel token = some s') :
    Moves s s' := by
  have hread := s.readAhead_moves (W := W) token
  unfold advance at h
  split at h
  · next heq =>
    rw [heq] at hread
    cases h
    exact hread
  · next heq =>
    rw [heq] at hread
    exact hread.trans (stepUntilIdle_moves fuel _ h)

theorem advanceAll_moves {fuel : Nat} (tokens : List Token) : ∀ s : Server (ω × Ledger),
    advanceAll (recorded W) fuel tokens s = some s' → Moves s s' := by
  induction tokens with
  | nil => rintro s ⟨⟩; exact .refl
  | cons token tokens ih =>
    intro s h
    obtain ⟨t, hadvance, hrest⟩ := Option.bind_eq_some_iff.1 h
    exact (advance_moves hadvance).trans (ih t hrest)

/-! ## Datagrams and lookups -/

theorem foldl_moves {α : Type} {f : Server (ω × Ledger) → α → Server (ω × Ledger)}
    (h : ∀ s a, Moves s (f s a))
    (as : List α) (s : Server (ω × Ledger)) : Moves s (as.foldl f s) := by
  induction as generalizing s with
  | nil => exact .refl
  | cons a as ih => exact (h s a).trans (ih _)

theorem sendDatagram_moves (s : Server (ω × Ledger)) (flow : FlowId) (target : SocketAddr)
    (payload : Bytes) :
    Moves s (s.sendDatagram (recorded W) flow target payload) := by
  unfold sendDatagram
  split
  · exact .refl
  · next hallowed =>
    rw [Bool.not_eq_true, Bool.not_eq_false'] at hallowed
    exact .single (.send hallowed rfl)

/-- A finished lookup lets the connection that waited for it go on. -/
theorem finishLookup_moves (s : Server (ω × Ledger)) (finished : Waiter × Except Text Octets) :
    Moves s (s.finishLookup (recorded W) finished) := by
  unfold finishLookup
  split
  · next token _ =>
    split
    · exact .refl
    · next c hget =>
      split
      · next port kind hphase =>
        have hnothing : c.phase.holding = .nothing := by rw [hphase]; rfl
        have hclosing : Kept (c, s.world) ({ c with phase := .closing }, s.world) :=
            .of_nothing hnothing rfl rfl rfl rfl
        split
        · exact .head (.touch hget hclosing) (openFlow_moves (nothing_of_put rfl) _ kind)
        · exact failConnection_moves hget hclosing rfl _
      · exact .refl
  · split
    · exact .refl
    · next hget =>
      split
      · exact (Relation.ReflTransGen.single
            (.rebind hget rfl rfl rfl)).trans (sendDatagram_moves _ _ _ _)
      · exact .single (.rebind hget rfl rfl rfl)

theorem finishLookups_moves (s : Server (ω × Ledger)) : Moves s (s.finishLookups (recorded W)) :=
  .head (.resolve (s.resolver.poll_resolving s.world)) (foldl_moves finishLookup_moves _ _)

theorem associationFor_moves {order id : Nat} {source : SocketAddr} {a : Association}
    (h : s.associationFor order source = some (id, a, s')) :
    Moves s s' ∧ s'.associations.get? id = some a := by
  unfold associationFor at h
  dsimp only at h
  split at h
  · next hfound =>
    cases h
    obtain ⟨id', a', hmem, hsome⟩ := KeyedMap.exists_of_findMap hfound
    split at hsome
    · cases hsome
      exact ⟨.refl, KeyedMap.get?_eq_some_iff.2 hmem⟩
    · cases hsome
  · split at h
    · cases h
    · next hmin =>
      cases h
      have hmem := mem_of_mem_filter (argmin_mem hmin)
      exact ⟨.single
        (.rebind (KeyedMap.get?_eq_some_iff.2 hmem) rfl rfl rfl), KeyedMap.get?_insert_self _ _ _⟩

theorem receiveDatagram_moves (s : Server (ω × Ledger)) (datagram : Datagram) :
    Moves s (s.receiveDatagram (recorded W) datagram) := by
  unfold receiveDatagram
  dsimp only
  refine .head (.idle (w := ((recorded W).hashOrder s.world).2) rfl) ?_
  split
  · exact .refl
  · next id _ s' hfor =>
    obtain ⟨hmoves, hget⟩ := associationFor_moves hfor
    refine hmoves.trans ?_
    split
    · exact .refl
    · exact .refl
    · exact sendDatagram_moves _ _ _ _
    · split
      · exact .refl
      · next name port payload _ _ =>
        have hresolving := s'.resolver.lookup_resolving (W :=
          W) s'.world name (.datagram id port payload)
        split
        all_goals
          rename_i heq
          rw [heq] at hresolving
          refine .head (.resolve hresolving) ?_
        · exact sendDatagram_moves _ _ _ _
        · exact .single (.rebind hget rfl rfl rfl)
        · exact .refl

theorem receiveClientDatagrams_moves (s : Server (ω × Ledger)) :
    Moves s (s.receiveClientDatagrams (recorded W)) := by
  unfold receiveClientDatagrams
  split
  · refine .head (.idle (w := ((recorded W).recvFrom s.world).2) rfl)
      (.head (.readable (b := false)) ?_)
    exact foldl_moves receiveDatagram_moves _ _
  · exact .refl

/-! ## Delivering -/

theorem recvFlow_kept (flow : FlowId) (fuel : Nat) : ∀ (c : Connection) (w : ω × Ledger),
    Kept (c, w) (recvFlow (recorded W) flow fuel c w) := by
  induction fuel with
  | zero => exact fun c w => Kept.refl (c, w)
  | succ fuel ih =>
    intro c w
    rw [recvFlow]
    split
    · split
      all_goals
        next heq =>
          have hledger := (congrArg (fun answer => answer.2.2) heq).symm
          try refine Kept.trans ?_ (ih _ _)
          exact ⟨rfl, rfl, rfl, .inl rfl, hledger⟩
    · exact .refl _

theorem deliverRelayed_moves (hget : s.connections.get? token = some c) (flow : FlowId) :
    Moves s (s.deliverRelayed (recorded W) token flow c) := by
  have hkept := (recvFlow_kept (W := W) flow (clientBacklog - c.backlog) c s.world).trans
    (Connection.writeClient_kept (W := W) token _ _)
  unfold deliverRelayed
  dsimp only
  split
  · next heq =>
    rw [heq] at hkept
    exact .single (.touch hget (hkept.trans ⟨rfl, rfl, rfl, .inl rfl, rfl⟩))
  · next heq =>
    rw [heq] at hkept
    split <;> exact .single (.touch hget (hkept.trans ⟨rfl, rfl, rfl, .inl rfl, rfl⟩))

theorem deliverReply_moves (hget : s.connections.get? token = some c) :
    Moves s (s.deliverReply (recorded W) token c) := by
  have hkept := c.writeClient_kept (W := W) token s.world
  unfold deliverReply
  split
  all_goals
    next heq =>
      rw [heq] at hkept
      exact .single (.touch hget (hkept.trans ⟨rfl, rfl, rfl, .inl rfl, rfl⟩))

theorem deliverOpened_moves (s : Server (ω × Ledger)) (token : Token) :
    Moves s (s.deliverOpened (recorded W) token) := by
  unfold deliverOpened
  split
  · exact .refl
  · next hget =>
    split
    · exact deliverRelayed_moves hget _
    · exact deliverReply_moves hget

theorem deliver_moves (s : Server (ω × Ledger)) (token : Token) : Moves s
  (s.deliver (recorded W) token) := by
  unfold deliver
  split
  · exact .refl
  · next c hget =>
    split
    · next flow kind hphase =>
      have hopening : c.phase.holding = .opening flow := by rw [hphase]; rfl
      refine .head (.idle (w := ((recorded W).tcpState s.world flow).2) rfl) ?_
      dsimp only
      split
      · exact .refl
      · refine .head (.establish hget hopening ?_ rfl rfl rfl) ((step_moves _ _).trans
          (deliverOpened_moves _ _))
        cases kind <;> rfl
      · refine .head (.establish hget hopening ?_ rfl rfl rfl) ((step_moves _ _).trans
          (deliverOpened_moves _ _))
        cases kind <;> rfl
      · exact drop_moves (by exact hget) hopening _
      · exact drop_moves (by exact hget) hopening _
    · exact deliverRelayed_moves hget _
    · exact deliverReply_moves hget

theorem deliverDatagrams_moves (s : Server (ω × Ledger)) :
    Moves s (s.deliverDatagrams (recorded W)) := by
  refine foldl_moves (fun s e => ?_) _ s
  have hsent : ∀ (datagrams : List Datagram) (client : SocketAddr) (w : ω × Ledger),
      (datagrams.foldl (fun w datagram =>
        ((recorded W).sendTo w client (udpDatagram datagram.1 datagram.2)).2) w).2 = w.2 := by
    intro datagrams client
    induction datagrams with
    | nil => exact fun w => rfl
    | cons datagram datagrams ih => exact fun w => (ih _).trans rfl
  unfold deliverAssociation
  dsimp only
  split
  · exact .single (.idle rfl)
  · exact .single (.idle (hsent _ _ _))

end Server

end GamePath.Engine.Socks
