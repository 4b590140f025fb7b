import GamePath.Engine.Tun2socks.EndOfStream

/-!
# Whose connection a flow's socket has

A flow is known by both ports, but its socket listens on the destination alone, and smoltcp gives a
SYN to the first socket that listens on its destination. The SYN of a flow reaches its own socket
all the same, because the sockets of the flows that are accepted in one turn lie in the order in
which their SYNs are handed over, and no other socket listens by then. That breaks where a socket is
left listening: by a reset that arrives in SYN-RECEIVED, or by a SYN that smoltcp does not take. In
a run without these, no two connections are crossed.
-/

namespace GamePath.Engine.Tun2socks

open Lib List KeyedMap Option Socket Forwarding Slots Segment Lib.Run
open Socks (SocketAddr)

/-! ## Sockets and their connections -/

/-- The segment that smoltcp sees when a packet of the device arrives. -/
def Reactions.arriving (r : Reactions) (n : Nat) (packet : Bytes) : Option Segment :=
  (segmentOf packet).or ((r.reassembled n packet).bind segmentOf)

/-- The packet is a SYN of the flow, and nothing else. -/
def FlowKey.Opens (k : FlowKey) (syn : Bytes) : Prop :=
  ∃ g, segmentOf syn = some g ∧ g.syn = true ∧ g.ack = false ∧ g.rst = false ∧ g.fin = false ∧
    g.destination = k.remote ∧ g.source.port = k.localPort

/-- The socket has the flow's endpoints, as far as it has a connection. -/
structure Socket.PlacedFor (k : FlowKey) (s : Socket) : Prop where
  endpoint : s.endpoint = k.remote
  remote : s.inUse = true → ∃ a, s.remote = some a ∧ a.port = k.localPort

/-- A flow whose socket listens, with the SYN that was handed over for it. -/
structure Waiting where
  key : FlowKey
  handle : Nat
  syn : Bytes

namespace SocketSet

variable {sockets : SocketSet} {holds : FlowKey → Nat → Prop} {w : List Waiting} {r : Reactions}
  {g : Segment}

theorem ingress_eq (r : Reactions) (n : Nat) (sockets : SocketSet) (packet : Bytes) :
    sockets.ingress r n packet = ((r.arriving n packet).map
      (sockets.receive r n)).getD sockets := by
  rw [ingress, Reactions.arriving]
  cases segmentOf packet with
  | some g => rfl
  | none =>
    cases (r.reassembled n packet).bind segmentOf with
    | some | none => rfl

/-- Every socket is placed for the flow that holds its slot, and the sockets that listen are those
of the waiting flows, in order. -/
structure Seated (holds : FlowKey → Nat → Prop) (sockets : SocketSet) (w : List Waiting) :
    Prop where
  placed : ∀ k i s, holds k i → sockets.get? i = some s → s.PlacedFor k
  listening : ∀ i s, sockets.get? i = some s → s.state = .listen → ∃ a ∈ w, a.handle = i
  waiting : ∀ a ∈ w, holds a.key a.handle ∧ a.key.Opens a.syn ∧
    ∃ s, sockets.get? a.handle = some s ∧ s.state = .listen
  ordered : w.Pairwise fun a b => a.handle < b.handle

/-- No reset reaches a socket in SYN-RECEIVED. -/
def SafeFrom (g : Segment) (sockets : SocketSet) : Prop :=
  g.rst = true → ∀ i s, sockets.get? i = some s → s.state = .synReceived → g.belongsTo s = false

section

variable (h : Seated holds sockets [])
include h

theorem Seated.not_listen {i : Nat} {s : Socket} (hs : sockets.get? i = some s) :
    s.state ≠ .listen := by
  intro hlisten
  obtain ⟨a, ha, -⟩ := h.listening i s hs hlisten
  exact absurd ha not_mem_nil

omit h in
theorem placedFor_moves {k : FlowKey} {reset : Bool} {s s' : Socket} (h : s.PlacedFor k)
    (hmoves : s.Moves reset s') (hlisten : s.state ≠ .listen) : s'.PlacedFor k := by
  refine ⟨hmoves.endpoint.trans h.endpoint, fun huse => ?_⟩
  have hbefore : s.inUse = true := by
    have hclosed : s.state ≠ .closed := by
      intro hc
      simp [inUse, hmoves.closed hc] at huse
    simp [inUse, hlisten, hclosed]
  rw [hmoves.remote huse]
  exact h.remote hbefore

theorem Seated.modify (i : Nat) (reset : Bool) {f : Socket → Socket}
    (hmoves : ∀ s, Moves reset s (f s)) (hstill : ∀ s, sockets.get? i = some s → (f s).state ≠
      .listen) :
    Seated holds (sockets.modify i f) [] := by
  refine ⟨?_, ?_, nofun, .nil⟩
  · intro k j s hk hs
    rw [get?_modify] at hs
    split at hs
    · obtain ⟨s₀, hs₀, rfl⟩ := map_eq_some_iff.1 hs
      exact placedFor_moves (h.placed k j s₀ hk hs₀) (hmoves s₀) (h.not_listen hs₀)
    · exact h.placed k j s hk hs
  intro j s hs hlisten
  rw [get?_modify] at hs
  split at hs
  next hij =>
    subst hij
    obtain ⟨s₀, hs₀, rfl⟩ := map_eq_some_iff.1 hs
    exact absurd hlisten (hstill s₀ hs₀)
  · exact absurd hlisten (h.not_listen hs)

theorem Seated.receive_eq (r : Reactions) (n : Nat) (g : Segment) :
    sockets.receive r n g = sockets ∨ ∃ i s, sockets.get? i = some s ∧ g.belongsTo s = true ∧
      sockets.receive r n g = sockets.modify i fun s => r.segment n s g := by
  have hnone : (if g.opens = true then sockets.first g.heardBy else none) = none := by
    split
    · rw [first_eq_none_iff]
      intro i s hs
      have hlisten := h.not_listen hs
      simp [heardBy, hlisten]
    · rfl
  rw [SocketSet.receive, hnone]
  split
  · dsimp only
    split
    next i hi =>
      obtain ⟨⟨s, hs, hbelongs⟩, -⟩ := first_eq_some_iff.1 hi
      exact .inr ⟨i, s, hs, hbelongs, rfl⟩
    · exact .inl rfl
  · exact .inl rfl

theorem Seated.receive (n : Nat) (hsafe : SafeFrom g sockets) :
    Seated holds (sockets.receive r n g) [] := by
  rcases h.receive_eq r n g with heq | ⟨i, s, hs, hbelongs, heq⟩
  · rw [heq]
    exact h
  rw [heq]
  refine h.modify i g.rst (fun s => r.segment_moves n s g) fun s' hs' hlisten => ?_
  cases hs.symm.trans hs'
  rcases (r.segment_moves n s g).listen hlisten with hl | ⟨hrst, hhalf⟩
  · exact h.not_listen hs hl
  · exact absurd (hsafe hrst i s hs hhalf) (by simp [hbelongs])

theorem Seated.receive_safe (n : Nat) {g' : Segment} (hsafe : SafeFrom g' sockets) :
    SafeFrom g' (sockets.receive r n g) := by
  rcases h.receive_eq r n g with heq | ⟨i, s, hs, hbelongs, heq⟩
  · rw [heq]
    exact hsafe
  rw [heq]
  intro hrst j s' hs' hhalf
  rw [get?_modify] at hs'
  split at hs'
  · obtain ⟨s₀, hs₀, rfl⟩ := map_eq_some_iff.1 hs'
    have hmoves := r.segment_moves n s₀ g
    have hhalf₀ := hmoves.synReceived hhalf
    have hbefore := hsafe hrst j s₀ hs₀ hhalf₀
    have huse : (r.segment n s₀ g).inUse = true := by simp [inUse, hhalf]
    have huse₀ : s₀.inUse = true := by simp [inUse, hhalf₀]
    rw [belongsTo, huse₀] at hbefore
    rw [belongsTo, huse, hmoves.endpoint, hmoves.remote huse]
    exact hbefore
  · exact hsafe hrst j s' hs' hhalf

end

/-- No reset among the packets reaches a socket in SYN-RECEIVED. -/
def AllSafe (r : Reactions) (n : Nat) (sockets : SocketSet) (rx : List Bytes) : Prop :=
  ∀ e ∈ rx.zipIdx n, ∀ g ∈ r.arriving e.2 e.1, SafeFrom g sockets

theorem Seated.ingressAll (rx : List Bytes) :
    ∀ {sockets : SocketSet} (n : Nat), Seated holds sockets [] →
    AllSafe r n sockets rx → Seated holds (ingressAll r n sockets rx) [] := by
  induction rx with
  | nil => exact fun _ h _ => h
  | cons packet rx ih =>
    intro sockets n h hsafe
    rw [SocketSet.ingressAll, ingress_eq]
    have hrest : AllSafe r (n + 1) sockets rx := by
      intro e he
      exact hsafe e (mem_cons_of_mem _ he)
    cases harr : r.arriving n packet with
    | none => exact ih (n + 1) h hrest
    | some g =>
      have hg : SafeFrom g sockets := hsafe (packet, n) mem_cons_self g harr
      refine ih (n + 1) (h.receive n hg) fun e he g' hg' => ?_
      exact h.receive_safe n (hrest e he g' hg')

theorem Seated.egress (h : Seated holds sockets []) (r : Reactions) :
    Seated holds (sockets.mapSlots r.egress) [] := by
  refine ⟨?_, ?_, nofun, .nil⟩
  · intro k i s hk hs
    rw [get?_mapSlots] at hs
    obtain ⟨s₀, hs₀, rfl⟩ := map_eq_some_iff.1 hs
    exact placedFor_moves (h.placed k i s₀ hk hs₀) (r.egress_moves i s₀) (h.not_listen hs₀)
  intro i s hs hlisten
  rw [get?_mapSlots] at hs
  obtain ⟨s₀, hs₀, rfl⟩ := map_eq_some_iff.1 hs
  rcases (r.egress_moves i s₀).listen hlisten with hl | ⟨hreset, -⟩
  · exact absurd hl (h.not_listen hs₀)
  · cases hreset

theorem Seated.poll (h : Seated holds sockets []) {rx : List Bytes}
    (hsafe : AllSafe r 0 sockets rx) :
    Seated holds (poll r sockets rx) [] :=
  (h.ingressAll rx 0 hsafe).egress r

theorem Seated.take {a : Waiting} (h : Seated holds sockets (a :: w))
    (hone : ∀ k k' i, holds k i → holds k' i → k = k') (r : Reactions) (n : Nat) :
    Seated holds (sockets.ingress r n a.syn) w := by
  obtain ⟨hholds, ⟨g, hg, hsyn, hack, hrst, hfin, hdest, hport⟩, s, hs, hlisten⟩ :=
    h.waiting a mem_cons_self
  obtain ⟨hbefore, hordered⟩ := pairwise_cons.1 h.ordered
  have hplaced := h.placed a.key a.handle s hholds hs
  -- It is the first socket that listens on the destination, for the others lie behind it.
  have hfirst : sockets.first g.heardBy = some a.handle := by
    rw [first_eq_some_iff]
    refine ⟨⟨s, hs, ?_⟩, fun j hj s' hs' => ?_⟩
    · simp [heardBy, hlisten, hplaced.endpoint, hdest]
    have hnot : s'.state ≠ .listen := by
      intro hl
      obtain ⟨b, hb, hbj⟩ := h.listening j s' hs' hl
      rcases mem_cons.1 hb with rfl | hb
      · omega
      · have := hbefore b hb
        omega
    simp [heardBy, hnot]
  have heq : sockets.ingress r n a.syn = sockets.modify a.handle g.takenBy := by
    rw [ingress, hg]
    dsimp only
    rw [SocketSet.receive, if_pos (by simp [wellFormed, hrst, hfin]),
      if_pos (by simp [opens, hsyn, hack]), hfirst]
  rw [heq]
  refine ⟨?_, ?_, ?_, hordered⟩
  · intro k i s' hk hs'
    rw [get?_modify] at hs'
    split at hs'
    next hi =>
      subst hi
      obtain ⟨s₀, hs₀, rfl⟩ := map_eq_some_iff.1 hs'
      obtain rfl := hone k a.key a.handle hk hholds
      exact ⟨(h.placed a.key a.handle s₀ hk hs₀).endpoint, fun _ => ⟨g.source, rfl, hport⟩⟩
    · exact h.placed k i s' hk hs'
  · intro i s' hs' hl
    rw [get?_modify] at hs'
    split at hs'
    · obtain ⟨s₀, -, rfl⟩ := map_eq_some_iff.1 hs'
      simp [takenBy] at hl
    next hi =>
      obtain ⟨b, hb, hbi⟩ := h.listening i s' hs' hl
      rcases mem_cons.1 hb with rfl | hb
      · exact absurd hbi hi
      · exact ⟨b, hb, hbi⟩
  · intro b hb
    obtain ⟨hbholds, hbopens, sb, hsb, hbl⟩ := h.waiting b (mem_cons_of_mem _ hb)
    have hne := hbefore b hb
    refine ⟨hbholds, hbopens, sb, ?_, hbl⟩
    rw [get?_modify, if_neg (by omega)]
    exact hsb

theorem Seated.takeAll (w : List Waiting) :
    ∀ {sockets : SocketSet} (n : Nat), Seated holds sockets w →
    (∀ k k' i, holds k i → holds k' i → k = k') →
      Seated holds (SocketSet.ingressAll r n sockets (w.map Waiting.syn)) [] := by
  induction w with
  | nil => exact fun _ h _ => h
  | cons a w ih => exact fun n h hone => ih (n + 1) (h.take hone r n) hone

theorem Seated.pollWaiting (h : Seated holds sockets w)
    (hone : ∀ k k' i, holds k i → holds k' i → k = k')
    (r : Reactions) : Seated holds (SocketSet.poll r sockets (w.map Waiting.syn)) [] :=
  (h.takeAll w 0 hone).egress r

end SocketSet

/-! ## Pumping -/

namespace TcpFlow

variable {flow : TcpFlow} {k : FlowKey} {o : Outside}

theorem closeApp_placed {s : Socket} (f : TcpFlow) (h : s.PlacedFor k)
    (hlisten : s.state ≠ .listen) :
    (f.closeApp s).PlacedFor k ∧ (f.closeApp s).state ≠ .listen := by
  rw [closeApp]
  split
  next hcloses =>
    simp only [Bool.and_eq_true] at hcloses
    have hmay := hcloses.2
    rw [maySend] at hmay
    split at hmay
    · next hst => exact ⟨⟨h.endpoint, fun _ => h.remote (by simp [inUse, hst])⟩, by simp [close,
        hst]⟩
    · next hst => exact ⟨⟨h.endpoint, fun _ => h.remote (by simp [inUse, hst])⟩, by simp [close,
        hst]⟩
    · cases hmay
  · exact ⟨h, hlisten⟩

theorem abortApp_placed {s : Socket} (f : TcpFlow) (h : s.PlacedFor k)
    (hlisten : s.state ≠ .listen) :
    (f.abortApp s).PlacedFor k ∧ (f.abortApp s).state ≠ .listen := by
  rw [abortApp]
  split
  · exact ⟨⟨h.endpoint, by rintro ⟨⟩⟩, by simp [abort]⟩
  · exact ⟨h, hlisten⟩

theorem relay_placed {s : Socket} (h : s.PlacedFor k) (hlisten : s.state ≠ .listen) :
    (flow.relay s o).2.2.PlacedFor k ∧ (flow.relay s o).2.2.state ≠ .listen := by
  obtain ⟨taken, unread, accepted, queued, hsocket, -⟩ :=
    sendApp_pumpOut_eq ((flow.pumpOut s o).1.readProxy (flow.pumpOut s o).2.2).1 flow s o
  simp only [relay]
  rw [hsocket]
  obtain ⟨hplaced, hstill⟩ := closeApp_placed
    ((((flow.pumpOut s o).1.readProxy (flow.pumpOut s o).2.2).1.sendApp (flow.pumpOut s o).2.1).1)
    (s := { s with taken, unread, accepted, queued }) ⟨h.endpoint, h.remote⟩ hlisten
  exact abortApp_placed _ hplaced hstill

theorem pump_placed {socket : Option Socket} {s' : Socket}
    (h : ∀ s, socket = some s → s.PlacedFor k ∧ s.state ≠ .listen)
    (hs' : (flow.pump socket o).2.2 = some s') :
    s'.PlacedFor k ∧ s'.state ≠ .listen := by
  rcases flow.stages with hconn | ⟨hconn, hshake⟩ | hsettled
  · rw [pump_of_connecting socket hconn] at hs'
    exact h s' hs'
  · rw [pump_of_handshake socket hconn hshake] at hs'
    exact h s' hs'
  cases socket with
  | none =>
    rw [pump_of_settled_none hsettled] at hs'
    cases hs'
  | some s =>
    rw [pump_of_settled_some s hsettled] at hs'
    rw [← some.inj hs']
    exact relay_placed (h s rfl).1 (h s rfl).2

end TcpFlow

/-! ## The flows -/

namespace Forwarding

variable {s : Forwarding} {k : FlowKey} {flow : TcpFlow} {w : List Waiting}

/-- The flow of the key has the socket of the slot. -/
def Holds (s : Forwarding) (k : FlowKey) (i : Nat) :
    Prop := ∃ flow, s.tcp.get? k = some flow ∧ flow.socket = some i

theorem Owned.holds_inj (h : s.Owned) (k k' : FlowKey) (i : Nat) (hk : s.Holds k i)
    (hk' : s.Holds k' i) : k = k' := by
  obtain ⟨f, hf, hi⟩ := hk
  obtain ⟨f', hf', hi'⟩ := hk'
  exact h.distinct k k' f f' i hf hf' hi hi'

/-- Every flow's socket has the flow's own connection, and every flow without a socket holds its own
SYN. -/
structure Apart (s : Forwarding) (w : List Waiting) : Prop where
  owned : s.Owned
  seated : SocketSet.Seated s.Holds s.sockets w
  held : ∀ k flow, s.tcp.get? k = some flow → flow.socket = none →
    ∃ syn sequence, flow.heldSyn = some (syn, sequence) ∧ k.Opens syn

theorem Apart.socket (h : s.Apart []) (hget : s.tcp.get? k = some flow) {socket : Socket}
    (hsocket : s.socketOf flow = some socket) : socket.PlacedFor k ∧ socket.state ≠ .listen := by
  obtain ⟨i, hi, hs⟩ := bind_eq_some_iff.1 hsocket
  exact ⟨h.seated.placed k i socket ⟨flow, hget, hi⟩ hs, h.seated.not_listen hs⟩

theorem apart_of_sockets (h : s.Owned)
    (hplaced : ∀ k flow socket, s.tcp.get? k = some flow → s.socketOf flow = some socket →
      socket.PlacedFor k ∧ socket.state ≠ .listen)
    (hheld : ∀ k flow, s.tcp.get? k = some flow → flow.socket = none →
      ∃ syn sequence, flow.heldSyn = some (syn, sequence) ∧ k.Opens syn) : s.Apart [] := by
  refine ⟨h, ⟨?_, ?_, nofun, .nil⟩, hheld⟩
  · rintro k i socket ⟨flow, hget, hi⟩ hs
    exact (hplaced k flow socket hget (by rw [socketOf, hi]; exact hs)).1
  · intro i socket hs hlisten
    obtain ⟨k, flow, hget, hi⟩ := h.owned i socket hs
    exact absurd hlisten (hplaced k flow socket hget (by rw [socketOf, hi]; exact hs)).2

theorem new_apart (client : Octets) (exit : Exit) : (new client exit).Apart [] :=
  apart_of_sockets (new_owned client exit) (fun _ _ _ h => nomatch h) fun _ _ h =>
    absurd h (by simp [new])

theorem pumpFlows_apart (h : s.Apart []) (order : List FlowKey) (outside : FlowKey → Outside) :
    (s.pumpFlows order outside).state.Apart [] := by
  have hp := pumpFlows_pumped h.owned order outside
  have hback : ∀ k flow', (s.pumpFlows order outside).state.tcp.get? k = some flow' →
      ∃ flow, s.tcp.get? k = some flow ∧
      flow' = (flow.pump (s.socketOf flow) (outside k)).2.1 ∧
      (s.pumpFlows order outside).state.socketOf flow' =
        (flow.pump (s.socketOf flow) (outside k)).2.2 := by
    intro k flow' hget'
    cases hget : s.tcp.get? k with
    | none =>
      rw [hp.absent k hget] at hget'
      cases hget'
    | some flow =>
      obtain ⟨hstate, hsocket⟩ := hp.pumped k flow (mem_keysIn.2 ⟨flow, hget⟩) hget
      cases hstate.symm.trans hget'
      exact ⟨flow, rfl, rfl, hsocket⟩
  refine apart_of_sockets hp.owned ?_ ?_
  · intro k flow' socket hget' hsocket'
    obtain ⟨flow, hget, rfl, hsocket⟩ := hback k flow' hget'
    exact TcpFlow.pump_placed (fun socket₀ hs₀ => h.socket hget hs₀) (hsocket.symm.trans hsocket')
  intro k flow' hget' hnone'
  obtain ⟨flow, hget, rfl, hsocket⟩ := hback k flow' hget'
  have hnone : flow.socket = none := (TcpFlow.pump_socket _ _ _).symm.trans hnone'
  have hempty : s.socketOf flow = none := by rw [socketOf, hnone, bind_none]
  rw [TcpFlow.pump_heldSyn]
  exact h.held k flow hget hnone

/-! ### Accepting -/

/-- The SYNs of the flows that were accepted so far wait for smoltcp, in the order of their sockets.
-/
structure HandedOver (s : Forwarding) (w : List Waiting) : Prop where
  apart : s.Apart w
  rx : s.rx = w.map Waiting.syn
  below : ∀ a ∈ w, a.handle < s.sockets.firstFree

variable {s' : Forwarding}

theorem holds_insert {flow' : TcpFlow} (htcp : s'.tcp = s.tcp.insert k flow')
    (hget : s.tcp.get? k = some flow) (hsocket : flow'.socket = flow.socket) (j : FlowKey)
    (i : Nat) :
    s'.Holds j i ↔ s.Holds j i := by
  rw [Holds, Holds, htcp, get?_insert]
  by_cases hj : j = k
  · rw [if_pos hj, hj, hget]
    constructor
    · rintro ⟨f, hf, hi⟩
      exact ⟨flow, rfl, by rw [← hsocket, some.inj hf]; exact hi⟩
    · rintro ⟨f, hf, hi⟩
      exact ⟨flow', rfl, by rw [hsocket, some.inj hf]; exact hi⟩
  · rw [if_neg hj]

theorem Seated.congr {sockets : SocketSet} {holds holds' : FlowKey → Nat → Prop}
    (h : SocketSet.Seated holds sockets w)
    (hsame : ∀ k i, holds' k i ↔ holds k i) : SocketSet.Seated holds' sockets w where
  placed k i s hk := h.placed k i s ((hsame k i).1 hk)
  listening := h.listening
  waiting a ha := by
    obtain ⟨hholds, hrest⟩ := h.waiting a ha
    exact ⟨(hsame _ _).2 hholds, hrest⟩
  ordered := h.ordered

theorem HandedOver.unheard {flow' : TcpFlow} (h : s.HandedOver w)
    (howned : { s with tcp := s.tcp.insert k flow' }.Owned)
    (hget : s.tcp.get? k = some flow) (hsocket : flow'.socket = flow.socket)
    (hsyn : flow'.heldSyn = flow.heldSyn) :
    HandedOver { s with tcp := s.tcp.insert k flow' } w := by
  refine ⟨⟨howned, Seated.congr h.apart.seated (holds_insert rfl hget hsocket), ?_⟩, h.rx, h.below⟩
  intro j f hf hnone
  rw [get?_insert] at hf
  split at hf
  next hj =>
    cases hf
    rw [hj, hsyn]
    exact h.apart.held k flow hget (hsocket.symm.trans hnone)
  · exact h.apart.held j f hf hnone

theorem listenOn_eq {endpoint : SocketAddr} {fresh : Socket} (h : listenOn endpoint = some fresh) :
    fresh.state = .listen ∧ fresh.endpoint = endpoint := by
  rw [listenOn] at h
  split at h
  · cases h
  · rw [← some.inj h]
    exact ⟨rfl, rfl⟩

/-- A flow that is listened for hands its SYN over. -/
theorem HandedOver.listens {fresh : Socket} {syn : Bytes} {sequence : UInt32} {leftover : Bytes}
    (h : s.HandedOver w) (howned : s'.Owned) (hget : s.tcp.get? k = some flow)
    (hnone : flow.socket = none) (hheld : flow.heldSyn = some (syn, sequence))
    (hopens : k.Opens syn) (hlisten : listenOn k.remote = some fresh) (hs' : s' = { s with
      sockets := s.sockets.add fresh
      tcp := s.tcp.insert k
        { flow with socket := some s.sockets.firstFree, toApp := leftover, heldSyn := none }
      rx := s.rx ++ (flow.heldSyn.map Prod.fst).toList }) :
    s'.HandedOver (w ++ [⟨k, s.sockets.firstFree, syn⟩]) := by
  subst hs'
  obtain ⟨hstate, hendpoint⟩ := listenOn_eq hlisten
  have hfree : ∀ a ∈ w, a.handle ≠ s.sockets.firstFree := fun a ha => Nat.ne_of_lt (h.below a ha)
  -- The new slot is the flow's, and no other slot is.
  have hself : (s.tcp.insert k
      { flow with socket := some s.sockets.firstFree, toApp := leftover, heldSyn := none }).get? k =
      some { flow with socket := some s.sockets.firstFree, toApp := leftover, heldSyn := none } :=
    get?_insert_self _ _ _
  have hother : ∀ j i, s.Holds j i → j ≠ k := by
    rintro j i ⟨f, hf, hi⟩ rfl
    rw [hget] at hf
    rw [← some.inj hf, hnone] at hi
    cases hi
  refine ⟨⟨howned, ⟨?_, ?_, ?_, ?_⟩, ?_⟩, ?_, ?_⟩
  · rintro j i socket ⟨f, hf, hi⟩ hs
    rw [get?_insert] at hf
    rw [get?_add] at hs
    split at hf
    next hj =>
      cases hf
      rw [if_pos (some.inj hi)] at hs
      cases hs
      exact ⟨hendpoint.trans (by rw [hj]), fun huse => absurd huse (by simp [inUse, hstate])⟩
    · have hne : s.sockets.firstFree ≠ i := by
        rintro rfl
        exact h.apart.owned.occupied j f _ hf hi s.sockets.get?_firstFree
      rw [if_neg hne] at hs
      exact h.apart.seated.placed j i socket ⟨f, hf, hi⟩ hs
  · intro i socket hs hl
    rw [get?_add] at hs
    split at hs
    · next hi => exact ⟨_, mem_append_right _ mem_cons_self, hi⟩
    · obtain ⟨a, ha, hai⟩ := h.apart.seated.listening i socket hs hl
      exact ⟨a, mem_append_left _ ha, hai⟩
  · intro a ha
    rcases mem_snoc.1 ha with ha | rfl
    · obtain ⟨hholds, hopens', socket, hs, hl⟩ := h.apart.seated.waiting a ha
      obtain ⟨f, hf, hi⟩ := hholds
      have hne := hother a.key a.handle ⟨f, hf, hi⟩
      refine ⟨⟨f, ?_, hi⟩, hopens', socket, ?_, hl⟩
      · exact (get?_insert _ _ _ _).trans ((if_neg hne).trans hf)
      · exact (get?_add _ _ _).trans ((if_neg (Ne.symm (hfree a ha))).trans hs)
    · exact ⟨⟨_, hself, rfl⟩, hopens, fresh, (get?_add _ _ _).trans (if_pos rfl), hstate⟩
  · rw [pairwise_append]
    refine ⟨h.apart.seated.ordered, pairwise_singleton _ _, fun a ha b hb => ?_⟩
    rw [mem_singleton.1 hb]
    exact h.below a ha
  · intro j f hf hfnone
    rw [get?_insert] at hf
    split at hf
    · rw [← some.inj hf] at hfnone
      cases hfnone
    · exact h.apart.held j f hf hfnone
  · rw [map_append, ← h.rx, hheld]
    rfl
  · intro a ha
    have hlt := s.sockets.firstFree_lt_add fresh
    rcases mem_snoc.1 ha with ha | rfl
    · exact Nat.lt_trans (h.below a ha) hlt
    · exact hlt

theorem acceptTcp_handedOver (h : s.HandedOver w) (hget : s.tcp.get? k = some flow)
    (hnone : flow.socket = none) (hsettled : flow.Settled) (leftover : Bytes) :
    ∃ w', (s.acceptTcp k leftover).HandedOver w' ∧ ∀ a ∈ w', a ∈ w ∨ a.key = k := by
  have howned := (acceptTcp_accepts h.apart.owned hget hnone hsettled leftover).owned
  obtain ⟨syn, sequence, hheld, hopens⟩ := h.apart.held k flow hget hnone
  rw [acceptTcp, hget] at howned ⊢
  cases hlisten : listenOn k.remote with
  | none =>
    rw [hlisten] at howned
    exact ⟨w, h.unheard howned hget rfl rfl, fun a ha => .inl ha⟩
  | some fresh =>
    rw [hlisten] at howned
    refine ⟨_, h.listens howned hget hnone hheld hopens hlisten rfl, fun a ha => ?_⟩
    rcases mem_snoc.1 ha with ha | ha
    · exact .inl ha
    · exact .inr (by rw [ha])

theorem acceptAll_handedOver (entries : List (FlowKey × Bytes)) :
    ∀ {s : Forwarding} {w : List Waiting}, s.HandedOver w →
    (entries.map Prod.fst).Nodup →
    (∀ e ∈ entries, ∃ flow, s.tcp.get? e.1 = some flow ∧ flow.socket = none ∧ flow.Settled) →
    ∃ w', (entries.foldl (fun s e => s.acceptTcp e.1 e.2) s).HandedOver w' ∧
      ∀ a ∈ w', a ∈ w ∨ a.key ∈ entries.map Prod.fst := by
  induction entries with
  | nil => exact fun h _ _ => ⟨_, h, fun a ha => .inl ha⟩
  | cons e entries ih =>
    obtain ⟨k, first⟩ := e
    intro s w h hnodup hflows
    obtain ⟨flow, hget, hnone, hsettled⟩ := hflows (k, first) mem_cons_self
    have hone := acceptTcp_accepts h.apart.owned hget hnone hsettled first
    obtain ⟨hnotin, hnodup'⟩ := nodup_cons.1 hnodup
    obtain ⟨w₁, hw₁, hkeys₁⟩ := acceptTcp_handedOver h hget hnone hsettled first
    obtain ⟨w', hw', hkeys⟩ := ih hw₁ hnodup' fun e' he' => by
      have hne : e'.1 ≠ k := fun heq => hnotin (mem_map.2 ⟨e', he', heq⟩)
      obtain ⟨f, hf, hfnone, hfsettled⟩ := hflows e' (mem_cons_of_mem _ he')
      exact ⟨f, (hone.other e'.1 hne).trans hf, hfnone, hfsettled⟩
    refine ⟨w', hw', fun a ha => ?_⟩
    rcases hkeys a ha with hin | hin
    · rcases hkeys₁ a hin with hin | hin
      · exact .inl hin
      · exact .inr (by rw [hin]; exact mem_cons_self)
    · exact .inr (mem_cons_of_mem _ hin)

/-! ### Removing, and a whole turn -/

theorem Apart.congr (h : s.Apart w) (htcp : s'.tcp = s.tcp) (hsockets : s'.sockets = s.sockets) :
    s'.Apart w := by
  refine ⟨h.owned.congr htcp hsockets, ?_, by rw [htcp]; exact h.held⟩
  rw [hsockets]
  exact Seated.congr h.seated fun k i => by rw [Holds, Holds, htcp]

theorem Removes.apart {keys : List FlowKey} {removed : List Removed}
    (hrem : Removes s keys s' removed) (h : s.Apart w) (hkept : ∀ a ∈ w, a.key ∉ keys) :
    s'.Apart w := by
  -- A flow that is still there is what it was, with its socket.
  have hback : ∀ k flow, s'.tcp.get? k = some flow → s.tcp.get? k = some flow ∧ s'.socketOf flow =
      s.socketOf flow := by
    intro k flow hget
    have hk : k ∉ keys := by
      intro hmem
      rw [hrem.gone k hmem] at hget
      cases hget
    have hget' := (hrem.other k hk).symm.trans hget
    exact ⟨hget', hrem.otherSocket k flow hk hget'⟩
  have hslot : ∀ k flow i, s'.tcp.get? k = some flow → flow.socket = some i →
      s'.sockets.get? i = s.sockets.get? i := by
    intro k flow i hget hi
    have hsame := (hback k flow hget).2
    simpa only [socketOf, hi, bind_some] using hsame
  refine ⟨hrem.owned, ⟨?_, ?_, ?_, h.seated.ordered⟩, ?_⟩
  · rintro k i socket ⟨flow, hget, hi⟩ hs
    rw [hslot k flow i hget hi] at hs
    exact h.seated.placed k i socket ⟨flow, (hback k flow hget).1, hi⟩ hs
  · intro i socket hs hl
    obtain ⟨k, flow, hget, hi⟩ := hrem.owned.owned i socket hs
    rw [hslot k flow i hget hi] at hs
    exact h.seated.listening i socket hs hl
  · intro a ha
    obtain ⟨⟨flow, hget, hi⟩, hopens, socket, hs, hl⟩ := h.seated.waiting a ha
    have hget' : s'.tcp.get? a.key = some flow := (hrem.other a.key (hkept a ha)).trans hget
    exact ⟨⟨flow, hget', hi⟩, hopens, socket, (hslot a.key flow a.handle hget' hi).trans hs, hl⟩
  · exact fun k flow hget hnone => h.held k flow (hback k flow hget).1 hnone

theorem removeAll_rx (keys : List FlowKey) (s : Forwarding) : (s.removeAll keys).1.rx = s.rx := by
  induction keys generalizing s with
  | nil => rfl
  | cons k keys ih =>
    have hone : (s.removeTcp k).1.rx = s.rx := by
      rw [removeTcp]
      split <;> rfl
    exact (ih (s.removeTcp k).1).trans hone

theorem accepted_not_removed (h : s.Owned) {order : List FlowKey} {outside : FlowKey → Outside}
    (hacc : k ∈ (s.pumpFlows order outside).accepted.map Prod.fst) :
    k ∉ (s.pumpFlows order outside).finished ++
      (s.pumpFlows order outside).refused.map Prod.fst := by
  have hp := pumpFlows_pumped h order outside
  obtain ⟨⟨k', leftover⟩, hin, rfl⟩ := mem_map.1 hacc
  rw [hp.accepted] at hin
  obtain ⟨j, -, hin⟩ := mem_filterMap.1 hin
  have hout := (acceptedIn_eq_some_iff.1 hin).2
  intro hmem
  rcases mem_append.1 hmem with hmem | hmem
  · rw [hp.finished] at hmem
    obtain ⟨j', -, hmem⟩ := mem_filterMap.1 hmem
    cases hout.symm.trans (finishedIn_eq_some_iff.1 hmem).2
  obtain ⟨⟨k'', reason⟩, hmem, hk⟩ := mem_map.1 hmem
  rw [hp.refused] at hmem
  obtain ⟨j', -, hmem⟩ := mem_filterMap.1 hmem
  dsimp only at hk
  rw [hk] at hmem
  cases hout.symm.trans (refusedIn_eq_some_iff.1 hmem).2

theorem pumpTcp_apart (h : s.Apart []) (hrx : s.rx = []) (order : List FlowKey)
    (outside : FlowKey → Outside) :
    ∃ w, (s.pumpTcp order outside).1.Apart w ∧ (s.pumpTcp order outside).1.rx =
      w.map Waiting.syn := by
  have hp := pumpFlows_pumped h.owned order outside
  have hstart : (s.pumpFlows order outside).state.HandedOver [] :=
    ⟨pumpFlows_apart h order outside, hp.rx.trans hrx, nofun⟩
  obtain ⟨w, hw, hkeys⟩ := acceptAll_handedOver (s.pumpFlows order outside).accepted hstart
    (nodup_accepted h.owned order) fun e he => accepted_ready h.owned order he
  obtain ⟨htcp, hsockets, hrx'⟩ := refuseAll_same (s.pumpFlows order outside).refused
    ((s.pumpFlows order outside).accepted.foldl (fun s e => s.acceptTcp e.1 e.2)
      (s.pumpFlows order outside).state)
  have hrefused := hw.apart.congr htcp hsockets
  refine ⟨w, (removeAll_removes _ hrefused.owned).apart hrefused fun a ha => ?_, ?_⟩
  · rcases hkeys a ha with hin | hin
    · exact absurd hin not_mem_nil
    · exact accepted_not_removed h.owned hin
  · rw [pumpTcp, removeAll_rx]
    exact hrx'.trans hw.rx

theorem poll_apart {first : Reactions} (h : s.Apart [])
    (hsafe : SocketSet.AllSafe first 0 s.sockets s.rx) :
    (s.poll first).Apart [] :=
  ⟨poll_owned h.owned first, h.seated.poll hsafe, h.held⟩

theorem turn_apart {first second : Reactions} {order : List FlowKey} {outside : FlowKey → Outside}
    (h : s.Apart []) (hsafe : SocketSet.AllSafe first 0 s.sockets s.rx) :
    (s.turn first order outside second).1.Apart [] := by
  obtain ⟨w, hw, hrx⟩ := pumpTcp_apart (poll_apart h hsafe) rfl order outside
  refine ⟨poll_owned hw.owned second, ?_, hw.held⟩
  have hseated := hw.seated.pollWaiting hw.owned.holds_inj second
  rw [← hrx] at hseated
  exact hseated

/-! ### The other events -/

/-- A SYN that would be held for a flow is nothing but a SYN. -/
def HoldsPlainly (s : Forwarding) (g : Segment) : Prop :=
  match s.tcp.get? ⟨g.source.port, g.destination⟩ with
  | none => g.ack = true ∨ (g.rst = false ∧ g.fin = false)
  | some flow => flow.socket = none → g.rst = true ∨ (g.ack = false ∧ g.fin = false)

theorem holdsPlainly_of_new {g : Segment} (hflags : g.rst = false ∧ g.fin = false)
    (hnone : s.tcp.get? ⟨g.source.port, g.destination⟩ = none) : s.HoldsPlainly g := by
  rw [HoldsPlainly, hnone]
  exact .inr hflags

theorem PacketEffect.apart {packet : Bytes} {removed : List Removed}
    (heffect : PacketEffect s packet s' removed) (h : s.Apart [])
    (hplain : ∀ g ∈ segmentOf packet, g.syn = true → s.HoldsPlainly g) : s'.Apart [] := by
  have howned := heffect.owned h.owned
  cases heffect with
  | same _ htcp hsockets _ => exact h.congr htcp hsockets
  | queued _ => exact h.congr rfl rfl
  | cancelled k flow hget hnone =>
    exact (removeTcp_removes h.owned k).apart h nofun
  | held g flow sequence hg hsyn hrst hget hnone =>
    have hg' := hplain g hg hsyn
    rw [HoldsPlainly, hget] at hg'
    have hflags : g.ack = false ∧ g.fin = false := by
      rcases hg' hnone with hr | hflags
      · cases hrst.symm.trans hr
      · exact hflags
    refine ⟨howned, Seated.congr h.seated (holds_insert rfl hget rfl), fun j f hf hfnone => ?_⟩
    rw [get?_insert] at hf
    split at hf
    next hj =>
      rw [← some.inj hf, hj]
      exact ⟨packet, sequence, rfl, g, hg, hsyn, hflags.1, hrst, hflags.2, rfl, rfl⟩
    · exact h.held j f hf hfnone
  | opened g sequence token now hg hsyn hack hget =>
    have hg' := hplain g hg hsyn
    rw [HoldsPlainly, hget] at hg'
    have hflags : g.rst = false ∧ g.fin = false := by
      rcases hg' with ha | hflags
      · cases hack.symm.trans ha
      · exact hflags
    have hback : ∀ j f, (s.tcp.insert ⟨g.source.port, g.destination⟩
        (.opened (Upstream.dial token s.exit .connect g.destination) packet sequence now)).get? j =
          some f →
        f.socket ≠ none → s.tcp.get? j = some f := by
      intro j f hf hsome
      rw [get?_insert] at hf
      split at hf
      · rw [← some.inj hf] at hsome
        exact absurd rfl hsome
      · exact hf
    refine apart_of_sockets howned (fun j f socket hf hsocket => ?_) fun j f hf hfnone => ?_
    · refine h.socket (hback j f hf ?_) hsocket
      intro hnone
      simp [socketOf, hnone] at hsocket
    rw [get?_insert] at hf
    split at hf
    next hj =>
      rw [← some.inj hf, hj]
      exact ⟨packet, sequence, rfl, g, hg, hsyn, hack, hflags.1, hflags.2, rfl, rfl⟩
    · exact h.held j f hf hfnone

theorem ready_apart (h : s.Apart []) (j : FlowKey) (readable : Bool) (o : Outside) :
    (s.ready j readable o).Apart [] := by
  have howned := ready_owned (k := j) h.owned readable o
  rw [ready] at howned ⊢
  cases hget : s.tcp.get? j with
  | none => exact h
  | some flow =>
    rw [hget] at howned
    refine ⟨howned, Seated.congr h.seated (holds_insert rfl hget rfl), fun k f hf hnone => ?_⟩
    rw [get?_insert] at hf
    split at hf
    next hk =>
      cases hf
      rw [hk]
      exact h.held j flow hget hnone
    · exact h.held k f hf hnone

end Forwarding

/-! ## Runs -/

/-- A SYN that is to be held is nothing but a SYN, and no reset reaches a connection that is half
open. -/
def Event.Orderly (c : Config Forwarding Event (List Removed)) : Event → Prop
  | .packet bytes _ _ _ => ∀ g ∈ segmentOf bytes, g.syn = true → c.state.HoldsPlainly g
  | .turn first _ _ _ => SocketSet.AllSafe first 0 c.state.sockets c.state.rx
  | _ => True

namespace Forwarding

/-- The connection of every socket is that of its flow, and no two flows have one socket. -/
def Uncrossed (s : Forwarding) : Prop :=
  (∀ k flow socket, s.tcp.get? k = some flow → s.socketOf flow = some socket → socket.inUse = true →
    socket.endpoint = k.remote ∧ ∃ a, socket.remote = some a ∧ a.port = k.localPort) ∧
  ∀ k k' flow flow' i, s.tcp.get? k = some flow → s.tcp.get? k' = some flow' →
    flow.socket = some i →
    flow'.socket = some i → k = k'

theorem Apart.uncrossed {s : Forwarding} (h : s.Apart []) : s.Uncrossed := by
  refine ⟨fun k flow socket hget hsocket huse => ?_, h.owned.distinct⟩
  obtain ⟨hplaced, -⟩ := h.socket hget hsocket
  exact ⟨hplaced.endpoint, hplaced.remote huse⟩

theorem step_apart (c : Config Forwarding Event (List Removed)) (e : Event) (horderly : e.Orderly c)
    (h : c.state.Apart []) : (c.state.step e).1.Apart [] := by
  cases e with
  | packet bytes token dialled now =>
    exact (onAppPacket_effect c.state bytes token dialled now).apart h horderly
  | ready key readable o => exact ready_apart h key readable o
  | turn first order outside second => exact turn_apart h horderly
  | shutdown order => exact (shutdown_removes h.owned order).apart h nofun

/-- In every run in which the SYNs that are held are plain and no reset reaches a connection that is
half open, the connection of every socket is that of its flow, after every event and where a further
turn pumps. -/
theorem connections_are_not_crossed (client : Octets) (exit : Exit) (events : List Event)
    (hmeets : Meets step Event.Orderly ⟨new client exit, []⟩ events) :
    (exec step (new client exit) events).state.Uncrossed ∧
      ∀ first order outside second, (Event.turn first order outside second).Orderly
        (exec step (new client exit) events) →
        ((exec step (new client exit) events).state.poll first).Uncrossed := by
  have hall : (exec step (new client exit) events).state.Apart [] :=
    execFrom_invariant_of_meets (I := fun c => Apart c.state [])
      (fun c e hok hc => step_apart c e hok hc) events _
      hmeets (new_apart client exit)
  exact ⟨hall.uncrossed, fun first order outside second hsafe => (poll_apart hall hsafe).uncrossed⟩

end Forwarding

/-! ## Runs that show it -/

/-- Another connection to the web server. -/
def secondFlow : FlowKey := { webFlow with localPort := 50001 }

/-- An application opens it. -/
def secondSyn : Event := .packet (bareSegment ⟨(10, 207, 0, 2),
    50001⟩ secondFlow.remote 0x02) 2 true 0

/-- Two connections to one server whose dials complete in the same turn get a socket each. -/
theorem connections_are_not_crossed_together :
    Meets step Event.Orderly ⟨.new (10, 207, 0, 2) .adapter, []⟩ [webSyn, secondSyn, openingTurn] ∧
      (exec step (.new (10, 207, 0, 2) .adapter) [webSyn, secondSyn,
        openingTurn]).state.Uncrossed := by
  have hmeets : Meets step Event.Orderly ⟨.new (10, 207, 0, 2) .adapter, []⟩
      [webSyn, secondSyn, openingTurn] := by
    refine ⟨fun g hg hsyn => ?_, fun g hg hsyn => ?_, nofun, trivial⟩
    · have hseg : g = ⟨⟨(10, 207, 0, 2), 50000⟩, webFlow.remote, true, false, false, false⟩ :=
        Option.some.inj (hg.symm.trans (by decide +kernel))
      subst hseg
      exact holdsPlainly_of_new ⟨rfl, rfl⟩ (by decide +kernel)
    · have hseg : g = ⟨⟨(10, 207, 0, 2), 50001⟩, webFlow.remote, true, false, false, false⟩ :=
        Option.some.inj (hg.symm.trans (by decide +kernel))
      subst hseg
      exact holdsPlainly_of_new ⟨rfl, rfl⟩ (by decide +kernel)
  exact ⟨hmeets, (connections_are_not_crossed _ _ _ hmeets).1⟩

/-- A reset of a half open connection makes its socket listen again, and nothing else happens. -/
def Reactions.resetting : Reactions where
  segment _ s g :=
    if g.rst = true ∧ s.state = .synReceived then { s with state := .listen, remote := none } else s
  segment_moves _ s g := by
    split
    next h =>
      exact ⟨rfl, rfl, rfl, rfl, ⟨[], (append_nil _).symm, fun _ => rfl⟩, id, id,
        nofun, fun _ => .inr h, nofun,
        fun hc => nomatch (h.2.symm.trans hc)⟩
    · exact Moves.refl g.rst s
  egress _ s := s
  egress_moves _ s := Moves.refl false s
  reassembled _ _ := none

/-- The application gives its connection up. -/
def webReset : Event := .packet (bareSegment ⟨(10, 207, 0, 2), 50000⟩ webFlow.remote 0x04) 3 true 0

/-- A turn in which dials complete, and resets are the only segments that matter. -/
def resettingTurn : Event :=
  .turn Reactions.resetting [] (fun _ =>
    { Outside.idle with connect := .opened }) Reactions.resetting

/-- A connection is given up while it is half open, so that its socket listens again. The SYN of the
next connection to the same server is taken by that socket, and what the second application sends
goes to the first flow's stream. -/
theorem connections_are_crossed :
    ∃ flow socket, (exec step (.new (10, 207, 0, 2) .adapter)
        [webSyn, resettingTurn, webReset, resettingTurn, secondSyn,
          resettingTurn]).state.tcp.get? webFlow = some flow ∧
      (exec step (.new (10, 207, 0, 2) .adapter)
        [webSyn, resettingTurn, webReset, resettingTurn, secondSyn,
          resettingTurn]).state.socketOf flow = some socket ∧
      socket.inUse = true ∧ socket.remote = some ⟨(10, 207, 0, 2), secondFlow.localPort⟩ ∧
      secondFlow.localPort ≠ webFlow.localPort := by
  have hrun : ((exec step (.new (10, 207, 0, 2) .adapter)
      [webSyn, resettingTurn, webReset, resettingTurn, secondSyn,
        resettingTurn]).state.tcp.get? webFlow).bind (fun flow =>
        ((exec step (.new (10, 207, 0, 2) .adapter)
          [webSyn, resettingTurn, webReset, resettingTurn, secondSyn,
            resettingTurn]).state.socketOf flow).map fun socket =>
            (socket.inUse, socket.remote)) = some (true, some ⟨(10, 207, 0, 2), 50001⟩) := by
    decide +kernel
  obtain ⟨flow, hflow, hsome⟩ := Option.bind_eq_some_iff.1 hrun
  obtain ⟨socket, hsocket, hparts⟩ := Option.map_eq_some_iff.1 hsome
  obtain ⟨huse, hremote⟩ := Prod.mk.inj hparts
  exact ⟨flow, socket, hflow, hsocket, huse, hremote, by decide⟩

end GamePath.Engine.Tun2socks
