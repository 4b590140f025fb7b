import GamePath.Engine.Tun2socks.Forwarding

/-!
# What an event does to one flow

The flows of the stack share one set of sockets, but none touches the socket of another: handles are
distinct and every socket has its flow (`Forwarding.Owned`). So a turn, which goes over all flows,
is for each of them: smoltcp works on its socket, the flow is pumped once, it may be accepted or
removed, and smoltcp works on its socket again. `turn_flow` and `turn_removed` say so, and every
invariant of a single flow follows from them.
-/

namespace GamePath.Engine.Tun2socks

open Lib List Option Upstream
open Socks (SocketAddr Token)

/-! ## What smoltcp does to a socket -/

/-- What `poll` may do to a socket, as far as its streams go. -/
structure Socket.Drifts (s s' : Socket) : Prop where
  endpoint : s'.endpoint = s.endpoint
  taken : s'.taken = s.taken
  accepted : s'.accepted = s.accepted
  closeCalled : s'.closeCalled = s.closeCalled
  unread : ∃ more, s'.unread = s.unread ++ more
  bounded : s.unread.length ≤ tcpReceiveBuffer → s'.unread.length ≤ tcpReceiveBuffer

namespace Socket

theorem Drifts.refl (s : Socket) : s.Drifts s :=
  ⟨rfl, rfl, rfl, rfl, ⟨[], (append_nil _).symm⟩, id⟩

theorem Drifts.trans {a b c : Socket} (h : a.Drifts b) (h' : b.Drifts c) : a.Drifts c where
  endpoint := h'.endpoint.trans h.endpoint
  taken := h'.taken.trans h.taken
  accepted := h'.accepted.trans h.accepted
  closeCalled := h'.closeCalled.trans h.closeCalled
  unread := by
    obtain ⟨more, hmore⟩ := h.unread
    obtain ⟨more', hmore'⟩ := h'.unread
    exact ⟨more ++ more', by rw [hmore', hmore, append_assoc]⟩
  bounded hlen := h'.bounded (h.bounded hlen)

theorem Moves.drifts {reset : Bool} {s s' : Socket} (h : s.Moves reset s') : s.Drifts s' where
  endpoint := h.endpoint
  taken := h.taken
  accepted := h.accepted
  closeCalled := h.closeCalled
  unread := by
    obtain ⟨more, hmore, -⟩ := h.unread
    exact ⟨more, hmore⟩
  bounded := h.bounded

end Socket

theorem Segment.takenBy_drifts (g : Segment) (s : Socket) : s.Drifts (g.takenBy s) :=
  ⟨rfl, rfl, rfl, rfl, ⟨[], (append_nil _).symm⟩, id⟩

namespace SocketSet

/-- The two sets have the same slots in use, and each socket of the first may have become the one of
the second. -/
def Drifts (sockets sockets' : SocketSet) : Prop :=
  ∀ i, Option.Rel Socket.Drifts (sockets.get? i) (sockets'.get? i)

theorem relRefl (socket : Option Socket) : Option.Rel Socket.Drifts socket socket := by
  cases socket with
  | none => exact .none
  | some s => exact .some (Socket.Drifts.refl s)

theorem relTrans {a b c : Option Socket} (h : Option.Rel Socket.Drifts a b)
    (h' : Option.Rel Socket.Drifts b c) :
    Option.Rel Socket.Drifts a c := by
  cases h with
  | none => exact h'
  | some hab =>
    cases h' with
    | some hbc => exact .some (hab.trans hbc)

theorem relIsSome {a b : Option Socket} (h : Option.Rel Socket.Drifts a b) :
    b.isSome = a.isSome := by
  cases h <;> rfl

variable (r : Reactions) (sockets : SocketSet)

theorem Drifts.refl : Drifts sockets sockets := fun _ => relRefl _

theorem Drifts.trans {a b c : SocketSet} (h : Drifts a b) (h' : Drifts b c) : Drifts a c :=
  fun i => relTrans (h i) (h' i)

theorem modify_drifts (i : Nat) {f : Socket → Socket} (hf : ∀ s, Socket.Drifts s (f s)) :
    Drifts sockets (sockets.modify i f) := by
  intro j
  rw [Slots.get?_modify]
  split
  · cases sockets.get? j with
    | none => exact .none
    | some s => exact .some (hf s)
  · exact relRefl _

theorem receive_drifts (n : Nat) (sockets : SocketSet) (g : Segment) :
    Drifts sockets (sockets.receive r n g) := by
  rw [receive]
  split
  · split
    · exact modify_drifts sockets _ g.takenBy_drifts
    · split
      · exact modify_drifts sockets _ fun s => (r.segment_moves n s g).drifts
      · exact Drifts.refl sockets
  · exact Drifts.refl sockets

theorem ingress_drifts (n : Nat) (sockets : SocketSet) (packet : Bytes) :
    Drifts sockets (sockets.ingress r n packet) := by
  rw [ingress]
  split
  · exact receive_drifts r n sockets _
  · split
    · exact receive_drifts r n sockets _
    · exact Drifts.refl sockets

theorem ingressAll_drifts (n : Nat) (sockets : SocketSet) (packets : List Bytes) :
    Drifts sockets (ingressAll r n sockets packets) := by
  induction packets generalizing n sockets with
  | nil => exact Drifts.refl sockets
  | cons packet packets ih => exact (ingress_drifts r n sockets packet).trans (ih _ _)

/-- smoltcp only adds to what waits in a socket to be taken. -/
theorem poll_drifts (rx : List Bytes) :
    Drifts sockets (SocketSet.poll r sockets rx) := by
  apply (ingressAll_drifts r 0 sockets rx).trans
  intro i
  rw [SocketSet.poll, Slots.get?_mapSlots]
  cases (ingressAll r 0 sockets rx).get? i with
  | none => exact .none
  | some s => exact .some (r.egress_moves i s).drifts

end SocketSet

/-! ## What a flow keeps when it is pumped -/

namespace Upstream

theorem read_handshake (u : Upstream) (room : Nat) (o : Outside) :
    (u.read room o).2.2.1.handshake = u.handshake := by
  rw [read]
  dsimp only
  split <;> rfl

theorem read_connecting (u : Upstream) (room : Nat) (o : Outside) :
    (u.read room o).2.2.1.connecting = u.connecting := by
  rw [read]
  dsimp only
  split <;> rfl

theorem advance_connecting (u : Upstream) (data : Bytes) (o : Outside) :
    (u.advance data o).2.1.connecting = u.connecting := by
  rw [advance]
  split
  · rfl
  · split
    · rfl
    · exact (flush_flushed _ _).connecting
    · rfl
    · rfl

/-- With the answer the handshake is over. -/
theorem advance_done {u : Upstream} {data : Bytes} {o : Outside}
    {answer : (IpAddr × UInt16) × Bytes} (hdone : (u.advance data o).1 = .ok (some answer)) :
    (u.advance data o).2.1.handshake = none := by
  rw [advance] at hdone ⊢
  split at hdone
  · cases hdone
  · split at hdone
    · cases hdone
    · cases hdone
    · cases hdone
    · rfl

end Upstream

namespace TcpFlow

variable {flow : TcpFlow} {socket : Option Socket} {o : Outside}

/-- No handshake goes on any more, and no connection is being opened. -/
def Settled (flow : TcpFlow) : Prop :=
  flow.upstream.handshake = none ∧ flow.upstream.connecting = false

/-- The socket of a flow and the SYN it holds, which pumping leaves to it. -/
def ends (flow : TcpFlow) : Option Nat × Option (Bytes × UInt32) := (flow.socket, flow.heldSyn)

@[simp] theorem pumpOut_ends (flow : TcpFlow) (s : Socket) (o : Outside) :
    (flow.pumpOut s o).1.ends = flow.ends :=
  rfl

@[simp] theorem readProxy_ends (flow : TcpFlow) (o : Outside) :
    (flow.readProxy o).1.ends = flow.ends := by
  rw [readProxy]
  split <;> rfl

@[simp] theorem sendApp_ends (flow : TcpFlow) (s : Socket) :
    (flow.sendApp s).1.ends = flow.ends := by
  rw [sendApp]
  split
  · split <;> rfl
  · rfl

@[simp] theorem endUpstream_ends (flow : TcpFlow) (s : Socket) :
    (flow.endUpstream s).ends = flow.ends := by
  rw [endUpstream]
  split <;> rfl

/-- The stack took bytes from the socket's receive buffer. -/
structure Takes (s s' : Socket) (bytes : Bytes) : Prop where
  unread : s.unread = bytes ++ s'.unread
  eq : s' = { s with taken := s.taken ++ bytes, unread := s'.unread }

theorem recvSlice_takes {s s' : Socket} {length : Nat} {bytes : Bytes}
    (h : s.recvSlice length = (some bytes, s')) :
    Takes s s' bytes := by
  rw [Socket.recvSlice] at h
  split at h
  · obtain ⟨rfl, rfl⟩ := h
    exact ⟨(take_append_drop _ _).symm, rfl⟩
  · cases h

theorem recvSlice_none {s s' : Socket} {length : Nat} (h : s.recvSlice length = (none, s')) :
    s' = s := by
  rw [Socket.recvSlice] at h
  split at h
  · cases h
  · exact (Prod.mk.inj h).2.symm

theorem Takes.trans {a b c : Socket} {bytes more : Bytes} (h : Takes a b bytes)
    (h' : Takes b c more) :
    Takes a c (bytes ++ more) where
  unread := by rw [h.unread, h'.unread, append_assoc]
  eq := by
    rw [h'.eq, h.eq]
    simp

/-- What was taken waits for the proxy. -/
theorem takeFromApp_takes (turns : Nat) : ∀ (outgoing : Bytes) (s : Socket),
    ∃ bytes, (takeFromApp turns outgoing s).1 = outgoing ++ bytes ∧
      Takes s (takeFromApp turns outgoing s).2 bytes := by
  have hnothing : ∀ (outgoing : Bytes) (s : Socket), ∃ bytes, outgoing = outgoing ++ bytes ∧
      Takes s s bytes :=
    fun outgoing s => ⟨[], (append_nil _).symm, ⟨rfl, by simp⟩⟩
  induction turns with
  | zero => exact hnothing
  | succ turns ih =>
    intro outgoing s
    rw [takeFromApp]
    split
    · split
      next s' hrecv =>
        rw [recvSlice_none hrecv]
        exact hnothing outgoing s
      next bytes s' hrecv =>
        have htakes := recvSlice_takes hrecv
        split
        next hempty =>
          obtain rfl : bytes = [] := by simpa using hempty
          exact ⟨[], (append_nil _).symm, htakes⟩
        · obtain ⟨more, hmore, hrest⟩ := ih (outgoing ++ bytes) s'
          exact ⟨bytes ++ more, by rw [hmore, append_assoc], htakes.trans hrest⟩
    · exact hnothing outgoing s

/-- Only what the socket accepted and queued changes. -/
theorem sendApp_eq (flow : TcpFlow) (s : Socket) :
    ∃ accepted queued, (flow.sendApp s).2 = { s with accepted, queued } := by
  rw [sendApp]
  split
  · rw [Socket.sendSlice]
    split
    next hsent =>
      split at hsent
      · exact ⟨_, _, (Prod.mk.inj hsent).2.symm⟩
      · cases hsent
    next hsent =>
      split at hsent
      · cases hsent
      · exact ⟨_, _, (Prod.mk.inj hsent).2.symm⟩
  · exact ⟨_, _, rfl⟩

theorem sendApp_pumpOut_eq (f flow : TcpFlow) (s : Socket) (o : Outside) :
    ∃ taken unread accepted queued,
      (f.sendApp (flow.pumpOut s o).2.1).2 = { s with taken, unread, accepted, queued } ∧
        (flow.pumpOut s o).2.1.unread = unread := by
  obtain ⟨bytes, -, htakes⟩ := takeFromApp_takes s.unread.length flow.upstream.outgoing s
  obtain ⟨accepted, queued, hsend⟩ := sendApp_eq f (flow.pumpOut s o).2.1
  refine ⟨s.taken ++ bytes, _, accepted, queued, ?_, rfl⟩
  rw [hsend]
  have hout : (flow.pumpOut s o).2.1 = (takeFromApp s.unread.length flow.upstream.outgoing s).2 :=
    rfl
  rw [hout]
  conv_lhs => rw [htakes.eq]

theorem sendApp_upstream (flow : TcpFlow) (s : Socket) :
    (flow.sendApp s).1.upstream = flow.upstream := by
  rw [sendApp]
  split
  · split <;> rfl
  · rfl

theorem relay_ends (flow : TcpFlow) (s : Socket) (o : Outside) :
    (flow.relay s o).2.1.ends = flow.ends := by
  simp only [relay, endUpstream_ends, sendApp_ends, readProxy_ends, pumpOut_ends]

/-- The handshake and the connection are as they were. -/
structure SameStage (flow flow' : TcpFlow) : Prop where
  handshake : flow'.upstream.handshake = flow.upstream.handshake
  connecting : flow'.upstream.connecting = flow.upstream.connecting

theorem SameStage.trans {a b c : TcpFlow} (h : a.SameStage b) (h' : b.SameStage c) :
    a.SameStage c :=
  ⟨h'.handshake.trans h.handshake, h'.connecting.trans h.connecting⟩

theorem SameStage.settled {flow' : TcpFlow} (h : flow.SameStage flow') (hs : flow.Settled) :
    flow'.Settled :=
  ⟨h.handshake.trans hs.1, h.connecting.trans hs.2⟩

theorem pumpOut_sameStage (flow : TcpFlow) (s : Socket) (o : Outside) :
    flow.SameStage (flow.pumpOut s o).1 := by
  have hflushed := flush_flushed
    { flow.upstream with outgoing := (takeFromApp s.unread.length flow.upstream.outgoing s).1 } o
  exact ⟨hflushed.handshake, hflushed.connecting⟩

theorem readProxy_sameStage (flow : TcpFlow) (o : Outside) :
    flow.SameStage (flow.readProxy o).1 := by
  rw [readProxy]
  split
  · exact ⟨read_handshake _ _ _, read_connecting _ _ _⟩
  · exact ⟨rfl, rfl⟩

theorem sendApp_sameStage (flow : TcpFlow) (s : Socket) : flow.SameStage (flow.sendApp s).1 := by
  constructor <;> rw [sendApp_upstream]

theorem endUpstream_sameStage (flow : TcpFlow) (s : Socket) :
    flow.SameStage (flow.endUpstream s) := by
  rw [endUpstream]
  split <;> exact ⟨rfl, rfl⟩

theorem relay_sameStage (flow : TcpFlow) (s : Socket) (o : Outside) :
    flow.SameStage (flow.relay s o).2.1 := by
  apply SameStage.trans _ (endUpstream_sameStage _ _)
  apply SameStage.trans _ (sendApp_sameStage _ _)
  exact (pumpOut_sameStage flow s o).trans (readProxy_sameStage _ _)

theorem afterFlush_sameStage (flow : TcpFlow) (o : Outside) : flow.SameStage (flow.afterFlush o) :=
  ⟨(flush_flushed flow.upstream o).handshake, (flush_flushed flow.upstream o).connecting⟩

/-- While the connection is being opened, only that is pumped. -/
theorem pump_of_connecting (socket : Option Socket) (h : flow.upstream.connecting = true) :
    flow.pump socket o = ((flow.pumpConnecting o).1, (flow.pumpConnecting o).2, socket) := by
  rw [pump, if_pos h]

/-- In the handshake, only that is pumped, behind a flush. -/
theorem pump_of_handshake (socket : Option Socket) (h : flow.upstream.connecting = false)
    (hshake : flow.upstream.handshake ≠ none) :
    flow.pump socket o =
      (((flow.afterFlush o).pumpHandshake (flow.upstream.flush o).2).1,
        ((flow.afterFlush o).pumpHandshake (flow.upstream.flush o).2).2, socket) := by
  have hsome : (flow.afterFlush o).upstream.handshake.isSome = true := by
    rw [(afterFlush_sameStage flow o).handshake, isSome_iff_ne_none]
    exact hshake
  rw [pump, if_neg (by simp [h])]
  rw [if_pos hsome]

/-- Once it is settled, bytes are relayed. -/
theorem pump_of_settled (socket : Option Socket) (h : flow.Settled) :
    flow.pump socket o =
      match socket with
      | none => (.goesOn, flow.afterFlush o, none)
      | some s =>
        (((flow.afterFlush o).relay s (flow.upstream.flush o).2).1,
          ((flow.afterFlush o).relay s (flow.upstream.flush o).2).2.1,
          some ((flow.afterFlush o).relay s (flow.upstream.flush o).2).2.2) := by
  have hnone : (flow.afterFlush o).upstream.handshake = none :=
    (afterFlush_sameStage flow o).handshake.trans h.1
  rw [pump, if_neg (by simp [h.2])]
  have hshaken : ¬ (flow.afterFlush o).upstream.handshake.isSome := by simp [hnone]
  cases socket with
  | none | some => exact if_neg hshaken

theorem pump_of_settled_none (h : flow.Settled) :
    flow.pump none o = (.goesOn, flow.afterFlush o, none) :=
  pump_of_settled none h

theorem pump_of_settled_some (s : Socket) (h : flow.Settled) :
    flow.pump (some s) o =
      (((flow.afterFlush o).relay s (flow.upstream.flush o).2).1,
        ((flow.afterFlush o).relay s (flow.upstream.flush o).2).2.1,
        some ((flow.afterFlush o).relay s (flow.upstream.flush o).2).2.2) :=
  pump_of_settled (some s) h

/-- A flow is being connected, in its handshake, or settled. -/
theorem stages (flow : TcpFlow) :
    flow.upstream.connecting = true ∨
      (flow.upstream.connecting = false ∧ flow.upstream.handshake ≠ none) ∨ flow.Settled := by
  cases hconnecting : flow.upstream.connecting with
  | true => exact .inl rfl
  | false =>
    cases hshake : flow.upstream.handshake with
    | none => exact .inr (.inr ⟨hshake, hconnecting⟩)
    | some handshake => exact .inr (.inl ⟨rfl, by simp⟩)

/-- In a handshake a flow reads, and says the next thing if there is one; all but its upstream
stays. -/
theorem pumpHandshake_flow (flow : TcpFlow) (o : Outside) : ∃ upstream : Upstream,
    (flow.pumpHandshake o).2 = { flow with upstream } ∧
      (upstream = (flow.upstream.read 4096 o).2.2.1 ∨
      upstream = ((flow.upstream.read 4096 o).2.2.1.advance (flow.upstream.read 4096 o).1
        (flow.upstream.read 4096 o).2.2.2).2.1) := by
  rw [pumpHandshake]
  dsimp only
  split
  · split <;> exact ⟨_, rfl, .inl rfl⟩
  split
  next heq => exact ⟨_, rfl, .inr (by rw [heq])⟩
  next heq => split <;> exact ⟨_, rfl, .inr (by rw [heq])⟩
  next heq => exact ⟨_, rfl, .inr (by rw [heq])⟩

theorem pumpHandshake_connecting (flow : TcpFlow) (o : Outside) :
    (flow.pumpHandshake o).2.upstream.connecting = flow.upstream.connecting := by
  obtain ⟨_, heq, rfl | rfl⟩ := pumpHandshake_flow flow o <;> rw [heq]
  · exact read_connecting flow.upstream 4096 o
  · exact (advance_connecting _ _ _).trans (read_connecting flow.upstream 4096 o)

theorem pumpConnecting_handshake (flow : TcpFlow) (o : Outside) :
    (flow.pumpConnecting o).2.upstream.handshake = flow.upstream.handshake := by
  have hflushed := flush_flushed { flow.upstream with connecting := false, connected := true } o
  rw [pumpConnecting, pollConnect]
  cases o.connect with
  | failed reason => rfl
  | waiting =>
    dsimp only
    split <;> rfl
  | opened => exact hflushed.handshake

theorem pumpConnecting_ends (flow : TcpFlow) (o : Outside) :
    (flow.pumpConnecting o).2.ends = flow.ends := by
  rw [pumpConnecting]
  split
  · rfl
  · rfl
  · split <;> rfl

theorem pumpHandshake_ends (flow : TcpFlow) (o : Outside) :
    (flow.pumpHandshake o).2.ends = flow.ends := by
  obtain ⟨_, heq, -⟩ := pumpHandshake_flow flow o
  rw [heq, ends, ends]

theorem pump_ends (flow : TcpFlow) (socket : Option Socket) (o : Outside) :
    (flow.pump socket o).2.1.ends = flow.ends := by
  rcases flow.stages with hconn | ⟨hconn, hshake⟩ | hsettled
  · rw [pump_of_connecting socket hconn]
    exact pumpConnecting_ends flow o
  · rw [pump_of_handshake socket hconn hshake]
    exact pumpHandshake_ends (flow.afterFlush o) _
  · cases socket with
    | none => rw [pump_of_settled_none hsettled]; rfl
    | some s =>
      rw [pump_of_settled_some s hsettled]
      exact relay_ends (flow.afterFlush o) s _

theorem pump_socket (flow : TcpFlow) (socket : Option Socket) (o : Outside) :
    (flow.pump socket o).2.1.socket = flow.socket :=
  congrArg Prod.fst (flow.pump_ends socket o)

theorem pump_heldSyn (flow : TcpFlow) (socket : Option Socket) (o : Outside) :
    (flow.pump socket o).2.1.heldSyn = flow.heldSyn :=
  congrArg Prod.snd (flow.pump_ends socket o)

theorem pump_isSome (flow : TcpFlow) (socket : Option Socket) (o : Outside) :
    (flow.pump socket o).2.2.isSome = socket.isSome := by
  rcases flow.stages with hconn | ⟨hconn, hshake⟩ | hsettled
  · rw [pump_of_connecting socket hconn]
  · rw [pump_of_handshake socket hconn hshake]
  · cases socket with
    | none => rw [pump_of_settled_none hsettled]
    | some s => rw [pump_of_settled_some s hsettled]; rfl

theorem pump_sameStage (socket : Option Socket) (o : Outside) (h : flow.Settled) :
    flow.SameStage (flow.pump socket o).2.1 := by
  cases socket with
  | none =>
    rw [pump_of_settled_none h]
    exact afterFlush_sameStage flow o
  | some s =>
    rw [pump_of_settled_some s h]
    exact (afterFlush_sameStage flow o).trans (relay_sameStage _ _ _)

/-- A settled flow goes on or is over. -/
theorem pump_settled_outcome (socket : Option Socket) (o : Outside) (h : flow.Settled) :
    (flow.pump socket o).1 = .goesOn ∨ (flow.pump socket o).1 = .finished := by
  cases socket with
  | none =>
    rw [pump_of_settled_none h]
    exact .inl rfl
  | some s =>
    rw [pump_of_settled_some s h]
    simp only [relay]
    split
    · exact .inr rfl
    · exact .inl rfl

variable {leftover : Bytes}

theorem pumpConnecting_accepted (hnone : flow.upstream.handshake = none)
    (hacc : (flow.pumpConnecting o).1 = .accepted leftover) :
    (flow.pumpConnecting o).2.Settled := by
  rw [pumpConnecting, pollConnect] at hacc ⊢
  cases hconnect : o.connect with
  | failed reason => simp [hconnect] at hacc
  | waiting =>
    simp only [hconnect] at hacc
    split at hacc <;> cases hacc
  | opened =>
    have hflushed := flush_flushed { flow.upstream with connecting := false, connected := true } o
    exact ⟨hflushed.handshake.trans hnone, hflushed.connecting⟩

theorem pumpHandshake_accepted (hconnecting : flow.upstream.connecting = false)
    (hacc : (flow.pumpHandshake o).1 = .accepted leftover) : (flow.pumpHandshake o).2.Settled := by
  refine ⟨?_, (pumpHandshake_connecting flow o).trans hconnecting⟩
  rw [pumpHandshake] at hacc ⊢
  dsimp only at hacc ⊢
  split at hacc
  · split at hacc <;> cases hacc
  next hdata =>
    rw [if_neg hdata]
    split at hacc
    next hadvance =>
      have hdone := advance_done (congrArg Prod.fst hadvance)
      rw [hadvance] at hdone
      exact hdone
    · split at hacc <;> cases hacc
    · cases hacc

/-- An adapter connection has no handshake, and a flow with a socket waits for neither. -/
structure WellFormed (flow : TcpFlow) : Prop where
  connecting : flow.upstream.connecting = true → flow.upstream.handshake = none
  socket : flow.socket ≠ none → flow.Settled

theorem opened_wellFormed (token : Token) (exit : Exit) (target : SocketAddr) (syn : Bytes)
    (sequence : UInt32)
    (now : Instant) : (opened (dial token exit .connect target) syn sequence now).WellFormed := by
  cases exit with
  | proxy credentials => exact ⟨nofun, fun h => absurd rfl h⟩
  | adapter => exact ⟨fun _ => rfl, fun h => absurd rfl h⟩

theorem pump_wellFormed (h : flow.WellFormed) : (flow.pump socket o).2.1.WellFormed where
  connecting hconnecting := by
    rcases flow.stages with hconn | ⟨hconn, hshake⟩ | hsettled
    · rw [pump_of_connecting socket hconn]
      exact (pumpConnecting_handshake flow o).trans (h.connecting hconn)
    · rw [pump_of_handshake socket hconn hshake, pumpHandshake_connecting,
        (afterFlush_sameStage flow o).connecting, hconn] at hconnecting
      cases hconnecting
    · exact ((pump_sameStage socket o hsettled).settled hsettled).1
  socket hsome := by
    rw [pump_socket] at hsome
    exact (pump_sameStage socket o (h.socket hsome)).settled (h.socket hsome)

/-- A flow is accepted when it settles, and has no socket by then. -/
theorem pump_accepted (h : flow.WellFormed) (hacc : (flow.pump socket o).1 = .accepted leftover) :
    flow.socket = none ∧ (flow.pump socket o).2.1.Settled := by
  have hnot : ¬ flow.Settled := by
    intro hsettled
    rcases pump_settled_outcome socket o hsettled with hout | hout <;>
      rw [hout] at hacc <;> cases hacc
  refine ⟨by_contra fun hsome => hnot (h.socket hsome), ?_⟩
  rcases flow.stages with hconn | ⟨hconn, hshake⟩ | hsettled
  · rw [pump_of_connecting socket hconn] at hacc ⊢
    exact pumpConnecting_accepted (h.connecting hconn) hacc
  · rw [pump_of_handshake socket hconn hshake] at hacc ⊢
    exact pumpHandshake_accepted ((afterFlush_sameStage flow o).connecting.trans hconn) hacc
  · exact absurd hsettled hnot

end TcpFlow

/-! ## Handles -/

namespace Forwarding

variable {s : Forwarding} {k : FlowKey} {flow : TcpFlow}

/-- Every flow with a handle has a socket of its own, and every socket has its flow. -/
structure Owned (s : Forwarding) : Prop where
  wellFormed : ∀ k flow, s.tcp.get? k = some flow → flow.WellFormed
  occupied : ∀ k flow h, s.tcp.get? k = some flow → flow.socket = some h → s.sockets.get? h ≠ none
  distinct : ∀ k k' flow flow' h, s.tcp.get? k = some flow → s.tcp.get? k' = some flow' →
    flow.socket = some h → flow'.socket = some h → k = k'
  owned : ∀ h socket, s.sockets.get? h = some socket → ∃ k flow, s.tcp.get? k = some flow ∧
    flow.socket = some h

theorem new_owned (client : Octets) (exit : Exit) : (new client exit).Owned where
  wellFormed _ _ h := nomatch h
  occupied _ _ _ h := nomatch h
  distinct _ _ _ _ _ h := nomatch h
  owned _ _ h := nomatch h

theorem Owned.socketOf_isSome (h : s.Owned) (hget : s.tcp.get? k = some flow) :
    (s.socketOf flow).isSome = flow.socket.isSome := by
  cases hsocket : flow.socket with
  | none => simp [socketOf, hsocket]
  | some handle =>
    have hin := h.occupied k flow handle hget hsocket
    simp [socketOf, hsocket, isSome_iff_ne_none, hin]

/-- Replacing a flow by one that has the same handle. -/
theorem Owned.insert (h : s.Owned) (hget : s.tcp.get? k = some flow) {flow' : TcpFlow}
    {sockets : SocketSet} (hsocket : flow'.socket = flow.socket) (hwell : flow'.WellFormed)
    (hslots : ∀ i, (sockets.get? i).isSome = (s.sockets.get? i).isSome) :
    ({ s with sockets, tcp := s.tcp.insert k flow' } : Forwarding).Owned := by
  -- A flow of the new state has the handle of the flow that had its key before.
  have hback : ∀ j f, (s.tcp.insert k flow').get? j = some f →
      ∃ f₀, s.tcp.get? j = some f₀ ∧ f.socket = f₀.socket ∧ f.WellFormed := by
    intro j f hf
    rw [KeyedMap.get?_insert] at hf
    split at hf
    next hj =>
      cases hf
      exact ⟨flow, hj ▸ hget, hsocket, hwell⟩
    · exact ⟨f, hf, rfl, h.wellFormed j f hf⟩
  constructor
  · intro j f hf
    obtain ⟨-, -, -, hwf⟩ := hback j f hf
    exact hwf
  · intro j f i hf hi
    obtain ⟨f₀, hf₀, hsame, -⟩ := hback j f hf
    have hin := h.occupied j f₀ i hf₀ (hsame ▸ hi)
    rw [← isSome_iff_ne_none, hslots, isSome_iff_ne_none]
    exact hin
  · intro j j' f f' i hf hf' hi hi'
    obtain ⟨f₀, hf₀, hsame, -⟩ := hback j f hf
    obtain ⟨f₁, hf₁, hsame', -⟩ := hback j' f' hf'
    exact h.distinct j j' f₀ f₁ i hf₀ hf₁ (hsame ▸ hi) (hsame' ▸ hi')
  · intro i socket hi
    have hin : (s.sockets.get? i).isSome = true := by
      rw [← hslots, hi]
      rfl
    obtain ⟨socket₀, hsocket₀⟩ := isSome_iff_exists.1 hin
    obtain ⟨j, f, hf, hfi⟩ := h.owned i socket₀ hsocket₀
    by_cases hj : j = k
    · subst hj
      refine ⟨j, flow', KeyedMap.get?_insert_self _ _ _, ?_⟩
      rw [hsocket]
      rw [hget] at hf
      rw [some.inj hf]
      exact hfi
    · refine ⟨j, f, ?_, hfi⟩
      rw [KeyedMap.get?_insert, if_neg hj]
      exact hf

variable {tcp : KeyedMap FlowKey TcpFlow}

/-- The socket of another flow is not touched. -/
theorem Owned.socketOf_putSocket (h : s.Owned) {j : FlowKey} {other flow' : TcpFlow}
    {socket : Option Socket} (hget : s.tcp.get? k = some flow) (hother : s.tcp.get? j = some other)
    (hne : j ≠ k) (hsocket : flow'.socket = flow.socket) :
    ({ s with sockets := putSocket s.sockets flow' socket, tcp } : Forwarding).socketOf other =
      s.socketOf other := by
  cases hj : other.socket with
  | none => simp [socketOf, hj]
  | some i =>
    simp only [socketOf, hj, bind_some]
    rw [putSocket]
    split
    · rfl
    next handle hhandle =>
      rw [Slots.get?_modify, if_neg]
      intro heq
      subst heq
      exact hne (h.distinct j k other flow handle hother hget hj (hsocket ▸ hhandle))

/-- What was put back is there. -/
theorem Owned.socketOf_putSocket_self (h : s.Owned) {flow' : TcpFlow} {socket : Option Socket}
    (hget : s.tcp.get? k = some flow) (hsocket : flow'.socket = flow.socket)
    (hsome : socket.isSome = (s.socketOf flow).isSome) :
    ({ s with sockets := putSocket s.sockets flow' socket, tcp } : Forwarding).socketOf flow' =
      socket := by
  rw [h.socketOf_isSome hget] at hsome
  cases hhandle : flow.socket with
  | none =>
    rw [hhandle] at hsome hsocket
    have hnone : socket = none := by simpa using hsome
    simp [socketOf, hsocket, hnone]
  | some handle =>
    rw [hhandle] at hsome hsocket
    obtain ⟨put, rfl⟩ := isSome_iff_exists.1 hsome
    obtain ⟨old, hold⟩ := ne_none_iff_exists'.1 (h.occupied k flow handle hget hhandle)
    simp [socketOf, putSocket, hsocket, hold]

/-- Putting a socket back neither adds nor removes one. -/
theorem isSome_putSocket (sockets : SocketSet) (flow : TcpFlow) (socket : Option Socket) (i : Nat) :
    ((putSocket sockets flow socket).get? i).isSome = (sockets.get? i).isSome := by
  rw [putSocket]
  split
  · rfl
  · rw [Slots.get?_modify]
    split
    · rw [isSome_map]
    · rfl

end Forwarding

end GamePath.Engine.Tun2socks
