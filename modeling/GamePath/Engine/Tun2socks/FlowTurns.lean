import GamePath.Engine.Tun2socks.FlowSteps

/-!
# A turn, flow by flow

The loop of `pump_tcp` pumps every flow once, with the socket it had before; then flows are accepted
and removed. `turn_flow` says what a turn has made of a flow that is still there, and `turn_removed`
of one that it removed.
-/

namespace GamePath.Engine.Tun2socks

open Lib List TcpFlow
open Socks (Token)
open KeyedMap (get?_erase get?_insert get?_insert_self mem_keysIn)
open Option (bind_some map_some some.inj some.injEq)

namespace Forwarding

variable {s : Forwarding} {k : FlowKey} {flow : TcpFlow} {outside : FlowKey → Outside}

/-! ## The loop over the flows -/

/-- What the pump finds out about the flow of a key. -/
def outcomeOf (s : Forwarding) (outside : FlowKey → Outside) (k : FlowKey) : Option Outcome :=
  (s.tcp.get? k).map fun flow => (flow.pump (s.socketOf flow) (outside k)).1

/-- The flow of a key, if the pump accepts it. -/
def acceptedIn (s : Forwarding) (outside : FlowKey → Outside) (k : FlowKey) :
    Option (FlowKey × Bytes) :=
  match s.outcomeOf outside k with
  | some (.accepted leftover) => some (k, leftover)
  | _ => none

/-- The flow of a key, if the pump refuses it. -/
def refusedIn (s : Forwarding) (outside : FlowKey → Outside) (k : FlowKey) :
    Option (FlowKey × String) :=
  match s.outcomeOf outside k with
  | some (.refused reason) => some (k, reason)
  | _ => none

/-- The flow of a key, if it is over. -/
def finishedIn (s : Forwarding) (outside : FlowKey → Outside) (k : FlowKey) : Option FlowKey :=
  match s.outcomeOf outside k with
  | some .finished => some k
  | _ => none

/-- The loop has pumped the flows of the keys `done`, and no others. -/
structure PumpedFrom (s : Forwarding) (outside : FlowKey → Outside) (done : List FlowKey)
    (p : Pumped) : Prop where
  owned : p.state.Owned
  rx : p.state.rx = s.rx
  absent : ∀ k, s.tcp.get? k = none → p.state.tcp.get? k = none
  rest : ∀ k flow, k ∉ done → s.tcp.get? k = some flow →
    p.state.tcp.get? k = some flow ∧ p.state.socketOf flow = s.socketOf flow
  pumped : ∀ k flow, k ∈ done → s.tcp.get? k = some flow →
    p.state.tcp.get? k = some (flow.pump (s.socketOf flow) (outside k)).2.1 ∧
      p.state.socketOf (flow.pump (s.socketOf flow) (outside k)).2.1 =
        (flow.pump (s.socketOf flow) (outside k)).2.2
  accepted : p.accepted = done.filterMap (s.acceptedIn outside)
  refused : p.refused = done.filterMap (s.refusedIn outside)
  finished : p.finished = done.filterMap (s.finishedIn outside)

theorem pumpedFrom_nil (h : s.Owned) (outside : FlowKey → Outside) :
    PumpedFrom s outside [] ⟨s, [], [], []⟩ where
  owned := h
  rx := rfl
  absent _ hk := hk
  rest _ _ _ hget := ⟨hget, rfl⟩
  pumped _ _ hmem := absurd hmem not_mem_nil
  accepted := rfl
  refused := rfl
  finished := rfl

/-- The state after the flow of a key was pumped. -/
def pumpedState (s : Forwarding) (outside : FlowKey → Outside) (k : FlowKey)
    (flow : TcpFlow) : Forwarding :=
  { s with
    sockets := putSocket s.sockets (flow.pump (s.socketOf flow) (outside k)).2.1
      (flow.pump (s.socketOf flow) (outside k)).2.2
    tcp := s.tcp.insert k (flow.pump (s.socketOf flow) (outside k)).2.1 }

theorem pumpOne_eq {p : Pumped} (hget : p.state.tcp.get? k = some flow) :
    pumpOne outside p k =
      { state := p.state.pumpedState outside k flow
        accepted := p.accepted ++ (p.state.acceptedIn outside k).toList
        refused := p.refused ++ (p.state.refusedIn outside k).toList
        finished := p.finished ++ (p.state.finishedIn outside k).toList } := by
  rw [pumpOne]
  cases hout : (flow.pump (p.state.socketOf flow) (outside k)).1 <;>
    simp [acceptedIn, refusedIn, finishedIn, outcomeOf, hget, hout, pumpedState]

theorem pumpedState_owned (h : s.Owned) (hget : s.tcp.get? k = some flow) :
    (s.pumpedState outside k flow).Owned := by
  apply h.insert hget
  · exact pump_socket flow _ _
  · exact pump_wellFormed (h.wellFormed k flow hget)
  · exact isSome_putSocket _ _ _

theorem filterMap_snoc {α β : Type} (f : α → Option β) (l : List α) (a : α) :
    (l ++ [a]).filterMap f = l.filterMap f ++ (f a).toList := by
  rw [filterMap_append, filterMap_cons]
  cases f a <;> rfl

/-- One more flow. -/
theorem PumpedFrom.pumpOne {done : List FlowKey} {p : Pumped} (h : PumpedFrom s outside done p)
    (hk : k ∉ done) (hget : s.tcp.get? k = some flow) :
    PumpedFrom s outside (done ++ [k]) (pumpOne outside p k) := by
  obtain ⟨hstate, hsocket⟩ := h.rest k flow hk hget
  have hkeep : (flow.pump (s.socketOf flow) (outside k)).2.1.socket = flow.socket :=
    pump_socket _ _ _
  -- What the pump sees and finds out is what it would have at the start.
  have hout : p.state.outcomeOf outside k = s.outcomeOf outside k := by
    simp only [outcomeOf, hstate, hget, map_some, hsocket]
  rw [pumpOne_eq hstate]
  constructor
  · exact pumpedState_owned h.owned hstate
  · exact h.rx
  · intro j hj
    have hne : j ≠ k := by
      rintro rfl
      simp [hget] at hj
    simp only [pumpedState, get?_insert, if_neg hne]
    exact h.absent j hj
  · intro j other hj hother
    have hjdone : j ∉ done := fun hmem => hj (mem_append_left _ hmem)
    have hne : j ≠ k := fun heq => hj (mem_append_right _ (by simp [heq]))
    obtain ⟨hotherState, hotherSocket⟩ := h.rest j other hjdone hother
    refine ⟨?_, ?_⟩
    · simp only [pumpedState, get?_insert, if_neg hne]
      exact hotherState
    · rw [pumpedState, hsocket, h.owned.socketOf_putSocket hstate hotherState hne hkeep]
      exact hotherSocket
  · intro j other hj hother
    by_cases hjk : j = k
    · subst hjk
      obtain rfl : flow = other := some.inj (hget.symm.trans hother)
      refine ⟨?_, ?_⟩
      · rw [pumpedState, hsocket]
        exact get?_insert_self _ _ _
      · rw [pumpedState, hsocket]
        apply h.owned.socketOf_putSocket_self hstate hkeep
        rw [pump_isSome, hsocket]
    have hjdone : j ∈ done := by simpa [hjk] using hj
    obtain ⟨hotherState, hotherSocket⟩ := h.pumped j other hjdone hother
    refine ⟨?_, ?_⟩
    · simp only [pumpedState, get?_insert, if_neg hjk]
      exact hotherState
    · rw [pumpedState, hsocket, h.owned.socketOf_putSocket hstate hotherState hjk hkeep]
      exact hotherSocket
  · rw [filterMap_snoc, h.accepted]
    simp only [acceptedIn, hout]
  · rw [filterMap_snoc, h.refused]
    simp only [refusedIn, hout]
  · rw [filterMap_snoc, h.finished]
    simp only [finishedIn, hout]

theorem PumpedFrom.foldl (rest : List FlowKey) : ∀ {done : List FlowKey} {p : Pumped},
    PumpedFrom s outside done p → (done ++ rest).Nodup →
      (∀ k ∈ rest, ∃ flow, s.tcp.get? k = some flow) →
    PumpedFrom s outside (done ++ rest) (rest.foldl (Forwarding.pumpOne outside) p) := by
  induction rest with
  | nil =>
    intro done p h _ _
    rw [append_nil]
    exact h
  | cons k rest ih =>
    intro done p h hnodup hflows
    obtain ⟨flow, hget⟩ := hflows k mem_cons_self
    have hk : k ∉ done := by
      intro hmem
      exact (nodup_append.1 hnodup).2.2 k hmem k mem_cons_self rfl
    rw [append_cons] at hnodup ⊢
    exact ih (h.pumpOne hk hget) hnodup fun j hj => hflows j (mem_cons_of_mem _ hj)

theorem pumpFlows_pumped (h : s.Owned) (order : List FlowKey) (outside : FlowKey → Outside) :
    PumpedFrom s outside (s.tcp.keysIn order) (s.pumpFlows order outside) := by
  have hfold := (pumpedFrom_nil h outside).foldl (s.tcp.keysIn order)
    (by simpa using s.tcp.nodup_keysIn order) (fun k hk => mem_keysIn.1 hk)
  exact hfold

/-! ## Accepting -/

/-- What accepting makes of a flow: a socket that listens on its destination, unless that cannot be
listened on. -/
def AcceptedAs (k : FlowKey) (flow : TcpFlow) (leftover : Bytes) (flow' : TcpFlow)
    (socket : Option Socket) : Prop :=
  (flow' = { flow with upstream := { flow.upstream with closed := true } } ∧ socket = none) ∨
    ∃ handle fresh, Socket.listenOn k.remote = some fresh ∧
      flow' = { flow with socket := some handle, toApp := leftover, heldSyn := none } ∧
        socket = some fresh

variable {flow' : TcpFlow}

/-- Adding a socket for a flow that had none. -/
theorem Owned.add (h : s.Owned) (hget : s.tcp.get? k = some flow) (hnone : flow.socket = none)
    (socket : Socket) (hsocket : flow'.socket = some s.sockets.firstFree) (hwell : flow'.WellFormed)
    (rx : List Bytes) :
    ({ s with sockets := s.sockets.add socket, tcp := s.tcp.insert k flow', rx } :
      Forwarding).Owned := by
  -- Only the flow itself has the new handle, for its slot was empty.
  have hfresh : ∀ j f, s.tcp.get? j = some f → f.socket ≠ some s.sockets.firstFree := by
    intro j f hf hhandle
    exact h.occupied j f _ hf hhandle s.sockets.get?_firstFree
  constructor
  · intro j f hf
    rw [get?_insert] at hf
    split at hf
    · exact some.inj hf ▸ hwell
    · exact h.wellFormed j f hf
  · intro j f i hf hi
    rw [Slots.get?_add]
    rw [get?_insert] at hf
    split
    · simp
    next hne =>
      split at hf
      · cases hf
        exact absurd (some.inj (hsocket.symm.trans hi)) hne
      · exact h.occupied j f i hf hi
  · intro j j' f f' i hf hf' hi hi'
    rw [get?_insert] at hf hf'
    split at hf
    next hj =>
      cases hf
      split at hf'
      · next hj' => exact hj.trans hj'.symm
      · exact absurd (hi'.trans (hi.symm.trans hsocket)) (hfresh j' f' hf')
    · split at hf'
      · cases hf'
        exact absurd (hi.trans (hi'.symm.trans hsocket)) (hfresh j f hf)
      · exact h.distinct j j' f f' i hf hf' hi hi'
  · intro i socket' hi
    rw [Slots.get?_add] at hi
    split at hi
    next hfree =>
      subst hfree
      exact ⟨k, flow', get?_insert_self _ _ _, hsocket⟩
    obtain ⟨j, f, hf, hfi⟩ := h.owned i socket' hi
    refine ⟨j, f, ?_, hfi⟩
    have hne : j ≠ k := by
      rintro rfl
      rw [hget] at hf
      rw [← some.inj hf, hnone] at hfi
      cases hfi
    rw [get?_insert, if_neg hne]
    exact hf

/-- What one call of `accept_tcp` does. -/
structure AcceptsOne (s : Forwarding) (k : FlowKey) (flow : TcpFlow) (leftover : Bytes)
    (s' : Forwarding) : Prop where
  owned : s'.Owned
  other : ∀ j, j ≠ k → s'.tcp.get? j = s.tcp.get? j
  otherSocket : ∀ j f, j ≠ k → s.tcp.get? j = some f → s'.socketOf f = s.socketOf f
  self : ∃ flow', s'.tcp.get? k = some flow' ∧ AcceptedAs k flow leftover flow' (s'.socketOf flow')

theorem acceptTcp_accepts (h : s.Owned) (hget : s.tcp.get? k = some flow)
    (hnone : flow.socket = none) (hsettled : flow.Settled) (leftover : Bytes) :
    AcceptsOne s k flow leftover (s.acceptTcp k leftover) := by
  rw [acceptTcp, hget]
  cases hlisten : Socket.listenOn k.remote with
  | none =>
    refine ⟨?_, ?_, ?_, ?_⟩
    · exact h.insert hget rfl ⟨fun hc => absurd hc (by simp [hsettled.2]),
        fun hc => absurd hnone hc⟩ fun _ => rfl
    · intro j hj
      exact (get?_insert _ _ _ _).trans (if_neg hj)
    · exact fun _ _ _ _ => rfl
    · refine ⟨_, get?_insert_self _ _ _, .inl ⟨rfl, ?_⟩⟩
      simp [socketOf, hnone]
  | some fresh =>
    refine ⟨?_, ?_, ?_, ?_⟩
    · apply h.add hget hnone fresh
      · rfl
      · exact ⟨fun hc => absurd hc (by simp [hsettled.2]), fun _ => hsettled⟩
    · intro j hj
      exact (get?_insert _ _ _ _).trans (if_neg hj)
    · intro j f hj hf
      cases hhandle : f.socket with
      | none => simp [socketOf, hhandle]
      | some i =>
        have hin := h.occupied j f i hf hhandle
        simp only [socketOf, hhandle, bind_some]
        rw [Slots.get?_add, if_neg]
        rintro rfl
        exact hin s.sockets.get?_firstFree
    · refine ⟨_, get?_insert_self _ _ _, .inr ⟨_, fresh, hlisten, rfl, ?_⟩⟩
      simp only [socketOf, bind_some]
      rw [Slots.get?_add, if_pos rfl]

/-- What accepting several flows does. -/
structure AcceptsAll (s : Forwarding) (entries : List (FlowKey × Bytes)) (s' : Forwarding) :
    Prop where
  owned : s'.Owned
  other : ∀ j, j ∉ entries.map Prod.fst → s'.tcp.get? j = s.tcp.get? j
  otherSocket : ∀ j f, j ∉ entries.map Prod.fst → s.tcp.get? j = some f → s'.socketOf f =
    s.socketOf f
  self : ∀ k leftover flow, (k, leftover) ∈ entries → s.tcp.get? k = some flow →
    ∃ flow', s'.tcp.get? k = some flow' ∧ AcceptedAs k flow leftover flow' (s'.socketOf flow')

theorem acceptAll_accepts (entries : List (FlowKey × Bytes)) : ∀ {s : Forwarding}, s.Owned →
    (entries.map Prod.fst).Nodup →
    (∀ e ∈ entries, ∃ flow, s.tcp.get? e.1 = some flow ∧ flow.socket = none ∧ flow.Settled) →
    AcceptsAll s entries (entries.foldl (fun s e => s.acceptTcp e.1 e.2) s) := by
  induction entries with
  | nil =>
    intro s h _ _
    exact ⟨h, fun _ _ => rfl, fun _ _ _ _ => rfl, fun _ _ _ hmem => absurd hmem not_mem_nil⟩
  | cons e entries ih =>
    obtain ⟨k, first⟩ := e
    intro s h hnodup hflows
    obtain ⟨flow, hget, hnone, hsettled⟩ := hflows (k, first) mem_cons_self
    have hone := acceptTcp_accepts h hget hnone hsettled first
    obtain ⟨hnotin, hnodup'⟩ := nodup_cons.1 hnodup
    have hrest := ih hone.owned hnodup' fun e' he' => by
      have hne : e'.1 ≠ k := fun heq => hnotin (mem_map.2 ⟨e', he', heq⟩)
      obtain ⟨f, hf, hfnone, hfsettled⟩ := hflows e' (mem_cons_of_mem _ he')
      exact ⟨f, (hone.other e'.1 hne).trans hf, hfnone, hfsettled⟩
    refine ⟨hrest.owned, ?_, ?_, ?_⟩
    · intro j hj
      rw [map_cons, mem_cons, not_or] at hj
      obtain ⟨hje, hjrest⟩ := hj
      exact (hrest.other j hjrest).trans (hone.other j hje)
    · intro j f hj hf
      rw [map_cons, mem_cons, not_or] at hj
      obtain ⟨hje, hjrest⟩ := hj
      exact (hrest.otherSocket j f hjrest ((hone.other j hje).trans hf)).trans
        (hone.otherSocket j f hje hf)
    intro j leftover f hmem hf
    rcases mem_cons.1 hmem with heq | hin
    · obtain ⟨rfl, rfl⟩ := Prod.mk.inj heq
      obtain ⟨flow', hflow', hacc⟩ := hone.self
      obtain rfl : flow = f := some.inj (hget.symm.trans hf)
      refine ⟨flow', (hrest.other j hnotin).trans hflow', ?_⟩
      rw [foldl_cons, hrest.otherSocket j flow' hnotin hflow']
      exact hacc
    · have hne : j ≠ k := fun heq => hnotin (mem_map.2 ⟨(j, leftover), hin, heq⟩)
      exact hrest.self j leftover f hin ((hone.other j hne).trans hf)

/-! ## Refusing and removing -/

theorem refuseHeld_same (s : Forwarding) (k : FlowKey) :
    (s.refuseHeld k).tcp = s.tcp ∧ (s.refuseHeld k).sockets = s.sockets ∧ (s.refuseHeld k).rx =
      s.rx := by
  rw [refuseHeld]
  split <;> exact ⟨rfl, rfl, rfl⟩

/-- Refusing only emits resets. -/
theorem refuseAll_same (entries : List (FlowKey × String)) (s : Forwarding) :
    (entries.foldl (fun s e => s.refuseHeld e.1) s).tcp = s.tcp ∧
      (entries.foldl (fun s e => s.refuseHeld e.1) s).sockets = s.sockets ∧
      (entries.foldl (fun s e => s.refuseHeld e.1) s).rx = s.rx := by
  induction entries generalizing s with
  | nil => exact ⟨rfl, rfl, rfl⟩
  | cons e entries ih =>
    obtain ⟨htcp, hsockets, hrx⟩ := ih (s.refuseHeld e.1)
    obtain ⟨htcp', hsockets', hrx'⟩ := s.refuseHeld_same e.1
    exact ⟨htcp.trans htcp', hsockets.trans hsockets', hrx.trans hrx'⟩

theorem Owned.congr (h : s.Owned) {s' : Forwarding} (htcp : s'.tcp = s.tcp)
    (hsockets : s'.sockets = s.sockets) :
    s'.Owned := by
  refine ⟨?_, ?_, ?_, ?_⟩ <;> rw [htcp]
  · exact h.wellFormed
  · rw [hsockets]
    exact h.occupied
  · exact h.distinct
  · rw [hsockets]
    exact h.owned

/-- What removing flows leaves, and what it reports. -/
structure Removes (s : Forwarding) (keys : List FlowKey) (s' : Forwarding)
    (removed : List Removed) : Prop where
  owned : s'.Owned
  gone : ∀ k, k ∈ keys → s'.tcp.get? k = none
  other : ∀ k, k ∉ keys → s'.tcp.get? k = s.tcp.get? k
  otherSocket : ∀ k flow, k ∉ keys → s.tcp.get? k = some flow → s'.socketOf flow = s.socketOf flow
  reported : ∀ r ∈ removed, r.key ∈ keys ∧ s.tcp.get? r.key = some r.flow ∧
    r.socket = s.socketOf r.flow

theorem removeTcp_removes (h : s.Owned) (k : FlowKey) :
    Removes s [k] (s.removeTcp k).1 (s.removeTcp k).2 := by
  rw [removeTcp]
  cases hget : s.tcp.get? k with
  | none =>
    refine ⟨h, ?_, fun _ _ => rfl, fun _ _ _ _ => rfl, fun r hr => nomatch hr⟩
    intro j hj
    rw [mem_singleton.1 hj]
    exact hget
  | some flow =>
    -- The other flows have other handles.
    have hslot : ∀ j f i, j ≠ k → s.tcp.get? j = some f → f.socket = some i →
        (dropSocket s.sockets flow).get? i = s.sockets.get? i := by
      intro j f i hj hf hi
      rw [dropSocket]
      split
      · rfl
      next handle hhandle =>
        rw [Slots.get?_remove, if_neg]
        rintro rfl
        exact hj (h.distinct j k f flow handle hf hget hi hhandle)
    have hother : ∀ j f, (s.tcp.erase k).get? j = some f → j ≠ k ∧ s.tcp.get? j = some f := by
      intro j f hf
      rw [get?_erase] at hf
      split at hf
      · cases hf
      · next hj => exact ⟨hj, hf⟩
    refine ⟨⟨?_, ?_, ?_, ?_⟩, ?_, ?_, ?_, ?_⟩
    · intro j f hf
      exact h.wellFormed j f (hother j f hf).2
    · intro j f i hf hi
      obtain ⟨hj, hf'⟩ := hother j f hf
      intro hnone
      exact h.occupied j f i hf' hi ((hslot j f i hj hf' hi).symm.trans hnone)
    · intro j j' f f' i hf hf' hi hi'
      exact h.distinct j j' f f' i (hother j f hf).2 (hother j' f' hf').2 hi hi'
    · intro i socket hi
      have hin : s.sockets.get? i = some socket ∧ flow.socket ≠ some i := by
        dsimp only at hi
        rw [dropSocket] at hi
        split at hi
        · next hnone => exact ⟨hi, by simp [hnone]⟩
        next handle hhandle =>
          rw [Slots.get?_remove] at hi
          split at hi
          · cases hi
          · next hne => exact ⟨hi, by simpa [hhandle] using hne⟩
      obtain ⟨j, f, hf, hfi⟩ := h.owned i socket hin.1
      refine ⟨j, f, ?_, hfi⟩
      have hj : j ≠ k := by
        rintro rfl
        rw [hget] at hf
        exact hin.2 (some.inj hf ▸ hfi)
      rw [get?_erase, if_neg hj]
      exact hf
    · intro j hj
      rw [mem_singleton.1 hj, get?_erase, if_pos rfl]
    · intro j hj
      exact (get?_erase _ _ _).trans (if_neg fun heq => hj (by simp [heq]))
    · intro j f hj hf
      cases hi : f.socket with
      | none => simp [socketOf, hi]
      | some i =>
        simp only [socketOf, hi, bind_some]
        exact hslot j f i (fun heq => hj (by simp [heq])) hf hi
    · intro r hr
      rw [mem_singleton.1 hr]
      exact ⟨mem_singleton_self k, hget, rfl⟩

theorem removeAll_removes (keys : List FlowKey) : ∀ {s : Forwarding}, s.Owned →
    Removes s keys (s.removeAll keys).1 (s.removeAll keys).2 := by
  induction keys with
  | nil =>
    intro s h
    exact ⟨h, nofun, fun _ _ => rfl, fun _ _ _ _ => rfl,
      fun r hr => nomatch hr⟩
  | cons k keys ih =>
    intro s h
    have hone := removeTcp_removes h k
    have hrest := ih hone.owned
    refine ⟨hrest.owned, ?_, ?_, ?_, ?_⟩
    · intro j hj
      by_cases hjkeys : j ∈ keys
      · exact hrest.gone j hjkeys
      · have hjk : j ∈ [k] := by simpa [hjkeys] using hj
        exact (hrest.other j hjkeys).trans (hone.gone j hjk)
    · intro j hj
      rw [mem_cons, not_or] at hj
      exact (hrest.other j hj.2).trans (hone.other j (by simpa using hj.1))
    · intro j f hj hf
      rw [mem_cons, not_or] at hj
      have hjk : j ∉ [k] := by simpa using hj.1
      exact (hrest.otherSocket j f hj.2 ((hone.other j hjk).trans hf)).trans
        (hone.otherSocket j f hjk hf)
    · intro r hr
      rcases mem_append.1 hr with hfirst | hlater
      · obtain ⟨hkey, hflow, hsocket⟩ := hone.reported r hfirst
        exact ⟨by simp [mem_singleton.1 hkey], hflow, hsocket⟩
      obtain ⟨hkey, hflow, hsocket⟩ := hrest.reported r hlater
      -- A flow that is still there when the later keys are removed is not the first one's.
      have hne : r.key ∉ [k] := by
        intro hmem
        rw [hone.gone r.key hmem] at hflow
        cases hflow
      have hflow' : s.tcp.get? r.key = some r.flow := (hone.other r.key hne).symm.trans hflow
      exact ⟨mem_cons_of_mem _ hkey, hflow',
        hsocket.trans (hone.otherSocket r.key r.flow hne hflow')⟩

/-! ## `pump_tcp` and `turn` -/

variable {j : FlowKey}

theorem acceptedIn_eq_some_iff {leftover : Bytes} :
    s.acceptedIn outside j = some (k, leftover) ↔ j = k ∧ s.outcomeOf outside k =
      some (.accepted leftover) := by
  rw [acceptedIn]
  split
  next l hout =>
    rw [some.injEq, Prod.mk.injEq]
    constructor
    · rintro ⟨rfl, rfl⟩
      exact ⟨rfl, hout⟩
    · rintro ⟨rfl, hout'⟩
      rw [hout] at hout'
      exact ⟨rfl, by simpa using hout'⟩
  next hnot =>
    constructor
    · exact nofun
    · rintro ⟨rfl, hout⟩
      exact absurd hout (hnot leftover)

theorem refusedIn_eq_some_iff {reason : String} :
    s.refusedIn outside j = some (k, reason) ↔ j = k ∧ s.outcomeOf outside k =
      some (.refused reason) := by
  rw [refusedIn]
  split
  next l hout =>
    rw [some.injEq, Prod.mk.injEq]
    constructor
    · rintro ⟨rfl, rfl⟩
      exact ⟨rfl, hout⟩
    · rintro ⟨rfl, hout'⟩
      rw [hout] at hout'
      exact ⟨rfl, by simpa using hout'⟩
  next hnot =>
    constructor
    · exact nofun
    · rintro ⟨rfl, hout⟩
      exact absurd hout (hnot reason)

theorem finishedIn_eq_some_iff :
    s.finishedIn outside j = some k ↔ j = k ∧ s.outcomeOf outside k = some .finished := by
  rw [finishedIn]
  split
  next hout =>
    rw [some.injEq]
    constructor
    · rintro rfl
      exact ⟨rfl, hout⟩
    · exact fun h => h.1
  next hnot =>
    constructor
    · exact nofun
    · rintro ⟨rfl, hout⟩
      exact absurd hout hnot

theorem mem_filterMap_of_get? {β : Type} {f : FlowKey → Option β} {b : β} {order : List FlowKey}
    (hget : s.tcp.get? k = some flow) (hf : f k = some b) : b ∈ (s.tcp.keysIn order).filterMap f :=
  mem_filterMap.2 ⟨k, mem_keysIn.2 ⟨flow, hget⟩, hf⟩

/-- What `pump_tcp` makes of the flows. -/
structure PumpsTcp (s : Forwarding) (outside : FlowKey → Outside) (s' : Forwarding)
    (removed : List Removed) :
    Prop where
  owned : s'.Owned
  flow : ∀ k flow', s'.tcp.get? k = some flow' → ∃ flow, s.tcp.get? k = some flow ∧
    (((flow.pump (s.socketOf flow) (outside k)).1 = .goesOn ∧
        flow' = (flow.pump (s.socketOf flow) (outside k)).2.1 ∧
        s'.socketOf flow' = (flow.pump (s.socketOf flow) (outside k)).2.2) ∨
      ∃ leftover, (flow.pump (s.socketOf flow) (outside k)).1 = .accepted leftover ∧
        AcceptedAs k (flow.pump (s.socketOf flow) (outside k)).2.1 leftover flow'
          (s'.socketOf flow'))
  removed : ∀ r ∈ removed, ∃ flow, s.tcp.get? r.key = some flow ∧
    ((flow.pump (s.socketOf flow) (outside r.key)).1 = .finished ∨
      ∃ reason, (flow.pump (s.socketOf flow) (outside r.key)).1 = .refused reason) ∧
    r.flow = (flow.pump (s.socketOf flow) (outside r.key)).2.1 ∧
    r.socket = (flow.pump (s.socketOf flow) (outside r.key)).2.2

theorem accepted_ready (h : s.Owned) (order : List FlowKey) {e : FlowKey × Bytes}
    (hmem : e ∈ (s.pumpFlows order outside).accepted) :
    ∃ flow, (s.pumpFlows order outside).state.tcp.get? e.1 = some flow ∧ flow.socket = none ∧
      flow.Settled := by
  obtain ⟨k, leftover⟩ := e
  have hp := pumpFlows_pumped h order outside
  rw [hp.accepted] at hmem
  obtain ⟨j, hj, hin⟩ := mem_filterMap.1 hmem
  obtain ⟨rfl, hout⟩ := acceptedIn_eq_some_iff.1 hin
  obtain ⟨flow, hget, hacc⟩ := Option.map_eq_some_iff.1 hout
  obtain ⟨hnone, hsettled⟩ := pump_accepted (h.wellFormed j flow hget) hacc
  exact ⟨_, (hp.pumped j flow hj hget).1, (pump_socket _ _ _).trans hnone, hsettled⟩

theorem nodup_accepted (h : s.Owned) (order : List FlowKey) :
    ((s.pumpFlows order outside).accepted.map Prod.fst).Nodup := by
  rw [(pumpFlows_pumped h order outside).accepted]
  have hkeys : ((s.tcp.keysIn order).filterMap (s.acceptedIn outside)).map Prod.fst =
      (s.tcp.keysIn order).filterMap fun j => (s.acceptedIn outside j).map Prod.fst :=
    map_filterMap
  rw [hkeys]
  apply (s.tcp.nodup_keysIn order).filterMap
  intro j j' b hb hb'
  obtain ⟨⟨k, l⟩, hin, rfl⟩ := Option.mem_map.1 hb
  obtain ⟨⟨k', l'⟩, hin', heq⟩ := Option.mem_map.1 hb'
  have hj := (acceptedIn_eq_some_iff.1 hin).1
  have hj' := (acceptedIn_eq_some_iff.1 hin').1
  rw [hj, hj']
  exact heq.symm

theorem pumpTcp_pumps (h : s.Owned) (order : List FlowKey) (outside : FlowKey → Outside) :
    PumpsTcp s outside (s.pumpTcp order outside).1 (s.pumpTcp order outside).2 := by
  have hp := pumpFlows_pumped h order outside
  have hacc := acceptAll_accepts (s.pumpFlows order outside).accepted hp.owned
    (nodup_accepted h order)
    fun e he => accepted_ready h order he
  simp only [pumpTcp]
  generalize (s.pumpFlows order outside).accepted.foldl (fun s e => s.acceptTcp e.1 e.2)
    (s.pumpFlows order outside).state = accepted at hacc ⊢
  obtain ⟨htcp, hsockets, -⟩ := refuseAll_same (s.pumpFlows order outside).refused accepted
  generalize (s.pumpFlows order outside).refused.foldl (fun s e => s.refuseHeld e.1) accepted =
    refused
    at htcp hsockets ⊢
  have hsame : ∀ f, refused.socketOf f = accepted.socketOf f := fun f => by rw [socketOf, hsockets,
    ← socketOf]
  have hrem := removeAll_removes
    ((s.pumpFlows order outside).finished ++ (s.pumpFlows order outside).refused.map Prod.fst)
    (hacc.owned.congr htcp hsockets)
  -- A flow that is neither accepted nor absent is what the pump made of it.
  have hpumped : ∀ k flow, s.tcp.get? k = some flow →
      (∀ leftover, s.outcomeOf outside k ≠ some (.accepted leftover)) →
      refused.tcp.get? k = some (flow.pump (s.socketOf flow) (outside k)).2.1 ∧
        refused.socketOf (flow.pump (s.socketOf flow) (outside k)).2.1 =
          (flow.pump (s.socketOf flow) (outside k)).2.2 := by
    intro k flow hget hnot
    obtain ⟨hstate, hsocket⟩ := hp.pumped k flow (mem_keysIn.2 ⟨flow, hget⟩) hget
    have hnotin : k ∉ (s.pumpFlows order outside).accepted.map Prod.fst := by
      intro hmem
      obtain ⟨⟨k', leftover⟩, hin, rfl⟩ := mem_map.1 hmem
      rw [hp.accepted] at hin
      obtain ⟨j, -, hin⟩ := mem_filterMap.1 hin
      exact hnot leftover (acceptedIn_eq_some_iff.1 hin).2
    rw [htcp, hsame]
    exact ⟨(hacc.other k hnotin).trans hstate, (hacc.otherSocket k _ hnotin hstate).trans hsocket⟩
  refine ⟨hrem.owned, ?_, ?_⟩
  · intro k flow' hflow'
    have hkeep : k ∉ (s.pumpFlows order outside).finished ++
        (s.pumpFlows order outside).refused.map Prod.fst := by
      intro hmem
      rw [hrem.gone k hmem] at hflow'
      cases hflow'
    have hthere : refused.tcp.get? k = some flow' := (hrem.other k hkeep).symm.trans hflow'
    have hsocket' := hrem.otherSocket k flow' hkeep hthere
    rw [mem_append, not_or] at hkeep
    cases hget : s.tcp.get? k with
    | none =>
      -- A key without a flow is not pumped, accepted or anything else.
      have hnotin : k ∉ (s.pumpFlows order outside).accepted.map Prod.fst := by
        intro hmem
        obtain ⟨⟨k', leftover⟩, hin, rfl⟩ := mem_map.1 hmem
        rw [hp.accepted] at hin
        obtain ⟨j, hj, hin⟩ := mem_filterMap.1 hin
        obtain ⟨flow, hflow⟩ := mem_keysIn.1 hj
        rw [(acceptedIn_eq_some_iff.1 hin).1, hget] at hflow
        cases hflow
      rw [htcp, hacc.other k hnotin, hp.absent k hget] at hthere
      cases hthere
    | some flow =>
      refine ⟨flow, rfl, ?_⟩
      have hout : s.outcomeOf outside k = some (flow.pump (s.socketOf flow) (outside k)).1 := by
        rw [outcomeOf, hget, map_some]
      cases houtcome : (flow.pump (s.socketOf flow) (outside k)).1 with
      | goesOn =>
        obtain ⟨hstate, hsocket⟩ := hpumped k flow hget (by simp [hout, houtcome])
        obtain rfl : flow' = _ := some.inj (hthere.symm.trans hstate)
        exact .inl ⟨rfl, rfl, hsocket'.trans hsocket⟩
      | accepted leftover =>
        refine .inr ⟨leftover, rfl, ?_⟩
        have hin : (k, leftover) ∈ (s.pumpFlows order outside).accepted := by
          rw [hp.accepted]
          exact mem_filterMap_of_get? hget (acceptedIn_eq_some_iff.2 ⟨rfl, by rw [hout, houtcome]⟩)
        obtain ⟨hstate, -⟩ := hp.pumped k flow (mem_keysIn.2 ⟨flow, hget⟩) hget
        obtain ⟨f, hf, hacc'⟩ := hacc.self k leftover _ hin hstate
        obtain rfl : f = flow' := some.inj (hf.symm.trans (htcp ▸ hthere))
        rw [hsocket', hsame]
        exact hacc'
      | refused reason =>
        refine absurd (mem_map.2 ⟨(k, reason), ?_, rfl⟩) hkeep.2
        rw [hp.refused]
        exact mem_filterMap_of_get? hget (refusedIn_eq_some_iff.2 ⟨rfl, by rw [hout, houtcome]⟩)
      | finished =>
        refine absurd ?_ hkeep.1
        rw [hp.finished]
        exact mem_filterMap_of_get? hget (finishedIn_eq_some_iff.2 ⟨rfl, by rw [hout, houtcome]⟩)
  · intro r hr
    obtain ⟨hkey, hflow, hsocket⟩ := hrem.reported r hr
    -- The pump found the flow finished or refused.
    have hout : s.outcomeOf outside r.key = some .finished ∨
        ∃ reason, s.outcomeOf outside r.key = some (.refused reason) := by
      rcases mem_append.1 hkey with hin | hin
      · rw [hp.finished] at hin
        obtain ⟨j, -, hj⟩ := mem_filterMap.1 hin
        exact .inl (finishedIn_eq_some_iff.1 hj).2
      · obtain ⟨⟨k, reason⟩, hmem, hk⟩ := mem_map.1 hin
        rw [hp.refused] at hmem
        obtain ⟨j, -, hj⟩ := mem_filterMap.1 hmem
        exact .inr ⟨reason, by rw [← hk]; exact (refusedIn_eq_some_iff.1 hj).2⟩
    obtain ⟨flow, hget⟩ : ∃ flow, s.tcp.get? r.key = some flow := by
      rcases hout with hout | ⟨reason, hout⟩ <;>
      · obtain ⟨flow, hget, -⟩ := Option.map_eq_some_iff.1 hout
        exact ⟨flow, hget⟩
    have houtcome : s.outcomeOf outside r.key =
        some (flow.pump (s.socketOf flow) (outside r.key)).1 := by
      rw [outcomeOf, hget, map_some]
    obtain ⟨hstate, hsocket'⟩ := hpumped r.key flow hget (by
      intro leftover hacc'
      rcases hout with hout | ⟨reason, hout⟩ <;> simp [hout] at hacc')
    have hr' : r.flow = (flow.pump (s.socketOf flow) (outside r.key)).2.1 :=
      some.inj (hflow.symm.trans hstate)
    refine ⟨flow, hget, ?_, hr', ?_⟩
    · rcases hout with hout | ⟨reason, hout⟩
      · exact .inl (some.inj (houtcome.symm.trans hout))
      · exact .inr ⟨reason, some.inj (houtcome.symm.trans hout)⟩
    · rw [hsocket, hr']
      exact hsocket'

theorem poll_socketOf (s : Forwarding) (r : Reactions) (flow : TcpFlow) :
    Option.Rel Socket.Drifts (s.socketOf flow) ((s.poll r).socketOf flow) := by
  cases hsocket : flow.socket with
  | none =>
    simp only [socketOf, hsocket, Option.bind_none]
    exact .none
  | some handle =>
    simp only [socketOf, hsocket, bind_some]
    exact SocketSet.poll_drifts r s.sockets s.rx handle

theorem poll_owned (h : s.Owned) (r : Reactions) : (s.poll r).Owned := by
  have hslots : ∀ i, ((s.poll r).sockets.get? i).isSome = (s.sockets.get? i).isSome :=
    fun i => SocketSet.relIsSome (SocketSet.poll_drifts r s.sockets s.rx i)
  refine ⟨h.wellFormed, ?_, h.distinct, ?_⟩
  · intro k flow i hget hi
    rw [← Option.isSome_iff_ne_none, hslots, Option.isSome_iff_ne_none]
    exact h.occupied k flow i hget hi
  intro i socket hi
  have hin : (s.sockets.get? i).isSome = true := by
    rw [← hslots, hi]
    rfl
  obtain ⟨socket₀, hsocket₀⟩ := Option.isSome_iff_exists.1 hin
  exact h.owned i socket₀ hsocket₀

variable {first second : Reactions} {order : List FlowKey}

theorem turn_owned (h : s.Owned) : (s.turn first order outside second).1.Owned :=
  poll_owned (pumpTcp_pumps (poll_owned h first) order outside).owned second

/-- What a turn has made of a flow that is still there: smoltcp worked on its socket, it was pumped
and went on or was accepted, and smoltcp worked on its socket again. -/
theorem turn_flow (h : s.Owned)
    (hget : (s.turn first order outside second).1.tcp.get? k = some flow') :
    ∃ flow socket, s.tcp.get? k = some flow ∧
      Option.Rel Socket.Drifts ((flow.pump ((s.poll first).socketOf flow) (outside k)).2.2) socket ∧
      (((flow.pump ((s.poll first).socketOf flow) (outside k)).1 = .goesOn ∧
          flow' = (flow.pump ((s.poll first).socketOf flow) (outside k)).2.1 ∧
          (s.turn first order outside second).1.socketOf flow' = socket) ∨
        ∃ leftover fresh, (flow.pump ((s.poll first).socketOf flow) (outside k)).1 =
          .accepted leftover ∧
          AcceptedAs k (flow.pump ((s.poll first).socketOf flow)
            (outside k)).2.1 leftover flow' fresh ∧
          Option.Rel Socket.Drifts fresh
            ((s.turn first order outside second).1.socketOf flow')) := by
  have hpump := pumpTcp_pumps (poll_owned h first) order outside
  have hdrift := poll_socketOf ((s.poll first).pumpTcp order outside).1 second flow'
  obtain ⟨flow, hflow, hgoes | ⟨leftover, hout, hacc⟩⟩ := hpump.flow k flow' hget
  · obtain ⟨hout, hflow', hsocket⟩ := hgoes
    rw [hsocket] at hdrift
    exact ⟨flow, _, hflow, hdrift, .inl ⟨hout, hflow', rfl⟩⟩
  · exact ⟨flow, _, hflow, SocketSet.relRefl _, .inr ⟨leftover, _, hout, hacc, hdrift⟩⟩

/-- A flow that a turn removes was found finished or refused, and is removed as the pump left it. -/
theorem turn_removed (h : s.Owned) {r : Removed} (hr : r ∈ (s.turn first order outside second).2) :
    ∃ flow, s.tcp.get? r.key = some flow ∧
      ((flow.pump ((s.poll first).socketOf flow) (outside r.key)).1 = .finished ∨
        ∃ reason, (flow.pump ((s.poll first).socketOf flow) (outside r.key)).1 = .refused reason) ∧
      r.flow = (flow.pump ((s.poll first).socketOf flow) (outside r.key)).2.1 ∧
      r.socket = (flow.pump ((s.poll first).socketOf flow) (outside r.key)).2.2 :=
  (pumpTcp_pumps (poll_owned h first) order outside).removed r hr

/-! ## The other events -/

theorem ready_owned (h : s.Owned) (readable : Bool) (o : Outside) :
    (s.ready k readable o).Owned := by
  rw [ready]
  cases hget : s.tcp.get? k with
  | none => exact h
  | some flow =>
    have hflushed := Upstream.flush_flushed
      { flow.upstream with readPending := flow.upstream.readPending || readable } o
    have hwell := h.wellFormed k flow hget
    refine h.insert hget rfl ⟨fun hc => ?_, fun hc => ⟨?_, ?_⟩⟩ fun _ => rfl
    · exact hflushed.handshake.trans (hwell.connecting (hflushed.connecting.symm.trans hc))
    · exact hflushed.handshake.trans (hwell.socket hc).1
    · exact hflushed.connecting.trans (hwell.socket hc).2

/-- Readiness may write bytes of one flow, and leaves every other and every socket as it was. -/
theorem ready_flow {readable : Bool} {o : Outside}
    (hget : (s.ready j readable o).tcp.get? k = some flow') :
    ∃ flow, s.tcp.get? k = some flow ∧ (s.ready j readable o).socketOf flow' = s.socketOf flow ∧
      (flow' = flow ∨
        flow' = { flow with
          upstream :=
            ({ flow.upstream with readPending :=
              flow.upstream.readPending || readable }.flush o).1 }) := by
  rw [ready] at hget ⊢
  cases hj : s.tcp.get? j with
  | none =>
    rw [hj] at hget
    exact ⟨flow', hget, rfl, .inl rfl⟩
  | some flow =>
    rw [hj] at hget
    rw [get?_insert] at hget
    split at hget
    next hk =>
      subst hk
      cases hget
      exact ⟨flow, hj, rfl, .inr rfl⟩
    · exact ⟨flow', hget, rfl, .inl rfl⟩

/-- A new flow has no socket. -/
theorem Owned.insert_new (h : s.Owned) (hget : s.tcp.get? k = none) (hwell : flow.WellFormed)
    (hnone : flow.socket = none) : ({ s with tcp := s.tcp.insert k flow } : Forwarding).Owned := by
  have hback : ∀ j f i, (s.tcp.insert k flow).get? j = some f → f.socket = some i → s.tcp.get? j =
      some f := by
    intro j f i hf hi
    rw [get?_insert] at hf
    split at hf
    · rw [← some.inj hf, hnone] at hi
      cases hi
    · exact hf
  constructor
  · intro j f hf
    rw [get?_insert] at hf
    split at hf
    · exact some.inj hf ▸ hwell
    · exact h.wellFormed j f hf
  · exact fun j f i hf hi => h.occupied j f i (hback j f i hf hi) hi
  · exact fun j j' f f' i hf hf' hi hi' => h.distinct j j' f f' i (hback j f i hf hi)
      (hback j' f' i hf' hi') hi hi'
  · intro i socket hi
    obtain ⟨j, f, hf, hfi⟩ := h.owned i socket hi
    refine ⟨j, f, ?_, hfi⟩
    rw [get?_insert, if_neg]
    · exact hf
    · rintro rfl
      rw [hget] at hf
      cases hf

/-- What a packet of an application does to the flows: it opens one, cancels one, is held in one as
its SYN, or waits for smoltcp. -/
inductive PacketEffect (s : Forwarding) (packet : Bytes) : Forwarding → List Removed → Prop where
  /-- Nothing but a reset, or nothing at all. -/
  | same (s' : Forwarding) (htcp : s'.tcp = s.tcp) (hsockets : s'.sockets = s.sockets)
    (hrx : s'.rx = s.rx) :
      PacketEffect s packet s' []
  /-- The packet waits for smoltcp. -/
  | queued (hparse : ∀ g, segmentOf packet = some g →
      ∃ flow, s.tcp.get? ⟨g.source.port, g.destination⟩ = some flow ∧ flow.socket ≠ none) :
      PacketEffect s packet { s with rx := s.rx ++ [packet] } []
  /-- A flow that was still being dialled is cancelled. -/
  | cancelled (k : FlowKey) (flow : TcpFlow) (hget : s.tcp.get? k = some flow)
    (hnone : flow.socket = none) :
      PacketEffect s packet (s.removeTcp k).1 (s.removeTcp k).2
  /-- A SYN is sent again. -/
  | held (g : Segment) (flow : TcpFlow) (sequence : UInt32) (hg : segmentOf packet = some g)
    (hsyn : g.syn = true)
      (hrst : g.rst = false) (hget : s.tcp.get? ⟨g.source.port, g.destination⟩ = some flow)
      (hnone : flow.socket = none) :
      PacketEffect s packet
        { s with tcp := s.tcp.insert ⟨g.source.port, g.destination⟩ { flow with
            heldSyn := some (packet, sequence) } }
        []
  /-- A flow is opened. -/
  | opened (g : Segment) (sequence : UInt32) (token : Token) (now : Instant)
      (hg : segmentOf packet = some g)
      (hsyn : g.syn = true) (hack : g.ack = false)
        (hget : s.tcp.get? ⟨g.source.port, g.destination⟩ = none) :
      PacketEffect s packet
        { s with
          tcp := s.tcp.insert ⟨g.source.port, g.destination⟩
            (.opened (Upstream.dial token s.exit .connect g.destination) packet sequence now) }
        []

theorem onAppPacket_effect (s : Forwarding) (packet : Bytes) (token : Token) (dialled : Bool)
    (now : Instant) :
    PacketEffect s packet
        (s.onAppPacket packet token dialled now).1 (s.onAppPacket packet token dialled now).2 := by
  rw [onAppPacket]
  cases hip : parseIpv4 packet with
  | none => exact .same s rfl rfl rfl
  | some ip =>
    dsimp only
    by_cases htcp : ip.protocol = protocolTcp
    · rw [if_neg (by simpa using htcp)]
      cases hhead : (if ip.fragmented = true then none else parseTcp ip.payload) with
      | none =>
        refine .queued fun g hg => ?_
        have hfrag : ip.fragmented = true ∨ parseTcp ip.payload = none := by
          split at hhead
          · next hf => exact .inl hf
          · exact .inr hhead
        rcases hfrag with hf | hnone
        · simp [segmentOf, hip, hf] at hg
        · simp [segmentOf, hip, hnone] at hg
      | some head =>
        have hwhole : ip.fragmented = false ∧ parseTcp ip.payload = some head := by
          split at hhead
          · cases hhead
          · next hf => exact ⟨by simpa using hf, hhead⟩
        have hg : segmentOf packet = some
            { source := ⟨ip.source, head.sourcePort⟩, destination := ⟨ip.destination,
              head.destinationPort⟩, syn := head.syn, ack := head.ack, rst := head.rst,
              fin := ((ip.payload[13]?).getD 0) &&& 0x01 != 0 } := by
          simp [segmentOf, hip, htcp, hwhole.1, hwhole.2]
        dsimp only
        cases hget : s.tcp.get? ⟨head.sourcePort, ⟨ip.destination, head.destinationPort⟩⟩ with
        | some flow =>
          dsimp only
          split
          next hcancel =>
            simp only [Bool.and_eq_true, Option.isNone_iff_eq_none] at hcancel
            exact .cancelled _ flow hget hcancel.1
          next hcancel =>
            split
            next hsome =>
              refine .queued fun g' hg' => ?_
              cases hg.symm.trans hg'
              exact ⟨flow, hget, Option.isSome_iff_ne_none.1 hsome⟩
            next hsome =>
              have hnone : flow.socket = none := by simpa using hsome
              split
              next hsyn =>
                have hrst : head.rst = false := by simpa [hnone] using hcancel
                exact .held _ flow head.sequence hg hsyn hrst hget hnone
              · exact .same s rfl rfl rfl
        | none =>
          dsimp only
          split
          next hopen =>
            simp only [Bool.and_eq_true, Bool.not_eq_true'] at hopen
            rw [openTcp]
            split
            · exact .same _ rfl rfl rfl
            · split
              · exact .opened _ head.sequence token now hg hopen.1 hopen.2 hget
              · exact .same _ rfl rfl rfl
          · split
            · exact .same _ rfl rfl rfl
            · exact .same s rfl rfl rfl
    · rw [if_pos (by simpa using htcp)]
      exact .same s rfl rfl rfl

theorem PacketEffect.owned {packet : Bytes} {s' : Forwarding} {removed : List Removed}
    (h : PacketEffect s packet s' removed) (hs : s.Owned) : s'.Owned := by
  cases h with
  | same _ htcp hsockets _ => exact hs.congr htcp hsockets
  | queued _ => exact hs.congr rfl rfl
  | cancelled k flow hget hnone => exact (removeTcp_removes hs k).owned
  | held g flow sequence hg hsyn hrst hget hnone =>
    have hwell := hs.wellFormed _ flow hget
    exact hs.insert hget rfl ⟨hwell.connecting, hwell.socket⟩ fun _ => rfl
  | opened g sequence token now hg hsyn hack hget =>
    exact hs.insert_new hget (opened_wellFormed token s.exit g.destination packet sequence now) rfl

/-- What holds of every flow and its socket holds of them after a packet, if it does of a flow that
holds another SYN and of a new flow. -/
theorem PacketEffect.flows {packet : Bytes} {s' : Forwarding} {removed : List Removed}
    {P : FlowKey → TcpFlow → Option Socket → Prop} (h : PacketEffect s packet s' removed)
        (hs : s.Owned)
    (hall : ∀ j f, s.tcp.get? j = some f → P j f (s.socketOf f))
    (hheld : ∀ j f syn, P j f (s.socketOf f) → P j { f with heldSyn := some syn } (s.socketOf f))
    (hopened : ∀ j token sequence now,
      P j (.opened (Upstream.dial token s.exit .connect j.remote) packet sequence now) none)
    {j : FlowKey} {f : TcpFlow} (hf : s'.tcp.get? j = some f) : P j f (s'.socketOf f) := by
  cases h with
  | same _ htcp hsockets _ =>
    rw [socketOf, hsockets]
    exact hall j f (htcp ▸ hf)
  | queued _ => exact hall j f hf
  | cancelled k flow hget hnone =>
    have hrem := removeTcp_removes hs k
    have hj : j ∉ [k] := by
      intro hmem
      rw [hrem.gone j hmem] at hf
      cases hf
    rw [hrem.other j hj] at hf
    rw [hrem.otherSocket j f hj hf]
    exact hall j f hf
  | held g flow sequence hg hsyn hrst hget hnone =>
    rw [get?_insert] at hf
    split at hf
    next hj =>
      rw [← some.inj hf, hj]
      exact hheld _ _ _ (hall _ flow hget)
    · exact hall j f hf
  | opened g sequence token now hg hsyn hack hget =>
    rw [get?_insert] at hf
    split at hf
    next hj =>
      rw [← some.inj hf, hj]
      exact hopened ⟨g.source.port, g.destination⟩ token sequence now
    · exact hall j f hf

theorem shutdown_removes (h : s.Owned) (order : List FlowKey) :
    Removes s (s.tcp.keysIn order) (s.shutdown order).1 (s.shutdown order).2 :=
  removeAll_removes _ h

theorem shutdown_empty (h : s.Owned) (order : List FlowKey) (k : FlowKey) :
    (s.shutdown order).1.tcp.get? k = none := by
  have hrem := shutdown_removes h order
  by_cases hk : k ∈ s.tcp.keysIn order
  · exact hrem.gone k hk
  · rw [hrem.other k hk, Option.eq_none_iff_forall_ne_some]
    exact fun flow hget => hk (mem_keysIn.2 ⟨flow, hget⟩)

theorem step_owned (h : s.Owned) (e : Event) : (s.step e).1.Owned := by
  cases e with
  | packet bytes token dialled now => exact (onAppPacket_effect s bytes token dialled now).owned h
  | ready key readable o => exact ready_owned h readable o
  | turn first order outside second => exact turn_owned h
  | shutdown order => exact (shutdown_removes h order).owned

end Forwarding

end GamePath.Engine.Tun2socks
