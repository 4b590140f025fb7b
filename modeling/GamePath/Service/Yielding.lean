import GamePath.Service.Sessions

/-!
# The VPN yields to a game that takes all traffic

The VPN looks at the game once, when it starts, and the game never waits for the VPN. What keeps
them apart is the notification: from the moment the game's summary says that it takes all traffic,
either the VPN has nothing and no start of it is past its look at the game, or a notification is on
its way that has not looked yet. When it does look it sees the summary as it is then, with the lock
of the VPN's slot held.
-/

namespace GamePath.Service

open List Stage Engine.Capture
open SessionSlot (StartRequest)

/-- The slot has no session: it is not connected, and owns no engine and no L2TP session. -/
structure SessionSlot.Empty (slot : SessionSlot) : Prop where
  connected : slot.connected = false
  engine : slot.engine = none
  l2tpSessions : slot.l2tpSessions = []

/-- A start past its look at the game. -/
def Stage.commits : Stage → Bool
  | startPublishing _ | startReading _ | nativeActive _ _ | nativeAppDns _ _ _ | connecting _ _ _
      _ => true
  | _ => false

/-- A notification that has not looked yet. -/
def Stage.looks : Stage → Bool
  | reconcileWaiting | reconcileReading => true
  | _ => false

theorem Stage.locked_of_commits {stage : Stage} (h : stage.commits = true) :
    stage.locked = true := by
  cases stage <;> first | rfl | simp [commits] at h

section Turns

variable {check : RuleCheck} {slot : SessionSlot} {other : SlotSummary} {free : Bool} {c : Choice}
  {stage : Stage}

theorem SessionSlot.empty_takeForTeardown (slot : SessionSlot) (reason : Option StopReason) :
    (slot.takeForTeardown reason).Empty := ⟨rfl, rfl, rfl⟩

theorem Stage.turn_empty (h : slot.Empty) (hstage : stage.commits = false) :
    (stage.turn check slot other free c).slot.Empty := by
  have hidle := h.connected
  cases stage with
  | startWaiting | stopWaiting | reconcileReading =>
    rw [turn]
    split
    · exact slot.empty_takeForTeardown _
    · exact h
  | startChecking q =>
    rw [turn]
    split
    · exact slot.empty_takeForTeardown _
    · split
      · exact slot.empty_takeForTeardown _
      · exact h
  | expireWaiting =>
    rw [turn]
    split
    · split
      · exact slot.empty_takeForTeardown _
      · exact h
    · exact h
  | updateWaiting rules foreign =>
    rw [turn]
    split
    · rw [SessionSlot.updateSessionRules, if_pos (.inl hidle)]
      exact h
    · exact h
  | reconcileWaiting =>
    rw [turn]
    split <;> exact h
  | reconcileTelling foreign =>
    rw [turn, SessionSlot.tell, if_pos hidle]
    exact h
  | updateReading | publishing | ending | finished => exact h
  | _ => simp [commits] at hstage

theorem Stage.turn_commits (h : (stage.turn check slot other free c).stage.commits = true) :
    stage.commits = true ∨ (∃ q, stage = .startChecking q) ∧
      ¬ (slot.id = .vpn ∧ other.ownsAllTraffic = true) := by
  cases stage with
  | startChecking q =>
    rw [turn] at h
    split at h
    · simp [startFails, commits] at h
    · split at h
      · simp [startFails, commits] at h
      · next hlook => exact .inr ⟨⟨q, rfl⟩, hlook⟩
  | startWaiting | stopWaiting | updateWaiting | reconcileWaiting | reconcileReading =>
    rw [turn] at h
    split at h <;> simp [commits] at h
  | expireWaiting =>
    rw [turn] at h
    split at h
    · split at h <;> simp [commits] at h
    · simp [commits] at h
  | updateReading | reconcileTelling | publishing | ending | finished => simp [turn, commits] at h
  | _ => exact .inl rfl

theorem Stage.turn_looks (h : stage.looks = true) :
    (stage.turn check slot other free c).stage.looks = true ∨
      (stage.locked = true ∧ (slot.id = .vpn → other.ownsAllTraffic = true →
        (stage.turn check slot other free c).slot.Empty ∧
          (stage.turn check slot other free c).stage.commits = false)) := by
  cases stage with
  | reconcileWaiting =>
    rw [turn]
    split <;> exact .inl rfl
  | reconcileReading =>
    refine .inr ⟨rfl, fun hid howns => ?_⟩
    rw [turn, if_pos ⟨hid, howns⟩]
    exact ⟨slot.empty_takeForTeardown _, rfl⟩
  | _ => simp [looks] at h

theorem Stage.turn_checking {q : StartRequest} (h : (stage.turn check slot other free c).stage =
    .startChecking q) :
    (stage.turn check slot other free c).slot.Empty := by
  cases stage with
  | startWaiting q' =>
    cases free with
    | true => exact slot.empty_takeForTeardown _
    | false => cases h
  | expireWaiting =>
    rw [turn] at h
    split at h
    · split at h <;> cases h
    · cases h
  | startChecking q' =>
    rw [turn] at h
    split at h
    · simp [startFails] at h
    · split at h <;> simp [startFails] at h
  | updateReading | nativeAppDns | reconcileTelling | publishing | ending | finished =>
    simp [turn] at h
  | _ =>
    rw [turn] at h
    split at h <;> simp [startFails] at h

theorem Stage.turn_publish_none (h : stage.looks = true ∨ stage = .finished) :
    (stage.turn check slot other free c).publish = none := by
  cases stage with
  | reconcileWaiting | reconcileReading =>
    rw [turn]
    split <;> rfl
  | finished => rfl
  | _ => simp [looks] at h

end Turns

/-! ## The invariant -/

namespace Registry

/-- The VPN has nothing, and no start of it is past its look at the game. -/
structure Quiet (s : Registry) : Prop where
  empty : (s.slots .vpn).Empty
  commits : ∀ t ∈ s.threads, t.slot = .vpn → t.stage.commits = false

/-- A notification is on its way to the VPN. -/
def Coming (s : Registry) : Prop :=
  ∃ t ∈ s.threads, (t.slot = .vpn ∧ t.stage.looks = true ∧ t.notify = false) ∨
    (t.slot = .game ∧ t.notify = true)

/-- The invariant. -/
structure Yielding (s : Registry) : Prop where
  locks : s.Locks
  checking : ∀ t ∈ s.threads, t.slot = .vpn → ∀ q, t.stage = .startChecking q → (s.slots .vpn).Empty
  yields : (s.summaries .game).ownsAllTraffic = true → s.Quiet ∨ s.Coming

variable {s : Registry} {index : Nat} {t : Thread}

theorem new_yielding : new.Yielding :=
  ⟨new_locks, fun t ht => absurd ht (by simp [new]),
    fun h => absurd h (by simp [new, SlotSummary.idle,
    SlotSummary.ownsAllTraffic, SlotSummary.isActive])⟩

theorem call_yielding (h : s.Yielding) (id : SlotId) (request : Request) :
    Yielding { s with threads := s.threads ++ [⟨id, request.stage, false⟩] } := by
  refine ⟨call_locks h.locks id request, fun t ht hslot q hq => ?_, fun howns => ?_⟩
  · rcases mem_append.1 ht with ht' | ht'
    · exact h.checking t ht' hslot q hq
    · rw [mem_singleton.1 ht'] at hq
      exact absurd hq (by cases request <;> simp [Request.stage])
  rcases h.yields howns with hquiet | ⟨t, ht, hcoming⟩
  · refine .inl ⟨hquiet.empty, fun t ht hslot => ?_⟩
    rcases mem_append.1 ht with ht' | ht'
    · exact hquiet.commits t ht' hslot
    · rw [mem_singleton.1 ht']
      cases request <;> rfl
  · exact .inr ⟨t, mem_append_left _ ht, hcoming⟩

theorem spawns_yielding (h : s.Yielding) (ht : s.threads[index]? = some t)
    (hnotify : t.notify = true) :
    (s.spawns index t).Yielding := by
  have hmem := mem_of_getElem? ht
  refine ⟨spawns_locks h.locks ht, fun u hu hslot q hq => ?_, fun howns => ?_⟩
  · rcases mem_append.1 hu with hu' | hu'
    · rcases mem_or_eq_of_mem_set hu' with hu'' | rfl
      · exact h.checking u hu'' hslot q hq
      · exact h.checking t hmem hslot q hq
    · rw [mem_singleton.1 hu'] at hq
      cases hq
  cases hslot : t.slot with
  | game =>
    -- The notification was about to be sent, and now it is.
    refine .inr ⟨⟨.vpn, .reconcileWaiting, false⟩, mem_append_right _ ?_, .inl ⟨rfl, rfl, rfl⟩⟩
    rw [hslot]
    exact mem_cons_self
  | vpn =>
    rcases h.yields howns with hquiet | ⟨u, hu, hcoming⟩
    · refine .inl ⟨hquiet.empty, fun v hv hvs => ?_⟩
      rcases mem_append.1 hv with hv' | hv'
      · rcases mem_or_eq_of_mem_set hv' with hv'' | rfl
        · exact hquiet.commits v hv'' hvs
        · exact hquiet.commits t hmem hvs
      · rw [mem_singleton.1 hv']
        rfl
    refine .inr ⟨u, mem_append_left _ ?_, hcoming⟩
    obtain ⟨j, hj⟩ := mem_iff_getElem?.1 hu
    have hne : index ≠ j := by
      rintro rfl
      cases ht.symm.trans hj
      rcases hcoming with ⟨-, -, hfalse⟩ | ⟨hgame, -⟩
      · cases hnotify.symm.trans hfalse
      · cases hslot.symm.trans hgame
    refine mem_of_getElem? (i := j) ?_
    rw [getElem?_set_ne hne]
    exact hj

theorem needsUpdate_of_owns {previous summary : SlotSummary} (h : previous.ownsAllTraffic = false)
    (h' : summary.ownsAllTraffic = true) : needsUpdate .game previous summary = true := by
  rw [needsUpdate, if_neg]
  · simp [h, h']
  · rintro rfl
    cases h.symm.trans h'

section Takes

variable {check : RuleCheck} {c : Choice}

theorem takes_slots (turn : Turn) (id : SlotId) :
    (s.takes index t turn).slots id = if id = t.slot then turn.slot else s.slots id :=
  Function.update_apply s.slots t.slot turn.slot id

theorem takes_summaries_other (turn : Turn) {id : SlotId} (h : id ≠ t.slot) :
    (s.takes index t turn).summaries id = s.summaries id := by
  rw [takes]
  cases turn.publish with
  | none => rfl
  | some summary => exact Function.update_of_ne h _ _

theorem Coming.takes {turn : Turn} {u : Thread} {j : Nat} (hu : s.threads[j]? = some u)
    (hj : index ≠ j) (h : (u.slot = .vpn ∧ u.stage.looks = true ∧ u.notify = false) ∨
      (u.slot = .game ∧ u.notify = true)) :
    (s.takes index t turn).Coming := by
  refine ⟨u, mem_of_getElem? (i := j) ?_, h⟩
  rw [Registry.takes, getElem?_set_ne hj]
  exact hu

section

variable (h : s.Yielding) (ht : s.threads[index]? = some t)
include h ht

theorem takes_checking :
    ∀ u ∈ (s.takes index t (s.turned check t c)).threads,
      u.slot = .vpn → ∀ q, u.stage = .startChecking q →
        ((s.takes index t (s.turned check t c)).slots
          .vpn).Empty := by
  intro u hu hslot q hq
  rw [takes_slots]
  obtain ⟨j, hj⟩ := mem_iff_getElem?.1 hu
  rcases set_some hj with ⟨-, rfl⟩ | ⟨hne, hold⟩
  · rw [if_pos hslot.symm]
    exact turn_checking hq
  have hempty := h.checking u (mem_of_getElem? hold) hslot q hq
  split
  next hvpn =>
    -- The lock is held by the start, so whoever had its turn does not have it.
    have hulocked : u.stage.locked = true := by
      rw [hq]
      rfl
    have hslots : t.slot = u.slot := hvpn.symm.trans hslot.symm
    have hunlocked := h.locks.unlocked hold hulocked ht hne.symm hslots
    have hbusy : s.free t.slot = false := by
      rw [Bool.eq_false_iff]
      intro hfree
      cases (free_iff.1 hfree u (mem_of_getElem? hold) hslots.symm).symm.trans hulocked
    rw [((turn_unlocked hunlocked).2 hbusy).1, ← hvpn]
    exact hempty
  · exact hempty

theorem takes_yields_game (hnotify : t.notify = false) (hslot : t.slot = .game) (turn : Turn)
    (howns : ((s.takes index t turn).summaries .game).ownsAllTraffic = true) :
    (s.takes index t turn).Quiet ∨ (s.takes index t turn).Coming := by
  have hkeep : (s.summaries .game).ownsAllTraffic = true → (s.takes index t turn).Quiet ∨
      (s.takes index t turn).Coming := by
    intro hbefore
    rcases h.yields hbefore with hquiet | ⟨u, hu, hcoming⟩
    · refine .inl ⟨?_, fun u hu hvpn => ?_⟩
      · rw [takes_slots, if_neg (by simp [hslot])]
        exact hquiet.empty
      · rcases mem_or_eq_of_mem_set hu with hu' | rfl
        · exact hquiet.commits u hu' hvpn
        · cases hslot.symm.trans hvpn
    obtain ⟨j, hj⟩ := mem_iff_getElem?.1 hu
    refine .inr (Coming.takes hj ?_ hcoming)
    rintro rfl
    cases ht.symm.trans hj
    rcases hcoming with ⟨hvpn, -⟩ | ⟨-, htrue⟩
    · cases hslot.symm.trans hvpn
    · cases hnotify.symm.trans htrue
  cases hpublish : turn.publish with
  | none =>
    refine hkeep ?_
    rw [takes, hpublish] at howns
    exact howns
  | some summary =>
    cases hbefore : (s.summaries .game).ownsAllTraffic with
    | true => exact hkeep hbefore
    | false =>
      have hnow : summary.ownsAllTraffic = true := by
        rw [takes, hpublish] at howns
        change (Function.update s.summaries t.slot summary .game).ownsAllTraffic = true at howns
        rw [hslot, Function.update_self] at howns
        exact howns
      refine .inr ⟨_, List.mem_set (List.getElem?_eq_some_iff.1 ht).1 _, .inr ⟨hslot, ?_⟩⟩
      rw [hpublish, hslot]
      exact needsUpdate_of_owns hbefore hnow

theorem takes_yields_vpn (hslot : t.slot = .vpn)
    (howns : (s.summaries .game).ownsAllTraffic = true) :
    (s.takes index t (s.turned check t c)).Quiet ∨
      (s.takes index t (s.turned check t c)).Coming := by
  have hmem := mem_of_getElem? ht
  have hid : (s.slots t.slot).id = .vpn := (h.locks.named t.slot).trans hslot
  have hother : (s.summaries t.slot.other).ownsAllTraffic = true := by
    rw [hslot]
    exact howns
  rcases h.yields howns with hquiet | ⟨u, hu, hcoming⟩
  · -- A start that looks now finds that the game takes all traffic.
    have hcommits := hquiet.commits t hmem hslot
    refine .inl ⟨?_, fun u hu hvpn => ?_⟩
    · rw [takes_slots, if_pos hslot.symm]
      exact turn_empty (hslot ▸ hquiet.empty) hcommits
    rcases mem_or_eq_of_mem_set hu with hu' | rfl
    · exact hquiet.commits u hu' hvpn
    · by_contra hbad
      rcases turn_commits (Bool.not_eq_false _ ▸ hbad) with hc | ⟨-, hlook⟩
      · cases hcommits.symm.trans hc
      · exact hlook ⟨hid, hother⟩
  · obtain ⟨j, hj⟩ := mem_iff_getElem?.1 hu
    by_cases hne : index = j
    · subst hne
      cases ht.symm.trans hj
      have hlooks : t.stage.looks = true := by
        rcases hcoming with ⟨-, hlooks, -⟩ | ⟨hgame, -⟩
        · exact hlooks
        · cases hslot.symm.trans hgame
      rcases turn_looks hlooks with hstill | ⟨hlocked, hstops⟩
      · refine .inr ⟨_, List.mem_set (List.getElem?_eq_some_iff.1 ht).1 _, .inl ⟨hslot, hstill, ?_⟩⟩
        rw [turn_publish_none (.inl hlooks)]
        rfl
      -- The notification looks, and the VPN is torn down.
      obtain ⟨hempty, hcommits⟩ := hstops hid hother
      refine .inl ⟨?_, fun u hu hvpn => ?_⟩
      · rw [takes_slots, if_pos hslot.symm]
        exact hempty
      obtain ⟨k, hk⟩ := mem_iff_getElem?.1 hu
      rcases set_some hk with ⟨-, rfl⟩ | ⟨hki, hold⟩
      · exact hcommits
      · have hunlocked := h.locks.unlocked ht hlocked hold hki (hvpn.trans hslot.symm)
        by_contra hbad
        have hlocked' := locked_of_commits (Bool.not_eq_false _ ▸ hbad)
        cases hunlocked.symm.trans hlocked'
    · exact .inr (Coming.takes hj hne hcoming)

theorem takes_yielding (hnotify : t.notify = false) :
    (s.takes index t (s.turned check t c)).Yielding := by
  refine ⟨takes_locks check c h.locks ht, takes_checking h ht, fun howns => ?_⟩
  by_cases hslot : t.slot = .game
  · exact takes_yields_game h ht hnotify hslot _ howns
  · rw [takes_summaries_other _ (Ne.symm hslot)] at howns
    exact takes_yields_vpn h ht (SlotId.eq_vpn hslot) howns

end

end Takes

theorem step_yielding (check : RuleCheck) (h : s.Yielding) (e : ServiceEvent) :
    (s.step check e).Yielding := by
  cases e with
  | call id request => exact call_yielding h id request
  | run index c =>
    rw [step]
    cases ht : s.threads[index]? with
    | none => exact h
    | some t =>
      dsimp only
      split
      · next hnotify => exact spawns_yielding h ht hnotify
      · next hnotify => exact takes_yielding h ht (Bool.eq_false_iff.2 hnotify)

theorem run_yielding (check : RuleCheck) (es : List ServiceEvent) :
    (es.foldl (step check) new).Yielding := by
  induction es using List.reverseRecOn with
  | nil => exact new_yielding
  | append_singleton es e ih =>
    rw [foldl_append]
    exact step_yielding check ih e

/-- Once nothing is running or pending, the VPN has no session while the game takes all traffic. -/
theorem vpn_yields_to_all_traffic (check : RuleCheck) (es : List ServiceEvent)
    (hsettled : (es.foldl (step check) new).Settled)
    (howns : ((es.foldl (step check) new).summaries .game).ownsAllTraffic = true) :
    ((es.foldl (step check) new).slots .vpn).Empty := by
  rcases (run_yielding check es).yields howns with hquiet | ⟨t, ht, hcoming⟩
  · exact hquiet.empty
  -- Whatever is on its way is a thread that is not over.
  obtain ⟨hstage, hnotify⟩ := hsettled t ht
  rcases hcoming with ⟨-, hlooks, -⟩ | ⟨-, htrue⟩
  · rw [hstage] at hlooks
    simp [looks] at hlooks
  · cases hnotify.symm.trans htrue

/-! ## A run that shows it -/

/-- Everything goes well. -/
def goesWell : Choice where
  refused := false
  start := ⟨none, Attempt.succeeds, 1, [(198, 51, 100, 7)], [], false⟩
  expired := false
  edit := ⟨Attempt.succeeds, Attempt.succeeds, none, none⟩
  notice := ⟨Attempt.succeeds, ∅⟩

/-- A request for a session with one rule for an application. -/
def oneApp (mode : TrafficMode) : StartRequest :=
  ⟨mode, true, false, [], ⟨[], []⟩, [⟨.application, [], 0⟩], false, none, false⟩

/-- Every thread gets its turns, one thread after the other. -/
def everyone : List ServiceEvent :=
  (List.range 6).flatMap fun index => List.replicate 8 (.run index goesWell)

/-- The VPN starts; when it has looked at the game, the game starts with all traffic, and then
everyone goes on. -/
def gameTakesAll : List ServiceEvent :=
  [.call .vpn (.start (oneApp .split)), .run 0 goesWell, .run 0 goesWell,
    .call .game (.start (oneApp .all))] ++
    List.replicate 4 (.run 1 goesWell) ++ everyone ++ everyone

theorem vpn_yields_to_all_traffic_started :
    (gameTakesAll.foldl (step fun _ => none) new).Settled ∧
      ((gameTakesAll.foldl (step fun _ => none) new).summaries .game).ownsAllTraffic = true ∧
      ((gameTakesAll.foldl (step fun _ => none) new).slots .vpn).Empty := by
  have hsettled : ∀ t ∈ (gameTakesAll.foldl (step fun _ => none) new).threads,
      t.stage = .finished ∧ t.notify = false := by decide +kernel
  have howns : ((gameTakesAll.foldl (step fun _ => none) new).summaries .game).ownsAllTraffic =
      true := by decide +kernel
  exact ⟨hsettled, howns, vpn_yields_to_all_traffic _ _ hsettled howns⟩

end Registry

end GamePath.Service
