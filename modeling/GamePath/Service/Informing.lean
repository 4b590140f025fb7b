import GamePath.Service.Knowledge
import GamePath.Service.Yielding
import GamePath.Lib.Run

/-!
# What a turn does to what a slot knows

A thread that read the other slot's summary goes on with what it read, so it leaves its slot
informed as long as the summary still says so. `Fresh` is that for each stage, and `Learns` that the
slot knows the summary or is about to be told. A summary in turn says what its slot is, but while a
thread is at work on the slot that is going to publish.
-/

namespace GamePath.Service

open SessionSlot Engine.Capture

/-! ## Stages -/

namespace Stage

/-- A start that opens its session. -/
def opens : Stage → Bool
  | startReading _ | nativeActive _ _ | nativeAppDns _ _ _ | connecting _ _ _ _ => true
  | _ => false

/-- The slot is ahead of its summary, and the thread is going to publish. -/
def ahead : Stage → Bool
  | startChecking _ | startPublishing _ | startReading _ | nativeActive _ _ | nativeAppDns _ _
      _ | connecting _ _ _ _
  | publishing _ => true
  | _ => false

/-- A notification that is about to tell what it read. -/
def notice : Stage → Option SlotSummary
  | reconcileTelling foreign => some foreign
  | _ => none

/-- An edit that waits for the lock, with what it read. -/
def edit : Stage → Option (List RuleSpec × SlotSummary)
  | updateWaiting rules foreign => some (rules, foreign)
  | _ => none

/-- The thread holds what it read of the other slot, and will use it. -/
def heard : Stage → Bool
  | nativeActive _ _ | nativeAppDns _ _ _ | connecting _ _ _ _ | reconcileTelling _ => true
  | _ => false

/-- What the next turn publishes. -/
def published (id : SlotId) (c : Choice) : Stage → Option SlotSummary
  | startPublishing q => if c.refused then none else some ((prepare id q).summaryOf .starting [])
  | publishing summary => some summary
  | _ => none

/-- What the thread read of the other slot is what its summary still says. -/
def Fresh (slot : SessionSlot) (cur : SlotSummary) : Stage → Prop
  | nativeActive _ foreign => Agrees slot.id foreign cur
  | nativeAppDns _ foreign active => Agrees slot.id foreign cur ∧ active = cur.isActive
  | connecting q foreign active appDns =>
    Agrees slot.id foreign cur ∧
      (q.native = true → slot.remoteDns = true →
        active = cur.isActive ∧ (slot.id = .game → appDns = cur.appDnsRules))
  | reconcileTelling foreign => Agrees slot.id foreign cur
  | _ => True

variable {stage : Stage}

theorem locked_of_opens (h : stage.opens = true) : stage.locked = true := by
  cases stage <;> first | rfl | simp [opens] at h

theorem locked_of_ahead (h : stage.ahead = true) : stage.locked = true := by
  cases stage <;> first | rfl | simp [ahead] at h

theorem locked_of_notice {f : SlotSummary} (h : stage.notice = some f) : stage.locked = true := by
  cases stage <;> first | rfl | simp [notice] at h

theorem fresh_of_not_heard {slot : SessionSlot} {cur : SlotSummary} (h : stage.heard = false) :
    stage.Fresh slot cur := by
  cases stage <;> trivial

theorem heard_locked (h : stage.locked = false) : stage.heard = false := by
  cases stage <;> first | rfl | simp [locked] at h

theorem Fresh.congr {slot : SessionSlot} {cur cur' : SlotSummary} (h : stage.Fresh slot cur)
    (hagrees : Agrees slot.id cur cur') : stage.Fresh slot cur' := by
  cases stage with
  | nativeActive | reconcileTelling => exact h.trans hagrees
  | nativeAppDns q foreign active => exact ⟨h.1.trans hagrees, h.2.trans hagrees.active⟩
  | connecting q foreign active appDns =>
    refine ⟨h.1.trans hagrees, fun hn hdns => ?_⟩
    obtain ⟨hactive, happ⟩ := h.2 hn hdns
    refine ⟨hactive.trans hagrees.active, fun hid => (happ hid).trans ?_⟩
    rw [hid] at hagrees
    exact hagrees.2
  | _ => trivial

end Stage

/-- The summary says what the slot is. -/
structure SessionSlot.Truthful (slot : SessionSlot) (summary : SlotSummary) : Prop where
  active : summary.isActive = slot.connected
  bypass : summary.bypass = slot.tunnel
  appDns : slot.id = .vpn → summary.appDnsRules = slot.appDns

/-! ## Turns -/

section Turns

variable {check : RuleCheck} {slot : SessionSlot} {other : SlotSummary} {free : Bool} {c : Choice}
  {stage : Stage}

theorem Stage.turn_published : (stage.turn check slot other free c).publish =
    stage.published slot.id c := by
  cases stage with
  | startWaiting | startReading | nativeActive | stopWaiting | updateWaiting | reconcileWaiting
  | reconcileReading => rw [turn]; split <;> rfl
  | startChecking q =>
    rw [turn]
    split
    · rfl
    · split <;> rfl
  | startPublishing q =>
    rw [turn, published]
    split <;> rfl
  | connecting q foreign active appDns =>
    rw [turn]
    split <;> rfl
  | expireWaiting =>
    rw [turn]
    split
    · split <;> rfl
    · rfl
  | _ => rfl

theorem SessionSlot.fit_takeForTeardown (slot : SessionSlot) (reason : Option StopReason) :
    (slot.takeForTeardown reason).Fit := fit_of_no_engine rfl rfl

theorem SessionSlot.truthful_takeForTeardown (slot : SessionSlot) (reason : Option StopReason) :
    (slot.takeForTeardown reason).Truthful (SlotSummary.idle reason) := ⟨rfl, rfl, fun _ => rfl⟩

/-- The calls of a turn succeed. -/
def Stage.Answered (check : RuleCheck) (slot : SessionSlot) (free : Bool) (c : Choice)
    (stage : Stage) :
    Prop :=
  (∀ e ∈ stage.edit, free = true → slot.EditAnswered check e.1 e.2 c.edit) ∧
    ∀ f ∈ stage.notice, slot.NoticeAnswered check f c.notice

theorem Stage.turn_fit (hfit : slot.Fit) (hopening : stage.opens = true → slot.Opening)
    (hanswered : stage.Answered check slot free c) :
    (stage.turn check slot other free c).slot.Fit ∧
      ((stage.turn check slot other free c).stage.opens = true →
        (stage.turn check slot other free c).slot.Opening) := by
  cases stage with
  | startWaiting | stopWaiting | reconcileReading =>
    rw [turn]
    split
    · exact ⟨slot.fit_takeForTeardown _, by rintro ⟨⟩⟩
    · exact ⟨hfit, by rintro ⟨⟩⟩
  | startChecking q =>
    rw [turn]
    split
    · exact ⟨slot.fit_takeForTeardown _, by rintro ⟨⟩⟩
    · split
      · exact ⟨slot.fit_takeForTeardown _, by rintro ⟨⟩⟩
      · exact ⟨hfit, by rintro ⟨⟩⟩
  | startPublishing q =>
    rw [turn]
    split
    · exact ⟨slot.fit_takeForTeardown _, by rintro ⟨⟩⟩
    · exact ⟨fit_of_no_engine rfl rfl, fun _ => ⟨rfl, rfl, rfl⟩⟩
  | startReading q =>
    obtain ⟨hconnected, hengine, hnative⟩ := hopening rfl
    rw [turn]
    split <;> exact ⟨⟨hfit.whole, hfit.native, hfit.routes⟩,
      fun _ => ⟨hconnected, hengine, hnative⟩⟩
  | nativeActive q foreign =>
    rw [turn]
    split
    · exact ⟨slot.fit_takeForTeardown _, by rintro ⟨⟩⟩
    · exact ⟨hfit, fun _ => hopening rfl⟩
  | nativeAppDns q foreign active => exact ⟨hfit, fun _ => hopening rfl⟩
  | connecting q foreign active appDns =>
    rw [turn]
    split
    · exact ⟨slot.fit_takeForTeardown _, by rintro ⟨⟩⟩
    next slot' hconnect =>
      exact ⟨(connect_knows (hopening rfl) hconnect).1, by rintro ⟨⟩⟩
  | expireWaiting =>
    rw [turn]
    split
    · split
      · exact ⟨slot.fit_takeForTeardown _, by rintro ⟨⟩⟩
      · exact ⟨hfit, by rintro ⟨⟩⟩
    · exact ⟨hfit, by rintro ⟨⟩⟩
  | updateWaiting rules foreign =>
    rw [turn]
    split
    next hfree =>
      exact ⟨(updateSessionRules_knows hfit (hanswered.1 _ rfl hfree)).1,
        by rintro ⟨⟩⟩
    · exact ⟨hfit, by rintro ⟨⟩⟩
  | reconcileWaiting =>
    rw [turn]
    split <;> exact ⟨hfit, by rintro ⟨⟩⟩
  | reconcileTelling foreign =>
    exact ⟨(tell_knows hfit (hanswered.2 _ rfl)).1, by rintro ⟨⟩⟩
  | updateReading | publishing | ending | finished => exact ⟨hfit, by rintro ⟨⟩⟩

/-- What a turn publishes is what the slot is, unless more is to come. -/
theorem Stage.turn_truthful {cur : SlotSummary} (h : stage.ahead = true ∨ slot.Truthful cur)
    (hpublishing : ∀ m, stage = .publishing m → slot.Truthful m)
    (hedit : ∀ e ∈ stage.edit, free = true → slot.id = .vpn → slot.TakesEdits →
      e.1.any isAppRule = slot.appDns) :
    ((stage.turn check slot other free c).stage.ahead = true ∨
        (stage.turn check slot other free c).slot.Truthful ((stage.published slot.id c).getD cur)) ∧
      ∀ m, (stage.turn check slot other free c).stage = .publishing m →
        (stage.turn check slot other free c).slot.Truthful m := by
  have hfails : ∀ m, (startFails slot).stage = .publishing m →
      (startFails slot).slot.Truthful m := by
    rintro m hm
    cases hm
    exact slot.truthful_takeForTeardown none
  cases stage with
  | startWaiting q =>
    rw [turn]
    split
    · exact ⟨.inl rfl, by rintro _ ⟨⟩⟩
    · exact ⟨.inr (h.resolve_left (by simp [ahead])), by rintro _ ⟨⟩⟩
  | startChecking q =>
    rw [turn]
    split
    · exact ⟨.inl rfl, hfails⟩
    · split
      · exact ⟨.inl rfl, hfails⟩
      · exact ⟨.inl rfl, by rintro _ ⟨⟩⟩
  | startPublishing | nativeActive =>
    rw [turn]
    split
    · exact ⟨.inl rfl, hfails⟩
    · exact ⟨.inl rfl, by rintro _ ⟨⟩⟩
  | startReading q =>
    rw [turn]
    split <;> exact ⟨.inl rfl, by rintro _ ⟨⟩⟩
  | nativeAppDns q foreign active => exact ⟨.inl rfl, by rintro _ ⟨⟩⟩
  | connecting q foreign active appDns =>
    rw [turn]
    split
    · exact ⟨.inl rfl, hfails⟩
    next slot' hconnect =>
      refine ⟨.inl rfl, fun m hm => ?_⟩
      cases hm
      exact ⟨(connect_connected hconnect).symm, rfl, fun _ => rfl⟩
  | stopWaiting reason =>
    rw [turn]
    split
    · refine ⟨.inl rfl, fun m hm => ?_⟩
      cases hm
      exact slot.truthful_takeForTeardown reason
    · exact ⟨.inr (h.resolve_left (by simp [ahead])), by rintro _ ⟨⟩⟩
  | expireWaiting =>
    have htrue := h.resolve_left (by simp [ahead])
    rw [turn]
    split
    · split
      · refine ⟨.inl rfl, fun m hm => ?_⟩
        cases hm
        exact slot.truthful_takeForTeardown _
      · exact ⟨.inr htrue, by rintro _ ⟨⟩⟩
    · exact ⟨.inr htrue, by rintro _ ⟨⟩⟩
  | updateWaiting rules foreign =>
    have htrue := h.resolve_left (by simp [ahead])
    rw [turn]
    split
    next hfree =>
      -- An edit publishes nothing.
      refine ⟨.inr ?_, by rintro _ ⟨⟩⟩
      obtain ⟨_, _, _, heq, -⟩ := slot.updateSessionRules_eq check rules foreign c.edit
      rw [heq]
      refine ⟨htrue.active, htrue.bypass, fun hvpn => (htrue.appDns hvpn).trans ?_⟩
      rw [← heq]
      exact (appDns_updateSessionRules (hedit _ rfl hfree hvpn)).symm
    · exact ⟨.inr htrue, by rintro _ ⟨⟩⟩
  | reconcileWaiting =>
    have htrue := h.resolve_left (by simp [ahead])
    rw [turn]
    split <;> exact ⟨.inr htrue, by rintro _ ⟨⟩⟩
  | reconcileReading =>
    rw [turn]
    split
    · refine ⟨.inl rfl, fun m hm => ?_⟩
      cases hm
      exact slot.truthful_takeForTeardown _
    · exact ⟨.inr (h.resolve_left (by simp [ahead])), by rintro _ ⟨⟩⟩
  | reconcileTelling foreign =>
    have htrue := h.resolve_left (by simp [ahead])
    refine ⟨.inr ?_, by rintro _ ⟨⟩⟩
    obtain ⟨_, _, heq⟩ := slot.tell_eq check foreign c.notice
    dsimp only [turn]
    rw [heq]
    exact ⟨htrue.active, htrue.bypass, htrue.appDns⟩
  | publishing summary => exact ⟨.inr (hpublishing summary rfl), by rintro _ ⟨⟩⟩
  | updateReading | ending | finished =>
    exact ⟨.inr (h.resolve_left (by simp [ahead])), by rintro _ ⟨⟩⟩

/-- What a slot knows of the other one, or is about to be told. -/
def SessionSlot.Learns (slot : SessionSlot) (cur : SlotSummary) (stage : Stage) : Prop :=
  slot.connected = true → slot.Knows cur ∨ stage.notice ≠ none

theorem SessionSlot.learns_of_idle {cur : SlotSummary} (h : slot.connected = false) :
    slot.Learns cur stage :=
  fun hon => nomatch (h.symm.trans hon)

/-- A turn keeps a slot informed. -/
theorem Stage.turn_learns (hfit : slot.Fit) (hopening : stage.opens = true → slot.Opening)
    (hanswered : stage.Answered check slot free c) (hlearns : slot.Learns other stage)
    (hfresh : stage.Fresh slot other)
    (hedit : ∀ e ∈ stage.edit, free = true → slot.AsksEngine e.1 → Agrees slot.id e.2 other)
    (hguard : ∀ f ∈ stage.notice, slot.GuardTold f) :
    (stage.turn check slot other free c).slot.Learns other
      (stage.turn check slot other free c).stage ∧
      (stage.turn check slot other free c).stage.Fresh
        (stage.turn check slot other free c).slot other := by
  have hstill : ∀ stage' : Stage, stage.notice = none → slot.Learns other stage' :=
    fun _ hnone hon => .inl ((hlearns hon).resolve_right fun h => h hnone)
  cases stage with
  | startWaiting | stopWaiting =>
    rw [turn]
    split
    · exact ⟨learns_of_idle rfl, trivial⟩
    · exact ⟨hstill _ rfl, trivial⟩
  | startChecking q =>
    rw [turn]
    split
    · exact ⟨learns_of_idle rfl, trivial⟩
    · split
      · exact ⟨learns_of_idle rfl, trivial⟩
      · exact ⟨hstill _ rfl, trivial⟩
  | startPublishing q =>
    rw [turn]
    split <;> exact ⟨learns_of_idle rfl, trivial⟩
  | startReading q =>
    have hidle := (hopening rfl).connected
    rw [turn]
    split
    · exact ⟨learns_of_idle hidle, Agrees.refl _ _⟩
    next hread =>
      exact ⟨learns_of_idle hidle, Agrees.refl _ _, fun hn hdns => absurd ⟨hn, hdns⟩ hread⟩
  | nativeActive q foreign =>
    rw [turn]
    split
    · exact ⟨learns_of_idle rfl, trivial⟩
    · exact ⟨learns_of_idle (hopening rfl).connected, hfresh, rfl⟩
  | nativeAppDns q foreign active =>
    exact ⟨learns_of_idle (hopening rfl).connected, hfresh.1, fun _ _ => ⟨hfresh.2, fun _ => rfl⟩⟩
  | connecting q foreign active appDns =>
    rw [turn]
    split
    · exact ⟨learns_of_idle rfl, trivial⟩
    next slot' hconnect =>
      refine ⟨fun _ => .inl ?_, trivial⟩
      have hid := (connect_session hconnect).1
      refine ((connect_knows (hopening rfl) hconnect).2 fun hn hdns => ?_).congr (hid ▸ hfresh.1)
      obtain ⟨hactive, happ⟩ := hfresh.2 hn hdns
      refine ⟨hactive.trans hfresh.1.active.symm, fun hgame => (happ hgame).trans ?_⟩
      have hagrees := hfresh.1
      rw [hgame] at hagrees
      exact hagrees.2.symm
  | expireWaiting =>
    rw [turn]
    split
    · split
      · exact ⟨learns_of_idle rfl, trivial⟩
      · exact ⟨hstill _ rfl, trivial⟩
    · exact ⟨hstill _ rfl, trivial⟩
  | updateReading | publishing | ending | finished => exact ⟨hstill _ rfl, trivial⟩
  | updateWaiting rules foreign =>
    rw [turn]
    split
    next hfree =>
      refine ⟨fun hon => .inl ?_, trivial⟩
      exact (updateSessionRules_knows hfit (hanswered.1 _ rfl hfree)).2 other
        (fun hwas => (hlearns hwas).resolve_right fun h => h rfl) (hedit _ rfl hfree) hon
    · exact ⟨hstill _ rfl, trivial⟩
  | reconcileWaiting =>
    rw [turn]
    split <;> exact ⟨hstill _ rfl, trivial⟩
  | reconcileReading =>
    rw [turn]
    split
    · exact ⟨learns_of_idle rfl, trivial⟩
    · exact ⟨fun _ => .inr (by simp [notice]), Agrees.refl _ _⟩
  | reconcileTelling foreign =>
    refine ⟨fun hon => .inl ?_, trivial⟩
    have hid : (slot.tell check foreign c.notice).id = slot.id :=
      (slot.sameSession_tell foreign c.notice).id
    have htold := (tell_knows hfit (hanswered.2 _ rfl)).2 (hguard _ rfl) hon
    exact htold.congr (hid ▸ hfresh)

theorem Stage.turn_looks_learns (h : stage.looks = true) :
    (stage.turn check slot other free c).stage.looks = true ∨
      (stage.locked = true ∧
        (stage.turn check slot other free c).slot.Learns other
          (stage.turn check slot other free c).stage ∧
        (stage.turn check slot other free c).stage.Fresh
          (stage.turn check slot other free c).slot other) := by
  cases stage with
  | reconcileWaiting =>
    rw [turn]
    split <;> exact .inl rfl
  | reconcileReading =>
    refine .inr ⟨rfl, ?_⟩
    rw [turn]
    split
    · exact ⟨learns_of_idle rfl, trivial⟩
    · exact ⟨fun _ => .inr (by simp [notice]), Agrees.refl _ _⟩
  | _ => simp [Stage.looks] at h

end Turns

end GamePath.Service
