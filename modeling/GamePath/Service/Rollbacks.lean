import GamePath.Service.Edits

/-!
# Whether a capture is there after a change failed

A rejected rule edit puts back what ran before, where something ran: its rollback is a start of its
own, so it opens a capture too where an earlier failure had left none. A rejected edit of the direct
list puts it back only when the engine turned the edit down before it dropped the live capture.
Otherwise the rollback finds no capture, records the previous list, and answers that all is well.
-/

namespace GamePath.Service.SessionSlot

open Option Engine Engine.Capture
open Direct (DirectSpec)
open PacketCaptureManager (opened setDirect start_cases)

variable {check : RuleCheck} {slot : SessionSlot}

/-! ## Rejected edits -/

/-- A rejected edit left what was running: a capture if there was one, with the same policy, which
is the one on record. -/
structure Restores (slot slot' : SessionSlot) : Prop where
  capture : slot'.capture.map capturePolicy = slot.capture.map capturePolicy
  recorded : ∀ c, slot'.capture = some c → capturePolicy c = slot'.policy
  policy : slot'.policy = slot.policy
  /-- No all-traffic capture runs in its place. -/
  split : ∀ m, slot'.engine = some m → m.active = none

/-- When a rejected edit leaves what was running. Of the rules: there was a capture, or there was to
be none. Of the direct list: the guard that goes before everything else failed. -/
def Sound (slot : SessionSlot) : Edit → EditOutcome → Prop
  | .rules _ _, _ => slot.nativeL2tpDirect = true ∨ slot.sessionRules = some [] ∨
    slot.capture ≠ none
  | .direct _, o => needed slot.remoteDns o.request.transitionGuard ≠ none

instance (slot : SessionSlot) (e : Edit) (o : EditOutcome) : Decidable (slot.Sound e o) :=
  match e with
  | .rules _ _ => inferInstanceAs (Decidable (_ ∨ _ ∨ _))
  | .direct _ => inferInstanceAs (Decidable (_ ≠ _))

theorem restores_refl (h : slot.Recorded check) (hsplit : slot.trafficMode = some .split) :
    Restores slot slot := by
  refine ⟨rfl, fun c hc => ?_, rfl, fun m hm => h.split m hm hsplit⟩
  obtain ⟨m, hm, hc'⟩ := bind_eq_some_iff.1 hc
  exact (h.applies m hm c hc').1

theorem capture_none_of_no_rules (h : slot.Recorded check) (hrules : slot.sessionRules = some []) :
    slot.capture = none := by
  by_contra hsome
  obtain ⟨c, hc⟩ := ne_none_iff_exists'.1 hsome
  obtain ⟨m, hm, hc'⟩ := bind_eq_some_iff.1 hc
  obtain ⟨-, -, hcompile, -⟩ := h.applies m hm c hc'
  rw [policy, hrules] at hcompile
  simp [compile] at hcompile

variable {r : PacketCaptureRequest} {role : Role}

theorem restores_opened {m m' : PacketCaptureManager} {c : SplitPacketCapture}
    (hm : slot.engine = some m) (hc : m.activeSplit = some c)
    (happlies : Applies check m slot.policy) (hr : requestPolicy r = slot.policy)
    (hmode : r.trafficMode = .split) :
    Restores slot { slot with engine := some (m'.opened role r) } := by
  have hopened : (m'.opened role r).activeSplit = some (SplitPacketCapture.start role r) := by
    rw [opened, hmode]
  have hcapture : slot.capture = some c := by
    rw [capture, hm]
    exact hc
  refine ⟨?_, fun c' hc' => ?_, rfl, fun m'' hm'' => ?_⟩
  · change ((m'.opened role r).activeSplit).map capturePolicy = _
    rw [hopened, hcapture, map_some, map_some, capturePolicy_start, hr, (happlies c hc).1]
  · have hc'' : (m'.opened role r).activeSplit = some c' := hc'
    cases hopened.symm.trans hc''
    exact hr
  · cases hm''
    rw [opened, hmode]
    rfl

variable {m : PacketCaptureManager}

theorem rolledBack_start {o : Attempt} {e error : String}
    (h : rolledBack e (m.start check role r o).1 = .rejected error) :
    (m.start check role r o).2 = m.opened role r := by
  rcases start_cases check role m r o with ⟨-, e', heq⟩ | ⟨-, -, heq⟩ | ⟨-, -, e', guard, heq⟩
  · rw [heq] at h
    simp [rolledBack] at h
  · rw [heq]
  · rw [heq] at h
    simp [rolledBack] at h

variable {o : EditOutcome} {error : String} {rules : List RuleSpec} {foreign : SlotSummary}

theorem startRules_restores (h : slot.Recorded check) (hempty : slot.sessionRules = some [])
    (hrejected : (slot.startRules check m rules foreign o).1 = .rejected error) :
    Restores slot (slot.startRules check m rules foreign o).2 := by
  have hnone := capture_none_of_no_rules h hempty
  rw [startRules] at hrejected ⊢
  cases hanswer : (m.start check slot.id.role (slot.captureRequest rules foreign) o.request).1 with
  | ok reply =>
    rw [hanswer] at hrejected
    cases hrejected
  | error e =>
    refine ⟨?_, fun c hc => ?_, rfl, fun m' hm' => ?_⟩
    · rw [hnone]
      rfl
    · simp [capture, PacketCaptureManager.stop, PacketCaptureManager.new] at hc
    · cases hm'
      rfl

theorem replaceRules_restores_iff (h : slot.Recorded check)
    (hsplit : slot.trafficMode = some .split) (hm : slot.engine = some m)
    (hrejected : (slot.replaceRules check m rules foreign o).1 = .rejected error) :
    Restores slot (slot.replaceRules check m rules foreign o).2 ↔ slot.capture ≠ none := by
  have hmode := captureRequest_trafficMode hsplit (slot.sessionRules.getD []) foreign
  have hbefore : slot.capture = m.activeSplit := by
    rw [capture, hm]
    rfl
  rw [replaceRules] at hrejected ⊢
  cases hanswer : (m.update check slot.id.role (slot.captureRequest rules foreign) o.request).1 with
  | ok reply =>
    rw [hanswer] at hrejected
    cases hrejected
  | error e =>
    rw [hanswer] at hrejected
    dsimp only at hrejected ⊢
    rw [rolledBack_start hrejected, hbefore]
    cases hc : m.activeSplit with
    | none =>
      -- There was no capture, and now there is one.
      refine ⟨fun hrestores => ?_, fun hcond => absurd rfl hcond⟩
      have hcapture := hrestores.capture
      rw [hbefore, hc] at hcapture
      rw [opened, hmode] at hcapture
      cases hcapture
    | some c =>
      refine ⟨fun _ => by simp, fun _ => ?_⟩
      exact restores_opened hm hc (h.applies m hm) (slot.requestPolicy_captureRequest foreign) hmode

theorem updateCapturedRules_restores_iff (h : slot.Recorded check)
    (hsplit : slot.trafficMode = some .split) (hm : slot.engine = some m)
    (hrejected : (slot.updateCapturedRules check m rules foreign o).1 = .rejected error) :
    Restores slot (slot.updateCapturedRules check m rules foreign o).2 ↔
      slot.sessionRules = some [] ∨ slot.capture ≠ none := by
  rw [updateCapturedRules] at hrejected ⊢
  split at hrejected
  · cases hrejected
  next hpause =>
    rw [if_neg hpause]
    split at hrejected
    next hempty =>
      rw [if_pos hempty]
      exact ⟨fun _ => .inl hempty, fun _ => startRules_restores h hempty hrejected⟩
    next hempty =>
      rw [if_neg hempty, replaceRules_restores_iff h hsplit hm hrejected]
      exact ⟨.inr, fun hcond => hcond.resolve_left hempty⟩

variable {direct : DirectSpec}

theorem setDirect_reopens {o : Attempt} (hactive : m.active = none) (hc : m.activeSplit ≠ none)
    (hlast : m.lastRequest = some r) :
    m.setDirect check role direct o = m.start check role { r with direct := direct } o := by
  rw [setDirect, hlast]
  rw [hactive]
  dsimp only
  rw [if_pos (isSome_iff_ne_none.2 hc)]

theorem setDirect_records (m : PacketCaptureManager) (role : Role) (direct : DirectSpec)
    (o : Attempt) (hactive : m.active = none) (hc : m.activeSplit = none) :
    (m.setDirect check role direct o).1 = .ok .idle ∧
      (m.setDirect check role direct o).2.activeSplit = none := by
  rw [setDirect]
  cases m.lastRequest with
  | none => exact ⟨rfl, hc⟩
  | some r =>
    rw [hactive, hc]
    exact ⟨rfl, rfl⟩

/-- A direct list that an engine did not take, and its rollback. -/
theorem setDirect_restores_iff (h : slot.Recorded check) (hsplit : slot.trafficMode = some .split)
    {m m' : PacketCaptureManager} (hm : slot.engine = some m) {o o' : Attempt} {e error : String}
    (herror : (m.setDirect check role direct o).1 = .error e)
    (hafter : (m.setDirect check role direct o).2 = m')
    (hback : rolledBack e (m'.setDirect check role (slot.direct.getD ⟨[], []⟩) o').1 =
      .rejected error) :
    Restores slot { slot with engine := some (m'.setDirect check role (slot.direct.getD ⟨[],
        []⟩) o').2 } ↔
      needed slot.remoteDns o.transitionGuard ≠ none := by
  have happlies := h.applies m hm
  have hactive := h.split m hm hsplit
  -- Only a capture that runs can fail to take the list.
  have hsome : m.activeSplit ≠ none := by
    intro hnone
    cases (setDirect_records m role direct o hactive hnone).1.symm.trans herror
  obtain ⟨c, hc⟩ := ne_none_iff_exists'.1 hsome
  obtain ⟨-, -, hcompile, r, hlast, hmode, hr⟩ := happlies c hc
  have hdns : r.remoteDns = slot.remoteDns := congrArg Policy.remoteDns hr
  have hrules : r.rules = slot.policy.rules := congrArg Policy.rules hr
  rw [setDirect_reopens hactive hsome hlast] at herror hafter
  rcases start_cases check role m { r with direct := direct } o with
    ⟨hrefuses, e', heq⟩ | ⟨-, -, heq⟩ | ⟨hrefuses, -, e', guard, heq⟩
  · -- The live capture was not touched, and the rollback reopens it.
    rw [heq] at hafter
    obtain rfl : m = m' := hafter
    rw [setDirect_reopens hactive hsome hlast] at hback ⊢
    rw [rolledBack_start hback]
    have hpolicy : requestPolicy { r with direct := slot.direct.getD ⟨[], []⟩ } = slot.policy := by
      rw [← hr]
      have hdirect : r.direct = slot.direct.getD ⟨[], []⟩ := congrArg Policy.direct hr
      rw [← hdirect]
    refine ⟨fun _ htransition => ?_, fun _ => restores_opened hm hc happlies hpolicy hmode⟩
    rcases hrefuses with hbad | hbad
    · rw [hmode, hrules] at hbad
      exact hbad hcompile
    · rw [hdns] at hbad
      exact hbad htransition
  · rw [heq] at herror
    cases herror
  · -- The live capture is gone, and the rollback does not notice.
    rw [heq] at hafter
    rw [PacketCaptureManager.Refuses, not_or, not_not, not_not] at hrefuses
    refine ⟨fun hrestores => ?_, fun hcond => absurd (hdns ▸ hrefuses.2) hcond⟩
    have hgone : (m'.setDirect check role (slot.direct.getD ⟨[], []⟩) o').2.activeSplit = none := by
      refine (setDirect_records m' role _ o' ?_ ?_).2
      · rw [← hafter]
        rfl
      · rw [← hafter]
        rfl
    have hcapture := hrestores.capture
    rw [capture, capture, hm] at hcapture
    change Option.map capturePolicy (setDirect _ _ _ _ _).2.activeSplit =
      Option.map capturePolicy m.activeSplit at hcapture
    rw [hgone, hc] at hcapture
    cases hcapture

theorem updateSessionDirect_restores_iff (h : slot.Recorded check)
    (hsplit : slot.trafficMode = some .split)
    (hrejected : (slot.updateSessionDirect check direct o).1 = .rejected error) :
    Restores slot (slot.updateSessionDirect check direct o).2 ↔
      needed slot.remoteDns o.request.transitionGuard ≠ none := by
  rw [updateSessionDirect] at hrejected ⊢
  split at hrejected
  · cases hrejected
  next hid =>
  rw [if_neg hid]
  split at hrejected
  · cases hrejected
  next hconnected =>
  rw [if_neg hconnected]
  split at hrejected
  · cases hrejected
  next hnative =>
  rw [if_neg hnative]
  cases hm : slot.engine with
  | none =>
    rw [hm] at hrejected
    cases hrejected
  | some m =>
    rw [hm] at hrejected
    dsimp only at hrejected ⊢
    cases hanswer : (m.setDirect check slot.id.role direct o.request).1 with
    | ok reply =>
      rw [hanswer] at hrejected
      cases hrejected
    | error e =>
      rw [hanswer] at hrejected
      exact setDirect_restores_iff h hsplit hm hanswer rfl hrejected

/-- A rejected live edit restores what was running exactly when it is sound: of the rules, where
there was a capture or there was to be none; of the direct list, where the guard that goes before
everything else is what failed. -/
theorem rejected_edit_restores_iff (check : RuleCheck) (id : SlotId) (es : List SlotEvent)
    (e : Edit) (o : EditOutcome) (error : String)
    (hconnected : (es.foldl (step check) (new id)).connected = true)
    (hsplit : (es.foldl (step check) (new id)).trafficMode = some .split)
    (hrejected : ((es.foldl (step check) (new id)).edit check e o).1 = .rejected error) :
    Restores (es.foldl (step check) (new id)) ((es.foldl (step check) (new id)).edit check e o).2 ↔
      (es.foldl (step check) (new id)).Sound e o := by
  have h := recorded_run check id es
  generalize es.foldl (step check) (new id) = slot at h hconnected hsplit hrejected ⊢
  cases e with
  | direct direct => exact updateSessionDirect_restores_iff h hsplit hrejected
  | rules rules foreign =>
    rw [edit] at hrejected ⊢
    rw [updateSessionRules, if_neg (by simp [hconnected, hsplit])] at hrejected ⊢
    rw [Sound]
    by_cases hnative : slot.nativeL2tpDirect = true
    · rw [if_pos hnative] at hrejected ⊢
      refine ⟨fun _ => .inl hnative, fun _ => ?_⟩
      rw [updateNativeRules] at hrejected ⊢
      split at hrejected
      · cases hrejected
      next hsessions =>
        rw [if_neg hsessions]
        cases hroutes : o.routes with
        | none =>
          rw [hroutes] at hrejected
          cases hrejected
        | some e =>
          dsimp only
          split <;> exact restores_refl h hsplit
    · rw [if_neg hnative] at hrejected ⊢
      obtain ⟨m, hm⟩ := h.engine hconnected (Bool.eq_false_iff.2 hnative)
      rw [hm] at hrejected ⊢
      rw [updateCapturedRules_restores_iff h hsplit hm hrejected]
      simp [hnative]

/-! ## Edits that show it -/

/-- A start that goes well. -/
def opensWell : StartOutcome := ⟨none, Attempt.succeeds, 1, [(198, 51, 100, 7)], [], false⟩

/-- The start of a split VPN with the kill switch and one rule. -/
def startsSwitched : SlotEvent :=
  .start ⟨.split, true, true, [], ⟨[], []⟩, [⟨.application, [], 0⟩], false, none, false⟩
    (SlotSummary.idle none) false false
    opensWell

/-- The capture does not open. -/
def doesNotOpen : Attempt := { Attempt.succeeds with splitCapture := some "could not open" }

/-- The guard that goes first does not start. -/
def guardDoesNotStart : Attempt :=
    { Attempt.succeeds with transitionGuard := some "could not open" }

/-- The direct list is edited, the guard that goes first does not start, and the VPN is as it was.
-/
theorem rejected_edit_restores_guard :
    Restores ([startsSwitched].foldl (step fun _ => none) (new .vpn))
      (([startsSwitched].foldl (step fun _ => none) (new .vpn)).edit (fun _ => none)
        (.direct ⟨[], [[]]⟩)
        ⟨guardDoesNotStart, Attempt.succeeds, none, none⟩).2 :=
  (rejected_edit_restores_iff (fun _ => none) .vpn [startsSwitched] (.direct ⟨[], [[]]⟩)
    ⟨guardDoesNotStart, Attempt.succeeds, none, none⟩ "could not open" (by decide)
        (by decide) (by decide)).2 (by decide)

/-- The direct list of a split VPN is edited and its capture does not open: the edit is rejected,
its rollback is answered, and the capture is gone. -/
theorem rejected_edit_loses_capture :
    ¬ ∀ (check : RuleCheck) (id : SlotId) (es : List SlotEvent) (e : Edit) (o : EditOutcome)
      (error : String), (es.foldl (step check) (new id)).connected = true →
        (es.foldl (step check) (new id)).trafficMode = some .split →
        ((es.foldl (step check) (new id)).edit check e o).1 = .rejected error →
          Restores (es.foldl (step check) (new id))
            ((es.foldl (step check) (new id)).edit check e o).2 := by
  intro h
  have hrestores := h (fun _ => none) .vpn [startsSwitched] (.direct ⟨[], [[]]⟩)
    ⟨doesNotOpen, Attempt.succeeds, none, none⟩ "could not open" (by decide) (by decide) (by decide)
  cases hrestores.capture

end GamePath.Service.SessionSlot
