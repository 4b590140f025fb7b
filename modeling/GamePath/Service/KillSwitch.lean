import GamePath.Service.Rollbacks

/-!
# The kill switch needs its capture

A VPN with the kill switch is to drop what it cannot carry, and it is the split capture that drops
it. So a session that is connected must have one, whatever its edits and the game do to it. It has,
as long as a capture that was dropped to be replaced is replaced: by the change itself, or by what a
rule edit is rolled back with.
-/

namespace GamePath.Service.SessionSlot

open Lib.Run Option Engine Engine.Capture
open Direct (DirectSpec)
open PacketCaptureManager (opened start_cases start_opens update)

variable {check : RuleCheck} {slot : SessionSlot}

/-! ## What leaves a capture -/

/-- Once the live capture is dropped, a split capture opens. -/
def OpensSplit (remoteDns : Bool) (o : Attempt) : Prop :=
  o.session = none ∧ needed remoteDns o.dnsGuard = none ∧ o.splitCapture = none

/-- There is a capture after a live one was to be reopened: the guard that goes first fails, or all
goes well. -/
def KeepsCapture (remoteDns : Bool) (o : Attempt) : Prop :=
  needed remoteDns o.transitionGuard ≠ none ∨ OpensSplit remoteDns o

instance (remoteDns : Bool) (o : Attempt) : Decidable (OpensSplit remoteDns o) :=
  inferInstanceAs (Decidable (_ ∧ _ ∧ _))

instance (remoteDns : Bool) (o : Attempt) : Decidable (KeepsCapture remoteDns o) :=
  inferInstanceAs (Decidable (_ ∨ _))

variable (check) in
/-- A rule edit leaves a capture: its request opens, or what it is rolled back with does. -/
def RulesKeepCapture (slot : SessionSlot) (rules : List RuleSpec) (o : EditOutcome) : Prop :=
  if compile check .split rules ≠ none ∨ needed slot.remoteDns o.request.transitionGuard ≠ none then
    KeepsCapture slot.remoteDns o.rollback
  else
    OpensSplit slot.remoteDns o.request ∨
      (needed slot.remoteDns o.rollback.transitionGuard = none ∧
        OpensSplit slot.remoteDns o.rollback)

variable (check) in
/-- What happens to a slot does not lose its capture to a call that fails. A session with the kill
switch is not a native one, which has no capture at all. -/
def SlotEvent.Reopens (slot : SessionSlot) : SlotEvent → Prop
  | .start q _ _ _ _ => q.trafficMode = .split → q.killSwitch = true → q.native = false
  | .stop _ => True
  | .edit (.rules rules _) o => slot.killSwitch = true → slot.capture ≠ none →
      ¬ (rules = [] ∧ slot.remoteDns = false) → slot.RulesKeepCapture check rules o
  | .edit (.direct _) o => slot.killSwitch = true → slot.capture ≠ none →
      KeepsCapture slot.remoteDns o.request ∧
        (needed slot.remoteDns o.request.transitionGuard ≠ none →
          KeepsCapture slot.remoteDns o.rollback)
  | .reconcile _ o => slot.killSwitch = true → slot.capture ≠ none →
    KeepsCapture slot.remoteDns o.request

/-- A connected split session with the kill switch and a rule has its capture. -/
def Guarded (slot : SessionSlot) : Prop :=
  slot.connected = true → slot.killSwitch = true → slot.trafficMode = some .split →
    slot.policy.rules ≠ [] →
    slot.capture ≠ none

variable {o : Attempt} {r : PacketCaptureRequest}

theorem opens_split (hmode : r.trafficMode = .split) :
    PacketCaptureManager.Opens r o ↔ OpensSplit r.remoteDns o := by
  rw [PacketCaptureManager.Opens, OpensSplit, hmode]
  simp

variable {m : PacketCaptureManager} {role : Role}

theorem opened_activeSplit (hmode : r.trafficMode = .split) :
    (m.opened role r).activeSplit ≠ none := by
  rw [opened, hmode]
  simp

theorem start_keeps (hm : m.activeSplit ≠ none) (hmode : r.trafficMode = .split)
    (h : PacketCaptureManager.Refuses check r o ∨ OpensSplit r.remoteDns o) :
    (m.start check role r o).2.activeSplit ≠ none := by
  rcases start_cases check role m r o with ⟨-, e, heq⟩ | ⟨-, -, heq⟩ | ⟨hrefuses, hopens, -⟩
  · rw [heq]
    exact hm
  · rw [heq]
    exact opened_activeSplit hmode
  · rcases h with hr | ho
    · exact absurd hr hrefuses
    · exact absurd ((opens_split hmode).2 ho) hopens

variable {direct : DirectSpec}

theorem setDirect_keeps {p : Policy} (happlies : Applies check m p) (hm : m.activeSplit ≠ none)
    (h : KeepsCapture p.remoteDns o) :
    (m.setDirect check role direct o).2.activeSplit ≠ none := by
  obtain ⟨c, hc⟩ := ne_none_iff_exists'.1 hm
  obtain ⟨-, hactive, -, r, hlast, hmode, rfl⟩ := happlies c hc
  rw [setDirect_reopens hactive hm hlast]
  exact start_keeps hm hmode (h.imp_left .inr)

theorem setDirect_refused {p : Policy} {e : String} (happlies : Applies check m p)
    (hm : m.activeSplit ≠ none) (h : KeepsCapture p.remoteDns o)
    (herror : (m.setDirect check role direct o).1 = .error e) :
    needed p.remoteDns o.transitionGuard ≠ none := by
  intro htransition
  obtain ⟨c, hc⟩ := ne_none_iff_exists'.1 hm
  obtain ⟨-, hactive, hcompile, r, hlast, hmode, rfl⟩ := happlies c hc
  have hrefuses : ¬ PacketCaptureManager.Refuses check { r with direct := direct } o := by
    rw [PacketCaptureManager.Refuses, not_or, not_not, not_not, hmode]
    exact ⟨hcompile, htransition⟩
  have hopens : PacketCaptureManager.Opens { r with direct := direct } o :=
    (opens_split hmode).2 (h.resolve_left fun hbad => hbad htransition)
  rw [setDirect_reopens hactive hm hlast, start_opens hrefuses hopens] at herror
  cases herror

theorem setForeignBypass_keeps {addresses : List Octets} {active : Bool} {p : Policy}
    (happlies : Applies check m p) (hm : m.activeSplit ≠ none) (h : KeepsCapture p.remoteDns o) :
    (m.setForeignBypass check role addresses active o).2.activeSplit ≠ none := by
  obtain ⟨c, hc⟩ := ne_none_iff_exists'.1 hm
  obtain ⟨-, hactive, -, r, hlast, hmode, rfl⟩ := happlies c hc
  rw [PacketCaptureManager.setForeignBypass, hlast]
  rw [hactive]
  dsimp only
  rw [if_pos (isSome_iff_ne_none.2 hm)]
  exact start_keeps hm hmode (h.imp_left .inr)

theorem guarded_of_engine (hm : slot.engine = some m) (hc : m.activeSplit ≠ none) :
    slot.Guarded := by
  intro _ _ _ _
  rw [capture, hm]
  exact hc

theorem Guarded.engine (h : slot.Guarded) (hm : slot.engine = some m)
    (hconnected : slot.connected = true) (hkill : slot.killSwitch = true)
    (hsplit : slot.trafficMode = some .split) (hrules : slot.policy.rules ≠ []) :
    m.activeSplit ≠ none := by
  have hcapture := h hconnected hkill hsplit hrules
  rw [capture, hm] at hcapture
  exact hcapture

variable {foreign : SlotSummary} {slot' : SessionSlot}

theorem guarded_connectCaptured {q : StartRequest} {o : StartOutcome}
    (h : slot.connectCaptured check q foreign o = some slot') : slot'.Guarded := by
  rw [connectCaptured] at h
  split at h
  · cases h
  rcases start_cases check slot.id.role .new (slot.captureRequest q.rules foreign) o.capture with
    ⟨-, e, heq⟩ | ⟨-, -, heq⟩ | ⟨-, -, e, guard, heq⟩
  · rw [heq] at h
    cases h
  · rw [heq] at h
    cases h
    intro hconnected hkill hsplit hrules
    exact opened_activeSplit (captureRequest_trafficMode hsplit q.rules foreign)
  · rw [heq] at h
    cases h

theorem guarded_startRules (hsplit : slot.trafficMode = some .split)
    (hempty : slot.sessionRules = some [])
    (m : PacketCaptureManager) (rules : List RuleSpec) (foreign : SlotSummary) (o : EditOutcome) :
    (slot.startRules check m rules foreign o).2.Guarded := by
  have hstill : slot.policy.rules = [] := congrArg (·.getD []) hempty
  rw [startRules]
  rcases start_cases check slot.id.role m (slot.captureRequest rules foreign) o.request with
    ⟨-, e, heq⟩ | ⟨-, -, heq⟩ | ⟨-, -, e, guard, heq⟩
  · rw [heq]
    exact fun _ _ _ hrules => absurd hstill hrules
  · rw [heq]
    exact guarded_of_engine rfl (opened_activeSplit
      (captureRequest_trafficMode hsplit rules foreign))
  · rw [heq]
    exact fun _ _ _ hrules => absurd hstill hrules

variable {rules : List RuleSpec}

/-- A live capture whose rules are replaced is there afterwards, by the edit or by what it is rolled
back with. -/
theorem replaceRules_keeps (h : slot.Recorded check) (hsplit : slot.trafficMode = some .split)
    (hm : slot.engine = some m) (hc : m.activeSplit ≠ none) {o : EditOutcome}
    (hkeeps : slot.RulesKeepCapture check rules o) :
    (slot.replaceRules check m rules foreign o).2.Guarded := by
  obtain ⟨c, hsome⟩ := ne_none_iff_exists'.1 hc
  obtain ⟨-, -, hcompile, -⟩ := h.applies m hm c hsome
  have hmode := captureRequest_trafficMode hsplit rules foreign
  have hmode' := captureRequest_trafficMode hsplit (slot.sessionRules.getD []) foreign
  have hrefused : PacketCaptureManager.Refuses check (slot.captureRequest rules foreign) o.request ↔
      (compile check .split rules ≠ none ∨ needed slot.remoteDns o.request.transitionGuard ≠
        none) := by
    rw [PacketCaptureManager.Refuses, hmode]
    rfl
  have hupdate : m.update check slot.id.role (slot.captureRequest rules foreign) o.request =
      m.start check slot.id.role (slot.captureRequest rules foreign) o.request := by
    rw [update, if_neg hc, if_neg (by simp [hmode])]
  rw [RulesKeepCapture] at hkeeps
  rw [replaceRules, hupdate]
  rcases start_cases check slot.id.role m (slot.captureRequest rules foreign) o.request with
    ⟨hrefuses, e, heq⟩ | ⟨-, -, heq⟩ | ⟨hrefuses, hopens, e, guard, heq⟩
  · rw [if_pos (hrefused.1 hrefuses)] at hkeeps
    rw [heq]
    exact guarded_of_engine rfl (start_keeps hc hmode' (hkeeps.imp_left .inr))
  · rw [heq]
    exact guarded_of_engine rfl (opened_activeSplit hmode)
  rw [if_neg (fun hbad => hrefuses (hrefused.2 hbad))] at hkeeps
  rw [heq]
  rcases hkeeps with hopen | ⟨htransition, hopen⟩
  · exact absurd ((opens_split hmode).2 hopen) hopens
  have hback : ¬ PacketCaptureManager.Refuses check
      (slot.captureRequest (slot.sessionRules.getD []) foreign)
      o.rollback := by
    rw [PacketCaptureManager.Refuses, hmode', not_or, not_not, not_not]
    exact ⟨hcompile, htransition⟩
  refine guarded_of_engine rfl ?_
  rw [start_opens hback ((opens_split hmode').2 hopen)]
  exact opened_activeSplit hmode'

theorem replaceRules_killSwitch (slot : SessionSlot) (m : PacketCaptureManager)
    (rules : List RuleSpec) (foreign : SlotSummary) (o : EditOutcome) :
    (slot.replaceRules check m rules foreign o).2.killSwitch = slot.killSwitch := by
  rw [replaceRules]
  split <;> rfl

section

variable (h : slot.Recorded check) (hguarded : slot.Guarded)
include h hguarded

theorem guarded_updateCapturedRules (hconnected : slot.connected = true)
    (hsplit : slot.trafficMode = some .split) (hm : slot.engine = some m) {o : EditOutcome}
    (hkeeps : slot.killSwitch = true → slot.capture ≠ none →
      ¬ (rules = [] ∧ slot.remoteDns = false) →
      slot.RulesKeepCapture check rules o) :
    (slot.updateCapturedRules check m rules foreign o).2.Guarded := by
  rw [updateCapturedRules]
  split
  · next hpause => exact fun _ _ _ hrules => absurd hpause.1 hrules
  next hpause =>
  split
  · next hempty => exact guarded_startRules hsplit hempty m rules foreign o
  by_cases hc : m.activeSplit = none
  · -- There was nothing to guard, so there was no rule.
    rw [replaceRules, update, if_pos hc]
    intro _ hkill _ hrules
    exact absurd hc (hguarded.engine hm hconnected hkill hsplit hrules)
  by_cases hkill : slot.killSwitch = true
  · have hcapture : slot.capture ≠ none := by
      rw [capture, hm]
      exact hc
    exact replaceRules_keeps h hsplit hm hc (hkeeps hkill hcapture hpause)
  · exact fun _ hkill' =>
      absurd ((slot.replaceRules_killSwitch m rules foreign o).symm.trans hkill') hkill

theorem guarded_updateSessionRules {o : EditOutcome}
    (hnative : slot.killSwitch = true → slot.trafficMode = some .split →
      slot.nativeL2tpDirect = false)
    (hkeeps : slot.killSwitch = true → slot.capture ≠ none →
      ¬ (rules = [] ∧ slot.remoteDns = false) →
      slot.RulesKeepCapture check rules o) :
        (slot.updateSessionRules check rules foreign o).2.Guarded := by
  rw [updateSessionRules]
  split
  · exact hguarded
  next hsession =>
  rw [not_or, not_not, Bool.not_eq_false] at hsession
  split
  next hn =>
    -- A native session has no kill switch here.
    rw [updateNativeRules]
    split
    · exact hguarded
    · split
      · exact fun _ hkill hsplit => by cases (hnative hkill hsplit).symm.trans hn
      · split <;> exact hguarded
  next hn =>
    cases hm : slot.engine with
    | none => exact hguarded
    | some m => exact guarded_updateCapturedRules h hguarded hsession.1 hsession.2 hm hkeeps

theorem guarded_updateSessionDirect {o : EditOutcome} (hkeeps : slot.killSwitch = true →
    slot.capture ≠ none →
      KeepsCapture slot.remoteDns o.request ∧
        (needed slot.remoteDns o.request.transitionGuard ≠ none →
          KeepsCapture slot.remoteDns o.rollback)) :
    (slot.updateSessionDirect check direct o).2.Guarded := by
  rw [updateSessionDirect]
  split
  · exact hguarded
  split
  · exact hguarded
  next hconnected =>
  split
  · exact hguarded
  next hnative =>
  cases hm : slot.engine with
  | none =>
    obtain ⟨m, hm'⟩ := h.engine (Bool.not_eq_false _ ▸ hconnected) (Bool.eq_false_iff.2 hnative)
    cases hm.symm.trans hm'
  | some m =>
    have happlies := h.applies m hm
    have hcapture : slot.capture = m.activeSplit := by
      rw [capture, hm]
      rfl
    -- The edit leaves the switch, the mode and the rules, so only the capture is in question.
    have hgoal : ∀ m' direct' leased, (slot.killSwitch = true → m.activeSplit ≠ none →
        m'.activeSplit ≠ none) →
        Guarded { slot with engine := some m', direct := direct', leased := leased } := by
      intro m' direct' leased hm' hc hkill hsplit hrules
      exact hm' hkill (hguarded.engine hm hc hkill hsplit hrules)
    dsimp only
    rcases setDirect_applies_either (o := o.request) happlies direct with ⟨reply, hok, -⟩ | ⟨e,
      herror, hafter⟩
    · rw [hok]
      refine hgoal _ _ _ fun hkill hc => ?_
      exact setDirect_keeps happlies hc (hkeeps hkill (hcapture ▸ hc)).1
    rw [herror]
    refine hgoal _ _ _ fun hkill hc => ?_
    obtain ⟨hfirst, hsecond⟩ := hkeeps hkill (hcapture ▸ hc)
    have hstill : (m.setDirect check slot.id.role direct o.request).2.activeSplit ≠ none :=
      setDirect_keeps happlies hc hfirst
    exact setDirect_keeps hafter hstill (hsecond (setDirect_refused happlies hc hfirst herror))

theorem guarded_tell {o : NoticeOutcome}
    (hnative : slot.killSwitch = true → slot.trafficMode = some .split →
      slot.nativeL2tpDirect = false)
    (hgame : slot.id = .game → slot.killSwitch = false)
    (hkeeps : slot.killSwitch = true → slot.capture ≠ none →
      KeepsCapture slot.remoteDns o.request) :
    (slot.tell check foreign o).Guarded := by
  rw [tell]
  split
  · exact hguarded
  cases hid : slot.id with
  | game => exact fun _ hkill => by cases (hgame hid).symm.trans hkill
  | vpn =>
    dsimp only
    rw [tellVpn]
    by_cases hn : slot.nativeL2tpDirect = true
    · -- A native session has no kill switch here.
      rw [if_pos hn]
      have hclash : slot.killSwitch = true → slot.trafficMode = some .split → False :=
        fun hkill hsplit => by cases (hnative hkill hsplit).symm.trans hn
      split
      · exact fun _ hkill hsplit => (hclash hkill hsplit).elim
      · split <;> exact fun _ hkill hsplit => (hclash hkill hsplit).elim
    rw [if_neg hn]
    split
    · exact hguarded
    rw [if_neg hn]
    intro hconnected hkill hsplit hrules
    have hcapture := hguarded hconnected hkill hsplit hrules
    obtain ⟨m, hm⟩ := h.engine hconnected (Bool.eq_false_iff.2 hn)
    have hc : m.activeSplit ≠ none := hguarded.engine hm hconnected hkill hsplit hrules
    rw [capture]
    rw [hm]
    exact setForeignBypass_keeps (h.applies m hm) hc (hkeeps hkill hcapture)

end

/-! ## Every run -/

variable (check) in
/-- The slot as a machine. -/
def machine (slot : SessionSlot) (e : SlotEvent) : SessionSlot × Unit := (slot.step check e, ())

/-- What is known of a slot with the kill switch: only the VPN has one, and its sessions are
captured. -/
structure Switched (slot : SessionSlot) : Prop where
  native : slot.killSwitch = true → slot.trafficMode = some .split → slot.nativeL2tpDirect = false
  game : slot.id = .game → slot.killSwitch = false

theorem Switched.same (h : slot.Switched) (hsame : slot.SameSession slot') : slot'.Switched := by
  refine ⟨fun hkill hsplit => ?_, fun hid => ?_⟩
  · rw [hsame.native]
    exact h.native (hsame.killSwitch ▸ hkill) (hsame.trafficMode ▸ hsplit)
  · rw [hsame.killSwitch]
    exact h.game (hsame.id ▸ hid)

theorem switched_connect {q : StartRequest} {active appDns : Bool} {o : StartOutcome} {id : SlotId}
    (hnative : q.trafficMode = .split → q.killSwitch = true → q.native = false)
    (h : (prepare id q).connect check q foreign active appDns o = some slot') : slot'.Switched := by
  obtain ⟨hid, hk, hmode, hn⟩ := connect_session h
  refine ⟨fun hkill hsplit => ?_, fun hgame => ?_⟩
  · rw [hk, prepare, Bool.and_eq_true] at hkill
    rw [hmode] at hsplit
    rw [hn, hnative (some.inj hsplit) hkill.2]
    rfl
  · rw [hid] at hgame
    obtain rfl : id = .game := hgame
    rw [hk]
    rfl

/-- What holds along a run. -/
def Held (check : RuleCheck) (slot : SessionSlot) : Prop :=
  slot.Recorded check ∧ slot.Guarded ∧ slot.Switched

theorem held_of_idle (slot : SessionSlot) (hconnected : slot.connected = false)
    (hengine : slot.engine = none) (hkill : slot.killSwitch = false) : Held check slot := by
  refine ⟨recorded_of_idle slot hconnected hengine, fun hc => ?_, fun hk => ?_, fun _ => hkill⟩
  · cases hconnected.symm.trans hc
  · cases hkill.symm.trans hk

theorem held_step (h : Held check slot) (e : SlotEvent) (hreopens : e.Reopens check slot) :
    Held check (slot.step check e) := by
  obtain ⟨hrecorded, hguarded, hswitched⟩ := h
  cases e with
  | start q foreign active appDns o =>
    refine ⟨recorded_step hrecorded _, ?_, ?_⟩
    · rw [step]
      cases hconnect : (prepare slot.id q).connect check q foreign active appDns o with
      | none => exact (held_of_idle _ rfl rfl rfl : Held check (new slot.id)).2.1
      | some slot' =>
        have hsw := switched_connect hreopens hconnect
        rw [connect] at hconnect
        split at hconnect
        next hn =>
          intro _ hkill hsplit _
          have hnative := hsw.native hkill hsplit
          rw [connectNative] at hconnect
          split at hconnect
          · cases hconnect
          · split at hconnect
            · cases hconnect
            · cases hconnect
              cases hnative
        · exact guarded_connectCaptured hconnect
    · rw [step]
      cases hconnect : (prepare slot.id q).connect check q foreign active appDns o with
      | none => exact (held_of_idle _ rfl rfl rfl : Held check (new slot.id)).2.2
      | some slot' => exact switched_connect hreopens hconnect
  | stop reason => exact held_of_idle _ rfl rfl rfl
  | edit e o =>
    cases e with
    | rules rules foreign =>
      exact ⟨recorded_step hrecorded _,
        guarded_updateSessionRules hrecorded hguarded hswitched.native hreopens,
        hswitched.same (slot.sameSession_updateSessionRules rules foreign o)⟩
    | direct direct =>
      exact ⟨recorded_step hrecorded _, guarded_updateSessionDirect hrecorded hguarded hreopens,
        hswitched.same (slot.sameSession_updateSessionDirect direct o)⟩
  | reconcile foreign o =>
    rw [step]
    split
    · exact held_of_idle _ rfl rfl rfl
    · exact ⟨recorded_tell hrecorded foreign o,
        guarded_tell hrecorded hguarded hswitched.native hswitched.game hreopens,
        hswitched.same (slot.sameSession_tell foreign o)⟩

/-- A connected split VPN with the kill switch and a rule has its capture, as long as no call that
fails after a live capture was dropped is the last one. -/
theorem kill_switch_keeps_capture (check : RuleCheck) (es : List SlotEvent)
    (hmeets : Meets (machine check) (fun c e => e.Reopens check c.state) ⟨new .vpn, []⟩ es) :
    (exec (machine check) (new .vpn) es).state.Guarded := by
  refine (execFrom_invariant_of_meets (I := fun c => Held check c.state) ?_ es _ hmeets ?_).2.1
  · exact fun c e hreopens hc => held_step hc e hreopens
  · exact held_of_idle _ rfl rfl rfl

/-! ## Runs that show it -/

/-- The game starts, the guard that goes first does not, and the VPN has its capture. -/
theorem kill_switch_keeps_capture_guard :
    Meets (machine fun _ => none) (fun c e => e.Reopens (fun _ => none) c.state) ⟨new .vpn, []⟩
        [startsSwitched, .reconcile ⟨.connected, some .split, 1, [(203, 0, 113, 7)], none, true⟩
          ⟨guardDoesNotStart, ∅⟩] ∧
      (exec (machine fun _ => none) (new .vpn)
        [startsSwitched, .reconcile ⟨.connected, some .split, 1, [(203, 0, 113, 7)], none, true⟩
          ⟨guardDoesNotStart, ∅⟩]).state.Guarded := by
  have hmeets : Meets (machine fun _ => none) (fun c e => e.Reopens (fun _ => none) c.state)
      ⟨new .vpn, []⟩
      [startsSwitched, .reconcile ⟨.connected, some .split, 1, [(203, 0, 113, 7)], none, true⟩
        ⟨guardDoesNotStart, ∅⟩] :=
    ⟨fun _ _ => rfl, fun _ _ => .inl (by decide), trivial⟩
  exact ⟨hmeets, kill_switch_keeps_capture _ _ hmeets⟩

/-- The game starts while a split VPN with the kill switch runs, and the capture does not open
again: the VPN stays connected without it. -/
theorem kill_switch_loses_capture :
    ¬ ∀ (check : RuleCheck) (es : List SlotEvent),
      (exec (machine check) (new .vpn) es).state.Guarded := by
  intro h
  exact absurd (h (fun _ => none)
    [startsSwitched, .reconcile ⟨.connected, some .split, 1, [(203, 0, 113, 7)], none, true⟩
      ⟨doesNotOpen, ∅⟩])
    (fun hguarded => hguarded (by decide) (by decide) (by decide) (by decide) (by decide))

end GamePath.Service.SessionSlot
