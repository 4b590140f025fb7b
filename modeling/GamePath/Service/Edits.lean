import GamePath.Lib.Run
import GamePath.Service.Slot

/-!
# What a live edit leaves behind

A slot is followed through its starts and stops, its live edits and the changes of the other
session, whatever of it fails. What its capture applies is always what the slot has on record.
Whether there is still a capture is another matter: each change drops the live one before it opens
the next, and the ways to handle a next one that does not open differ. A rule edit starts the
previous policy again; an edit of the direct list sends the previous list, which an engine without a
capture only takes down; and a change of the other session is logged.
-/

namespace GamePath.Service

open Option Engine Engine.Capture
open Direct (DirectSpec)
open PacketCaptureManager (dropped opened setDirect setForeignBypass start_cases update)

/-- What a capture applies, of what the slot has on record. -/
structure Policy where
  rules : List RuleSpec
  direct : DirectSpec
  killSwitch : Bool
  remoteDns : Bool

/-- The policy of a request. -/
def requestPolicy (r : PacketCaptureRequest) : Policy :=
  ⟨r.rules, r.direct, r.killSwitch, r.remoteDns⟩

/-- The policy of a capture. -/
def capturePolicy (c : SplitPacketCapture) : Policy :=
  ⟨c.rules, c.direct, c.killSwitch, c.remoteDns⟩

variable (check : RuleCheck)

/-! ## The manager -/

/-- Whatever split capture runs applies the policy, and would be asked for with it again. -/
def Applies (m : PacketCaptureManager) (p : Policy) : Prop :=
  ∀ c, m.activeSplit = some c → capturePolicy c = p ∧ m.active = none ∧
    compile check .split p.rules = none ∧
    ∃ r, m.lastRequest = some r ∧ r.trafficMode = .split ∧ requestPolicy r = p

variable {check} {m : PacketCaptureManager} {p : Policy} {role : Role} {r : PacketCaptureRequest}
  {o : Attempt}

theorem Applies.of_none (h : m.activeSplit = none) : Applies check m p :=
  fun c hc => absurd (h.symm.trans hc) (by simp)

theorem capturePolicy_start (role : Role) (r : PacketCaptureRequest) :
    capturePolicy (SplitPacketCapture.start role r) = requestPolicy r := rfl

theorem applies_opened (hrefuses : ¬ PacketCaptureManager.Refuses check r o) :
    Applies check (m.opened role r) (requestPolicy r) := by
  intro c hc
  have hcompile : compile check r.trafficMode r.rules = none := by
    rw [PacketCaptureManager.Refuses, not_or, not_not] at hrefuses
    exact hrefuses.1
  rw [opened] at hc ⊢
  cases hmode : r.trafficMode with
  | all =>
    rw [hmode] at hc
    simp [dropped] at hc
  | split =>
    rw [hmode] at hc hcompile
    cases hc
    exact ⟨capturePolicy_start role r, rfl, hcompile, r, rfl, hmode, rfl⟩

section

variable (h : Applies check m p)
include h

/-- Beside an all-traffic capture no split capture runs. -/
theorem activeSplit_of_active {capture : AllTrafficCapture} (hactive : m.active = some capture) :
    m.activeSplit = none := by
  by_contra hsome
  obtain ⟨c, hc⟩ := ne_none_iff_exists'.1 hsome
  cases hactive.symm.trans (h c hc).2.1

/-- The request that a running split capture would be asked for with again. -/
theorem request_of_activeSplit (hlast : m.lastRequest = some r)
    (hsplit : m.activeSplit.isSome = true) :
    r.trafficMode = .split ∧ requestPolicy r = p := by
  obtain ⟨c, hc⟩ := isSome_iff_exists.1 hsplit
  obtain ⟨-, -, -, request, hrequest, hkept⟩ := h c hc
  obtain rfl : r = request := some.inj (hlast.symm.trans hrequest)
  exact hkept

theorem start_applies (hp : requestPolicy r = p) :
    Applies check (m.start check role r o).2 p := by
  rcases start_cases check role m r o with
    ⟨-, e, heq⟩ | ⟨hrefuses, -, heq⟩ | ⟨-, -, e, guard, heq⟩
  · rw [heq]
    exact h
  · rw [heq, ← hp]
    exact applies_opened hrefuses
  · rw [heq]
    exact Applies.of_none rfl

theorem start_applies_either :
    (∃ reply, (m.start check role r o).1 = .ok reply ∧ Applies check (m.start check role r o).2
      (requestPolicy r)) ∨
      (∃ e, (m.start check role r o).1 = .error e ∧
        Applies check (m.start check role r o).2 p) := by
  rcases start_cases check role m r o with
    ⟨-, e, heq⟩ | ⟨hrefuses, -, heq⟩ | ⟨-, -, e, guard, heq⟩
  · rw [heq]
    exact .inr ⟨e, rfl, h⟩
  · rw [heq]
    exact .inl ⟨_, rfl, applies_opened hrefuses⟩
  · rw [heq]
    exact .inr ⟨e, rfl, Applies.of_none rfl⟩

theorem update_applies_either :
    (∃ reply, (m.update check role r o).1 = .ok reply ∧ Applies check (m.update check role r o).2
      (requestPolicy r)) ∨
      (∃ e, (m.update check role r o).1 = .error e ∧
        Applies check (m.update check role r o).2 p) := by
  rw [update]
  split
  · exact .inr ⟨_, rfl, h⟩
  · split
    · exact .inr ⟨_, rfl, h⟩
    · exact start_applies_either h

theorem setForeignBypass_applies (addresses : List Octets) (active : Bool) :
    Applies check (m.setForeignBypass check role addresses active o).2 p := by
  rw [setForeignBypass]
  cases hlast : m.lastRequest with
  | none => exact h
  | some request =>
    cases hactive : m.active with
    | some capture =>
      have hnone := activeSplit_of_active h hactive
      dsimp only
      split
      · exact Applies.of_none hnone
      · exact Applies.of_none hnone
    | none =>
      dsimp only
      split
      next hsplit => exact start_applies h (request_of_activeSplit h hlast hsplit).2
      · next hsplit => exact Applies.of_none (not_isSome_iff_eq_none.1 hsplit)

theorem setDirect_applies_either (direct : DirectSpec) :
    (∃ reply, (m.setDirect check role direct o).1 = .ok reply ∧
      Applies check (m.setDirect check role direct o).2 { p with direct := direct }) ∨
      (∃ e, (m.setDirect check role direct o).1 = .error e ∧
        Applies check (m.setDirect check role direct o).2 p) := by
  rw [setDirect]
  cases hlast : m.lastRequest with
  | none =>
    refine .inl ⟨_, rfl, fun c hc => ?_⟩
    obtain ⟨-, -, -, r, hr, -⟩ := h c hc
    cases hlast.symm.trans hr
  | some request =>
    cases hactive : m.active with
    | some capture =>
      have hnone := activeSplit_of_active h hactive
      dsimp only
      split
      · exact .inr ⟨_, rfl, Applies.of_none hnone⟩
      · exact .inl ⟨_, rfl, Applies.of_none hnone⟩
    | none =>
      dsimp only
      split
      next hsplit =>
        obtain ⟨-, rfl⟩ := request_of_activeSplit h hlast hsplit
        exact start_applies_either h
      · next hsplit => exact .inl ⟨_, rfl, Applies.of_none (not_isSome_iff_eq_none.1 hsplit)⟩

theorem setOtherSessionActive_applies (active canRouteApps : Bool) :
    Applies check (m.setOtherSessionActive role active canRouteApps).2 p := by
  intro c hc
  obtain ⟨c', hc', rfl⟩ := map_eq_some_iff.1 hc
  obtain ⟨hpolicy, hactive, hcompile, r, hr, hmode, hp⟩ := h c' hc'
  exact ⟨hpolicy, hactive, hcompile, { r with otherSessionActive := active, otherSessionAppDns :=
    canRouteApps }, by simp [PacketCaptureManager.setOtherSessionActive, hr], hmode, hp⟩

end

namespace SessionSlot

/-! ## A slot through its life -/

/-- A live edit. Of the rules, with the summary of the other session that was read for it. -/
inductive Edit where
  | rules (rules : List RuleSpec) (foreign : SlotSummary)
  | direct (direct : DirectSpec)
  deriving DecidableEq

/-- What happens to a slot, each with the slot locked. -/
inductive SlotEvent where
  | start (q : StartRequest) (foreign : SlotSummary) (active appDns : Bool) (o : StartOutcome)
  | stop (reason : Option StopReason)
  | edit (e : Edit) (o : EditOutcome)
  /-- The other session changed, and this is its summary now. -/
  | reconcile (foreign : SlotSummary) (o : NoticeOutcome)

variable (check)

/-- An edit is tried. -/
def edit (slot : SessionSlot) (e : Edit) (o : EditOutcome) : EditAnswer × SessionSlot :=
  match e with
  | .rules rules foreign => slot.updateSessionRules check rules foreign o
  | .direct direct => slot.updateSessionDirect check direct o

/-- One event. -/
def step (slot : SessionSlot) : SlotEvent → SessionSlot
  | .start q foreign active appDns o =>
    ((prepare slot.id q).connect check q foreign active appDns o).getD (new slot.id)
  | .stop reason => slot.takeForTeardown reason
  | .edit e o => (slot.edit check e o).2
  | .reconcile foreign o =>
    if slot.id = .vpn ∧ foreign.ownsAllTraffic = true then slot.takeForTeardown
      (some .gameAllTraffic)
    else slot.tell check foreign o

variable {check}

/-- The split capture that runs for a slot. -/
def capture (slot : SessionSlot) :
    Option SplitPacketCapture := slot.engine.bind PacketCaptureManager.activeSplit

/-- What the slot has on record. -/
def policy (slot : SessionSlot) : Policy :=
  ⟨slot.sessionRules.getD [], slot.direct.getD ⟨[], []⟩, slot.killSwitch, slot.remoteDns⟩

theorem requestPolicy_captureRequest (slot : SessionSlot) (foreign : SlotSummary) :
    requestPolicy (slot.captureRequest (slot.sessionRules.getD []) foreign) = slot.policy := rfl

variable (check)

/-- What holds of a slot whatever happened to it. -/
structure Recorded (slot : SessionSlot) : Prop where
  applies : ∀ m, slot.engine = some m → Applies check m slot.policy
  native : slot.nativeL2tpDirect = true → slot.capture = none
  engine : slot.connected = true → slot.nativeL2tpDirect = false → ∃ m, slot.engine = some m
  split : ∀ m, slot.engine = some m → slot.trafficMode = some .split → m.active = none

variable {check} {slot : SessionSlot}

theorem recorded_of_idle (slot : SessionSlot) (hconnected : slot.connected = false)
    (hengine : slot.engine = none) :
    slot.Recorded check := by
  refine ⟨fun m hm => ?_, fun _ => ?_, fun h => ?_, fun m hm => ?_⟩
  · cases hengine.symm.trans hm
  · rw [capture, hengine]
    rfl
  · cases hconnected.symm.trans h
  · cases hengine.symm.trans hm

theorem recorded_new (id : SlotId) : (new id).Recorded check := recorded_of_idle _ rfl rfl

theorem recorded_takeForTeardown (slot : SessionSlot) (reason : Option StopReason) :
    (slot.takeForTeardown reason).Recorded check :=
  recorded_of_idle _ rfl rfl

theorem start_active {m : PacketCaptureManager} {role : Role} {r : PacketCaptureRequest}
    {o : Attempt} (hm : m.active = none) (hmode : r.trafficMode = .split) :
    (m.start check role r o).2.active = none := by
  rcases start_cases check role m r o with ⟨-, e, heq⟩ | ⟨-, -, heq⟩ | ⟨-, -, e, guard, heq⟩
  · rw [heq]
    exact hm
  · rw [heq, opened, hmode]
    rfl
  · rw [heq]
    rfl

variable {q : StartRequest}

theorem recorded_connectCaptured {slot slot' : SessionSlot} {foreign : SlotSummary}
    {o : StartOutcome}
    (hslot : slot.nativeL2tpDirect = false) (h : slot.connectCaptured check q foreign o =
      some slot') :
    slot'.Recorded check := by
  rw [connectCaptured] at h
  split at h
  · cases h
  dsimp only at h
  split at h
  · cases h
  next reply hreply =>
    cases h
    refine ⟨fun m hm => ?_, fun hnative => ?_, fun _ _ => ⟨_, rfl⟩, fun m hm hsplit => ?_⟩
    · cases hm
      exact start_applies (Applies.of_none rfl) rfl
    · cases hslot.symm.trans hnative
    cases hm
    refine start_active rfl ?_
    rw [captureRequest]
    rw [show slot.trafficMode = some .split from hsplit]
    rfl

theorem nativeEngine_captures_nothing {slot : SessionSlot} {active appDns : Bool} {o : StartOutcome}
    {engine : Option PacketCaptureManager} (h : slot.nativeEngine check q active appDns o =
      some engine) :
    ∀ m, engine = some m → m.activeSplit = none ∧ m.active = none := by
  intro m hm
  rw [nativeEngine] at h
  split at h
  · dsimp only at h
    split at h
    · cases h
    next reply hreply =>
      have hdns := some.inj ((some.inj h).trans hm)
      rw [← hdns, PacketCaptureManager.startNativeDns]
      split
      · split
        · exact ⟨rfl, rfl⟩
        · split <;> exact ⟨rfl, rfl⟩
      · split <;> exact ⟨rfl, rfl⟩
  · have hnew := (some.inj h).trans hm
    split at hnew
    · rw [← some.inj hnew]
      exact ⟨rfl, rfl⟩
    · cases hnew

theorem recorded_connectNative {slot slot' : SessionSlot} {foreign : SlotSummary}
    {active appDns : Bool} {o : StartOutcome}
    (h : slot.connectNative check q foreign active appDns o = some slot') :
    slot'.Recorded check := by
  rw [connectNative] at h
  split at h
  · cases h
  split at h
  · cases h
  next engine hengine =>
    cases h
    have hnothing := nativeEngine_captures_nothing hengine
    refine ⟨fun m hm => Applies.of_none (hnothing m hm).1, fun _ => ?_, fun _ hnative =>
      absurd hnative (by simp), fun m hm _ => (hnothing m hm).2⟩
    cases hm : engine with
    | none => rfl
    | some m => exact (hnothing m hm).1

/-! ## Edits and changes of the other session keep the record -/

section

variable (h : slot.Recorded check)
include h

theorem recorded_updateNativeRules (hnative : slot.nativeL2tpDirect = true) (rules : List RuleSpec)
    (o : EditOutcome) : (slot.updateNativeRules rules o).2.Recorded check := by
  have hnone : ∀ m, slot.engine = some m → m.activeSplit = none := by
    intro m hm
    have hcapture := h.native hnative
    rw [capture, hm] at hcapture
    exact hcapture
  rw [updateNativeRules]
  split
  · exact h
  · split
    · exact ⟨fun m hm => Applies.of_none (hnone m hm), h.native, h.engine, h.split⟩
    · split <;> exact h

omit h in
theorem recorded_with (hnative : slot.nativeL2tpDirect = false) {m : PacketCaptureManager}
    {rules : Option (List RuleSpec)} {direct : Option DirectSpec} {leased : Bool}
    (happlies : Applies check m
      (policy { slot with
        engine := some m, sessionRules := rules, direct := direct, leased := leased }))
    (hactive : slot.trafficMode = some .split → m.active = none) :
    Recorded check { slot with
      engine := some m, sessionRules := rules, direct := direct, leased := leased } := by
  refine ⟨fun m' hm' => ?_, fun hn => ?_, fun _ _ => ⟨m, rfl⟩, fun m' hm' hsplit => ?_⟩
  · cases hm'
    exact happlies
  · cases hnative.symm.trans hn
  · cases hm'
    exact hactive hsplit

omit h in
theorem captureRequest_trafficMode (hsplit : slot.trafficMode = some .split) (rules : List RuleSpec)
    (foreign : SlotSummary) : (slot.captureRequest rules foreign).trafficMode = .split := by
  rw [captureRequest]
  rw [hsplit]
  rfl

omit h in
theorem update_active {m : PacketCaptureManager} {role : Role} {r : PacketCaptureRequest}
    {o : Attempt} (hm : m.active = none) : (m.update check role r o).2.active = none := by
  rw [update]
  split
  · exact hm
  · split
    · exact hm
    · next hmode => exact start_active hm (not_not.1 hmode)

theorem recorded_updateCapturedRules (hnative : slot.nativeL2tpDirect = false)
    (hsplit : slot.trafficMode = some .split) {m : PacketCaptureManager} (hm : slot.engine = some m)
    (rules : List RuleSpec) (foreign : SlotSummary) (o : EditOutcome) :
    (slot.updateCapturedRules check m rules foreign o).2.Recorded check := by
  have happlies := h.applies m hm
  have hactive := h.split m hm hsplit
  rw [updateCapturedRules]
  split
  · exact recorded_with hnative (Applies.of_none rfl) fun _ => rfl
  have hmode := captureRequest_trafficMode hsplit rules foreign
  split
  · rw [startRules]
    rcases start_applies_either (r := slot.captureRequest rules foreign) happlies with
      ⟨reply, hok, hafter⟩ | ⟨e, herror, hafter⟩
    · rw [hok]
      exact recorded_with hnative hafter fun _ => start_active hactive hmode
    · rw [herror]
      exact recorded_with hnative (Applies.of_none rfl) fun _ => rfl
  rw [replaceRules]
  rcases update_applies_either (r := slot.captureRequest rules foreign) happlies with
    ⟨reply, hok, hafter⟩ | ⟨e, herror, hafter⟩
  · rw [hok]
    exact recorded_with hnative hafter fun _ => update_active hactive
  · rw [herror]
    refine recorded_with hnative ?_ fun _ => ?_
    · exact start_applies hafter (slot.requestPolicy_captureRequest foreign)
    · exact start_active (update_active hactive) (captureRequest_trafficMode hsplit _ foreign)

theorem recorded_updateSessionRules (rules : List RuleSpec) (foreign : SlotSummary)
    (o : EditOutcome) :
    (slot.updateSessionRules check rules foreign o).2.Recorded check := by
  rw [updateSessionRules]
  split
  · exact h
  next hsession =>
    rw [not_or, not_not] at hsession
    split
    · next hnative => exact recorded_updateNativeRules h hnative rules o
    next hnative =>
      cases hm : slot.engine with
      | none => exact h
      | some m =>
        exact recorded_updateCapturedRules h
          (Bool.eq_false_iff.2 hnative) hsession.2 hm rules foreign o

omit h in
theorem setDirect_active {m : PacketCaptureManager} {role : Role} {direct : DirectSpec}
    {o : Attempt} {p : Policy} (h : Applies check m p) (hm : m.active = none) :
    (m.setDirect check role direct o).2.active = none := by
  rw [setDirect]
  cases hlast : m.lastRequest with
  | none => exact hm
  | some request =>
    rw [hm]
    dsimp only
    split
    next hsplit => exact start_active hm (request_of_activeSplit h hlast hsplit).1
    · rfl

theorem recorded_updateSessionDirect (direct : DirectSpec) (o : EditOutcome) :
    (slot.updateSessionDirect check direct o).2.Recorded check := by
  rw [updateSessionDirect]
  split
  · exact h
  split
  · exact h
  split
  · exact h
  next hconnected hnative =>
    have hnative' := Bool.eq_false_iff.2 hnative
    cases hm : slot.engine with
    | none =>
      obtain ⟨m, hm'⟩ := h.engine (Bool.not_eq_false _ ▸ hconnected) hnative'
      cases hm.symm.trans hm'
    | some m =>
      have happlies := h.applies m hm
      dsimp only
      rcases setDirect_applies_either (o := o.request) happlies direct with
        ⟨reply, hok, hafter⟩ | ⟨e, herror, hafter⟩
      · rw [hok]
        exact recorded_with hnative' hafter fun hsplit => setDirect_active happlies
            (h.split m hm hsplit)
      rw [herror]
      refine recorded_with hnative' ?_ fun hsplit => ?_
      · rcases setDirect_applies_either (o := o.rollback) hafter
          (slot.direct.getD ⟨[], []⟩) with ⟨reply, -, hlast⟩ | ⟨e', -, hlast⟩
        · exact hlast
        · exact hlast
      · exact setDirect_active hafter (setDirect_active happlies (h.split m hm hsplit))

theorem recorded_tellGame (foreign : SlotSummary) : (slot.tellGame foreign).Recorded check := by
  refine ⟨fun m hm => ?_, fun hnative => ?_, fun hconnected hnative => ?_, fun m hm hsplit => ?_⟩
  · obtain ⟨m', hm', rfl⟩ := map_eq_some_iff.1 hm
    exact setOtherSessionActive_applies (h.applies m' hm') _ _
  · have hcapture := h.native hnative
    rw [capture] at hcapture ⊢
    rw [tellGame]
    cases hm : slot.engine with
    | none => rfl
    | some m =>
      rw [hm] at hcapture
      change (m.activeSplit.map _) = none
      rw [show m.activeSplit = none from hcapture]
      rfl
  · obtain ⟨m, hm⟩ := h.engine hconnected hnative
    exact ⟨_, by rw [tellGame, hm]; rfl⟩
  · obtain ⟨m', hm', rfl⟩ := map_eq_some_iff.1 hm
    exact h.split m' hm' hsplit

omit h in
theorem setForeignBypass_active {m : PacketCaptureManager} {role : Role} {addresses : List Octets}
    {active : Bool} {o : Attempt} {p : Policy} (h : Applies check m p) (hm : m.active = none) :
    (m.setForeignBypass check role addresses active o).2.active = none := by
  rw [setForeignBypass]
  cases hlast : m.lastRequest with
  | none => exact hm
  | some request =>
    rw [hm]
    dsimp only
    split
    next hsplit => exact start_active hm (request_of_activeSplit h hlast hsplit).1
    · rfl

theorem recorded_tell (foreign : SlotSummary) (o : NoticeOutcome) :
    (slot.tell check foreign o).Recorded check := by
  rw [tell]
  split
  · exact h
  cases slot.id with
  | game => exact recorded_tellGame h foreign
  | vpn =>
    dsimp only
    rw [tellVpn]
    have htold : (if slot.nativeL2tpDirect = true then
        slot.tellGame foreign else slot).Recorded check := by
      split
      · exact recorded_tellGame h foreign
      · exact h
    generalize (if slot.nativeL2tpDirect = true then slot.tellGame foreign else slot) =
        slot' at htold
    split
    · exact ⟨htold.applies, htold.native, htold.engine, htold.split⟩
    split
    · exact htold
    next hnative =>
      cases hm : slot'.engine with
      | none => exact ⟨fun m hm' => absurd hm' (by simp),
          fun hn => absurd hn hnative, fun hc hn => by
          obtain ⟨m, hm'⟩ := htold.engine hc hn
          exact absurd (hm.symm.trans hm') (by simp), fun m hm' => absurd hm' (by simp)⟩
      | some m =>
        refine recorded_with (Bool.eq_false_iff.2 hnative) ?_ fun hsplit => ?_
        · exact setForeignBypass_applies (htold.applies m hm) _ _
        · exact setForeignBypass_active (htold.applies m hm) (htold.split m hm hsplit)

theorem recorded_step (e : SlotEvent) : (slot.step check e).Recorded check := by
  cases e with
  | start q foreign active appDns o =>
    rw [step]
    cases hconnect : (prepare slot.id q).connect check q foreign active appDns o with
    | none => exact recorded_new slot.id
    | some slot' =>
      rw [connect] at hconnect
      split at hconnect
      · exact recorded_connectNative hconnect
      · exact recorded_connectCaptured rfl hconnect
  | stop reason => exact recorded_takeForTeardown slot reason
  | edit e o =>
    cases e with
    | rules rules foreign => exact recorded_updateSessionRules h rules foreign o
    | direct direct => exact recorded_updateSessionDirect h direct o
  | reconcile foreign o =>
    rw [step]
    split
    · exact recorded_takeForTeardown slot _
    · exact recorded_tell h foreign o

end

theorem recorded_run (check : RuleCheck) (id : SlotId) (es : List SlotEvent) :
    (es.foldl (step check) (new id)).Recorded check := by
  induction es using List.reverseRecOn with
  | nil => exact recorded_new id
  | append_singleton es e ih =>
    rw [List.foldl_append]
    exact recorded_step ih e

end SessionSlot

end GamePath.Service
