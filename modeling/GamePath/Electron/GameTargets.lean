import GamePath.Electron.GameSession

/-!
# Whether the running session enforces the saved targets

A start reads the enabled targets long before its session is connected, an edit in between is saved
and sent to nobody, and whether an edit is sent depends on the saved traffic mode, not on the
session's. `Tidy` says when a step does none of this: while a start holds the rules it has read no
edit that changes them begins or is under way, and a change made to a session in split mode is made,
or taken back, while the saved mode is split. In a run of such steps, with every rollback accepted,
a settled session has accepted `enabledRuleSpecs` (`targets_enforced`).

`Enforced` is the invariant, and `enforced_step` the one step lemma.
-/

namespace GamePath.Electron.Game

open Engine.Direct (Text)
open Lib.Run

/-- What the start of a stage has read. -/
def Stage.held : Stage → Option Request
  | .preparing _ request | .resolving _ request | .validating _ request
  | .starting _ request _ => some request
  | .stoppingEngine | .stoppingService | .beforeGameStart _ | .abandoning _ | .cleaning => none

/-- The rules an edit has sent to the service. -/
def Editing.rules : Editing → Option (List RuleSpec)
  | .refreshing _ rules | .restoring rules => rules

/-- The targets an edit goes back to if it fails. -/
def Editing.previous : Editing → Option Targets
  | .refreshing previous _ => some previous
  | .restoring _ => none

namespace Client

/-- What the running start has read. -/
def held (s : Client) : Option Request := s.running.bind fun running => running.2.held

/-- A session in split mode is connected. -/
def SplitSession (s : Client) : Prop := s.session.status = .connected ∧ s.session.mode = some .split

/-! ## The condition -/

/-- A change of the targets from some to others is seen by whoever enforces them: the rules stay the
same, or no start holds rules, and the saved mode is split if that of the session is. -/
def Seen (s : Client) (old new : Targets) : Prop :=
  old.enabledRuleSpecs = new.enabledRuleSpecs ∨
    (s.held = none ∧ (s.SplitSession → s.trafficMode = .split))

/-- An edit that begins or is taken back is seen, and no edit that changes the rules is under way
when a start reads them. -/
def Tidy (s : Client) : ClientEvent → Prop
  | .editTurn =>
    s.editing = none → ∀ change edits, s.edits = change :: edits →
      s.Seen s.targets (s.targets.change change)
  | .editAnswered ok saved =>
    ∀ previous rules, s.editing = some (.refreshing previous rules) →
      ((ok || rules.isNone) && saved) = false → s.Seen s.targets previous
  | .answered _ ok =>
    ∀ work call, s.running = some (work, .beforeGameStart call) → ok = true →
      ∀ editing previous, s.editing = some editing → editing.previous = some previous →
        previous.enabledRuleSpecs = s.targets.enabledRuleSpecs
  | _ => True

/-- The service accepts the rules of a rollback. -/
def Restores (s : Client) : ClientEvent → Prop
  | .editAnswered ok _ => ∀ rules, s.editing = some (.restoring rules) → ok = true
  | _ => True

/-! ## The invariant -/

/-- What the service has accepted, of the targets as they are saved and as they were. -/
structure Enforced (s : Client) : Prop where
  sent : ∀ editing rules, s.editing = some editing → editing.rules = some rules →
    rules = s.targets.enabledRuleSpecs
  held : ∀ request, s.held = some request → request.rules = s.targets.enabledRuleSpecs ∧
    ∀ editing previous, s.editing = some editing → editing.previous = some previous →
      previous.enabledRuleSpecs = s.targets.enabledRuleSpecs
  settled : s.SplitSession → s.editing = none → s.accepted = some s.targets.enabledRuleSpecs
  refreshing : s.SplitSession → ∀ previous rules, s.editing = some (.refreshing previous rules) →
    s.accepted = some previous.enabledRuleSpecs ∧
      (rules = none → previous.enabledRuleSpecs = s.targets.enabledRuleSpecs)
  restoring : s.SplitSession → s.editing = some (.restoring none) →
    s.accepted = some s.targets.enabledRuleSpecs

/-- A client that comes from another without an edit and without a session that connects. -/
structure Aside (s s' : Client) : Prop where
  specs : s'.targets.enabledRuleSpecs = s.targets.enabledRuleSpecs
  editing : s'.editing = s.editing
  accepted : s'.accepted = s.accepted
  session : s'.session = s.session ∨ s'.session.status ≠ .connected
  held : ∀ request, s'.held = some request → s.held = some request

section Parts

variable {s s' s'' : Client}

theorem Aside.refl (s : Client) : s.Aside s := ⟨rfl, rfl, rfl, .inl rfl, fun _ => id⟩

theorem Aside.trans (h : s.Aside s') (h' : s'.Aside s'') : s.Aside s'' where
  specs := h'.specs.trans h.specs
  editing := h'.editing.trans h.editing
  accepted := h'.accepted.trans h.accepted
  session := by
    rcases h'.session with hsame | hother
    · rw [hsame]
      exact h.session
    · exact .inr hother
  held := fun request hheld => h.held request (h'.held request hheld)

theorem Aside.enforced (h : s.Enforced) (ha : s.Aside s') : s'.Enforced := by
  have hsplit : s'.SplitSession → s.SplitSession := by
    rintro ⟨hstatus, hmode⟩
    rcases ha.session with hsame | hother
    · rw [hsame] at hstatus hmode
      exact ⟨hstatus, hmode⟩
    · exact absurd hstatus hother
  refine ⟨?_, ?_, ?_, ?_, ?_⟩
  · rw [ha.editing, ha.specs]
    exact h.sent
  · intro request hheld
    rw [ha.editing, ha.specs]
    exact h.held request (ha.held request hheld)
  · intro hs
    rw [ha.editing, ha.accepted, ha.specs]
    exact h.settled (hsplit hs)
  · intro hs
    rw [ha.editing, ha.accepted, ha.specs]
    exact h.refreshing (hsplit hs)
  · intro hs
    rw [ha.editing, ha.accepted, ha.specs]
    exact h.restoring (hsplit hs)

/-! ## Works that go on beside the edits -/

theorem aside_become (s : Client) {session : Session} (hstatus : session.status ≠ .connected) :
    s.Aside (s.become session) := ⟨rfl, rfl, rfl, .inr hstatus, fun _ => id⟩

theorem aside_finish (s : Client) (work : WorkKind) (rejected : Bool) :
    s.Aside (s.finish work rejected) := by
  cases work <;> exact ⟨rfl, rfl, rfl, .inl rfl, nofun⟩

theorem aside_waiting (s : Client) (work : WorkKind) {stage : Stage} (hstage : stage.held = none) :
    s.Aside { s with running := some (work, stage) } := by
  refine ⟨rfl, rfl, rfl, .inl rfl, fun request hheld => ?_⟩
  have hnone : stage.held = some request := hheld
  rw [hstage] at hnone
  cases hnone

theorem aside_startSession (s : Client) (work : WorkKind) (call : StartCall) :
    s.Aside (s.startSession work call) := ⟨rfl, rfl, rfl, .inl rfl, nofun⟩

theorem aside_startDone (s : Client) (work : WorkKind) (call : StartCall) :
    s.Aside (s.startDone work call) := by
  rw [startDone]
  split
  · exact s.aside_finish work false
  · split
    · exact s.aside_finish work false
    · exact s.aside_startSession work _

theorem aside_stopped (s : Client) (work : WorkKind) (ok : Bool) :
    s.Aside (s.stopped work ok) := by
  cases work with
  | start => exact s.aside_finish .start false
  | lost object => exact s.aside_finish (.lost object) false
  | stop =>
    have hbecome : s.Aside (s.become (.plain (if ok then .idle else .error))) := by
      apply s.aside_become
      cases ok <;> exact nofun
    exact hbecome.trans (aside_finish _ .stop false)
  | quit =>
    rw [stopped]
    split
    · have hbecome : s.Aside (s.become (.plain .idle)) := s.aside_become nofun
      exact hbecome.trans (aside_finish _ .quit false)
    · exact s.aside_finish .quit true
  | move watch main standby =>
    have hbecome : s.Aside (s.become (.plain .starting)) := s.aside_become nofun
    exact hbecome.trans (aside_startSession _ _ _)

theorem aside_stopService (s : Client) (work : WorkKind) (env : Surroundings) :
    s.Aside (s.stopService work env).1 := by
  rw [stopService]
  split
  · exact s.aside_waiting work rfl
  · exact s.aside_stopped work true

theorem aside_stopRunningSession (s : Client) (work : WorkKind) (env : Surroundings) :
    s.Aside (s.stopRunningSession work env).1 := by
  rw [stopRunningSession]
  split
  · exact s.aside_waiting work rfl
  · exact s.aside_stopService work env

theorem aside_same (htargets : s'.targets = s.targets) (hediting : s'.editing = s.editing)
    (haccepted : s'.accepted = s.accepted) (hsession : s'.session = s.session)
    (hrunning : s'.running = s.running) : s.Aside s' := by
  refine ⟨congrArg Targets.enabledRuleSpecs htargets, hediting, haccepted, .inl hsession,
    fun request hheld => ?_⟩
  rw [held, hrunning] at hheld
  exact hheld

theorem aside_begin (s : Client) (work : WorkKind) (env : Surroundings) :
    s.Aside (s.begin' work env).1 := by
  have hend : s.Aside { s with failover := s.failover.end' } := aside_same rfl rfl rfl rfl rfl
  cases work with
  | start => exact s.aside_startSession .start _
  | stop => exact hend.trans (aside_stopRunningSession _ .stop env)
  | quit =>
    rw [begin']
    split
    · exact hend.trans (aside_stopRunningSession _ .quit env)
    · exact s.aside_finish .quit false
  | lost object =>
    rw [begin']
    split
    · exact s.aside_waiting (.lost object) rfl
    · exact s.aside_finish (.lost object) false
  | move watch main standby =>
    rw [begin']
    split
    · exact s.aside_stopRunningSession _ env
    · exact s.aside_finish (.move watch main standby) false

theorem aside_pollAnswered (s : Client) (now elapsed : Nat)
    (result : Except Vpn.ServiceError Runtime) : s.Aside (s.pollAnswered now elapsed result) := by
  rw [pollAnswered]
  split
  · dsimp only
    split
    · cases result with
      | ok | error =>
        dsimp only
        split <;> exact aside_same rfl rfl rfl rfl rfl
    · exact aside_same rfl rfl rfl rfl rfl
  · exact .refl s

theorem aside_moveToStandby (s : Client) (watch : Nat) (directWitness : Bool) (env : Surroundings) :
    s.Aside (s.moveToStandby watch directWitness env).1 := by
  rw [moveToStandby]
  split
  · exact aside_same rfl rfl rfl rfl rfl
  split
  · exact aside_same rfl rfl rfl rfl rfl
  · split <;> exact aside_same rfl rfl rfl rfl rfl

theorem aside_moveCalled (s : Client) (env : Surroundings) : s.Aside (s.moveCalled env).1 := by
  rw [moveCalled]
  split
  · split
    · have hcalled : s.Aside { s with failover := s.failover.moveCalled 0 } :=
        aside_same rfl rfl rfl rfl rfl
      exact hcalled.trans (aside_moveToStandby _ _ _ env)
    · exact .refl s
  · exact .refl s

theorem aside_standbyProbed (s : Client) (reachable : Bool) :
    s.Aside (s.standbyProbed reachable) := by
  rw [standbyProbed]
  split
  · split
    · split <;> exact aside_same rfl rfl rfl rfl rfl
    · exact .refl s
  · exact .refl s

theorem aside_moveResolved (s : Client) : s.Aside s.moveResolved := by
  rw [moveResolved]
  split
  · exact aside_same rfl rfl rfl rfl rfl
  · exact .refl s

variable {work : WorkKind}

theorem aside_goesOn {stage stage' : Stage} (hrunning : s.running = some (work, stage))
    (hstage : stage'.held = stage.held) : s.Aside { s with running := some (work, stage') } := by
  refine ⟨rfl, rfl, rfl, .inl rfl, fun request hheld => ?_⟩
  have hsome : stage'.held = some request := hheld
  rw [held, hrunning]
  exact hstage.symm.trans hsome

theorem aside_groupAdded (s : Client) {id : Text} (hfresh : s.targets.fresh id = true) :
    s.Aside { s with targets :=
      { s.targets with ruleGroups := s.targets.ruleGroups ++ [⟨id, true⟩] } } := by
  refine ⟨?_, rfl, rfl, .inl rfl, fun _ h => h⟩
  have hnames : ∀ rule ∈ s.targets.rules, rule.groupId ≠ some id := by
    intro rule hrule
    have hall := List.all_eq_true.1 (Bool.and_eq_true_iff.1 hfresh).2 rule hrule
    exact of_decide_eq_true hall
  simp only [Targets.enabledRuleSpecs]
  congr 1
  apply List.filter_congr
  intro rule hrule
  cases hgroup : rule.groupId with
  | none => rfl
  | some groupId =>
    have hother : groupId ≠ id := by
      rintro rfl
      exact hnames rule hrule hgroup
    cases henabled : (s.targets.ruleGroups.filter RuleGroup.enabled) <;> simp [hother, henabled]

/-! ## Starts -/

theorem Enforced.readState (h : s.Enforced) (work : WorkKind) (call : StartCall)
    (env : Surroundings)
    (hread : ∀ editing previous, s.editing = some editing → editing.previous = some previous →
      previous.enabledRuleSpecs = s.targets.enabledRuleSpecs) :
    (s.readState work call env).1.Enforced := by
  rw [Client.readState]
  split
  · have hfailed : s.Aside (s.become (.plain .error)) := s.aside_become nofun
    exact (hfailed.trans (aside_startDone _ work call)).enforced h
  have hstarting : s.Aside (s.become (.plain .starting)) := s.aside_become nofun
  split
  · exact (hstarting.trans (aside_waiting _ work rfl)).enforced h
  · refine ⟨h.sent, ?_, nofun, nofun, nofun⟩
    intro request hheld
    cases hheld
    exact ⟨rfl, hread⟩

theorem Enforced.connected (h : s.Enforced) {call : StartCall} {request : Request}
    {mode : Vpn.TrafficMode} (hrunning : s.running = some (work, .starting call request mode))
    (env : Surroundings) : (s.connected call request mode env).Enforced := by
  obtain ⟨hrules, hprevious⟩ := h.held request (by rw [Client.held, hrunning]; rfl)
  have haccepted : (s.connected call request mode env).accepted =
      some s.targets.enabledRuleSpecs := congrArg some hrules
  refine ⟨h.sent, h.held, fun _ _ => haccepted, ?_, fun _ _ => haccepted⟩
  intro _ previous rules hediting
  have hsame := hprevious _ previous hediting rfl
  refine ⟨?_, fun _ => hsame⟩
  rw [hsame]
  exact haccepted

theorem Enforced.continue' (h : s.Enforced) {stage : Stage}
    (hrunning : s.running = some (work, stage)) (env : Surroundings) (ok : Bool)
    (htidy : s.Tidy (.answered env ok)) : (s.continue' work env ok stage).1.Enforced := by
  cases stage with
  | stoppingEngine =>
    cases ok with
    | true => exact (s.aside_stopService work env).enforced h
    | false => exact (s.aside_stopped work false).enforced h
  | stoppingService => exact (s.aside_stopped work ok).enforced h
  | beforeGameStart call =>
    cases ok with
    | true => exact h.readState work call env (htidy work call hrunning rfl)
    | false => exact (s.aside_finish work true).enforced h
  | preparing call request =>
    cases ok with
    | true =>
      rw [Client.continue', if_neg (by decide)]
      split
      · apply Aside.enforced h
        exact aside_goesOn hrunning rfl
      · apply Aside.enforced h
        exact aside_goesOn hrunning rfl
    | false => exact (s.aside_waiting work rfl).enforced h
  | resolving | validating =>
    cases ok with
    | true =>
      apply Aside.enforced h
      exact aside_goesOn hrunning rfl
    | false => exact (s.aside_waiting work rfl).enforced h
  | starting call request mode =>
    cases ok with
    | true => exact (aside_startDone _ work call).enforced (h.connected hrunning env)
    | false => exact (s.aside_waiting work rfl).enforced h
  | abandoning call =>
    have hfailed : s.Aside (s.become (.plain .error)) := s.aside_become nofun
    exact (hfailed.trans (aside_startDone _ work call)).enforced h
  | cleaning =>
    have hfailed : s.Aside (s.become (.plain .error)) := s.aside_become nofun
    have hended : s.Aside { s.become (.plain .error) with failover := s.failover.end' } :=
      hfailed.trans (aside_same rfl rfl rfl rfl rfl)
    exact (hended.trans (aside_finish _ work false)).enforced h

/-! ## Edits -/

theorem refresh_eq_some {rules : List RuleSpec} (h : s.refreshActiveSplitCapture = some rules) :
    rules = s.targets.enabledRuleSpecs := by
  rw [refreshActiveSplitCapture] at h
  split at h
  · exact (Option.some.inj h).symm
  · cases h

theorem refresh_ne_none (hsplit : s.SplitSession) (hmode : s.trafficMode = .split) :
    s.refreshActiveSplitCapture ≠ none := by
  rw [refreshActiveSplitCapture, if_pos ⟨hsplit.1, hmode⟩]
  exact nofun

theorem Seen.same_of_held {old new : Targets} (h : s.Seen old new) {request : Request}
    (hheld : s.held = some request) : old.enabledRuleSpecs = new.enabledRuleSpecs := by
  rcases h with hsame | ⟨hnone, -⟩
  · exact hsame
  · rw [hnone] at hheld
    cases hheld

theorem Seen.same_of_refresh {old new : Targets} (h : s.Seen old new) (hsplit : s.SplitSession)
    (hrefresh : ({ s with targets := new } : Client).refreshActiveSplitCapture = none) :
    old.enabledRuleSpecs = new.enabledRuleSpecs := by
  rcases h with hsame | ⟨-, hmode⟩
  · exact hsame
  · exact absurd hrefresh (refresh_ne_none (s := { s with targets := new }) hsplit (hmode hsplit))

theorem Enforced.editTurn (h : s.Enforced) (htidy : s.Tidy .editTurn) :
    s.editTurn.1.Enforced := by
  rw [Client.editTurn]
  split
  next change edits hediting hedits =>
    have hseen := htidy hediting change edits hedits
    refine ⟨?_, ?_, nofun, ?_, nofun⟩
    · rintro editing rules hsome hrules
      cases hsome
      exact refresh_eq_some hrules
    · intro request hheld
      have hsame := hseen.same_of_held hheld
      refine ⟨(h.held request hheld).1.trans hsame, ?_⟩
      rintro editing previous hsome hprevious
      cases hsome
      cases hprevious
      exact hsame
    · intro hsplit previous rules hsome
      cases hsome
      exact ⟨h.settled hsplit hediting, hseen.same_of_refresh hsplit⟩
  · exact h

theorem Enforced.restore (h : s.Enforced) {previous : Targets} {accepted : Option (List RuleSpec)}
    (hseen : s.Seen s.targets previous)
    (haccepted : s.SplitSession → s.targets.enabledRuleSpecs = previous.enabledRuleSpecs →
      accepted = some previous.enabledRuleSpecs) :
    (Client.restore { s with accepted := accepted } previous).1.Enforced := by
  refine ⟨?_, ?_, nofun, nofun, ?_⟩
  · rintro editing rules hsome hrules
    cases hsome
    exact refresh_eq_some hrules
  · intro request hheld
    refine ⟨(h.held request hheld).1.trans (hseen.same_of_held hheld), ?_⟩
    rintro editing previous' hsome hprevious
    cases hsome
    cases hprevious
  · intro hsplit hsome
    have hnone : ({ s with targets := previous } : Client).refreshActiveSplitCapture = none :=
      Editing.restoring.inj (Option.some.inj hsome)
    exact haccepted hsplit (hseen.same_of_refresh hsplit hnone)

theorem Enforced.editAnswered (h : s.Enforced) {ok saved : Bool}
    (htidy : s.Tidy (.editAnswered ok saved)) (hrestores : s.Restores (.editAnswered ok saved)) :
    (s.editAnswered ok saved).1.Enforced := by
  rw [Client.editAnswered]
  split
  · exact h
  next previous rules hediting =>
    have hsent : ∀ r, rules = some r → r = s.targets.enabledRuleSpecs :=
      fun r hr => h.sent _ r hediting hr
    have hnow : s.SplitSession → rules.or s.accepted = some s.targets.enabledRuleSpecs := by
      intro hsplit
      obtain ⟨hold, hsame⟩ := h.refreshing hsplit previous rules hediting
      cases hrules : rules with
      | none => exact hold.trans (congrArg some (hsame hrules))
      | some r => exact congrArg some (hsent r hrules)
    split
    next hok =>
      split
      next hsaved =>
        refine ⟨nofun, ?_, fun hsplit _ => hnow hsplit, nofun, nofun⟩
        intro request hheld
        exact ⟨(h.held request hheld).1, nofun⟩
      next hsaved =>
        apply h.restore
        · apply htidy previous rules hediting
          rw [hok]
          exact Bool.eq_false_iff.2 hsaved
        · intro hsplit hsame
          rw [← hsame]
          exact hnow hsplit
    next hok =>
      apply h.restore
      · apply htidy previous rules hediting
        rw [Bool.eq_false_iff.2 hok, Bool.false_and]
      · intro hsplit _
        exact (h.refreshing hsplit previous rules hediting).1
  next rules hediting =>
    rw [hrestores rules hediting]
    refine ⟨nofun, ?_, fun hsplit _ => ?_, nofun, nofun⟩
    · intro request hheld
      exact ⟨(h.held request hheld).1, nofun⟩
    · cases hrules : rules with
      | none =>
        rw [hrules] at hediting
        exact h.restoring hsplit hediting
      | some r => exact congrArg some (h.sent _ r hediting hrules)

end Parts

/-! ## Steps and runs -/

theorem enforced_step {s : Client} (h : s.Enforced) {e : ClientEvent} (hrestores : s.Restores e)
    (htidy : s.Tidy e) : (s.step e).1.Enforced := by
  cases e with
  | engineStart | engineStop | quit | setTrafficMode mode | probeAnswered elapsed reachable
  | probeFreed | moveFreed =>
    apply Aside.enforced h
    exact aside_same rfl rfl rfl rfl rfl
  | turn env =>
    rw [step]
    split
    next work queue hrunning hqueue =>
      have hqueued : s.Aside { s with queue := queue } := aside_same rfl rfl rfl rfl rfl
      exact (hqueued.trans (aside_begin _ work env)).enforced h
    · exact h
  | answered env ok =>
    rw [step]
    split
    next work stage hrunning => exact h.continue' hrunning env ok htidy
    · exact h
  | poll serviceReady =>
    show (s.poll serviceReady).1.Enforced
    rw [poll]
    split
    · exact h
    · apply Aside.enforced h
      exact aside_same rfl rfl rfl rfl rfl
  | pollAnswered now elapsed result => exact (s.aside_pollAnswered now elapsed result).enforced h
  | moveCalled env => exact (s.aside_moveCalled env).enforced h
  | standbyProbed reachable => exact (s.aside_standbyProbed reachable).enforced h
  | moveResolved => exact s.aside_moveResolved.enforced h
  | groupAdded id =>
    rw [step]
    split
    next hfresh => exact (s.aside_groupAdded hfresh).enforced h
    · exact h
  | edit change =>
    have hedits : ∀ edits, s.Aside { s with edits := edits } :=
      fun _ => aside_same rfl rfl rfl rfl rfl
    cases change with
    | add id kind value groupId =>
      simp only [step]
      split
      · exact h
      · exact (hedits _).enforced h
    | _ => exact (hedits _).enforced h
  | editTurn => exact h.editTurn htidy
  | editAnswered ok saved => exact h.editAnswered htidy hrestores

theorem enforced_new (targets : Targets) (trafficMode : Vpn.TrafficMode) (now : Nat) :
    (new targets trafficMode now).Enforced := by
  refine ⟨nofun, nofun, ?_, nofun, nofun⟩
  rintro ⟨hstatus, -⟩
  cases hstatus

/-- Nothing is queued or in flight. -/
structure Settled (s : Client) : Prop where
  queue : s.queue = []
  running : s.running = none
  edits : s.edits = []
  editing : s.editing = none
  polling : s.polling = none
  call : s.call = none
  moves : s.failover.moves = []

/-- In a run of tidy steps in which every rollback is accepted, the service has accepted the enabled
targets for the session that runs in split mode. -/
theorem targets_enforced (targets : Targets) (trafficMode : Vpn.TrafficMode) (now : Nat)
    (es : List ClientEvent) (hrun : Meets step (fun c e => c.state.Restores e ∧ c.state.Tidy e)
      ⟨new targets trafficMode now, []⟩ es)
    (hsettled : (exec step (new targets trafficMode now) es).state.Settled)
    (hconnected : (exec step (new targets trafficMode now) es).state.session.status = .connected)
    (hmode : (exec step (new targets trafficMode now) es).state.session.mode = some .split) :
    (exec step (new targets trafficMode now) es).state.accepted =
      some (exec step (new targets trafficMode now) es).state.targets.enabledRuleSpecs := by
  have henforced : (exec step (new targets trafficMode now) es).state.Enforced :=
    execFrom_invariant_of_meets (I := fun c => c.state.Enforced)
      (fun _ _ hmeets h => enforced_step h hmeets.1 hmeets.2) es _ hrun
      (enforced_new targets trafficMode now)
  exact henforced.settled ⟨hconnected, hmode⟩ hsettled.editing

/-! ### Concrete runs -/

/-- A step that is tidy at a glance: an edit begins while no start holds rules and the saved mode is
`split`, it succeeds, and nothing is edited while a start goes on. -/
def calm (s : Client) : ClientEvent → Bool
  | .editTurn => s.held.isNone && decide (s.trafficMode = .split)
  | .editAnswered ok saved => ok && saved
  | .answered _ _ => s.editing.isNone
  | _ => true

theorem tidy_of_calm {s : Client} {e : ClientEvent} (h : s.calm e = true) :
    s.Restores e ∧ s.Tidy e := by
  cases e with
  | editTurn =>
    obtain ⟨hheld, hmode⟩ := Bool.and_eq_true_iff.1 h
    exact ⟨trivial, fun _ _ _ _ =>
      .inr ⟨Option.isNone_iff_eq_none.1 hheld, fun _ => of_decide_eq_true hmode⟩⟩
  | editAnswered ok saved =>
    obtain ⟨rfl, rfl⟩ := Bool.and_eq_true_iff.1 h
    exact ⟨fun _ _ => rfl, fun _ _ _ hfailed => by cases hfailed⟩
  | answered env ok =>
    refine ⟨trivial, fun _ _ _ _ editing previous hediting => ?_⟩
    rw [Option.isNone_iff_eq_none.1 h] at hediting
    cases hediting
  | _ => exact ⟨trivial, trivial⟩

/-- A second target is added. -/
def addsTarget : List ClientEvent :=
  [.edit (.add ['s'] ['k'] ['w'] []), .editTurn, .editAnswered true true]

/-- A target that is added to a session that runs. -/
theorem targets_enforced_live :
    (exec step oneTarget (starts ++ addsTarget)).state.accepted =
      some (exec step oneTarget (starts ++ addsTarget)).state.targets.enabledRuleSpecs := by
  have hcalm : Meets step (fun c e => c.state.calm e = true) ⟨oneTarget, []⟩
      (starts ++ addsTarget) := by
    decide +kernel
  exact targets_enforced _ _ _ (starts ++ addsTarget) (hcalm.imp fun _ _ h => tidy_of_calm h)
    (by constructor <;> decide +kernel) (by decide +kernel) (by decide +kernel)

/-- A target that is added while the session starts, and one that is added while the saved mode is
`all`, are saved, and the service has not heard of either. -/
theorem targets_are_not_enforced :
    let starting := (exec step oneTarget (starts.take 3 ++ addsTarget ++ starts.drop 3)).state
    let switched := (exec step oneTarget
      (starts ++ [.setTrafficMode .all] ++ addsTarget ++ [.setTrafficMode .split])).state
    (starting.Settled ∧ starting.session.status = .connected ∧
      starting.session.mode = some .split ∧
      starting.accepted ≠ some starting.targets.enabledRuleSpecs) ∧
    switched.Settled ∧ switched.session.status = .connected ∧
      switched.session.mode = some .split ∧
      switched.accepted ≠ some switched.targets.enabledRuleSpecs := by
  refine ⟨⟨⟨?_, ?_, ?_, ?_, ?_, ?_, ?_⟩, ?_, ?_, ?_⟩, ⟨?_, ?_, ?_, ?_, ?_, ?_, ?_⟩, ?_, ?_, ?_⟩
  all_goals decide +kernel

end Client

end GamePath.Electron.Game
