import GamePath.Electron.VpnSession

/-!
# What a verdict stops, and what stays off

A verdict is taken outside the queue and acted on inside it, and the stop it asks for does not look
at which session it stops; `shutdown` leaves the wish for a VPN in place, so what was queued before
it can set the reconnect timer again. `Clean` says when a step does neither: no start succeeds while
a verdict waits, and nothing schedules a reconnect behind a shutdown. In a run of such steps a
verdict stops its own session or none, and a VPN that is off sends no start
(`verdicts_stop_their_own`).

`Sound` is the invariant, and `sound_step` the one step lemma.
-/

namespace GamePath.Electron.Vpn

open Lib.Run List Option

namespace Controller

variable {α : Type}

/-! ## The invariant -/

variable (s : Controller α)

/-- A verdict about the session of a start waits in the queue. -/
def Waits (start : Nat) : Prop :=
  ∃ work ∈ s.queue, ∃ verdict, work.kind = .giveUp start verdict

/-- The session is of no start, or of the start of every verdict that waits. -/
def Own (session : Session) : Prop :=
  ∀ start, s.Waits start → session.start = none ∨ session.start = some start

/-- A work that starts nothing. -/
def WorkKind.Stops : WorkKind → Prop
  | .stop | .giveUp _ _ => True
  | .start | .restart | .reconsider => False

/-- What holds of a controller whatever it waits for. -/
structure Base (s : Controller α) : Prop where
  live : s.session.status.live = true → s.session.start.isSome = true
  numbers : ∀ work ∈ s.queue, work.number < s.issued
  bound : ∀ m, s.off = some m → m ≤ s.issued
  timer : ∀ m, s.off = some m → s.reconnectTimer = false
  queued : ∀ m, s.off = some m → ∀ work ∈ s.queue, m ≤ work.number → WorkKind.Stops work.kind

/-- What holds while a work waits for the answer to a request. -/
def Waiting (work : Nat) : Stage α → Prop
  | .stopping next after =>
    s.Own s.session ∧ s.Own next ∧ next.status.live = false ∧
      (next.start = none ∨ s.session.start = none ∨ next.start = s.session.start) ∧
      ∀ m, s.off = some m → m ≤ work → after ≠ .startNow
  | .validating _ _ | .starting _ _ | .abandoning _ =>
    s.session.status.live = false ∧ ∀ m, s.off = some m → work < m

/-- What holds of a controller between two events. -/
structure Sound (s : Controller α) : Prop where
  base : s.Base
  idle : s.running = none → s.Own s.session
  busy : ∀ work stage, s.running = some (work, stage) → work < s.issued ∧ s.Waiting work stage

/-! ## Steps that do nothing amiss -/

/-- A start that is tried now fails at once and is retried. -/
def Surroundings.Retries (env : Surroundings α) : Prop :=
  env.pause = none ∧ (env.ready = false ∨ env.built = .error false)

/-- A work comes to `scheduleReconnect` before it sends a request. -/
def WorkKind.Reschedules (session : Session) (env : Surroundings α) : WorkKind → Prop
  | .start => Surroundings.Retries env
  | .stop => False
  | .restart => session.status.active = false ∧ Surroundings.Retries env
  | .reconsider => session.status = .paused ∧ Surroundings.Retries env
  | .giveUp _ _ => session.status.active = false

/-- A work comes to `scheduleReconnect` behind the answer it has waited for. -/
def Stage.Reschedules (env : Surroundings α) (result : Except ServiceError Started) :
    Stage α → Prop
  | .stopping _ .finish => False
  | .stopping _ .startNow => Surroundings.Retries env
  | .stopping _ .scheduleReconnect => True
  | .validating _ _ => ∃ error, result = .error error ∧ error.transient = true
  | .starting _ _ => False
  | .abandoning error => error.pause = none

/-- The event makes the next work, or the running one, come to `scheduleReconnect`. -/
def Reschedules : VpnEvent α → Prop
  | .turn env =>
    s.running = none ∧ ∃ work queue, s.queue = work :: queue ∧
      WorkKind.Reschedules s.session env work.kind
  | .answered env result =>
    ∃ work stage, s.running = some (work, stage) ∧ Stage.Reschedules env result stage
  | _ => False

/-- The answer connects a session. -/
def Connects : VpnEvent α → Prop
  | .answered _ result =>
    ∃ work start built started, s.running = some (work, .starting start built) ∧
      result = .ok started ∧
      (built.remoteDns && decide (built.trafficMode = .split) && !started.dnsServers) = false
  | _ => False

/-- No session is connected while a verdict waits, and nothing schedules a reconnect while the VPN
that is still wanted has been shut down. -/
def Clean (e : VpnEvent α) : Prop :=
  (s.Connects e → ∀ start, ¬ s.Waits start) ∧
    (s.off ≠ none → s.wanted = true → ¬ s.Reschedules e)

/-! ## The parts of a step -/

section Parts

variable {s : Controller α}

theorem scheduleReconnect_cases (s : Controller α) :
    (s.scheduleReconnect = s ∧ (s.wanted = false ∨ s.reconnectTimer = true)) ∨
    (s.wanted = true ∧ s.scheduleReconnect =
      { s.become { s.session with status := .reconnecting } with
        reconnectTimer := true, reconnectAttempt := s.reconnectAttempt + 1 }) := by
  unfold scheduleReconnect
  cases hwanted : s.wanted with
  | false => exact .inl ⟨rfl, .inl rfl⟩
  | true =>
    cases htimer : s.reconnectTimer with
    | true => exact .inl ⟨rfl, .inr rfl⟩
    | false => exact .inr ⟨rfl, rfl⟩

theorem Base.become (h : s.Base) {session : Session} (hlive : session.status.live = false) :
    (s.become session).Base where
  live := fun hlive' => by
    have hsame : (s.become session).session.status = session.status := rfl
    rw [hsame, hlive] at hlive'
    cases hlive'
  numbers := h.numbers
  bound := h.bound
  timer := h.timer
  queued := h.queued

theorem Base.cancelReconnect (h : s.Base) : s.cancelReconnect.Base where
  live := h.live
  numbers := h.numbers
  bound := h.bound
  timer := fun _ _ => rfl
  queued := h.queued

theorem Base.scheduleReconnect (h : s.Base) (hclean : s.off ≠ none → s.wanted = false) :
    s.scheduleReconnect.Base := by
  rcases scheduleReconnect_cases s with ⟨heq, -⟩ | ⟨hwanted, heq⟩
  · rw [heq]
    exact h
  have hoff : s.off = none := by
    by_contra hoff
    rw [hclean hoff] at hwanted
    cases hwanted
  rw [heq]
  refine ⟨fun hlive => ?_, h.numbers, h.bound, ?_, h.queued⟩
  · cases hlive
  · intro m hm
    have hnone : s.off = some m := hm
    rw [hoff] at hnone
    cases hnone

theorem scheduleReconnect_session (s : Controller α) :
    s.scheduleReconnect.session.start = s.session.start := by
  rcases scheduleReconnect_cases s with ⟨heq, -⟩ | ⟨-, heq⟩
  · rw [heq]
  · rw [heq]
    rfl

theorem scheduleReconnect_queue (s : Controller α) : s.scheduleReconnect.queue = s.queue := by
  rcases scheduleReconnect_cases s with ⟨heq, -⟩ | ⟨-, heq⟩
  · rw [heq]
  · rw [heq]
    rfl

theorem Own.of_none {session : Session} (h : session.start = none) : s.Own session :=
  fun _ _ => .inl h

theorem Base.finish (h : s.Base) (hown : s.Own s.session) : s.finish.Sound where
  base := ⟨h.live, h.numbers, h.bound, h.timer, h.queued⟩
  idle := fun _ => hown
  busy := fun _ _ hbusy => by cases hbusy

theorem Base.fail (h : s.Base) {retryable : Bool}
    (hclean : s.off ≠ none → s.wanted = true → retryable = false) :
    (s.fail retryable).finish.Sound := by
  have hwish : ({ s with wanted := s.wanted && retryable } : Controller α).Base :=
    ⟨h.live, h.numbers, h.bound, h.timer, h.queued⟩
  have hbase : ({ s with wanted := s.wanted && retryable }.become
      (Session.failed s.session.node)).Base := by
    apply hwish.become
    rfl
  cases retryable with
  | false => exact hbase.finish (Own.of_none rfl)
  | true =>
    apply Base.finish
    · apply hbase.scheduleReconnect
      intro hoff
      rw [Bool.and_true]
      by_contra hwanted
      cases hclean hoff (Bool.not_eq_false _ ▸ hwanted)
    · exact Own.of_none (scheduleReconnect_session _)

variable {work : Nat}

theorem Base.startNow (h : s.Base) (env : Surroundings α) (hwork : work < s.issued)
    (hbefore : ∀ m, s.off = some m → work < m) (hown : s.Own s.session)
    (hclean : s.off ≠ none → s.wanted = true → ¬ Surroundings.Retries env) :
    (s.startNow work env).1.Sound := by
  have hcancel := h.cancelReconnect
  unfold Controller.startNow
  dsimp only
  split
  · exact hcancel.finish hown
  split
  · exact (hcancel.become rfl).finish (Own.of_none rfl)
  next hpause =>
    have hpause : env.pause = none := not_isSome_iff_eq_none.1 hpause
    split
    next hready =>
      apply hcancel.fail
      intro hoff hwanted
      exact absurd ⟨hpause, .inl (by simpa using hready)⟩ (hclean hoff hwanted)
    · cases hbuilt : env.built with
      | error isConfig =>
        apply hcancel.fail
        intro hoff hwanted
        cases isConfig with
        | true => rfl
        | false => exact absurd ⟨hpause, .inr hbuilt⟩ (hclean hoff hwanted)
      | ok built =>
        have hnew : (s.cancelReconnect.become ⟨0,
            if 0 < s.cancelReconnect.reconnectAttempt then .reconnecting else .connecting,
            some s.cancelReconnect.starts, some built.node, built.nodes, []⟩).Base := by
          apply hcancel.become
          split <;> rfl
        refine ⟨⟨hnew.live, hnew.numbers, hnew.bound, hnew.timer, hnew.queued⟩, ?_, ?_⟩
        · intro hidle
          cases hidle
        rintro work' stage hbusy
        cases hbusy
        refine ⟨hwork, ?_, hbefore⟩
        show Status.live (if 0 < s.cancelReconnect.reconnectAttempt then .reconnecting
          else .connecting) = false
        split <;> rfl

variable {env : Surroundings α} {sent : Sent α}

theorem startNow_sent (h : sent ∈ (s.startNow work env).2) :
    ∃ built, sent = .validateRuntime built := by
  unfold Controller.startNow at h
  dsimp only at h
  split at h
  · cases h
  split at h
  · cases h
  split at h
  · cases h
  cases hbuilt : env.built with
  | error isConfig =>
    rw [hbuilt] at h
    cases h
  | ok built =>
    rw [hbuilt] at h
    exact ⟨built, mem_singleton.1 h⟩

/-- What is asked of a work that comes to what follows its stop. -/
structure Follows (s : Controller α) (work : Nat) (env : Surroundings α) (after : After) :
    Prop where
  number : work < s.issued
  before : after = .startNow → ∀ m, s.off = some m → work < m
  clean : s.off ≠ none → s.wanted = true →
    (after = .startNow → ¬ Surroundings.Retries env) ∧ after ≠ .scheduleReconnect

variable {after : After}

theorem Base.afterStop (h : s.Base) (hfollows : s.Follows work env after) (hown : s.Own s.session) :
    (s.afterStop work env after).1.Sound := by
  cases after with
  | finish => exact h.finish hown
  | startNow =>
    apply h.startNow env hfollows.number (hfollows.before rfl) hown
    intro hoff hwanted
    exact (hfollows.clean hoff hwanted).1 rfl
  | scheduleReconnect =>
    apply Base.finish
    · apply h.scheduleReconnect
      intro hoff
      by_contra hwanted
      exact (hfollows.clean hoff (by simpa using hwanted)).2 rfl
    intro start hwaits
    have hwaits' : s.Waits start := by
      obtain ⟨waiting, hmem, hkind⟩ := hwaits
      rw [scheduleReconnect_queue] at hmem
      exact ⟨waiting, hmem, hkind⟩
    rw [scheduleReconnect_session]
    exact hown start hwaits'

theorem afterStop_sent (h : sent ∈ (s.afterStop work env after).2) :
    ∃ built, sent = .validateRuntime built := by
  cases after with
  | finish | scheduleReconnect => cases h
  | startNow => exact startNow_sent h

/-- A stop keeps the controller sound. -/
theorem Base.stopNow (h : s.Base) (cause : Cause) {next : Session} (hown : s.Own s.session)
    (hnext : s.Own next) (hlive : next.status.live = false)
    (hstart : next.start = none ∨ next.start = s.session.start) (hwork : work < s.issued)
    (hbefore : after = .startNow → ∀ m, s.off = some m → work < m)
    (hclean : s.session.status.active = false → s.Follows work env after) :
    (s.stopNow work env cause next after).1.Sound := by
  have hpolls : s.stopPolling.Base := ⟨h.live, h.numbers, h.bound, h.timer, h.queued⟩
  unfold Controller.stopNow
  cases hactive : s.session.status.active with
  | true =>
    have hactive' : s.stopPolling.session.status.active = true := hactive
    rw [if_pos hactive']
    refine ⟨⟨hpolls.live, hpolls.numbers, hpolls.bound, hpolls.timer, hpolls.queued⟩, ?_, ?_⟩
    · intro hidle
      cases hidle
    rintro work' stage hbusy
    cases hbusy
    refine ⟨hwork, hown, hnext, hlive, ?_, ?_⟩
    · exact hstart.imp id .inr
    · rintro m hm hle rfl
      exact absurd (hbefore rfl m hm) (not_lt.2 hle)
  | false =>
    have hactive' : ¬ s.stopPolling.session.status.active = true := by
      show ¬ s.session.status.active = true
      rw [hactive]
      exact Bool.false_ne_true
    rw [if_neg hactive']
    have hfollows := hclean hactive
    exact (hpolls.become hlive).afterStop ⟨hfollows.number, hfollows.before, hfollows.clean⟩ hnext

theorem stopNow_sent {cause : Cause} {next : Session}
    (h : sent ∈ (s.stopNow work env cause next after).2) :
    sent = .stopSession cause s.session.start ∨ ∃ built, sent = .validateRuntime built := by
  unfold Controller.stopNow at h
  dsimp only at h
  split at h
  · exact .inl (mem_singleton.1 h)
  · exact .inr (afterStop_sent h)

/-! ## Events -/

/-- A request that is right to send: a verdict stops its own session or none, and a VPN that is off
sends no start. -/
def Sent.Right (s : Controller α) (sent : Sent α) : Prop :=
  (∀ own start, sent = .stopSession (.verdict own) start → start = none ∨ start = some own) ∧
    ∀ start work built, sent = .startSession start work built → ∀ m, s.off = some m → work < m

theorem Sent.right_of_validate (h : ∃ built, sent = .validateRuntime built) :
    Sent.Right s sent := by
  obtain ⟨built, rfl⟩ := h
  constructor
  · rintro own start hsent
    cases hsent
  · rintro start work built hsent
    cases hsent

theorem Base.begin' (h : s.Base) {work : Work} (hown : s.Own s.session)
    (hgiven : ∀ start verdict, work.kind = .giveUp start verdict →
      s.session.start = none ∨ s.session.start = some start) (hwork : work.number < s.issued)
    (hoff : ∀ m, s.off = some m → m ≤ work.number → WorkKind.Stops work.kind)
    (hclean : s.off ≠ none → s.wanted = true →
      ¬ WorkKind.Reschedules s.session env work.kind) :
    (s.begin' work env).1.Sound ∧ ∀ sent ∈ (s.begin' work env).2, Sent.Right s sent := by
  have hbefore : ¬ WorkKind.Stops work.kind → ∀ m, s.off = some m → work.number < m := by
    intro hstops m hm
    by_contra hle
    exact hstops (hoff m hm (not_lt.1 hle))
  -- a stop on behalf of a call is of no verdict
  have hcall : ∀ (t : Controller α) sent next after,
      sent ∈ (t.stopNow work.number env .call next after).2 → Sent.Right s sent := by
    intro t sent next after hsent
    rcases stopNow_sent hsent with rfl | hvalidate
    · constructor
      · rintro own start heq
        cases heq
      · rintro start work built heq
        cases heq
    · exact Sent.right_of_validate hvalidate
  unfold Controller.begin'
  cases hkind : work.kind with
  | start =>
    rw [hkind] at hbefore hclean
    exact ⟨h.startNow env hwork (hbefore id) hown hclean,
      fun sent hsent => Sent.right_of_validate (startNow_sent hsent)⟩
  | stop =>
    refine ⟨h.stopNow .call hown (Own.of_none rfl) rfl (.inl rfl) hwork ?_ ?_, ?_⟩
    · intro heq
      cases heq
    · intro _
      refine ⟨hwork, fun heq => ?_, fun _ _ => ⟨fun heq => ?_, fun heq => ?_⟩⟩ <;> cases heq
    · exact fun sent hsent => hcall s sent _ _ hsent
  | restart =>
    rw [hkind] at hbefore hclean
    dsimp only
    split
    next hactive =>
      refine ⟨h.stopNow .call hown (Own.of_none rfl) rfl (.inl rfl) hwork (fun _ => hbefore id) ?_,
        fun sent hsent => hcall s sent _ _ hsent⟩
      intro hidle
      rw [hactive] at hidle
      cases hidle
    next hactive =>
      have hactive : s.session.status.active = false := by simpa using hactive
      refine ⟨h.startNow env hwork (hbefore id) hown ?_,
        fun sent hsent => Sent.right_of_validate (startNow_sent hsent)⟩
      exact fun hne hwanted hretries => hclean hne hwanted ⟨hactive, hretries⟩
  | reconsider =>
    rw [hkind] at hbefore hclean
    dsimp only
    split
    · have hcancel := h.cancelReconnect
      refine ⟨hcancel.stopNow .call hown (Own.of_none rfl) rfl (.inl rfl) hwork ?_ ?_, ?_⟩
      · intro heq
        cases heq
      · intro _
        refine ⟨hwork, fun heq => ?_, fun _ _ => ⟨fun heq => ?_, fun heq => ?_⟩⟩ <;> cases heq
      exact fun sent hsent => hcall _ sent _ _ hsent
    split
    next hpaused =>
      have hpaused : s.session.status = .paused := by
        simp only [Bool.and_eq_true, decide_eq_true_eq] at hpaused
        exact hpaused.2
      refine ⟨h.startNow env hwork (hbefore id) hown ?_,
        fun sent hsent => Sent.right_of_validate (startNow_sent hsent)⟩
      exact fun hne hwanted hretries => hclean hne hwanted ⟨hpaused, hretries⟩
    · exact ⟨h.finish hown, fun sent hsent => by cases hsent⟩
  | giveUp start verdict =>
    rw [hkind] at hclean
    have hsession := hgiven start verdict hkind
    have hstart : (givenUp s.session verdict).start = none ∨
        (givenUp s.session verdict).start = s.session.start := by
      cases verdict with
      | lost => exact .inl rfl
      | unreachable => exact .inr rfl
    have hnext : s.Own (givenUp s.session verdict) := by
      rcases hstart with hnone | hsame
      · exact Own.of_none hnone
      · intro other hwaits
        rw [hsame]
        exact hown other hwaits
    have hlive : (givenUp s.session verdict).status.live = false := by
      cases verdict with
      | lost | unreachable => rfl
    refine ⟨h.stopNow (.verdict start) hown hnext hlive hstart hwork ?_ ?_, ?_⟩
    · intro heq
      cases heq
    · intro hactive
      refine ⟨hwork, fun heq => ?_, fun hne hwanted => absurd hactive (hclean hne hwanted)⟩
      cases heq
    intro sent hsent
    rcases stopNow_sent hsent with rfl | hvalidate
    · constructor
      · rintro own found heq
        cases heq
        exact hsession
      · rintro start work built heq
        cases heq
    · exact Sent.right_of_validate hvalidate

/-- A controller whose work waits for another answer is sound. -/
theorem Base.waits (h : s.Base) {stage : Stage α} (hwork : work < s.issued)
    (hwaiting : s.Waiting work stage) :
    ({ s with running := some (work, stage) } : Controller α).Sound := by
  refine ⟨⟨h.live, h.numbers, h.bound, h.timer, h.queued⟩, nofun, ?_⟩
  rintro work' stage' hbusy
  cases hbusy
  exact ⟨hwork, hwaiting⟩

/-- What follows an answer keeps the controller sound. -/
theorem Sound.continue' (h : s.Sound) {stage : Stage α} {result : Except ServiceError Started}
    (hbusy : s.running = some (work, stage)) (hclean : s.Clean (.answered env result)) :
    (s.continue' work env result stage).1.Sound ∧
      ∀ sent ∈ (s.continue' work env result stage).2, Sent.Right s sent := by
  obtain ⟨hwork, hwaiting⟩ := h.busy work stage hbusy
  have hquiet : s.off ≠ none → s.wanted = true → ¬ Stage.Reschedules env result stage :=
    fun hne hwanted hreschedules => hclean.2 hne hwanted ⟨work, stage, hbusy, hreschedules⟩
  unfold Controller.continue'
  cases stage with
  | stopping next after =>
    obtain ⟨-, hnext, hlive, -, hbefore⟩ := hwaiting
    have hfollows : (s.become next).Follows work env after := by
      refine ⟨hwork, fun heq m hm => ?_, fun hne hwanted => ?_⟩
      · by_contra hle
        exact hbefore m hm (not_lt.1 hle) heq
      · have hnot := hquiet hne hwanted
        cases after with
        | finish => exact ⟨fun heq => (by cases heq), fun heq => (by cases heq)⟩
        | startNow => exact ⟨fun _ => hnot, fun heq => (by cases heq)⟩
        | scheduleReconnect => exact absurd trivial hnot
    exact ⟨(h.base.become hlive).afterStop hfollows hnext,
      fun sent hsent => Sent.right_of_validate (afterStop_sent hsent)⟩
  | validating start built =>
    cases result with
    | error error =>
      refine ⟨h.base.fail fun hne hwanted => ?_, fun sent hsent => by cases hsent⟩
      by_contra htransient
      exact hquiet hne hwanted ⟨error, rfl, by simpa using htransient⟩
    | ok started =>
      refine ⟨h.base.waits hwork hwaiting, fun sent hsent => ?_⟩
      rw [mem_singleton.1 hsent]
      constructor
      · rintro own found heq
        cases heq
      · rintro start work built heq
        cases heq
        exact hwaiting.2
  | starting start built =>
    have habandon : ∀ error : ServiceError,
        ({ s with running := some (work, .abandoning error) } : Controller α).Sound ∧
          ∀ sent ∈ [(Sent.stopSession .abandoned (some start) : Sent α)], Sent.Right s sent := by
      intro error
      refine ⟨h.base.waits hwork hwaiting, fun sent hsent => ?_⟩
      rw [mem_singleton.1 hsent]
      constructor
      · rintro own found heq
        cases heq
      · rintro start work built heq
        cases heq
    cases result with
    | error error => exact habandon error
    | ok started =>
      dsimp only
      split
      · exact habandon _
      next hdns =>
        -- no verdict waits for the session that takes this one's place
        have hnone : ∀ own, ¬ s.Waits own :=
          hclean.1 ⟨work, start, built, started, hbusy, rfl, by simpa using hdns⟩
        refine ⟨?_, fun sent hsent => by cases hsent⟩
        apply Base.finish
        · exact ⟨fun _ => rfl, h.base.numbers, h.base.bound, h.base.timer, h.base.queued⟩
        · exact fun own hwaits => absurd hwaits (hnone own)
  | abandoning error =>
    dsimp only
    split
    · exact ⟨(h.base.become rfl).finish (Own.of_none rfl), fun sent hsent => by cases hsent⟩
    next hpause =>
      refine ⟨h.base.fail fun hne hwanted => ?_, fun sent hsent => by cases hsent⟩
      exact absurd (not_isSome_iff_eq_none.1 hpause) (hquiet hne hwanted)

/-- Only the queue, the running work, the session's start, the timer and the history of the off
switch are of account. -/
theorem Sound.same {s' : Controller α} (h : s.Sound) (hqueue : s'.queue = s.queue)
    (hissued : s'.issued = s.issued) (hoff : s'.off = s.off)
    (htimer : s'.reconnectTimer = s.reconnectTimer) (hrunning : s'.running = s.running)
    (hstart : s'.session.start = s.session.start)
    (hlive : s'.session.status.live = true → s.session.status.live = true) : s'.Sound := by
  have hown : ∀ session : Session, s.Own session → s'.Own session := by
    rintro session hown start ⟨work, hmem, hkind⟩
    rw [hqueue] at hmem
    exact hown start ⟨work, hmem, hkind⟩
  have hown' : s.Own s.session → s'.Own s'.session := by
    intro hsession start hwaits
    rw [hstart]
    exact hown s.session hsession start hwaits
  refine ⟨⟨?_, ?_, ?_, ?_, ?_⟩, ?_, ?_⟩
  · intro hlive'
    rw [hstart]
    exact h.base.live (hlive hlive')
  · rw [hqueue, hissued]
    exact h.base.numbers
  · rw [hoff, hissued]
    exact h.base.bound
  · rw [hoff, htimer]
    exact h.base.timer
  · rw [hoff, hqueue]
    exact h.base.queued
  · rw [hrunning]
    exact fun hidle => hown' (h.idle hidle)
  · intro work stage hbusy
    rw [hrunning] at hbusy
    obtain ⟨hwork, hwaiting⟩ := h.busy work stage hbusy
    refine ⟨hissued ▸ hwork, ?_⟩
    have hstarting : (s.session.status.live = false ∧ ∀ m, s.off = some m → work < m) →
        s'.session.status.live = false ∧ ∀ m, s'.off = some m → work < m := by
      rintro ⟨hdead, hbefore⟩
      refine ⟨?_, hoff ▸ hbefore⟩
      by_contra hlive'
      have hlive' := hlive (by simpa using hlive')
      rw [hdead] at hlive'
      cases hlive'
    cases stage with
    | stopping next after =>
      obtain ⟨hsession, hnext, hdead, hsame, hbefore⟩ := hwaiting
      refine ⟨hown' hsession, hown next hnext, hdead, ?_, ?_⟩
      · rw [hstart]
        exact hsame
      · rw [hoff]
        exact hbefore
    | validating | starting | abandoning => exact hstarting hwaiting

theorem waits_exclusive {kind : WorkKind} {start : Nat} (h : (s.exclusive kind).Waits start) :
    s.Waits start ∨ ∃ verdict, kind = .giveUp start verdict := by
  obtain ⟨work, hmem, verdict, hkind⟩ := h
  rcases mem_snoc.1 hmem with hold | rfl
  · exact .inl ⟨work, hold, verdict, hkind⟩
  · exact .inr ⟨verdict, hkind⟩

/-- A work is queued: one that starts nothing if the VPN is off, and a verdict only about the
session that is there. -/
theorem Sound.exclusive (h : s.Sound) {kind : WorkKind} (hoff : s.off ≠ none → WorkKind.Stops kind)
    (hgiven : ∀ start verdict, kind = .giveUp start verdict →
      s.session.status.live = true ∧ s.session.start = some start) :
    (s.exclusive kind).Sound := by
  have hown : ∀ session : Session, s.Own session →
      (∀ start verdict, kind = .giveUp start verdict →
        session.start = none ∨ session.start = some start) →
      (s.exclusive kind).Own session := by
    intro session hown hnew start hwaits
    rcases waits_exclusive hwaits with hold | ⟨verdict, hkind⟩
    · exact hown start hold
    · exact hnew start verdict hkind
  have hsession : s.Own s.session → (s.exclusive kind).Own s.session := fun hs =>
    hown s.session hs fun start verdict hkind => .inr (hgiven start verdict hkind).2
  refine ⟨⟨h.base.live, ?_, ?_, h.base.timer, ?_⟩, fun hidle => hsession (h.idle hidle), ?_⟩
  · intro work hmem
    rcases mem_snoc.1 hmem with hold | rfl
    · exact lt_trans (h.base.numbers work hold) (Nat.lt_succ_self _)
    · exact Nat.lt_succ_self _
  · exact fun m hm => le_trans (h.base.bound m hm) (Nat.le_succ _)
  · intro m hm work hmem hle
    rcases mem_snoc.1 hmem with hold | rfl
    · exact h.base.queued m hm work hold hle
    · have hm' : s.off = some m := hm
      exact hoff (by rw [hm']; exact some_ne_none m)
  · intro work stage hbusy
    obtain ⟨hwork, hwaiting⟩ := h.busy work stage hbusy
    refine ⟨lt_trans hwork (Nat.lt_succ_self _), ?_⟩
    cases stage with
    | stopping next after =>
      obtain ⟨hown', hnext, hdead, hsame, hbefore⟩ := hwaiting
      refine ⟨hsession hown', hown next hnext ?_, hdead, hsame, hbefore⟩
      intro start verdict hkind
      have hstart := (hgiven start verdict hkind).2
      rcases hsame with hnone | hnone | heq
      · exact .inl hnone
      · rw [hstart] at hnone
        cases hnone
      · exact .inr (heq.trans hstart)
    | validating | starting | abandoning => exact hwaiting

theorem Sound.ask (h : s.Sound) : ({ s with off := none } : Controller α).Sound := by
  refine ⟨⟨h.base.live, h.base.numbers, ?_, ?_, ?_⟩, h.idle, ?_⟩
  · intro m hm
    cases hm
  · intro m hm
    cases hm
  · intro m hm
    cases hm
  · intro work stage hbusy
    obtain ⟨hwork, hwaiting⟩ := h.busy work stage hbusy
    refine ⟨hwork, ?_⟩
    cases stage with
    | stopping next after =>
      obtain ⟨hown, hnext, hdead, hsame, -⟩ := hwaiting
      refine ⟨hown, hnext, hdead, hsame, fun m hm => ?_⟩
      cases hm
    | validating | starting | abandoning => exact ⟨hwaiting.1, fun m hm => by cases hm⟩

theorem Sound.turnOff (h : s.Sound) :
    ({ s.cancelReconnect.exclusive .stop with
      off := some (s.off.getD (s.issued + 1)) } : Controller α).Sound := by
  have hcancel : s.cancelReconnect.Sound :=
    ⟨h.base.cancelReconnect, h.idle, fun work stage hbusy => h.busy work stage hbusy⟩
  have hstop : (s.cancelReconnect.exclusive .stop).Sound := by
    apply hcancel.exclusive
    · exact fun _ => trivial
    · intro start verdict hkind
      cases hkind
  cases hoff : s.off with
  | some m =>
    apply hstop.same
    all_goals first | rfl | exact id | exact hoff.symm
  | none =>
    -- everything queued so far is numbered below the bound that is set now
    have hbefore : ∀ m, some (s.issued + 1) = some m → ∀ number, number < s.issued + 1 →
        number < m := by
      intro m hm number hlt
      rw [← some.inj hm]
      exact hlt
    refine ⟨⟨hstop.base.live, hstop.base.numbers, ?_, fun _ _ => rfl, ?_⟩, hstop.idle, ?_⟩
    · intro m hm
      rw [← some.inj hm]
      exact le_rfl
    · intro m hm work hmem hle
      exact absurd hle (not_le.2 (hbefore m hm _ (hstop.base.numbers work hmem)))
    intro work stage hbusy
    obtain ⟨hwork, hwaiting⟩ := hstop.busy work stage hbusy
    refine ⟨hwork, ?_⟩
    cases stage with
    | stopping next after =>
      obtain ⟨hown, hnext, hdead, hsame, -⟩ := hwaiting
      refine ⟨hown, hnext, hdead, hsame, fun m hm hle => ?_⟩
      exact absurd hle (not_le.2 (hbefore m hm work hwork))
    | validating | starting | abandoning => exact ⟨hwaiting.1, fun m hm => hbefore m hm work hwork⟩

theorem Sent.right_of_status : Sent.Right s (Sent.sessionStatus : Sent α) := by
  constructor
  · rintro own start heq
    cases heq
  · rintro start work built heq
    cases heq

theorem poll_sent (h : sent ∈ s.poll.2) : sent = .sessionStatus := by
  unfold Controller.poll at h
  split at h
  · cases h
  · exact mem_singleton.1 h

theorem Sound.poll (h : s.Sound) : s.poll.1.Sound := by
  unfold Controller.poll
  split
  · exact h
  · exact h.same rfl rfl rfl rfl rfl rfl id

theorem Base.start_eq (h : s.Base) (hlive : s.session.status.live = true) :
    s.session.start = some (s.session.start.getD 0) := by
  obtain ⟨start, hstart⟩ := isSome_iff_exists.1 (h.live hlive)
  rw [hstart]
  rfl

theorem Sound.trackHealth (h : s.Sound) (hlive : s.session.status.live = true) (runtime : Runtime)
    (now : Nat) : (s.trackHealth runtime now).Sound := by
  unfold Controller.trackHealth
  split
  · exact h.same rfl rfl rfl rfl rfl rfl fun _ => hlive
  dsimp only
  have hdegraded : ({ s with session := { s.session with status := .degraded } } :
      Controller α).Sound := h.same rfl rfl rfl rfl rfl rfl fun _ => hlive
  split
  · exact hdegraded.same rfl rfl rfl rfl rfl rfl id
  split
  · have hreset : ({ s with
        session := { s.session with status := .degraded }, degradedSince := none } :
        Controller α).Sound := hdegraded.same rfl rfl rfl rfl rfl rfl id
    apply hreset.exclusive
    · exact fun _ => trivial
    · intro start verdict hkind
      cases hkind
      exact ⟨rfl, h.base.start_eq hlive⟩
  · exact hdegraded.same rfl rfl rfl rfl rfl rfl id

theorem Sound.pollFailed (h : s.Sound) (hlive : s.session.status.live = true)
    (error : ServiceError) (now : Nat) : (s.pollFailed error now).Sound := by
  unfold Controller.pollFailed
  split
  · -- the session is paused outside the queue: it is of no start any more
    refine ⟨?_, fun _ => Own.of_none rfl, ?_⟩
    · have hpolls : s.stopPolling.Base :=
        ⟨h.base.live, h.base.numbers, h.base.bound, h.base.timer, h.base.queued⟩
      exact hpolls.become rfl
    intro work stage hbusy
    obtain ⟨hwork, hwaiting⟩ := h.busy work stage hbusy
    refine ⟨hwork, ?_⟩
    cases stage with
    | stopping next after =>
      obtain ⟨-, hnext, hdead, -, hbefore⟩ := hwaiting
      exact ⟨Own.of_none rfl, hnext, hdead, .inr (.inl rfl), hbefore⟩
    | validating | starting | abandoning => exact ⟨rfl, hwaiting.2⟩
  · dsimp only
    have hlease : ({ s with lease := (s.lease.failed error now).2 } : Controller α).Sound :=
      h.same rfl rfl rfl rfl rfl rfl id
    split
    · apply hlease.exclusive
      · exact fun _ => trivial
      · intro start verdict hkind
        cases hkind
        exact ⟨hlive, h.base.start_eq hlive⟩
    · exact hlease

theorem Sound.pollAnswered (h : s.Sound) (now : Nat) (result : Except ServiceError Runtime) :
    (s.pollAnswered now result).Sound := by
  unfold Controller.pollAnswered
  cases hpolled : s.polled with
  | none => exact h
  | some object =>
    have hfree : ({ s with polled := none } : Controller α).Sound :=
      h.same rfl rfl rfl rfl rfl rfl id
    dsimp only
    split
    next hcurrent =>
      cases result with
      | ok runtime =>
        have happly : (({ s with polled := none, lease := .reset now } :
            Controller α).applyRuntime runtime.reachable).Sound :=
          h.same rfl rfl rfl rfl rfl rfl id
        exact happly.trackHealth hcurrent.2 runtime now
      | error error => exact hfree.pollFailed hcurrent.2 error now
    · exact hfree

/-- One event. -/
theorem sound_step (h : s.Sound) {e : VpnEvent α} (hclean : s.Clean e) :
    (s.step e).1.Sound ∧ ∀ sent ∈ (s.step e).2, Sent.Right s sent := by
  have hnothing : ∀ sent ∈ ([] : List (Sent α)), Sent.Right s sent := fun sent hsent => by
    cases hsent
  cases e with
  | connect =>
    refine ⟨?_, hnothing⟩
    have hask : ({ s with wanted := true, reconnectAttempt := 0, off := none } :
        Controller α).Sound := h.ask.same rfl rfl rfl rfl rfl rfl id
    apply hask.exclusive
    · exact fun hoff => absurd rfl hoff
    · intro start verdict hkind
      cases hkind
  | disconnect =>
    refine ⟨?_, hnothing⟩
    have hwish : ({ s with wanted := false } : Controller α).Sound :=
      h.same rfl rfl rfl rfl rfl rfl id
    exact hwish.turnOff
  | restart =>
    refine ⟨?_, hnothing⟩
    show (if s.wanted then ({ s with off := none } : Controller α).exclusive .restart
      else { s with off := none }).Sound
    split
    · apply h.ask.exclusive
      · exact fun hoff => absurd rfl hoff
      · intro start verdict hkind
        cases hkind
    · exact h.ask
  | reconsider =>
    refine ⟨?_, hnothing⟩
    apply h.ask.exclusive
    · exact fun hoff => absurd rfl hoff
    · intro start verdict hkind
      cases hkind
  | onResume =>
    unfold Controller.step
    dsimp only
    split
    · exact ⟨h.ask, hnothing⟩
    split
    · refine ⟨h.ask.poll, fun sent hsent => ?_⟩
      rw [poll_sent hsent]
      exact Sent.right_of_status
    refine ⟨?_, hnothing⟩
    have hask : ({ s with off := none, reconnectAttempt := 0 } : Controller α).Sound :=
      h.ask.same rfl rfl rfl rfl rfl rfl id
    have hcancel : (({ s with off := none, reconnectAttempt := 0 } :
        Controller α).cancelReconnect).Sound :=
      ⟨hask.base.cancelReconnect, hask.idle, fun work stage hbusy => hask.busy work stage hbusy⟩
    apply hcancel.exclusive
    · exact fun hoff => absurd rfl hoff
    · intro start verdict hkind
      cases hkind
  | shutdown => exact ⟨h.turnOff, hnothing⟩
  | turn env =>
    cases hrunning : s.running with
    | some busy =>
      simp only [Controller.step, hrunning]
      exact ⟨h, hnothing⟩
    | none =>
      cases hqueue : s.queue with
      | nil =>
        simp only [Controller.step, hrunning, hqueue]
        exact ⟨h, hnothing⟩
      | cons work queue =>
        simp only [Controller.step, hrunning, hqueue]
        have hsub : ∀ other ∈ queue, other ∈ s.queue := fun other hother => by
          rw [hqueue]
          exact mem_cons_of_mem _ hother
        have hfirst : work ∈ s.queue := by
          rw [hqueue]
          exact mem_cons_self
        have hbase : ({ s with queue := queue } : Controller α).Base :=
          ⟨h.base.live, fun other hother => h.base.numbers other (hsub other hother),
            h.base.bound, h.base.timer,
            fun m hm other hother => h.base.queued m hm other (hsub other hother)⟩
        rw [← hrunning]
        apply hbase.begin'
        · rintro start ⟨other, hother, hkind⟩
          exact h.idle hrunning start ⟨other, hsub other hother, hkind⟩
        · intro start verdict hkind
          exact h.idle hrunning start ⟨work, hfirst, verdict, hkind⟩
        · exact h.base.numbers work hfirst
        · exact fun m hm hle => h.base.queued m hm work hfirst hle
        · intro hoff hwanted hreschedules
          exact hclean.2 hoff hwanted ⟨hrunning, work, queue, hqueue, hreschedules⟩
  | answered env result =>
    cases hrunning : s.running with
    | none =>
      simp only [Controller.step, hrunning]
      exact ⟨h, hnothing⟩
    | some busy =>
      simp only [Controller.step, hrunning]
      exact h.continue' hrunning hclean
  | pollTimer =>
    show (if s.polls then s.poll else (s, [])).1.Sound ∧
      ∀ sent ∈ (if s.polls then s.poll else (s, [])).2, Sent.Right s sent
    split
    · refine ⟨h.poll, fun sent hsent => ?_⟩
      rw [poll_sent hsent]
      exact Sent.right_of_status
    · exact ⟨h, hnothing⟩
  | pollAnswered now result => exact ⟨h.pollAnswered now result, hnothing⟩
  | reconnectTimer =>
    show (if s.reconnectTimer then _ else (s, []) : Controller α × List (Sent α)).1.Sound ∧
      ∀ sent ∈ (if s.reconnectTimer then _ else (s, []) : Controller α × List (Sent α)).2,
        Sent.Right s sent
    split
    next htimer =>
      refine ⟨?_, hnothing⟩
      have hoff : s.off = none := by
        by_contra hoff
        obtain ⟨m, hm⟩ := ne_none_iff_exists'.1 hoff
        rw [h.base.timer m hm] at htimer
        cases htimer
      have hfired : ({ s with reconnectTimer := false } : Controller α).Sound :=
        ⟨⟨h.base.live, h.base.numbers, h.base.bound, fun _ _ => rfl, h.base.queued⟩, h.idle,
          fun work stage hbusy => h.busy work stage hbusy⟩
      apply hfired.exclusive
      · exact fun hne => absurd hoff hne
      · intro start verdict hkind
        cases hkind
    · exact ⟨h, hnothing⟩

end Parts

/-! ## Whole runs -/

theorem sound_new (α : Type) (now : Nat) : (new α now).Sound := by
  refine ⟨⟨?_, ?_, ?_, ?_, ?_⟩, fun _ => Own.of_none rfl, ?_⟩
  · intro hlive
    cases hlive
  · intro work hmem
    cases hmem
  · intro m hm
    cases hm
  · intro m hm
    cases hm
  · intro m hm
    cases hm
  · intro work stage hbusy
    cases hbusy

theorem sound_run {now : Nat} {es : List (VpnEvent α)}
    (hclean : Meets step (fun c e => c.state.Clean e) ⟨new α now, []⟩ es) :
    (exec step (new α now) es).state.Sound :=
  execFrom_invariant_of_meets (I := fun c => c.state.Sound)
    (fun _ _ hclean hsound => (sound_step hsound hclean).1) es _ hclean (sound_new α now)

/-- In a run of clean steps a stop on behalf of a verdict finds the session the verdict is about or
none, and while the VPN is off no work but those that had been queued sends a start. -/
theorem verdicts_stop_their_own (now : Nat) (es : List (VpnEvent α))
    (hclean : Meets step (fun c e => c.state.Clean e) ⟨new α now, []⟩ es) :
    ∀ before e after, es = before ++ e :: after →
      ∀ sent ∈ ((exec step (new α now) before).state.step e).2,
        Sent.Right (exec step (new α now) before).state sent := by
  rintro before e after rfl
  rw [meets_append] at hclean
  exact (sound_step (sound_run hclean.1) hclean.2.1).2

/-! ### Concrete runs -/

/-- A start succeeds in these surroundings. -/
def calm (now : Nat) : Surroundings Unit where
  now := now
  pause := none
  ready := true
  built := .ok ⟨⟨[], [], .wireguard⟩, [⟨[], [], .wireguard⟩], .all, false, ()⟩

/-- What a start is answered with. -/
def started : Started := ⟨false, ⟨true, [true]⟩⟩

/-- The VPN connects, and a status request goes out for it. -/
def connected : List (VpnEvent Unit) :=
  [.connect, .turn (calm 0), .answered (calm 0) (.ok started), .answered (calm 0) (.ok started),
    .pollTimer, .pollAnswered 0 (.ok ⟨false, [false]⟩), .pollTimer]

/-- The event begins a work. -/
def VpnEvent.isTurn : VpnEvent α → Bool
  | .turn _ => true
  | _ => false

/-- Nothing has turned the VPN off, and nothing waits unless a work is about to begin. -/
def Quiet (s : Controller Unit) (e : VpnEvent Unit) : Prop :=
  s.off = none ∧ (s.queue = [] ∨ VpnEvent.isTurn e = true)

instance (s : Controller Unit) (e : VpnEvent Unit) : Decidable (s.Quiet e) :=
  inferInstanceAs (Decidable (_ ∧ _))

theorem Quiet.clean {s : Controller Unit} {e : VpnEvent Unit} (h : s.Quiet e) : s.Clean e := by
  refine ⟨fun hconnects => ?_, fun hne => absurd h.1 hne⟩
  rcases h.2 with hempty | hturn
  · rintro start ⟨work, hmem, -⟩
    rw [hempty] at hmem
    cases hmem
  · cases e with
    | turn env => exact hconnects.elim
    | _ => cases hturn

/-- A verdict that is acted on before anything else is queued. -/
theorem verdicts_stop_their_own_at_once :
    (Sent.stopSession (.verdict 0) (some 0) : Sent Unit) ∈ ((exec step (new Unit 0)
        (connected ++ [.pollAnswered 30000 (.ok ⟨false, [false]⟩)])).state.step
          (.turn (calm 30000))).2 ∧
      Sent.Right (exec step (new Unit 0)
        (connected ++ [.pollAnswered 30000 (.ok ⟨false, [false]⟩)])).state
          (.stopSession (.verdict 0) (some 0)) := by
  have hquiet : Meets step (fun c e => c.state.Quiet e) ⟨new Unit 0, []⟩
      (connected ++ [.pollAnswered 30000 (.ok ⟨false, [false]⟩)] ++ [.turn (calm 30000)]) := by
    decide +kernel
  have hsent : (Sent.stopSession (.verdict 0) (some 0) : Sent Unit) ∈ ((exec step (new Unit 0)
      (connected ++ [.pollAnswered 30000 (.ok ⟨false, [false]⟩)])).state.step
        (.turn (calm 30000))).2 := by
    decide +kernel
  exact ⟨hsent, verdicts_stop_their_own 0 _ (hquiet.imp fun _ _ h => h.clean) _ _ [] rfl _ hsent⟩

/-- The verdict about the first session waits behind a restart and stops the second one; and a
verdict that waits when the app shuts down sets the timer, which starts the VPN again. -/
theorem verdict_stops_the_next_session :
    (Sent.stopSession (.verdict 0) (some 1) : Sent Unit) ∈ ((exec step (new Unit 0) (connected ++
      [.restart, .turn (calm 0), .pollAnswered 30000 (.ok ⟨false, [false]⟩),
        .answered (calm 0) (.ok started), .answered (calm 0) (.ok started),
        .answered (calm 0) (.ok started)])).state.step (.turn (calm 0))).2 ∧
    let s := (exec step (new Unit 0) (connected ++
      [.pollAnswered 30000 (.ok ⟨false, [false]⟩), .shutdown, .turn (calm 0),
        .answered (calm 0) (.ok started), .turn (calm 0), .answered (calm 0) (.ok started),
        .reconnectTimer, .turn (calm 0)])).state
    s.off = some 3 ∧ (s.step (.answered (calm 0) (.ok started))).2 =
      [Sent.startSession 1 3 ⟨⟨[], [], .wireguard⟩, [⟨[], [], .wireguard⟩], .all, false, ()⟩] := by
  refine ⟨?_, ?_, ?_⟩ <;> decide +kernel

end Controller

end GamePath.Electron.Vpn
