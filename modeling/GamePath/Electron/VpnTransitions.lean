import GamePath.Electron.VpnSession

/-!
# What a step does to the session

Seen from the settings, the controller carries a session that is live, or the request of one that is
about to start, and either may be about to be stopped. A step leaves nothing carried, keeps what is
carried, builds a request, or connects the session of one (`moved_step`); a stop that was queued is
followed to where nothing is carried (`followed_step`).
-/

namespace GamePath.Electron.Vpn

open List

/-- The request a start works with. -/
def Stage.held {α : Type} : Stage α → Option (Built α)
  | .validating _ built | .starting _ built => some built
  | .stopping _ _ | .abandoning _ => none

/-- A work begins or goes on. -/
def VpnEvent.proceeds {α : Type} : VpnEvent α → Bool
  | .turn _ | .answered _ _ => true
  | _ => false

/-- The surroundings let a start build its request. -/
def Surroundings.Begins {α : Type} (env : Surroundings α) (built : Built α) : Prop :=
  env.pause = none ∧ env.ready = true ∧ env.built = .ok built

/-- A work of the kind that has its turn goes on to build a request. -/
def WorkKind.Builds {α : Type} (session : Session) (env : Surroundings α) : WorkKind → Prop
  | .start => True
  | .restart => ¬ session.status.active = true
  | .reconsider => env.pause.isNone = true ∧ session.status = .paused
  | .stop | .giveUp _ _ => False

namespace Controller

variable {α : Type}

/-- A start comes to where it builds its request. -/
def Builds (s : Controller α) : VpnEvent α → Prop
  | .turn env =>
    s.running = none ∧ ∃ work queue, s.queue = work :: queue ∧ work.kind.Builds s.session env
  | .answered _ _ => ∃ work next, s.running = some (work, .stopping next .startNow)
  | _ => False

/-- The request of the running start. -/
def held (s : Controller α) : Option (Built α) := s.running.bind fun running => running.2.held

/-- The session is live. -/
def Live (s : Controller α) : Prop := s.session.status.live = true

/-- The session, if any, is about to be stopped. -/
def Dying (s : Controller α) : Prop :=
  (∃ work ∈ s.queue, work.kind = .stop ∨ work.kind = .restart) ∨
    ∃ work next after, s.running = some (work, .stopping next after)

/-- Nothing is carried. -/
structure Off (s : Controller α) : Prop where
  live : ¬ s.Live
  held : s.held = none

/-- What a stage says of the session. -/
structure Steady (s : Controller α) : Prop where
  stopping : ∀ work next after, s.running = some (work, .stopping next after) →
    next.status.live = false
  starting : ∀ work stage, s.running = some (work, stage) →
    (∀ next after, stage ≠ .stopping next after) → ¬ s.Live
  nodes : ∀ built, s.held = some built →
    s.session.nodes = built.nodes ∧ s.session.status.active = true

/-- A work that has a number below is before one with a number above, and a number is given once. -/
structure Ordered (s : Controller α) : Prop where
  issued : ∀ work ∈ s.queue, work.number < s.issued
  queue : s.queue.Pairwise fun work later => work.number < later.number
  running : ∀ number stage, s.running = some (number, stage) →
    number < s.issued ∧ ∀ work ∈ s.queue, number < work.number

/-- A stop that was queued is to come, is at work, or has left nothing. -/
inductive Followed (s : Controller α) (number : Nat) : Prop where
  | queued (hqueue : (⟨number, .stop⟩ : Work) ∈ s.queue)
  | stopping (next : Session) (hrunning : s.running = some (number, .stopping next .finish))
  | stopped (hrunning : s.running = none) (hlive : ¬ s.Live)
      (hqueue : ∀ work ∈ s.queue, number < work.number)

/-- What is carried is kept. -/
structure Keeps (s s' : Controller α) : Prop where
  live : s'.Live → s.Live ∧ s'.session.nodes = s.session.nodes
  held : ∀ built, s'.held = some built → s.held = some built
  dying : ¬ s'.Off → s.Dying → s'.Dying
  wanted : s'.wanted = false → s.wanted = false ∨ s'.Dying

/-- What a step does to what is carried. -/
inductive Moved (s : Controller α) (e : VpnEvent α) (s' : Controller α) : Prop where
  | off (hoff : s'.Off)
  | keeps (hkeeps : s.Keeps s')
  | built (env : Surroundings α) (built : Built α) (hbegins : env.Begins built)
      (hevent : e = .turn env ∨ ∃ result, e = .answered env result) (hbuilds : s.Builds e)
      (hheld : s'.held = some built) (hlive : ¬ s'.Live) (hwanted : s'.wanted = true)
  | connected (env : Surroundings α) (started : Started) (work start : Nat) (built : Built α)
      (hevent : e = .answered env (.ok started))
      (hrunning : s.running = some (work, .starting start built)) (hheld : s'.held = none)
      (hnodes : s'.session.nodes = built.nodes) (hdying : s.Dying → s'.Dying)
      (hwanted : s'.wanted = s.wanted)

section Parts

variable {s s' : Controller α}

theorem Steady.of_idle (h : s.running = none) : s.Steady := by
  refine ⟨?_, ?_, ?_⟩
  · intro work next after hrunning
    rw [h] at hrunning
    cases hrunning
  · intro work stage hrunning
    rw [h] at hrunning
    cases hrunning
  · intro built hheld
    rw [held, h] at hheld
    cases hheld

variable {built : Built α}

theorem Steady.not_live (h : s.Steady) (hheld : s.held = some built) : ¬ s.Live := by
  obtain ⟨⟨work, stage⟩, hrunning, hstage⟩ := Option.bind_eq_some_iff.1 hheld
  apply h.starting work stage hrunning
  rintro next after rfl
  cases hstage

theorem held_of_idle (h : s.running = none) : s.held = none := by
  rw [held, h]
  rfl

/-! ## The parts of a work -/

theorem scheduleReconnect_live (hlive : ¬ s.Live) : ¬ s.scheduleReconnect.Live := by
  rw [scheduleReconnect]
  split
  · exact hlive
  · exact Bool.false_ne_true

theorem fail_live (s : Controller α) (retryable : Bool) : ¬ (s.fail retryable).Live := by
  cases retryable with
  | false => exact Bool.false_ne_true
  | true =>
    apply scheduleReconnect_live
    exact Bool.false_ne_true

/-- What a start, and what follows a stop, comes to. -/
inductive Settles (work : Nat) (env : Surroundings α) (s' : Controller α) : Prop where
  | idle (hrunning : s'.running = none) (hlive : ¬ s'.Live)
  | built (start : Nat) (built : Built α) (hbegins : env.Begins built)
      (hrunning : s'.running = some (work, .validating start built))
      (hnodes : s'.session.nodes = built.nodes) (hlive : ¬ s'.Live)
      (hactive : s'.session.status.active = true) (hwanted : s'.wanted = true)

/-- What a work comes to before it waits. -/
inductive Outcome (s : Controller α) (work : Nat) (env : Surroundings α) (s' : Controller α) :
    Prop where
  | settles (h : Settles work env s')
  | unchanged (hrunning : s'.running = none) (hsession : s'.session = s.session)
      (hwanted : s'.wanted = s.wanted)
  | stopping (next : Session) (after : After) (hnext : next.status.live = false)
      (hrunning : s'.running = some (work, .stopping next after)) (hsession : s'.session =
        s.session)
      (hwanted : s'.wanted = s.wanted)

theorem startNow_outcome (s : Controller α) (work : Nat) (env : Surroundings α) :
    Settles work env (s.startNow work env).1 ∨
      (s.startNow work env).1.running = none ∧ (s.startNow work env).1.session = s.session ∧
        (s.startNow work env).1.wanted = s.wanted := by
  unfold startNow
  dsimp only
  split
  · exact .inr ⟨rfl, rfl, rfl⟩
  next hwanted =>
    split
    · exact .inl (.idle rfl Bool.false_ne_true)
    next hpause =>
      split
      · exact .inl (.idle rfl (fail_live _ _))
      next hready =>
        cases hbuilt : env.built with
        | error isConfig => exact .inl (.idle rfl (fail_live _ _))
        | ok built =>
          have hwanted' : s.wanted = true := by simpa [cancelReconnect] using hwanted
          have hbegins : env.Begins built :=
            ⟨by simpa using hpause, by simpa using hready, hbuilt⟩
          refine .inl (.built _ built hbegins rfl rfl ?_ ?_ hwanted')
          · show ¬ Status.live (if _ then _ else _) = true
            split <;> exact Bool.false_ne_true
          · show Status.active (if _ then _ else _) = true
            split <;> rfl

theorem startNow_settles {s : Controller α} (work : Nat) (env : Surroundings α) (hlive : ¬ s.Live) :
    Settles work env (s.startNow work env).1 := by
  rcases s.startNow_outcome work env with hsettles | ⟨hrunning, hsession, -⟩
  · exact hsettles
  · refine .idle hrunning ?_
    rw [Live, hsession]
    exact hlive

theorem afterStop_settles {s : Controller α} (work : Nat) (env : Surroundings α) (after : After)
    (hlive : ¬ s.Live) : Settles work env (s.afterStop work env after).1 := by
  cases after with
  | finish => exact .idle rfl hlive
  | startNow => exact startNow_settles work env hlive
  | scheduleReconnect => exact .idle rfl (scheduleReconnect_live hlive)

variable {next : Session}

theorem become_live (hnext : next.status.live = false) : ¬ (s.become next).Live := by
  show ¬ next.status.live = true
  rw [hnext]
  exact Bool.false_ne_true

theorem stopNow_outcome (s : Controller α) (work : Nat) (env : Surroundings α) (cause : Cause)
    (after : After) (hnext : next.status.live = false) :
    Settles work env (s.stopNow work env cause next after).1 ∨
      (s.stopNow work env cause next after).1.running = some (work, .stopping next after) ∧
        (s.stopNow work env cause next after).1.session = s.session ∧
          (s.stopNow work env cause next after).1.wanted = s.wanted := by
  unfold stopNow
  dsimp only
  split
  · exact .inr ⟨rfl, rfl, rfl⟩
  · exact .inl (afterStop_settles work env after (become_live hnext))

theorem not_live_of_inactive (h : ¬ s.session.status.active = true) : ¬ s.Live := by
  intro hlive
  rw [Live] at hlive
  cases hstatus : s.session.status <;> rw [hstatus] at h hlive <;> first | exact h rfl | cases hlive

theorem givenUp_live (session : Session) (verdict : Verdict) :
    (givenUp session verdict).status.live = false := by
  cases verdict <;> rfl

theorem begin_outcome (s : Controller α) (work : Work) (env : Surroundings α) :
    s.Outcome work.number env (s.begin' work env).1 ∧
      (work.kind = .stop ∨ work.kind = .restart →
        Settles work.number env (s.begin' work env).1 ∨ (s.begin' work env).1.Dying) := by
  have hstop : ∀ (c : Controller α) (cause : Cause) (next : Session) (after : After),
      next.status.live = false → c.session = s.session → c.wanted = s.wanted →
        s.Outcome work.number env (c.stopNow work.number env cause next after).1 ∧
          (Settles work.number env (c.stopNow work.number env cause next after).1 ∨
            (c.stopNow work.number env cause next after).1.Dying) := by
    intro c cause next after hnext hsession hwanted
    rcases c.stopNow_outcome work.number env cause after hnext with
      hsettles | ⟨hrunning, hsession', hwanted'⟩
    · exact ⟨.settles hsettles, .inl hsettles⟩
    · exact ⟨.stopping next after hnext hrunning (hsession'.trans hsession)
        (hwanted'.trans hwanted), .inr (.inr ⟨_, _, _, hrunning⟩)⟩
  have hstart : s.Outcome work.number env (s.startNow work.number env).1 := by
    rcases s.startNow_outcome work.number env with hsettles | ⟨hrunning, hsession, hwanted⟩
    · exact .settles hsettles
    · exact .unchanged hrunning hsession hwanted
  rw [begin']
  cases hkind : work.kind with
  | start => exact ⟨hstart, by simp⟩
  | stop =>
    obtain ⟨houtcome, hleft⟩ := hstop s .call .idle .finish rfl rfl rfl
    exact ⟨houtcome, fun _ => hleft⟩
  | restart =>
    dsimp only
    split
    · obtain ⟨houtcome, hleft⟩ := hstop s .call .idle .startNow rfl rfl rfl
      exact ⟨houtcome, fun _ => hleft⟩
    next hinactive =>
      exact ⟨hstart, fun _ => .inl (startNow_settles _ _ (not_live_of_inactive hinactive))⟩
  | reconsider =>
    refine ⟨?_, by simp⟩
    dsimp only
    split
    · exact (hstop s.cancelReconnect .call .paused .finish rfl rfl rfl).1
    split
    · exact hstart
    · exact .unchanged rfl rfl rfl
  | giveUp start verdict =>
    exact ⟨(hstop s (.verdict start) _ .scheduleReconnect (givenUp_live _ verdict) rfl rfl).1,
      by simp⟩

/-! ## What a work leaves as it is -/

/-- The works are the same. -/
structure SameWorks (s s' : Controller α) : Prop where
  queue : s'.queue = s.queue
  issued : s'.issued = s.issued

theorem SameWorks.trans {s'' : Controller α} (h : s.SameWorks s') (h' : s'.SameWorks s'') :
    s.SameWorks s'' := ⟨h'.queue.trans h.queue, h'.issued.trans h.issued⟩

theorem scheduleReconnect_works (s : Controller α) : s.SameWorks s.scheduleReconnect := by
  rw [scheduleReconnect]
  split <;> exact ⟨rfl, rfl⟩

theorem fail_works (s : Controller α) (retryable : Bool) : s.SameWorks (s.fail retryable) := by
  cases retryable with
  | false => exact ⟨rfl, rfl⟩
  | true => exact ⟨(scheduleReconnect_works _).queue, (scheduleReconnect_works _).issued⟩

theorem startNow_works (s : Controller α) (work : Nat) (env : Surroundings α) :
    s.SameWorks (s.startNow work env).1 := by
  unfold startNow
  dsimp only
  split
  · exact ⟨rfl, rfl⟩
  split
  · exact ⟨rfl, rfl⟩
  split
  · have hworks := s.cancelReconnect.fail_works true
    exact ⟨hworks.queue, hworks.issued⟩
  · cases env.built with
    | error isConfig =>
      have hworks := s.cancelReconnect.fail_works !isConfig
      exact ⟨hworks.queue, hworks.issued⟩
    | ok built => exact ⟨rfl, rfl⟩

theorem afterStop_works (s : Controller α) (work : Nat) (env : Surroundings α) (after : After) :
    s.SameWorks (s.afterStop work env after).1 := by
  cases after with
  | finish => exact ⟨rfl, rfl⟩
  | startNow => exact s.startNow_works work env
  | scheduleReconnect => exact (scheduleReconnect_works s).trans ⟨rfl, rfl⟩

theorem stopNow_works (s : Controller α) (work : Nat) (env : Surroundings α) (cause : Cause)
    (next : Session) (after : After) : s.SameWorks (s.stopNow work env cause next after).1 := by
  unfold stopNow
  dsimp only
  split
  · exact ⟨rfl, rfl⟩
  · have hworks := (s.stopPolling.become next).afterStop_works work env after
    exact ⟨hworks.queue, hworks.issued⟩

theorem begin_works (s : Controller α) (work : Work) (env : Surroundings α) :
    s.SameWorks (s.begin' work env).1 := by
  rw [begin']
  cases work.kind with
  | start => exact s.startNow_works _ env
  | stop | giveUp start verdict => exact s.stopNow_works _ env _ _ _
  | restart =>
    dsimp only
    split
    · exact s.stopNow_works _ env _ _ _
    · exact s.startNow_works _ env
  | reconsider =>
    dsimp only
    split
    · have hworks := s.cancelReconnect.stopNow_works work.number env .call .paused .finish
      exact ⟨hworks.queue, hworks.issued⟩
    split
    · exact s.startNow_works _ env
    · exact ⟨rfl, rfl⟩

theorem continue_works (s : Controller α) (work : Nat) (env : Surroundings α)
    (result : Except ServiceError Started) (stage : Stage α) :
    s.SameWorks (s.continue' work env result stage).1 := by
  cases stage with
  | stopping next after =>
    have hworks := (s.become next).afterStop_works work env after
    exact ⟨hworks.queue, hworks.issued⟩
  | validating start built =>
    cases result with
    | error error => exact SameWorks.trans (s.fail_works _) ⟨rfl, rfl⟩
    | ok started => exact ⟨rfl, rfl⟩
  | starting start built =>
    cases result with
    | error error => exact ⟨rfl, rfl⟩
    | ok started =>
      dsimp only [continue']
      split <;> exact ⟨rfl, rfl⟩
  | abandoning error =>
    dsimp only [continue']
    split
    · exact ⟨rfl, rfl⟩
    · exact SameWorks.trans (s.fail_works _) ⟨rfl, rfl⟩

/-! ## Steps that leave the running work alone -/

/-- The running work is left alone, and so is a session that is not live. -/
structure Aside (s s' : Controller α) : Prop where
  running : s'.running = s.running
  works : s'.queue = s.queue ∧ s'.issued = s.issued ∨
    ∃ kind, s'.queue = s.queue ++ [⟨s.issued, kind⟩] ∧ s'.issued = s.issued + 1
  session : s'.session = s.session ∨
    s.Live ∧ (s'.Live → s'.session.nodes = s.session.nodes)
  wanted : s'.wanted = false → s.wanted = false ∨ s'.Dying

theorem Aside.refl (s : Controller α) : s.Aside s := ⟨rfl, .inl ⟨rfl, rfl⟩, .inl rfl, .inl⟩

section

variable (h : s.Aside s')
include h

theorem Aside.mem_queue {work : Work} (hmem : work ∈ s.queue) : work ∈ s'.queue := by
  rcases h.works with ⟨hqueue, -⟩ | ⟨kind, hqueue, -⟩
  · rw [hqueue]
    exact hmem
  · rw [hqueue]
    exact mem_append_left _ hmem

theorem Aside.live (hlive : s'.Live) :
    s.Live ∧ s'.session.nodes = s.session.nodes := by
  rcases h.session with hsession | ⟨hwas, hnodes⟩
  · rw [Live, hsession] at hlive
    exact ⟨hlive, by rw [hsession]⟩
  · exact ⟨hwas, hnodes hlive⟩

theorem Aside.held : s'.held = s.held := by
  rw [Controller.held, Controller.held, h.running]

theorem Aside.keeps : s.Keeps s' where
  live := h.live
  held := fun built hheld => h.held ▸ hheld
  dying := by
    rintro - (⟨work, hmem, hkind⟩ | ⟨work, next, after, hrunning⟩)
    · exact .inl ⟨work, h.mem_queue hmem, hkind⟩
    · exact .inr ⟨work, next, after, h.running.trans hrunning⟩
  wanted := h.wanted

theorem Aside.steady (hs : s.Steady) : s'.Steady where
  stopping := fun work next after hrunning => hs.stopping work next after (h.running ▸ hrunning)
  starting := fun work stage hrunning hstage hlive =>
    hs.starting work stage (h.running ▸ hrunning) hstage (h.live hlive).1
  nodes := by
    intro built hheld
    rw [h.held] at hheld
    obtain ⟨hnodes, hactive⟩ := hs.nodes built hheld
    rcases h.session with hsession | ⟨hlive, -⟩
    · rw [hsession]
      exact ⟨hnodes, hactive⟩
    · exact absurd hlive (hs.not_live hheld)

theorem Aside.ordered (ho : s.Ordered) : s'.Ordered := by
  rcases h.works with ⟨hqueue, hissued⟩ | ⟨kind, hqueue, hissued⟩
  · refine ⟨?_, ?_, ?_⟩
    · rw [hqueue, hissued]
      exact ho.issued
    · rw [hqueue]
      exact ho.queue
    · rw [h.running, hqueue, hissued]
      exact ho.running
  refine ⟨?_, ?_, ?_⟩
  · rw [hqueue, hissued]
    intro work hmem
    rcases mem_snoc.1 hmem with hold | rfl
    · exact (ho.issued work hold).trans (Nat.lt_succ_self _)
    · exact Nat.lt_succ_self _
  · rw [hqueue, pairwise_append]
    refine ⟨ho.queue, pairwise_singleton _ _, fun work hold later hlast => ?_⟩
    rw [mem_singleton.1 hlast]
    exact ho.issued work hold
  rw [h.running, hqueue, hissued]
  intro number stage hrunning
  obtain ⟨hlt, hlater⟩ := ho.running number stage hrunning
  refine ⟨hlt.trans (Nat.lt_succ_self _), fun work hmem => ?_⟩
  rcases mem_snoc.1 hmem with hold | rfl
  · exact hlater work hold
  · exact hlt

theorem Aside.followed {number : Nat} (hnumber : number < s.issued) (hf : s.Followed number) :
    s'.Followed number := by
  cases hf with
  | queued hqueue => exact .queued (h.mem_queue hqueue)
  | stopping next hrunning => exact .stopping next (h.running.trans hrunning)
  | stopped hrunning hlive hqueue =>
    refine .stopped (h.running.trans hrunning) (fun hlive' => hlive (h.live hlive').1) ?_
    rcases h.works with ⟨hqueue', -⟩ | ⟨kind, hqueue', -⟩
    · rw [hqueue']
      exact hqueue
    rw [hqueue']
    intro work hmem
    rcases mem_snoc.1 hmem with hold | rfl
    · exact hqueue work hold
    · exact hnumber

end

theorem poll_aside (s : Controller α) : s.Aside s.poll.1 := by
  unfold poll
  split
  · exact .refl s
  · exact ⟨rfl, .inl ⟨rfl, rfl⟩, .inl rfl, .inl⟩

theorem trackHealth_aside (hlive : s.Live) (runtime : Runtime) (now : Nat) :
    s.Aside (s.trackHealth runtime now) := by
  unfold trackHealth
  dsimp only
  split
  · exact ⟨rfl, .inl ⟨rfl, rfl⟩, .inr ⟨hlive, fun _ => rfl⟩, .inl⟩
  split
  · exact ⟨rfl, .inl ⟨rfl, rfl⟩, .inr ⟨hlive, fun _ => rfl⟩, .inl⟩
  split
  · exact ⟨rfl, .inr ⟨_, rfl, rfl⟩, .inr ⟨hlive, fun _ => rfl⟩, .inl⟩
  · exact ⟨rfl, .inl ⟨rfl, rfl⟩, .inr ⟨hlive, fun _ => rfl⟩, .inl⟩

theorem pollFailed_aside (hlive : s.Live) (error : ServiceError) (now : Nat) :
    s.Aside (s.pollFailed error now) := by
  unfold pollFailed
  split
  · exact ⟨rfl, .inl ⟨rfl, rfl⟩, .inr ⟨hlive, nofun⟩, .inl⟩
  · dsimp only
    split
    · exact ⟨rfl, .inr ⟨_, rfl, rfl⟩, .inl rfl, .inl⟩
    · exact ⟨rfl, .inl ⟨rfl, rfl⟩, .inl rfl, .inl⟩

theorem pollAnswered_aside (s : Controller α) (now : Nat) (result : Except ServiceError Runtime) :
    s.Aside (s.pollAnswered now result) := by
  unfold pollAnswered
  split
  · exact .refl s
  split
  next hcurrent =>
    cases result with
    | ok runtime =>
      have haside := trackHealth_aside (s := ({ s with
        polled := none, lease := .reset now } : Controller α).applyRuntime runtime.reachable)
        hcurrent.2 runtime now
      exact ⟨haside.running, haside.works, .inr ⟨hcurrent.2, fun hlive => (haside.live hlive).2⟩,
        haside.wanted⟩
    | error error =>
      have haside := pollFailed_aside (s := ({ s with polled := none } : Controller α))
        hcurrent.2 error now
      exact ⟨haside.running, haside.works, haside.session, haside.wanted⟩
  · exact ⟨rfl, .inl ⟨rfl, rfl⟩, .inl rfl, .inl⟩

variable {e : VpnEvent α}

theorem aside_step (s : Controller α) (he : e.proceeds = false) :
    s.Aside (s.step e).1 := by
  cases e with
  | connect => exact ⟨rfl, .inr ⟨_, rfl, rfl⟩, .inl rfl, nofun⟩
  | disconnect =>
    refine ⟨rfl, .inr ⟨_, rfl, rfl⟩, .inl rfl, fun _ => .inr (.inl ?_)⟩
    exact ⟨⟨s.issued, .stop⟩, mem_append_right _ (mem_singleton_self _), .inl rfl⟩
  | restart =>
    rw [step]
    split
    · exact ⟨rfl, .inr ⟨_, rfl, rfl⟩, .inl rfl, .inl⟩
    · exact ⟨rfl, .inl ⟨rfl, rfl⟩, .inl rfl, .inl⟩
  | reconsider | shutdown => exact ⟨rfl, .inr ⟨_, rfl, rfl⟩, .inl rfl, .inl⟩
  | onResume =>
    rw [step]
    split
    · exact ⟨rfl, .inl ⟨rfl, rfl⟩, .inl rfl, .inl⟩
    split
    · have haside := poll_aside ({ s with off := none } : Controller α)
      exact ⟨haside.running, haside.works, haside.session, haside.wanted⟩
    · exact ⟨rfl, .inr ⟨_, rfl, rfl⟩, .inl rfl, .inl⟩
  | turn env | answered env result => cases he
  | pollTimer =>
    rw [step]
    split
    · exact s.poll_aside
    · exact .refl s
  | pollAnswered now result => exact s.pollAnswered_aside now result
  | reconnectTimer =>
    rw [step]
    split
    · exact ⟨rfl, .inr ⟨_, rfl, rfl⟩, .inl rfl, .inl⟩
    · exact .refl s

/-- A step begins a work, goes on with the running one, or leaves it alone. -/
inductive Steps (s : Controller α) : VpnEvent α → Controller α × List (Sent α) → Prop where
  | aside {e : VpnEvent α} {r : Controller α × List (Sent α)} (h : s.Aside r.1) : s.Steps e r
  | turn (env : Surroundings α) {work : Work} {queue : List Work} (hrunning : s.running = none)
      (hqueue : s.queue = work :: queue) :
      s.Steps (.turn env) (({ s with queue := queue } : Controller α).begin' work env)
  | answered (env : Surroundings α) (result : Except ServiceError Started) {work : Nat}
    {stage : Stage α}
      (hrunning : s.running = some (work, stage)) :
      s.Steps (.answered env result) (s.continue' work env result stage)

theorem steps_step (s : Controller α) (e : VpnEvent α) : s.Steps e (s.step e) := by
  cases e with
  | turn env =>
    rw [step]
    split
    next hrunning hqueue => exact .turn env hrunning hqueue
    · exact .aside (.refl s)
  | answered env result =>
    rw [step]
    split
    next hrunning => exact .answered env result hrunning
    · exact .aside (.refl s)
  | connect | disconnect | restart | reconsider | onResume | shutdown | pollTimer
  | pollAnswered now result | reconnectTimer => exact .aside (s.aside_step rfl)

/-! ## Steps -/

variable {env : Surroundings α}

theorem Settles.steady {work : Nat} (h : Settles work env s') : s'.Steady := by
  cases h with
  | idle hrunning hlive => exact .of_idle hrunning
  | built start built hbegins hrunning hnodes hlive hactive hwanted =>
    refine ⟨?_, fun _ _ _ _ => hlive, ?_⟩
    · intro work next after hrunning'
      rw [hrunning] at hrunning'
      cases hrunning'
    · intro built' hheld
      rw [held, hrunning] at hheld
      cases hheld
      exact ⟨hnodes, hactive⟩

theorem Settles.moved {work : Nat} (h : Settles work env s')
    (hevent : e = .turn env ∨ ∃ result, e = .answered env result)
    (hbuilds : ∀ start built, s'.running = some (work, .validating start built) → s.Builds e) :
    s.Moved e s' := by
  cases h with
  | idle hrunning hlive => exact .off ⟨hlive, held_of_idle hrunning⟩
  | built start built hbegins hrunning hnodes hlive hactive hwanted =>
    refine .built env built hbegins hevent (hbuilds start built hrunning) ?_ hlive hwanted
    rw [held, hrunning]
    rfl

theorem afterStop_builds {work number start : Nat} {after : After}
    (h : (s.afterStop work env after).1.running = some (number, .validating start built)) :
    after = .startNow := by
  cases after with
  | finish | scheduleReconnect => cases h
  | startNow => rfl

theorem stopNow_builds {work number start : Nat} {cause : Cause} {after : After}
    (h : (s.stopNow work env cause next after).1.running =
      some (number, .validating start built)) :
    ¬ s.session.status.active = true ∧ after = .startNow := by
  unfold stopNow at h
  dsimp only at h
  split at h
  · cases h
  next hinactive => exact ⟨hinactive, afterStop_builds h⟩

variable {work : Work} {queue : List Work}

theorem begin_builds {number start : Nat}
    (h : (s.begin' work env).1.running = some (number, .validating start built)) :
    work.kind.Builds s.session env := by
  rw [begin'] at h
  cases hkind : work.kind with
  | start => trivial
  | stop | giveUp start verdict =>
    rw [hkind] at h
    cases (stopNow_builds h).2
  | restart =>
    rw [hkind] at h
    dsimp only at h
    split at h
    next hactive => exact absurd hactive (stopNow_builds h).1
    next hinactive => exact hinactive
  | reconsider =>
    rw [hkind] at h
    dsimp only at h
    split at h
    · cases (stopNow_builds h).2
    split at h
    next hpaused =>
      rw [Bool.and_eq_true_iff, Bool.and_eq_true_iff, decide_eq_true_iff] at hpaused
      exact ⟨hpaused.1.1, hpaused.2⟩
    · cases h

theorem turn_moves (hrunning : s.running = none)
    (hqueue : s.queue = work :: queue) (env : Surroundings α) :
    (({ s with queue := queue } : Controller α).begin' work env).1.Steady ∧
      s.Moved (.turn env) (({ s with queue := queue } : Controller α).begin' work env).1 := by
  obtain ⟨houtcome, hleft⟩ := ({ s with queue := queue } : Controller α).begin_outcome work env
  have hworks := ({ s with queue := queue } : Controller α).begin_works work env
  have hbuilds : ∀ start built, (({ s with queue := queue } :
      Controller α).begin' work env).1.running =
      some (work.number, .validating start built) → s.Builds (.turn env) :=
    fun start built h => ⟨hrunning, work, queue, hqueue,
      begin_builds (s := ({ s with queue := queue } : Controller α)) h⟩
  generalize ({ s with queue := queue } : Controller α).begin' work env = r
    at houtcome hleft hworks hbuilds
  cases houtcome with
  | settles h => exact ⟨h.steady, h.moved (.inl rfl) hbuilds⟩
  | unchanged hidle hsession hwanted =>
    refine ⟨.of_idle hidle, .keeps ⟨fun hlive => ?_, ?_, fun hon hdying => ?_, ?_⟩⟩
    · rw [Live, hsession] at hlive
      exact ⟨hlive, by rw [hsession]⟩
    · intro built hheld
      rw [held_of_idle hidle] at hheld
      cases hheld
    · -- Only the work that was begun is not in the queue any more.
      rcases hdying with ⟨later, hmem, hkind⟩ | ⟨number, next, after, hbusy⟩
      · rw [hqueue] at hmem
        rcases mem_cons.1 hmem with rfl | hrest
        · rcases hleft hkind with hsettles | hdying
          · cases hsettles with
            | idle _ hlive => exact absurd ⟨hlive, held_of_idle hidle⟩ hon
            | built _ _ _ hbusy =>
              rw [hidle] at hbusy
              cases hbusy
          · exact hdying
        · refine .inl ⟨later, ?_, hkind⟩
          rw [hworks.queue]
          exact hrest
      · rw [hrunning] at hbusy
        cases hbusy
    · intro hunwanted
      exact .inl (hwanted.symm.trans hunwanted)
  | stopping next after hnext hbusy hsession hwanted =>
    have hheld : r.1.held = none := by
      rw [held, hbusy]
      rfl
    refine ⟨⟨?_, ?_, ?_⟩, .keeps ⟨fun hlive => ?_, ?_, ?_, ?_⟩⟩
    · intro number next' after' hbusy'
      rw [hbusy] at hbusy'
      cases hbusy'
      exact hnext
    · intro number stage hbusy' hstage
      rw [hbusy] at hbusy'
      cases hbusy'
      exact absurd rfl (hstage next after)
    · intro built hbuilt
      rw [hheld] at hbuilt
      cases hbuilt
    · rw [Live, hsession] at hlive
      exact ⟨hlive, by rw [hsession]⟩
    · intro built hbuilt
      rw [hheld] at hbuilt
      cases hbuilt
    · exact fun _ _ => .inr ⟨_, _, _, hbusy⟩
    · intro hunwanted
      exact .inl (hwanted.symm.trans hunwanted)

theorem answered_moves (hs : s.Steady) {work : Nat} {stage : Stage α}
    (hrunning : s.running = some (work, stage)) (env : Surroundings α)
    (result : Except ServiceError Started) :
    (s.continue' work env result stage).1.Steady ∧
      s.Moved (.answered env result) (s.continue' work env result stage).1 := by
  have hidle : ∀ c : Controller α, c.running = none → ¬ c.Live →
      c.Steady ∧ s.Moved (.answered env result) c := fun c hnone hlive =>
    ⟨.of_idle hnone, .off ⟨hlive, held_of_idle hnone⟩⟩
  -- A start that goes on waits for another request, and what was queued still is.
  have hwaits : ∀ next : Stage α, (∀ session after, stage ≠ .stopping session after) →
      (∀ session after, next ≠ .stopping session after) →
      (∀ built, next.held = some built → stage.held = some built) →
        ({ s with running := some (work, next) } : Controller α).Steady ∧
          s.Moved (.answered env result) ({ s with running := some (work, next) } :
            Controller α) := by
    intro next hstage hnext hheld
    have hbuilt : ∀ built, ({ s with running := some (work, next) } : Controller α).held =
        some built → s.held = some built := by
      intro built hbuilt
      rw [held, hrunning]
      exact hheld built hbuilt
    refine ⟨⟨?_, ?_, ?_⟩, .keeps ⟨fun hlive => ⟨hlive, rfl⟩, hbuilt, ?_, .inl⟩⟩
    · intro number session after hbusy
      cases hbusy
      exact absurd rfl (hnext session after)
    · intro number stage' hbusy hstage'
      exact hs.starting work stage hrunning hstage
    · exact fun built h => hs.nodes built (hbuilt built h)
    · rintro - (hqueued | ⟨number, session, after, hbusy⟩)
      · exact .inl hqueued
      · rw [hrunning] at hbusy
        cases hbusy
        exact absurd rfl (hstage session after)
  cases stage with
  | stopping next after =>
    have hnext := hs.stopping work next after hrunning
    have hsettles := afterStop_settles work env after (s.become_live hnext)
    refine ⟨hsettles.steady, hsettles.moved (.inr ⟨result, rfl⟩) fun start built h => ?_⟩
    rw [afterStop_builds h] at hrunning
    exact ⟨work, next, hrunning⟩
  | validating start built =>
    cases result with
    | error error => exact hidle _ rfl (fail_live _ _)
    | ok started => exact hwaits _ nofun nofun fun _ => id
  | starting start built =>
    cases result with
    | error error => exact hwaits _ nofun nofun nofun
    | ok started =>
      dsimp only [continue']
      split
      · exact hwaits _ nofun nofun nofun
      refine ⟨.of_idle rfl, .connected env started work start built rfl hrunning
        (held_of_idle rfl) rfl ?_ rfl⟩
      rintro (hqueued | ⟨number, session, after, hbusy⟩)
      · exact .inl hqueued
      · rw [hrunning] at hbusy
        cases hbusy
  | abandoning error =>
    dsimp only [continue']
    split
    · exact hidle _ rfl Bool.false_ne_true
    · exact hidle _ rfl (fail_live _ _)

theorem moved_step (hs : s.Steady) (e : VpnEvent α) :
    (s.step e).1.Steady ∧ s.Moved e (s.step e).1 := by
  have hsteps := s.steps_step e
  generalize s.step e = r at hsteps ⊢
  cases hsteps with
  | aside haside => exact ⟨haside.steady hs, .keeps haside.keeps⟩
  | turn env hrunning hqueue => exact turn_moves hrunning hqueue env
  | answered env result hrunning => exact answered_moves hs hrunning env result

theorem Settles.number {work number : Nat} {stage : Stage α} (h : Settles work env s)
    (hrunning : s.running = some (number, stage)) : number = work := by
  cases h with
  | idle hidle =>
    rw [hidle] at hrunning
    cases hrunning
  | built start built hbegins hbusy =>
    rw [hbusy] at hrunning
    cases hrunning
    rfl

theorem continue_number (hs : s.Steady) {work number : Nat} {stage stage' : Stage α}
    (hrunning : s.running = some (work, stage)) {result : Except ServiceError Started}
    (h : (s.continue' work env result stage).1.running = some (number, stage')) :
    number = work := by
  cases stage with
  | stopping next after =>
    have hnext := hs.stopping work next after hrunning
    exact (afterStop_settles work env after (s.become_live hnext)).number h
  | validating start built =>
    cases result with
    | error error => cases h
    | ok started =>
      cases h
      rfl
  | starting start built =>
    cases result with
    | error error =>
      cases h
      rfl
    | ok started =>
      dsimp only [continue'] at h
      split at h
      · cases h
        rfl
      · cases h
  | abandoning error =>
    dsimp only [continue'] at h
    split at h <;> cases h

theorem Ordered.turn (ho : s.Ordered) (hqueue : s.queue = work :: queue)
    (env : Surroundings α) : (({ s with queue := queue } :
      Controller α).begin' work env).1.Ordered := by
  obtain ⟨houtcome, -⟩ := ({ s with queue := queue } : Controller α).begin_outcome work env
  have hworks := ({ s with queue := queue } : Controller α).begin_works work env
  generalize ({ s with queue := queue } : Controller α).begin' work env = r at houtcome hworks
  have hissued := ho.issued
  have hordered := ho.queue
  rw [hqueue] at hissued hordered
  obtain ⟨hfirst, hrest⟩ := pairwise_cons.1 hordered
  refine ⟨?_, ?_, ?_⟩
  · rw [hworks.queue, hworks.issued]
    exact fun later hmem => hissued later (mem_cons_of_mem _ hmem)
  · rw [hworks.queue]
    exact hrest
  rw [hworks.queue, hworks.issued]
  have hwork : work.number < s.issued ∧ ∀ later ∈ queue, work.number < later.number :=
    ⟨hissued work mem_cons_self, hfirst⟩
  intro number stage hbusy
  have hnumber : number = work.number := by
    cases houtcome with
    | settles h => exact h.number hbusy
    | unchanged hidle =>
      rw [hidle] at hbusy
      cases hbusy
    | stopping next after hnext hbusy' =>
      rw [hbusy'] at hbusy
      cases hbusy
      rfl
  rw [hnumber]
  exact hwork

theorem ordered_step (hs : s.Steady) (ho : s.Ordered) (e : VpnEvent α) : (s.step e).1.Ordered := by
  have hsteps := s.steps_step e
  generalize s.step e = r at hsteps ⊢
  cases hsteps with
  | aside haside => exact haside.ordered ho
  | turn env hrunning hqueue => exact ho.turn hqueue env
  | @answered env result work stage hrunning =>
    have hworks := s.continue_works work env result stage
    refine ⟨?_, ?_, ?_⟩
    · rw [hworks.queue, hworks.issued]
      exact ho.issued
    · rw [hworks.queue]
      exact ho.queue
    · rw [hworks.queue, hworks.issued]
      intro number stage' hbusy
      rw [continue_number hs hrunning hbusy]
      exact ho.running work stage hrunning

theorem begin_stop (s : Controller α) (number : Nat) (env : Surroundings α) :
    (s.begin' ⟨number, .stop⟩ env).1 =
      if s.session.status.active = true then
        { s.stopPolling with running := some (number, .stopping .idle .finish) }
      else (s.stopPolling.become .idle).finish := by
  exact apply_ite Prod.fst _ _ _

theorem followed_turn (ho : s.Ordered) {number : Nat} (hmem : (⟨number, .stop⟩ : Work) ∈ s.queue)
    (hqueue : s.queue = work :: queue) (env : Surroundings α) :
    (({ s with queue := queue } : Controller α).begin' work env).1.Followed number := by
  have hordered := ho.queue
  rw [hqueue] at hmem hordered
  rcases mem_cons.1 hmem with rfl | hrest
  · rw [begin_stop]
    split
    · exact .stopping .idle rfl
    · exact .stopped rfl Bool.false_ne_true (pairwise_cons.1 hordered).1
  · refine .queued ?_
    rw [(({ s with queue := queue } : Controller α).begin_works work env).queue]
    exact hrest

theorem followed_step (hs : s.Steady) (ho : s.Ordered) {number : Nat} (hnumber : number < s.issued)
    (hf : s.Followed number)
    (hturn : s.running = none → (∀ work ∈ s.queue, number < work.number) → ∀ env, e ≠ .turn env) :
    (s.step e).1.Followed number := by
  have hsteps := s.steps_step e
  generalize s.step e = r at hsteps ⊢
  cases hsteps with
  | aside haside => exact haside.followed hnumber hf
  | turn env hrunning hqueue =>
    cases hf with
    | queued hmem => exact followed_turn ho hmem hqueue env
    | stopping next hbusy =>
      rw [hrunning] at hbusy
      cases hbusy
    | stopped _ hlive hlater => exact absurd rfl (hturn hrunning hlater env)
  | @answered env result work stage hrunning =>
    cases hf with
    | queued hmem =>
      refine .queued ?_
      rw [(s.continue_works work env result stage).queue]
      exact hmem
    | stopping next hbusy =>
      rw [hrunning] at hbusy
      cases hbusy
      exact .stopped rfl (s.become_live (hs.stopping number next _ hrunning))
        (ho.running number _ hrunning).2
    | stopped hidle =>
      rw [hidle] at hrunning
      cases hrunning

theorem issued_step (s : Controller α) (e : VpnEvent α) : s.issued ≤ (s.step e).1.issued := by
  have hsteps := s.steps_step e
  generalize s.step e = r at hsteps ⊢
  cases hsteps with
  | aside haside =>
    rcases haside.works with ⟨-, hsame⟩ | ⟨kind, -, hnext⟩
    · exact hsame.ge
    · rw [hnext]
      exact Nat.le_succ _
  | @turn env work queue => exact (({ s with queue := queue } :
    Controller α).begin_works work env).issued.ge
  | answered => exact (s.continue_works _ _ _ _).issued.ge

theorem steady_new (α : Type) (now : Nat) : (new α now).Steady := .of_idle rfl

theorem ordered_new (α : Type) (now : Nat) : (new α now).Ordered :=
  ⟨nofun, List.Pairwise.nil, nofun⟩

end Parts

end Controller

end GamePath.Electron.Vpn
