import GamePath.Electron.GameSession

/-!
# Which session a failover moves

Between the answer `failover` and the move lie the probe of the standby relay and the session queue,
and the move looks at the relay of the session it finds, not at the session. `Clean` says that no
session connects to a relay a pending move is about; in a run of such steps a move stops the session
whose watch answered `failover` (`moves_stop_their_own`).

`Watched` is the invariant, and `watched_step` the one step lemma.
-/

namespace GamePath.Electron

open Engine.Direct (Text)
open Lib.Run List

/-! ## What the failover does to its moves -/

namespace Controller

/-- The watch of a session has answered `failover`. -/
def Answered (c : Controller) (session : Nat) : Prop :=
  ∃ connected uplink now witness,
    Entry.observed session connected uplink now .failover witness ∈ c.trace

/-- One controller comes from another without a session that begins and without a new move. -/
structure Quiet (c c' : Controller) : Prop where
  current : ∀ w, c'.current = some w → c.current = some w
  moves : ∀ m ∈ c'.moves, m.stage = .scheduled → m ∈ c.moves
  trace : c.trace ⊆ c'.trace

variable {c c' : Controller}

theorem Quiet.refl (c : Controller) : c.Quiet c :=
  ⟨fun _ => id, fun _ h _ => h, fun _ => id⟩

theorem Quiet.answered (h : c.Quiet c') {session : Nat} (ha : c.Answered session) :
    c'.Answered session := by
  obtain ⟨connected, uplink, now, witness, hmem⟩ := ha
  exact ⟨connected, uplink, now, witness, h.trace hmem⟩

theorem Quiet.of_same (hcurrent : c'.current = c.current) (hmoves : c'.moves = c.moves)
    (htrace : c.trace ⊆ c'.trace) : c.Quiet c' :=
  ⟨fun _ h => hcurrent ▸ h, fun _ h _ => hmoves ▸ h, htrace⟩

theorem Quiet.trans {c'' : Controller} (h : c.Quiet c') (h' : c'.Quiet c'') : c.Quiet c'' :=
  ⟨fun w hw => h.current w (h'.current w hw),
    fun m hm hstage => h.moves m (h'.moves m hm hstage) hstage, fun _ he => h'.trace (h.trace he)⟩

theorem subset_note (c : Controller) (e : Entry) : c.trace ⊆ (c.note e).trace :=
  fun _ h => mem_append_left _ h

theorem quiet_end (c : Controller) : c.Quiet c.end' := by
  rw [end']
  split
  · exact .refl c
  · refine ⟨fun w h => ?_, fun _ h _ => h, fun _ => id⟩
    cases h

theorem quiet_probe (c : Controller) (session : Nat) (outage : Bool) (epoch : Nat) :
    c.Quiet (c.probe session outage epoch) := by
  rw [probe]
  split
  · split
    · exact .of_same rfl rfl fun _ => id
    · exact .refl c
  · exact .of_same rfl rfl fun _ h => mem_append_left _ h

theorem quiet_probeAnswered (c : Controller) (index elapsed : Nat) (reachable : Bool) :
    c.Quiet (c.probeAnswered index elapsed reachable) := by
  rw [probeAnswered]
  split
  · exact .refl c
  · split
    · exact .refl c
    · split <;> exact .of_same rfl rfl fun _ h => mem_append_left _ h

theorem quiet_probeFreed (c : Controller) (index : Nat) : c.Quiet (c.probeFreed index) := by
  rw [probeFreed]
  split
  · exact .refl c
  · split
    · exact .of_same rfl rfl fun _ => id
    · exact .refl c

theorem quiet_moveCalled (c : Controller) (index : Nat) : c.Quiet (c.moveCalled index) := by
  rw [moveCalled]
  split
  · exact .refl c
  split
  · refine ⟨fun _ => id, fun m hm hstage => ?_, fun _ h => mem_append_left _ h⟩
    rcases mem_or_eq_of_mem_set hm with hmem | rfl
    · exact hmem
    · cases hstage
  · exact .refl c

theorem quiet_moveResolved (c : Controller) (index : Nat) (outcome : Outcome) :
    c.Quiet (c.moveResolved index outcome) := by
  rw [moveResolved]
  split
  · exact .refl c
  split
  · refine ⟨fun _ => id, fun m hm hstage => ?_, fun _ h => mem_append_left _ h⟩
    rcases mem_or_eq_of_mem_set hm with hmem | rfl
    · exact hmem
    · cases hstage
  · exact .refl c

theorem quiet_moveFreed (c : Controller) (index : Nat) : c.Quiet (c.moveFreed index) := by
  rw [moveFreed]
  split
  · exact .refl c
  · split
    · exact ⟨fun _ => id, fun m hm _ => mem_of_mem_eraseIdx hm, fun _ => id⟩
    · exact .refl c

/-- One observation of the current session's watch begins no move, or one for the session once the
watch has answered `failover`. -/
theorem watchObserves_moves (c : Controller) (session : Nat) (w : Watch) (connected : Bool)
    (uplink : Uplink) :
    c.Quiet (c.watchObserves session w connected uplink) ∨
    ∃ silentMs, (c.watchObserves session w connected uplink).current = c.current ∧
      (c.watchObserves session w connected uplink).moves =
        c.moves ++ [⟨session, silentMs, .scheduled⟩] ∧
      c.trace ⊆ (c.watchObserves session w connected uplink).trace ∧
      (c.watchObserves session w connected uplink).Answered session := by
  rw [watchObserves]
  generalize hanswer : w.observe connected uplink c.clock = answer
  have hnoted : c.Quiet ((c.modifyWatch session fun _ => answer.2).note
      (.observed session connected uplink c.clock answer.1 w.directWitness)) :=
    .of_same rfl rfl fun _ h => mem_append_left _ h
  split
  · exact .inl hnoted
  · exact .inl (hnoted.trans (quiet_probe _ _ _ _))
  · exact .inl (hnoted.trans (quiet_probe _ _ _ _))
  next hfailover =>
    refine .inr ⟨_, rfl, rfl, fun _ h => mem_append_left _ h, ?_⟩
    refine ⟨connected, uplink, c.clock, w.directWitness, ?_⟩
    rw [← hfailover]
    exact mem_append_right _ (mem_singleton_self _)

/-- An observation begins no move, or one for the current session, whose watch has answered
`failover`. -/
theorem observe_moves (c : Controller) (elapsed : Nat) (connected : Bool) (uplink : Uplink) :
    c.Quiet (c.observe elapsed connected uplink) ∨
    ∃ session silentMs, c.current = some session ∧
      (c.observe elapsed connected uplink).current = c.current ∧
      (c.observe elapsed connected uplink).moves = c.moves ++ [⟨session, silentMs, .scheduled⟩] ∧
      c.trace ⊆ (c.observe elapsed connected uplink).trace ∧
      (c.observe elapsed connected uplink).Answered session := by
  rw [observe]
  split
  · exact .inl (.refl c)
  next session hcurrent =>
    split
    · exact .inl (.refl c)
    next w hwatch =>
      split
      · exact .inl (.of_same rfl rfl (subset_note c _))
      have hlater : c.Quiet { c with clock := c.clock + elapsed } :=
        .of_same rfl rfl fun _ => id
      rcases watchObserves_moves { c with clock := c.clock + elapsed } session w connected uplink
        with hquiet | ⟨silentMs, hsame, hmoves, htrace, hanswered⟩
      · exact .inl (hlater.trans hquiet)
      · exact .inr ⟨session, silentMs, hcurrent, hsame, hmoves, htrace, hanswered⟩

end Controller

namespace Game

/-! ## Pending moves -/

/-- The watch and the relay of a queued move. -/
def WorkKind.pendingMove : WorkKind → Option (Nat × Option Text)
  | .move watch main _ => some (watch, some main)
  | _ => none

/-- The watch of a scheduled move, which has not read its relay yet. -/
def scheduledMove (m : Move) : Option (Nat × Option Text) :=
  if m.stage = .scheduled then some (m.session, none) else none

/-- The watch and the relay of a move that waits for the probe of its standby. -/
def MoveCall.pendingMove (call : MoveCall) : Option (Nat × Option Text) :=
  if call.stage = .probing then some (call.watch, some call.main) else none

namespace Client

/-- The moves that are yet to have their turn: the watch, and the relay once it was read. -/
def pending (s : Client) : List (Nat × Option Text) :=
  s.failover.moves.filterMap scheduledMove ++ (s.call.bind MoveCall.pendingMove).toList ++
    s.queue.filterMap WorkKind.pendingMove

theorem mem_pending {s : Client} {p : Nat × Option Text} :
    p ∈ s.pending ↔ (∃ m ∈ s.failover.moves, m.stage = .scheduled ∧ p = (m.session, none)) ∨
      (∃ call, s.call = some call ∧ call.stage = .probing ∧ p = (call.watch, some call.main)) ∨
      ∃ watch main standby, WorkKind.move watch main standby ∈ s.queue ∧
        p = (watch, some main) := by
  rw [pending, mem_append, mem_append, or_assoc]
  refine or_congr ?_ (or_congr ?_ ?_)
  · rw [mem_filterMap]
    refine exists_congr fun m => and_congr_right fun _ => ?_
    rw [scheduledMove]
    split
    next h => exact ⟨fun he => ⟨h, (Option.some.inj he).symm⟩, fun he => congrArg some he.2.symm⟩
    next h => exact ⟨fun he => (by cases he), fun he => absurd he.1 h⟩
  · rw [Option.mem_toList, Option.bind_eq_some_iff]
    refine exists_congr fun call => and_congr_right fun _ => ?_
    rw [MoveCall.pendingMove]
    split
    next h => exact ⟨fun he => ⟨h, (Option.some.inj he).symm⟩, fun he => congrArg some he.2.symm⟩
    next h => exact ⟨fun he => (by cases he), fun he => absurd he.1 h⟩
  · rw [mem_filterMap]
    constructor
    · rintro ⟨work, hmem, hwork⟩
      cases work with
      | move watch main standby => exact ⟨watch, main, standby, hmem, (Option.some.inj hwork).symm⟩
      | _ => cases hwork
    · rintro ⟨watch, main, standby, hmem, rfl⟩
      exact ⟨_, hmem, rfl⟩

/-- The move is about the relay of the session, or will be about it. -/
def Names (main : Option Text) (session : Session) : Prop :=
  session.relayId ≠ none ∧ (main = none ∨ main = session.relayId)

/-! ## The invariant -/

/-- What holds of the session whatever is running: it is the one that is watched, and the one of
every pending move that names its relay. -/
structure Own (s : Client) : Prop where
  current : ∀ w, s.failover.current = some w → s.session.status = .connected →
    s.session.start = some w
  pending : ∀ p ∈ s.pending, s.session.status = .connected → Names p.2 s.session →
    s.session.start = some p.1
  answered : ∀ p ∈ s.pending, s.failover.Answered p.1

/-- The running work is the move of a watch that stops a session. -/
def Moving (s : Client) (watch : Nat) : Prop :=
  ∃ main standby stage, s.running = some (.move watch main standby, stage) ∧
    (stage = .stoppingEngine ∨ stage = .stoppingService)

/-- What holds of the client between two events. -/
structure Watched (s : Client) : Prop where
  own : s.Own
  moving : ∀ watch, s.Moving watch → s.session.start = some watch ∧ s.failover.Answered watch

/-- A request that is right to send: a move stops the session of its own watch, which has answered
`failover`. -/
def Right (s : Client) : Sent → Prop
  | .stopWireguard work start | .stopSession work start =>
    ∀ watch main standby, work = .move watch main standby →
      start = some watch ∧ s.failover.Answered watch
  | _ => True

/-- The relay a session connects to by the event. -/
def connectsTo (s : Client) : ClientEvent → Option Text
  | .answered _ true =>
    match s.running with
    | some (_, .starting _ request _) => if request.direct then none else some request.relayId
    | _ => none
  | _ => none

/-- No session connects to a relay that a pending move is about, or may turn out to be about. -/
def Clean (s : Client) (e : ClientEvent) : Prop :=
  ∀ relayId, s.connectsTo e = some relayId →
    ∀ p ∈ s.pending, p.2 ≠ none ∧ p.2 ≠ some relayId

/-! ## The parts of a step -/

section Parts

variable {s s' : Client}

/-- Nothing in the invariant of the session grows. -/
theorem Own.sub (h : s.Own) (hsession : s'.session = s.session)
    (hquiet : s.failover.Quiet s'.failover) (hpending : ∀ p ∈ s'.pending, p ∈ s.pending) :
    s'.Own where
  current := fun w hw => by
    rw [hsession]
    exact h.current w (hquiet.current w hw)
  pending := fun p hp => by
    rw [hsession]
    exact h.pending p (hpending p hp)
  answered := fun p hp => hquiet.answered (h.answered p (hpending p hp))

theorem Own.become (h : s.Own) {session : Session} (hstatus : session.status ≠ .connected) :
    (s.become session).Own where
  current := fun _ _ hconnected => absurd hconnected hstatus
  pending := fun _ _ hconnected => absurd hconnected hstatus
  answered := h.answered

theorem Own.end' (h : s.Own) : ({ s with failover := s.failover.end' } : Client).Own := by
  refine h.sub rfl (Controller.quiet_end _) fun p hp => ?_
  have hmoves : s.failover.end'.moves = s.failover.moves := by
    rw [Controller.end']
    split <;> rfl
  have hsame : ({ s with failover := s.failover.end' } : Client).pending = s.pending := by
    rw [Client.pending, hmoves]
    rfl
  rwa [hsame] at hp

/-- The invariant of the session does not look at what is running. -/
theorem Own.waiting (h : s.Own) (work : WorkKind) (stage : Stage) :
    ({ s with running := some (work, stage) } : Client).Own := ⟨h.current, h.pending, h.answered⟩

variable {work : WorkKind}

theorem Own.watched (h : s.Own) {stage : Stage} (hengine : stage ≠ .stoppingEngine)
    (hservice : stage ≠ .stoppingService) :
    ({ s with running := some (work, stage) } : Client).Watched where
  own := h.waiting work stage
  moving := by
    rintro watch ⟨main, standby, stage', hrunning, hstage⟩
    have hsame : stage = stage' := (Prod.ext_iff.1 (Option.some.inj hrunning)).2
    rcases hstage with hstage | hstage
    · exact absurd (hsame.trans hstage) hengine
    · exact absurd (hsame.trans hstage) hservice

theorem Own.idle (h : s.Own) (hrunning : s.running = none) : s.Watched where
  own := h
  moving := by
    rintro watch ⟨main, standby, stage, hsome, -⟩
    rw [hrunning] at hsome
    cases hsome

theorem Own.finish (h : s.Own) (work : WorkKind) (rejected : Bool) :
    (s.finish work rejected).Watched := by
  have hidle : ({ s with running := none } : Client).Own := ⟨h.current, h.pending, h.answered⟩
  cases work with
  | start | stop | quit => exact hidle.idle rfl
  | lost object =>
    have hown : ({ s with running := none, polling := none } : Client).Own :=
      ⟨h.current, h.pending, h.answered⟩
    exact hown.idle rfl
  | move watch main standby =>
    refine Own.idle (hidle.sub rfl (.refl _) fun p hp => ?_) rfl
    rcases mem_pending.1 hp with hscheduled | ⟨call, hcall, hstage, -⟩ | hqueued
    · exact mem_pending.2 (.inl hscheduled)
    · -- The call of the move is done.
      obtain ⟨call', -, rfl⟩ := Option.map_eq_some_iff.1 hcall
      cases hstage
    · exact mem_pending.2 (.inr (.inr hqueued))

theorem Own.startSession (h : s.Own) (work : WorkKind) (call : StartCall) :
    (s.startSession work call).Watched := by
  apply Own.watched (s := { s with failover := s.failover.end' }) h.end' <;> exact nofun

theorem Own.startDone (h : s.Own) (work : WorkKind) (call : StartCall) :
    (s.startDone work call).Watched := by
  rw [Client.startDone]
  split
  · exact h.finish work false
  · split
    · exact h.finish work false
    · exact h.startSession work _

/-- A part of a step keeps the invariant and sends what is right to send. -/
def Fine (s : Client) (r : Client × List Sent) : Prop :=
  r.1.Watched ∧ ∀ sent ∈ r.2, s.Right sent

theorem fine_of_nothing (h : s'.Watched) : s.Fine (s', []) :=
  ⟨h, fun sent hsent => by cases hsent⟩

theorem fine_of_one (h : s'.Watched) {sent : Sent} (hright : s.Right sent) :
    s.Fine (s', [sent]) := by
  refine ⟨h, fun other hother => ?_⟩
  rw [mem_singleton.1 hother]
  exact hright

theorem Own.abandon (h : s.Own) (work : WorkKind) (call : StartCall) :
    s'.Fine (s.abandon work call) := by
  apply fine_of_one
  · exact h.watched nofun nofun
  · trivial

theorem Own.readState (h : s.Own) (work : WorkKind) (call : StartCall) (env : Surroundings) :
    s'.Fine (s.readState work call env) := by
  have hstarting : (s.become (.plain .starting)).Own := h.become nofun
  rw [Client.readState]
  split
  · apply fine_of_nothing
    apply Own.startDone
    exact h.become nofun
  · split
    · exact hstarting.abandon work call
    · apply fine_of_one
      · exact hstarting.watched nofun nofun
      · trivial

theorem Own.stopped (h : s.Own) (work : WorkKind) (ok : Bool) : (s.stopped work ok).Watched := by
  cases work with
  | start => exact h.finish .start false
  | lost object => exact h.finish (.lost object) false
  | stop =>
    have hnext : (s.become (.plain (if ok then .idle else .error))).Own := by
      apply h.become
      cases ok <;> exact nofun
    exact hnext.finish .stop false
  | quit =>
    have hidle : (s.become (.plain .idle)).Own := h.become nofun
    rw [Client.stopped]
    split
    · exact hidle.finish .quit false
    · exact h.finish .quit true
  | move watch main standby =>
    have hstarting : (s.become (.plain .starting)).Own := h.become nofun
    exact hstarting.startSession _ _

/-- The work is not a move, or the move of the watch of the session. -/
def Licensed (s : Client) (work : WorkKind) : Prop :=
  ∀ watch main standby, work = .move watch main standby →
    s.session.start = some watch ∧ s.failover.Answered watch

theorem Own.stopping (h : s.Own) (hwork : s.Licensed work) (stage : Stage) :
    ({ s with running := some (work, stage) } : Client).Watched where
  own := h.waiting work stage
  moving := by
    rintro watch ⟨main, standby, stage', hrunning, -⟩
    exact hwork watch main standby (Prod.ext_iff.1 (Option.some.inj hrunning)).1

theorem Own.stopService (h : s.Own) (hwork : s.Licensed work) (env : Surroundings) :
    s.Fine (s.stopService work env) := by
  rw [Client.stopService]
  split
  · exact fine_of_one (h.stopping hwork .stoppingService) hwork
  · exact fine_of_nothing (h.stopped work true)

theorem Own.stopRunningSession (h : s.Own) (hwork : s.Licensed work) (env : Surroundings) :
    s.Fine (s.stopRunningSession work env) := by
  rw [Client.stopRunningSession]
  split
  · exact fine_of_one (h.stopping hwork .stoppingEngine) hwork
  · exact h.stopService hwork env

theorem Fine.of_trace {r : Client × List Sent} (htrace : s'.failover.trace = s.failover.trace)
    (h : s'.Fine r) : s.Fine r := by
  have hanswered : ∀ w, s'.failover.Answered w → s.failover.Answered w := by
    rintro w ⟨connected, uplink, now, witness, hmem⟩
    exact ⟨connected, uplink, now, witness, htrace ▸ hmem⟩
  refine ⟨h.1, fun sent hsent => ?_⟩
  have hright := h.2 sent hsent
  cases sent with
  | stopWireguard work start | stopSession work start =>
    intro watch main standby hwork
    obtain ⟨hstart, hyes⟩ := hright watch main standby hwork
    exact ⟨hstart, hanswered watch hyes⟩
  | _ => trivial

theorem end_trace (c : Controller) : c.end'.trace = c.trace := by
  rw [Controller.end']
  split <;> rfl

theorem Own.begin' (h : s.Own) (work : WorkKind) (env : Surroundings)
    (hmove : ∀ watch main standby, work = .move watch main standby →
      s.failover.Answered watch ∧ (s.session.status = .connected → Names (some main) s.session →
        s.session.start = some watch)) : s.Fine (s.begin' work env) := by
  cases work with
  | start => exact fine_of_nothing (h.startSession _ _)
  | stop =>
    have hended : ({ s with failover := s.failover.end' } : Client).failover.trace =
        s.failover.trace := end_trace _
    apply Fine.of_trace hended
    exact h.end'.stopRunningSession (fun _ _ _ heq => by cases heq) env
  | quit =>
    rw [Client.begin']
    split
    · have hended : ({ s with failover := s.failover.end' } : Client).failover.trace =
          s.failover.trace :=
        end_trace _
      apply Fine.of_trace hended
      exact h.end'.stopRunningSession (fun _ _ _ heq => by cases heq) env
    · exact fine_of_nothing (h.finish .quit false)
  | lost object =>
    rw [Client.begin']
    split
    · apply fine_of_one
      · exact h.watched nofun nofun
      · exact nofun
    · exact fine_of_nothing (h.finish (.lost object) false)
  | move watch main standby =>
    rw [Client.begin']
    split
    next hfound =>
      apply h.stopRunningSession
      intro watch' main' standby' heq
      cases heq
      obtain ⟨hanswered, hown⟩ := hmove watch main standby rfl
      refine ⟨hown hfound.1 ⟨?_, .inr hfound.2.symm⟩, hanswered⟩
      rw [hfound.2]
      exact nofun
    · exact fine_of_nothing (h.finish (.move watch main standby) false)

theorem Own.connected (h : s.Own) (call : StartCall) (request : Request) (mode : Vpn.TrafficMode)
    (env : Surroundings)
    (hclean : request.direct = false → ∀ p ∈ s.pending, p.2 ≠ none ∧ p.2 ≠ some request.relayId) :
    (s.connected call request mode env).Own where
  current := fun _ hw _ => hw
  pending := by
    intro p hp _ hnames
    exfalso
    cases hdirect : request.direct with
    | true =>
      apply hnames.1
      exact if_pos hdirect
    | false =>
      obtain ⟨hknown, hother⟩ := hclean hdirect p hp
      have hrelay : (s.connected call request mode env).session.relayId =
          some request.relayId := by
        apply if_neg
        rw [hdirect]
        exact Bool.false_ne_true
      rcases hnames.2 with hnone | hsame
      · exact hknown hnone
      · exact hother (hsame.trans hrelay)
  answered := h.answered

section

variable (h : s.Watched)
include h

theorem Watched.continue' {stage : Stage} (hrunning : s.running = some (work, stage))
    (env : Surroundings)
    (ok : Bool) (hclean : s.Clean (.answered env ok)) : s.Fine (s.continue' work env ok stage) := by
  cases stage with
  | stoppingEngine =>
    have hwork : s.Licensed work := by
      rintro watch main standby rfl
      exact h.moving watch ⟨main, standby, .stoppingEngine, hrunning, .inl rfl⟩
    cases ok with
    | true => exact h.own.stopService hwork env
    | false => exact fine_of_nothing (h.own.stopped work false)
  | stoppingService => exact fine_of_nothing (h.own.stopped work ok)
  | beforeGameStart call =>
    cases ok with
    | true => exact h.own.readState work call env
    | false => exact fine_of_nothing (h.own.finish work true)
  | preparing call request =>
    cases ok with
    | true =>
      rw [Client.continue', if_neg (by decide)]
      split
      · apply fine_of_one
        · exact h.own.watched nofun nofun
        · trivial
      · apply fine_of_one
        · exact h.own.watched nofun nofun
        · trivial
    | false => exact h.own.abandon work call
  | resolving call | validating call =>
    cases ok with
    | true =>
      apply fine_of_one
      · exact h.own.watched nofun nofun
      · trivial
    | false => exact h.own.abandon work call
  | starting call request mode =>
    cases ok with
    | true =>
      apply fine_of_nothing
      apply Own.startDone
      apply h.own.connected
      intro hdirect
      apply hclean request.relayId
      rw [connectsTo, hrunning]
      exact if_neg (by rw [hdirect]; exact Bool.false_ne_true)
    | false => exact h.own.abandon work call
  | abandoning call =>
    have hfailed : (s.become (.plain .error)).Own := h.own.become nofun
    exact fine_of_nothing (hfailed.startDone work call)
  | cleaning =>
    have hfailed : (s.become (.plain .error)).Own := h.own.become nofun
    exact fine_of_nothing (hfailed.end'.finish work false)

theorem Watched.same (hown : s'.Own) (hsession : s'.session = s.session)
    (hrunning : s'.running = s.running) (htrace : s.failover.trace ⊆ s'.failover.trace) :
    s'.Watched where
  own := hown
  moving := by
    rintro watch ⟨main, standby, stage, hsome, hstage⟩
    rw [hrunning] at hsome
    obtain ⟨hstart, connected, uplink, now, witness, hmem⟩ :=
      h.moving watch ⟨main, standby, stage, hsome, hstage⟩
    rw [hsession]
    exact ⟨hstart, connected, uplink, now, witness, htrace hmem⟩

theorem Watched.quiet {c : Controller} (hquiet : s.failover.Quiet c) :
    ({ s with failover := c } : Client).Watched := by
  refine h.same (h.own.sub rfl hquiet fun p hp => ?_) rfl rfl hquiet.trace
  rcases mem_pending.1 hp with ⟨m, hm, hstage, rfl⟩ | hcall | hqueued
  · exact mem_pending.2 (.inl ⟨m, hquiet.moves m hm hstage, hstage, rfl⟩)
  · exact mem_pending.2 (.inr (.inl hcall))
  · exact mem_pending.2 (.inr (.inr hqueued))

theorem Watched.observe (hconnected : s.session.status = .connected) (elapsed : Nat)
    (connected : Bool) (uplink : Uplink) :
    ({ s with failover := s.failover.observe elapsed connected uplink } : Client).Watched := by
  rcases s.failover.observe_moves elapsed connected uplink with
    hquiet | ⟨session, silentMs, hcurrent, hsame, hmoves, htrace, hanswered⟩
  · exact h.quiet hquiet
  have hcases : ∀ p ∈ ({ s with failover := s.failover.observe elapsed connected uplink } :
      Client).pending, p ∈ s.pending ∨ p = (session, none) := by
    intro p hp
    rcases mem_pending.1 hp with ⟨m, hm, hstage, rfl⟩ | hcall | hqueued
    · rw [hmoves] at hm
      rcases mem_snoc.1 hm with hold | rfl
      · exact .inl (mem_pending.2 (.inl ⟨m, hold, hstage, rfl⟩))
      · exact .inr rfl
    · exact .inl (mem_pending.2 (.inr (.inl hcall)))
    · exact .inl (mem_pending.2 (.inr (.inr hqueued)))
  refine h.same ⟨?_, ?_, ?_⟩ rfl rfl htrace
  · intro w hw hstatus
    exact h.own.current w (hsame.symm.trans hw) hstatus
  · intro p hp hstatus hnames
    rcases hcases p hp with hold | rfl
    · exact h.own.pending p hold hstatus hnames
    · -- The new move is of the watch of the session itself.
      exact h.own.current session hcurrent hconnected
  · intro p hp
    rcases hcases p hp with hold | rfl
    · obtain ⟨connected', uplink', now, witness, hmem⟩ := h.own.answered p hold
      exact ⟨connected', uplink', now, witness, htrace hmem⟩
    · exact hanswered

theorem Watched.sessionExclusive (hwork : work.pendingMove = none) :
    (s.sessionExclusive work).Watched := by
  have hsame : (s.sessionExclusive work).pending = s.pending := by
    rw [pending, pending, Client.sessionExclusive, filterMap_append, filterMap_cons, hwork,
      filterMap_nil, append_nil]
  refine h.same (h.own.sub rfl (.refl _) fun p hp => ?_) rfl rfl fun _ => id
  rwa [hsame] at hp

theorem Watched.pollAnswered (now elapsed : Nat) (result : Except Vpn.ServiceError Runtime) :
    (s.pollAnswered now elapsed result).Watched := by
  rw [Client.pollAnswered]
  split
  next object hpolling =>
    have hanswered : ∀ polling lease,
        ({ s with polling := polling, lease := lease } : Client).Watched := fun _ _ =>
      h.same ⟨h.own.current, h.own.pending, h.own.answered⟩ rfl rfl fun _ => id
    dsimp only
    split
    next hcurrent =>
      cases result with
      | ok runtime =>
        dsimp only
        split
        · exact hanswered none _
        · exact (hanswered none _).observe hcurrent.2 _ _ _
      | error error =>
        dsimp only
        split
        · exact (hanswered (some .cleaning) _).sessionExclusive rfl
        · exact hanswered none _
    · exact hanswered none s.lease
  · exact h

theorem Watched.queueMove {call : MoveCall} (hanswered : s.failover.Answered call.watch)
    (hown : s.session.status = .connected → Names (some call.main) s.session →
      s.session.start = some call.watch) : (s.queueMove call).Watched := by
  have hcases : ∀ p ∈ (s.queueMove call).pending,
      p ∈ s.pending ∨ p = (call.watch, some call.main) := by
    intro p hp
    rcases mem_pending.1 hp with hscheduled | ⟨call', hcall, hstage, rfl⟩ |
      ⟨watch, main, standby, hmem, rfl⟩
    · exact .inl (mem_pending.2 (.inl hscheduled))
    · cases hcall
      cases hstage
    · rcases mem_snoc.1 hmem with hold | hnew
      · exact .inl (mem_pending.2 (.inr (.inr ⟨watch, main, standby, hold, rfl⟩)))
      · cases hnew
        exact .inr rfl
  refine h.same ⟨h.own.current, ?_, ?_⟩ rfl rfl fun _ => id
  · intro p hp hstatus hnames
    rcases hcases p hp with hold | rfl
    · exact h.own.pending p hold hstatus hnames
    · exact hown hstatus hnames
  · intro p hp
    rcases hcases p hp with hold | rfl
    · exact h.own.answered p hold
    · exact hanswered

theorem Watched.call {call : MoveCall} (hcall : call.stage = .probing →
    s.failover.Answered call.watch ∧
      (s.session.status = .connected → Names (some call.main) s.session →
        s.session.start = some call.watch)) :
    ({ s with call := some call } : Client).Watched := by
  have hcases : ∀ p ∈ ({ s with call := some call } : Client).pending,
      p ∈ s.pending ∨ (call.stage = .probing ∧ p = (call.watch, some call.main)) := by
    intro p hp
    rcases mem_pending.1 hp with hscheduled | ⟨call', hsame, hstage, rfl⟩ | hqueued
    · exact .inl (mem_pending.2 (.inl hscheduled))
    · cases hsame
      exact .inr ⟨hstage, rfl⟩
    · exact .inl (mem_pending.2 (.inr (.inr hqueued)))
  refine h.same ⟨h.own.current, ?_, ?_⟩ rfl rfl fun _ => id
  · intro p hp hstatus hnames
    rcases hcases p hp with hold | ⟨hstage, rfl⟩
    · exact h.own.pending p hold hstatus hnames
    · exact (hcall hstage).2 hstatus hnames
  · intro p hp
    rcases hcases p hp with hold | ⟨hstage, rfl⟩
    · exact h.own.answered p hold
    · exact (hcall hstage).1

theorem Watched.standbyProbed (reachable : Bool) :
    (s.standbyProbed reachable).Watched := by
  rw [Client.standbyProbed]
  split
  next call hcall =>
    split
    next hstage =>
      have hmem : (call.watch, some call.main) ∈ s.pending :=
        mem_pending.2 (.inr (.inl ⟨call, hcall, hstage, rfl⟩))
      split
      · exact h.queueMove (h.own.answered _ hmem) (h.own.pending _ hmem)
      · apply h.call
        exact nofun
    · exact h
  · exact h

theorem Watched.moveToStandby {watch : Nat} (hanswered : s.failover.Answered watch)
    (hown : s.session.status = .connected → s.session.relayId ≠ none → s.session.start = some watch)
    (directWitness : Bool) (env : Surroundings) :
    s.Fine (s.moveToStandby watch directWitness env) := by
  have howned : ∀ main, s.session.status = .connected → Names (some main) s.session →
      s.session.start = some watch := fun _ hstatus hnames => hown hstatus hnames.1
  rw [Client.moveToStandby]
  split
  · apply fine_of_nothing
    apply h.call
    exact nofun
  next main _ =>
    split
    · apply fine_of_nothing
      apply h.call
      exact nofun
    split
    · apply fine_of_one
      · apply h.call
        exact fun _ => ⟨hanswered, howned main.id⟩
      · trivial
    · exact fine_of_nothing (h.queueMove hanswered (howned main.id))

theorem Watched.moveCalled (env : Surroundings) : s.Fine (s.moveCalled env) := by
  rw [Client.moveCalled]
  split
  next m moves hmoves =>
    split
    next hscheduled =>
      have hmem : (m.session, none) ∈ s.pending := by
        refine mem_pending.2 (.inl ⟨m, ?_, hscheduled.1, rfl⟩)
        rw [hmoves]
        exact mem_cons_self
      have hcalled := h.quiet (Controller.quiet_moveCalled s.failover 0)
      have hfine := hcalled.moveToStandby
        ((Controller.quiet_moveCalled s.failover 0).answered (h.own.answered _ hmem))
        (fun hstatus hrelay => h.own.pending _ hmem hstatus ⟨hrelay, .inl rfl⟩)
        ((s.failover.watches[m.session]?).any Watch.directWitness) env
      refine ⟨hfine.1, fun sent hsent => ?_⟩
      -- It sends nothing but the probe of the standby relay.
      rw [Client.moveToStandby] at hsent
      split at hsent
      · cases hsent
      split at hsent
      · cases hsent
      · split at hsent
        · rw [mem_singleton.1 hsent]
          trivial
        · cases hsent
    · exact fine_of_nothing h
  · exact fine_of_nothing h

theorem Watched.moveResolved : s.moveResolved.Watched := by
  rw [Client.moveResolved]
  split
  next outcome hcall =>
    have hquiet := h.quiet (Controller.quiet_moveResolved s.failover 0 outcome)
    refine hquiet.same (hquiet.own.sub rfl (.refl _) fun p hp => ?_) rfl rfl fun _ => id
    rcases mem_pending.1 hp with hscheduled | ⟨call, hnone, -⟩ | hqueued
    · exact mem_pending.2 (.inl hscheduled)
    · cases hnone
    · exact mem_pending.2 (.inr (.inr hqueued))
  · exact h

theorem Watched.aside (hsession : s'.session = s.session) (hqueue : s'.queue = s.queue)
    (hrunning : s'.running = s.running) (hfailover : s'.failover = s.failover)
    (hcall : s'.call = s.call) :
    s'.Watched := by
  have hsame : s'.pending = s.pending := by
    rw [pending, pending, hqueue, hfailover, hcall]
  have hquiet : s.failover.Quiet s'.failover := by
    rw [hfailover]
    exact .refl _
  exact h.same (h.own.sub hsession hquiet fun p hp => hsame ▸ hp) hsession hrunning hquiet.trace

theorem Watched.restore (previous : Targets) :
    s'.Fine (s.restore previous) := by
  refine ⟨h.aside rfl rfl rfl rfl rfl, fun sent hsent => ?_⟩
  obtain ⟨rules, -, rfl⟩ := mem_map.1 hsent
  trivial

theorem Watched.editTurn : s.Fine s.editTurn := by
  rw [Client.editTurn]
  split
  · refine ⟨h.aside rfl rfl rfl rfl rfl, fun sent hsent => ?_⟩
    obtain ⟨rules, -, rfl⟩ := mem_map.1 hsent
    trivial
  · exact fine_of_nothing h

theorem Watched.editAnswered (ok saved : Bool) : s.Fine (s.editAnswered ok saved) := by
  have haccepted : ∀ rules, (s.accept rules).Watched := fun _ => h.aside rfl rfl rfl rfl rfl
  rw [Client.editAnswered]
  split
  · exact fine_of_nothing h
  · split
    · split
      · apply fine_of_nothing
        exact h.aside rfl rfl rfl rfl rfl
      · exact (haccepted _).restore _
    · exact h.restore _
  · apply fine_of_nothing
    cases ok <;> exact h.aside rfl rfl rfl rfl rfl

end

end Parts

/-! ## Steps and runs -/

theorem watched_step {s : Client} (h : s.Watched) {e : ClientEvent} (hclean : s.Clean e) :
    s.Fine (s.step e) := by
  cases e with
  | engineStart | engineStop | quit => exact fine_of_nothing (h.sessionExclusive rfl)
  | turn env =>
    rw [Client.step]
    split
    next work queue hrunning hqueue =>
      have hsub : ∀ p ∈ ({ s with queue := queue } : Client).pending, p ∈ s.pending := by
        intro p hp
        rcases mem_pending.1 hp with hscheduled | hcall | ⟨watch, main, standby, hmem, rfl⟩
        · exact mem_pending.2 (.inl hscheduled)
        · exact mem_pending.2 (.inr (.inl hcall))
        · refine mem_pending.2 (.inr (.inr ⟨watch, main, standby, ?_, rfl⟩))
          rw [hqueue]
          exact mem_cons_of_mem _ hmem
      have hown : ({ s with queue := queue } : Client).Own := h.own.sub rfl (.refl _) hsub
      have hfine := hown.begin' work env fun watch main standby heq => by
        have hmem : (watch, some main) ∈ s.pending := by
          refine mem_pending.2 (.inr (.inr ⟨watch, main, standby, ?_, rfl⟩))
          rw [hqueue, heq]
          exact mem_cons_self
        exact ⟨h.own.answered _ hmem, h.own.pending _ hmem⟩
      exact hfine.of_trace rfl
    · exact fine_of_nothing h
  | answered env ok =>
    rw [Client.step]
    split
    next work stage hrunning => exact h.continue' hrunning env ok hclean
    · exact fine_of_nothing h
  | poll serviceReady =>
    show s.Fine (s.poll serviceReady)
    rw [Client.poll]
    split
    · exact fine_of_nothing h
    · apply fine_of_one
      · exact h.aside rfl rfl rfl rfl rfl
      · trivial
  | pollAnswered now elapsed result => exact fine_of_nothing (h.pollAnswered now elapsed result)
  | probeAnswered elapsed reachable =>
    exact fine_of_nothing (h.quiet (Controller.quiet_probeAnswered _ _ _ _))
  | probeFreed => exact fine_of_nothing (h.quiet (Controller.quiet_probeFreed _ _))
  | moveCalled env => exact h.moveCalled env
  | standbyProbed reachable => exact fine_of_nothing (h.standbyProbed reachable)
  | moveResolved => exact fine_of_nothing h.moveResolved
  | moveFreed => exact fine_of_nothing (h.quiet (Controller.quiet_moveFreed _ _))
  | setTrafficMode mode =>
    apply fine_of_nothing
    exact h.aside rfl rfl rfl rfl rfl
  | groupAdded id =>
    apply fine_of_nothing
    split
    · exact h.aside rfl rfl rfl rfl rfl
    · exact h
  | edit change =>
    cases change with
    | add id kind value groupId =>
      apply fine_of_nothing
      split
      · exact h
      · exact h.aside rfl rfl rfl rfl rfl
    | _ =>
      apply fine_of_nothing
      exact h.aside rfl rfl rfl rfl rfl
  | editTurn => exact h.editTurn
  | editAnswered ok saved => exact h.editAnswered ok saved

theorem watched_new (targets : Targets) (trafficMode : Vpn.TrafficMode) (now : Nat) :
    (new targets trafficMode now).Watched := by
  refine ⟨⟨?_, ?_, ?_⟩, ?_⟩
  · intro w hw
    cases hw
  · intro p hp
    cases hp
  · intro p hp
    cases hp
  · rintro watch ⟨main, standby, stage, hrunning, -⟩
    cases hrunning

/-- In a run of clean steps a move stops the session of the start whose watch has answered
`failover`. -/
theorem moves_stop_their_own (targets : Targets) (trafficMode : Vpn.TrafficMode) (now : Nat)
    (es : List ClientEvent)
    (hclean : Meets step (fun c e => c.state.Clean e) ⟨new targets trafficMode now, []⟩ es) :
    ∀ before e after, es = before ++ e :: after →
      ∀ sent ∈ ((exec step (new targets trafficMode now) before).state.step e).2,
        (exec step (new targets trafficMode now) before).state.Right sent := by
  rintro before e after rfl
  rw [meets_append] at hclean
  have hwatched : (exec step (new targets trafficMode now) before).state.Watched :=
    execFrom_invariant_of_meets (I := fun c => c.state.Watched)
      (fun _ _ hclean h => (watched_step h hclean).1) before _ hclean.1
      (watched_new targets trafficMode now)
  exact (watched_step hwatched hclean.2.1).2

/-! ### Concrete runs -/

/-- A session stops. -/
def stops : List ClientEvent :=
  .engineStop :: .turn twoRelays :: List.replicate 2 (.answered twoRelays true)

/-- A poll finds every path down, and a direct probe fails. -/
def silentPoll (elapsed : Nat) : List ClientEvent :=
  [.poll true, .pollAnswered 0 elapsed (.ok ⟨false, false, .up⟩), .probeAnswered 0 false,
    .probeFreed]

/-- A session whose watch answers `failover`, up to the probe of the standby relay. -/
def observed : List ClientEvent :=
  starts ++ [.poll true, .pollAnswered 0 0 (.ok ⟨false, true, .up⟩), .probeAnswered 0 true,
    .probeFreed] ++
    silentPoll 0 ++ silentPoll 15000 ++ silentPoll 15000 ++
    [.poll true, .pollAnswered 0 0 (.ok ⟨false, false, .up⟩), .moveCalled twoRelays]

instance (s : Client) (e : ClientEvent) : Decidable (s.Clean e) :=
  match h : s.connectsTo e with
  | none => isTrue fun relayId hsome => by
      rw [h] at hsome
      cases hsome
  | some relayId =>
    decidable_of_iff (∀ p ∈ s.pending, p.2 ≠ none ∧ p.2 ≠ some relayId)
      ⟨fun hall other hother => by
          rw [h] at hother
          cases hother
          exact hall,
        fun hclean => hclean relayId h⟩

/-- The move of a session that goes on while the standby is probed. -/
theorem moves_stop_their_own_observed :
    (Sent.stopWireguard (.move 0 ['a'] ['b']) (some 0)) ∈
        ((exec step oneTarget (observed ++ [.standbyProbed true])).state.step (.turn twoRelays)).2 ∧
      (exec step oneTarget (observed ++ [.standbyProbed true])).state.Right
        (.stopWireguard (.move 0 ['a'] ['b']) (some 0)) := by
  have hclean : Meets step (fun c e => c.state.Clean e) ⟨oneTarget, []⟩
      (observed ++ [.standbyProbed true] ++ [.turn twoRelays]) := by
    decide +kernel
  have hsent : (Sent.stopWireguard (.move 0 ['a'] ['b']) (some 0)) ∈
      ((exec step oneTarget (observed ++ [.standbyProbed true])).state.step
        (.turn twoRelays)).2 := by
    decide +kernel
  exact ⟨hsent, moves_stop_their_own _ _ _ _ hclean _ _ [] rfl _ hsent⟩

/-- The user stops the session and starts another on the same relay while the standby is probed: the
move stops the second session, which is of the start 1, for the watch of the start 0. -/
theorem move_stops_the_next_session :
    ((exec step oneTarget (observed ++ stops ++ starts ++ [.standbyProbed true])).state.step
      (.turn twoRelays)).2 = [.stopWireguard (.move 0 ['a'] ['b']) (some 1)] := by
  decide +kernel

end Client

end Game

end GamePath.Electron
