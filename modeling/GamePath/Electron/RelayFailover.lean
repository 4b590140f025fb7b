import GamePath.Lib.Run

/-!
# When a session moves to its standby relay (`relay-failover.cjs`)

`RelayFailoverWatch` sees one observation of a session after the other and asks for probes and, once
every witness agrees, for the move. `RelayFailoverController` runs it: it sends the probes it asks
for and calls `moveToStandby`, both as chains of promises that go on while further observations come
in. A chain notes its answer in the watch it was begun for, which may belong to a session that is
over by then, and lets the next one begin only in a later step.

The clock is part of the state and every reading moves it on by some time, so readings never
decrease. A move that is rejected counts as one that moved, as in the source. The trace is history,
kept to speak about.
-/

namespace GamePath.Electron

def outageWithWitnessMs : Nat := 30000

def outageWithoutWitnessMs : Nat := 60000

def directProbeIntervalMs : Nat := 5000

def directFailuresRequired : Nat := 3

def baselineIntervalMs : Nat := 10 * 60000

def relayAliveHoldMs : Nat := 60000

/-- What the uplink monitor reports. -/
inductive Uplink where
  | up
  | down
  | unknown
  deriving DecidableEq

/-- The action an observation is answered with. -/
inductive Action where
  | none
  | probeBaseline
  | probeOutage
  | failover
  deriving DecidableEq

/-! ## The watch -/

/-- `RelayFailoverWatch`. -/
structure Watch where
  carried : Bool
  done : Bool
  directWitness : Bool
  lastBaselineAt : Option Nat
  aliveUntil : Option Nat
  epoch : Nat
  outageSince : Option Nat
  directFailures : Nat
  lastDirectProbeAt : Option Nat

namespace Watch

variable (w : Watch)

def resetOutage : Watch :=
  { w with
    outageSince := none, directFailures := 0, lastDirectProbeAt := none, epoch := w.epoch + 1 }

/-- The constructor. -/
def new : Watch := resetOutage ⟨false, false, false, none, none, 0, none, 0, none⟩

/-- `if (this.outageSince !== null) this.resetOutage()`. -/
def endOutage : Watch := if w.outageSince.isSome then w.resetOutage else w

/-- Whether so much time has passed since an event, or there was none. -/
def due (last : Option Nat) (now interval : Nat) : Bool := last.all fun at' => interval ≤ now - at'

/-- `observe` of a session that is connected. -/
def observeConnected (now : Nat) : Action × Watch :=
  let w := { w with carried := true }.endOutage
  if due w.lastBaselineAt now baselineIntervalMs then (.probeBaseline,
    { w with lastBaselineAt := some now })
  else (.none, w)

/-- `observe` of a session with every path down and the uplink up. -/
def observeOutage (now : Nat) : Action × Watch :=
  let since := w.outageSince.getD now
  let w := { w with outageSince := some since }
  let silent := now - since
  if !w.directWitness then (if outageWithoutWitnessMs ≤ silent then .failover else .none, w)
  else if directFailuresRequired ≤ w.directFailures ∧ outageWithWitnessMs ≤ silent then
    (.failover, w)
  else if due w.lastDirectProbeAt now directProbeIntervalMs then
    (.probeOutage, { w with lastDirectProbeAt := some now })
  else (.none, w)

/-- `observe`. The epoch of the answer is that of the watch it leaves. -/
def observe (connected : Bool) (uplink : Uplink) (now : Nat) : Action × Watch :=
  if w.done then (.none, w)
  else if connected then w.observeConnected now
  else if !w.carried then (.none, w)
  else if w.aliveUntil.any fun until' => now < until' then (.none, w)
  else if uplink ≠ .up then (.none, w.endOutage)
  else w.observeOutage now

def noteBaseline (reachable : Bool) : Watch :=
  if reachable then { w with directWitness := true } else w

def noteOutageProbe (reachable : Bool) (epoch now : Nat) : Watch :=
  if epoch ≠ w.epoch ∨ w.done then w
  -- The relay is up; what failed is the paths to it. The clock starts again, after a quiet spell.
  else if reachable then { w.resetOutage with aliveUntil := some (now + relayAliveHoldMs) }
  else { w with directFailures := w.directFailures + 1 }

def silentFor (now : Nat) : Nat := w.outageSince.elim 0 fun since => now - since

def finish : Watch := { w with done := true }

theorem endOutage_cases :
    (w.outageSince = none ∧ w.endOutage = w) ∨
      (w.outageSince ≠ none ∧ w.endOutage = w.resetOutage) := by
  rw [endOutage]
  cases h : w.outageSince with
  | none => exact .inl ⟨rfl, rfl⟩
  | some since => exact .inr ⟨by simp, rfl⟩

theorem observeOutage_cases (now : Nat) :
    (∃ last, w.observeOutage now =
      (.probeOutage, { w with
        outageSince := some (w.outageSince.getD now), lastDirectProbeAt := last })) ∨
    (w.observeOutage now = (.none, { w with outageSince := some (w.outageSince.getD now) })) ∨
    (w.observeOutage now = (.failover, { w with outageSince := some (w.outageSince.getD now) }) ∧
      ((w.directWitness = false ∧ outageWithoutWitnessMs ≤ now - w.outageSince.getD now) ∨
        (directFailuresRequired ≤ w.directFailures ∧
          outageWithWitnessMs ≤ now - w.outageSince.getD now))) := by
  rw [observeOutage]
  cases hwitness : w.directWitness with
  | false =>
    by_cases hlong : outageWithoutWitnessMs ≤ now - w.outageSince.getD now
    · exact .inr (.inr ⟨by simp [hlong], .inl ⟨rfl, hlong⟩⟩)
    · exact .inr (.inl (by simp [hlong]))
  | true =>
    by_cases hlong : directFailuresRequired ≤ w.directFailures ∧
      outageWithWitnessMs ≤ now - w.outageSince.getD now
    · exact .inr (.inr ⟨by simp [hlong], .inr hlong⟩)
    · by_cases hdue : due w.lastDirectProbeAt now directProbeIntervalMs = true
      · exact .inl ⟨some now, by simp [hlong, hdue]⟩
      · exact .inr (.inl (by simp [hlong, hdue]))

/-- What `observe` can answer before the watch is done. -/
theorem observe_cases {w : Watch} (hdone : w.done = false) (connected : Bool) (uplink : Uplink)
    (now : Nat) :
    (connected = true ∧ ∃ action last, (action = .none ∨ action = .probeBaseline) ∧
      w.observe connected uplink now =
        (action, { Watch.endOutage { w with carried := true } with lastBaselineAt := last })) ∨
    (connected = false ∧ (w.carried = false ∨ ∃ until', w.aliveUntil = some until' ∧ now < until') ∧
      w.observe connected uplink now = (.none, w)) ∨
    (connected = false ∧ w.observe connected uplink now = (.none, w.endOutage)) ∨
    (connected = false ∧ uplink = .up ∧ w.carried = true ∧ (∀ until', w.aliveUntil = some until' →
      until' ≤ now) ∧
      w.observe connected uplink now = w.observeOutage now) := by
  rw [observe, if_neg (by simp [hdone])]
  cases connected with
  | true =>
    refine .inl ⟨rfl, ?_⟩
    rw [if_pos rfl, observeConnected]
    split
    · exact ⟨_, _, .inr rfl, rfl⟩
    · exact ⟨_, (Watch.endOutage { w with carried := true }).lastBaselineAt, .inl rfl, rfl⟩
  | false =>
    rw [if_neg Bool.false_ne_true]
    by_cases hcarried : w.carried = true
    · rw [if_neg (by simp [hcarried])]
      by_cases hheld : (w.aliveUntil.any fun until' => decide (now < until')) = true
      · rw [if_pos hheld]
        obtain ⟨until', hsome, hlt⟩ := (Option.any_eq_true _ _).1 hheld
        exact .inr (.inl ⟨rfl, .inr ⟨until', hsome, of_decide_eq_true hlt⟩, rfl⟩)
      rw [if_neg hheld]
      by_cases hup : uplink = .up
      · refine .inr (.inr (.inr ⟨rfl, hup, hcarried, fun until' hsome => ?_,
          if_neg (by simp [hup])⟩))
        rw [hsome] at hheld
        simpa using hheld
      · exact .inr (.inr (.inl ⟨rfl, if_pos hup⟩))
    · refine .inr (.inl ⟨rfl, .inl (Bool.eq_false_iff.2 hcarried), if_pos ?_⟩)
      simp [hcarried]

end Watch

/-! ## The controller -/

/-- A probe that was sent, for a session and in an epoch of its watch; `noted` once its answer was.
-/
structure Probe where
  id : Nat
  session : Nat
  outage : Bool
  epoch : Nat
  noted : Bool

/-- How `moveToStandby` ends; `rejected` is logged and taken for `moved`. -/
inductive Outcome where
  | moved
  | noStandby
  | standbyDown
  | rejected
  deriving DecidableEq

/-- How far a move is: `moveToStandby` is yet to be called, it is running, or its outcome was noted.
-/
inductive MoveStage where
  | scheduled
  | running
  | resolved
  deriving DecidableEq

/-- A move that was begun. -/
structure Move where
  session : Nat
  silentMs : Nat
  stage : MoveStage

/-- What happened. -/
inductive Entry where
  /-- An observation the watch of a session saw, its answer, and whether the watch had a direct
  witness then. -/
  | observed (session : Nat) (connected : Bool) (uplink : Uplink) (now : Nat) (action : Action)
    (witness : Bool)
  /-- An observation of a session that its watch did not see. -/
  | dropped (session : Nat)
  | requested (id session : Nat) (outage : Bool)
  | answered (id session : Nat) (outage reachable : Bool)
  /-- `moveToStandby` is called. -/
  | called (session silentMs : Nat) (witness : Bool)
  | resolved (session : Nat) (outcome : Outcome)
  deriving DecidableEq

/-- `RelayFailoverController`, with the watch of every session so far, the chains under way, and the
clock. -/
structure Controller where
  watches : List Watch
  /-- The session whose watch is `this.watch`. -/
  current : Option Nat
  probing : Bool
  moving : Bool
  probes : List Probe
  moves : List Move
  clock : Nat
  probesSent : Nat
  trace : List Entry

/-- What happens to the controller. `elapsed` is the time since the last reading of the clock. -/
inductive FailoverEvent where
  | begin (watching : Bool)
  | ended
  | observe (elapsed : Nat) (connected : Bool) (uplink : Uplink)
  /-- A probe is answered, or rejected, which counts as no answer. -/
  | probeAnswered (index elapsed : Nat) (reachable : Bool)
  /-- The last step of a probe's chain. -/
  | probeFreed (index : Nat)
  /-- A move's chain comes to its call. -/
  | moveCalled (index : Nat)
  | moveResolved (index : Nat) (outcome : Outcome)
  /-- The last step of a move's chain. -/
  | moveFreed (index : Nat)

namespace Controller

/-- A controller without a session. -/
def new (clock : Nat) : Controller := ⟨[], none, false, false, [], [], clock, 0, []⟩

variable (s : Controller)

/-- A watch is changed. -/
def modifyWatch (session : Nat) (f : Watch → Watch) : Controller :=
  { s with watches := s.watches.modify session f }

/-- Something happened. -/
def note (e : Entry) : Controller := { s with trace := s.trace ++ [e] }

def begin' (watching : Bool) : Controller :=
  { s with
    watches := s.watches ++ [if watching then Watch.new else Watch.new.finish]
    current := some s.watches.length }

def end' : Controller :=
  match s.current with
  | none => s
  | some session => { s.modifyWatch session Watch.finish with current := none }

def probe (session : Nat) (outage : Bool) (epoch : Nat) : Controller :=
  if s.probing then
    -- A missed turn is simply taken at the next poll.
    if outage then s.modifyWatch session fun w => { w with lastDirectProbeAt := none } else s
  else
    note
      { s with
        probing := true
        probes := s.probes ++ [⟨s.probesSent, session, outage, epoch, false⟩]
        probesSent := s.probesSent + 1 }
      (.requested s.probesSent session outage)

def move (session silentMs : Nat) : Controller :=
  { s with moving := true, moves := s.moves ++ [⟨session, silentMs, .scheduled⟩] }

/-- `observe`, for the watch of the current session. -/
def watchObserves (session : Nat) (w : Watch) (connected : Bool) (uplink : Uplink) : Controller :=
  let answer := w.observe connected uplink s.clock
  let s := (s.modifyWatch session fun _ => answer.2).note
    (.observed session connected uplink s.clock answer.1 w.directWitness)
  match answer.1 with
  | .none => s
  | .probeBaseline => s.probe session false answer.2.epoch
  | .probeOutage => s.probe session true answer.2.epoch
  | .failover => s.move session (answer.2.silentFor s.clock)

def observe (elapsed : Nat) (connected : Bool) (uplink : Uplink) : Controller :=
  match s.current with
  | none => s
  | some session =>
    match s.watches[session]? with
    | none => s
    | some w =>
      if w.done || s.moving then s.note (.dropped session)
      else { s with clock := s.clock + elapsed }.watchObserves session w connected uplink

/-- The answer of a probe is noted in the watch it was sent for. -/
def probeAnswered (index elapsed : Nat) (reachable : Bool) : Controller :=
  match s.probes[index]? with
  | none => s
  | some p =>
    if p.noted then s
    else
      let s := note { s with probes := s.probes.set index { p with noted := true } }
        (.answered p.id p.session p.outage reachable)
      if p.outage then
        let s := { s with clock := s.clock + elapsed }
        s.modifyWatch p.session fun w => w.noteOutageProbe reachable p.epoch s.clock
      else s.modifyWatch p.session fun w => w.noteBaseline reachable

/-- The probe's chain is over. -/
def probeFreed (index : Nat) : Controller :=
  match s.probes[index]? with
  | none => s
  | some p => if p.noted then { s with probing := false, probes := s.probes.eraseIdx index } else s

/-- The move's chain calls `moveToStandby`. -/
def moveCalled (index : Nat) : Controller :=
  match s.moves[index]? with
  | none => s
  | some m =>
    if m.stage = .scheduled then
      note { s with moves := s.moves.set index { m with stage := .running } }
        (.called m.session m.silentMs ((s.watches[m.session]?).any Watch.directWitness))
    else s

/-- `moveToStandby` is done. -/
def moveResolved (index : Nat) (outcome : Outcome) : Controller :=
  match s.moves[index]? with
  | none => s
  | some m =>
    if m.stage = .running then
      let s := note { s with moves := s.moves.set index { m with stage := .resolved } }
        (.resolved m.session outcome)
      s.modifyWatch m.session fun w => if outcome = .standbyDown then w.resetOutage else w.finish
    else s

/-- The move's chain is over. -/
def moveFreed (index : Nat) : Controller :=
  match s.moves[index]? with
  | none => s
  | some m => if m.stage = .resolved then
      { s with moving := false, moves := s.moves.eraseIdx index } else s

/-- One event. -/
def step : FailoverEvent → Controller
  | .begin watching => s.begin' watching
  | .ended => s.end'
  | .observe elapsed connected uplink => s.observe elapsed connected uplink
  | .probeAnswered index elapsed reachable => s.probeAnswered index elapsed reachable
  | .probeFreed index => s.probeFreed index
  | .moveCalled index => s.moveCalled index
  | .moveResolved index outcome => s.moveResolved index outcome
  | .moveFreed index => s.moveFreed index

end Controller

end GamePath.Electron
