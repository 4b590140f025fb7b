import GamePath.Lib.Loop
import GamePath.Engine.Protocol
import GamePath.Engine.Replay
import GamePath.Engine.FecDecoder

/-!
# The client's relay ingress

`RelayIngress` of `engine/src/session/state.rs`: the replay window and the repair decoder under one
lock, and the two entry points that let in the first copy of a packet to the inbound queue.

A call holds the lock throughout, so a run is a list of calls. What the outside decides during a
call is its `Environment`: the clock readings and whether each `try_send` finds room. A call's
`Progress` collects the packets that reached the queue, with the sequence each was admitted under.
Packet diagnostics are left out.
-/

namespace GamePath.Engine.Session

open Lib Protocol Replay Fec

/-- What the outside answers during one call: the clock at its `n`-th reading, and whether the
queue takes the packet of the `n`-th `try_send`. -/
structure Environment where
  clock : Nat → Instant
  room : Nat → Bool

/-- `RelayIngress`, with the state behind its lock. -/
structure RelayIngress where
  clientId : ClientId
  sessionId : UInt64
  replay : ReplayWindow
  repair : Decoder
  recovered : Nat
  repairQueueRejected : Nat

/-- A call in progress. -/
structure Progress where
  ingress : RelayIngress
  readings : Nat
  sends : Nat
  handed : List Sent

namespace RelayIngress

def new (clientId : ClientId) (sessionId : UInt64) : RelayIngress :=
  ⟨clientId, sessionId, ReplayWindow.default, Decoder.default, 0, 0⟩

def isOurs (i : RelayIngress) (header : FrameHeader) : Bool :=
  decide (header.clientId = i.clientId) && decide (header.sessionId = i.sessionId) &&
    header.has flagServerToClient && !header.has flagControl

/-- `|sequence| !replay.would_accept(sequence)`. -/
def delivered (i : RelayIngress) (sequence : UInt64) : Bool := !i.replay.wouldAccept sequence

/-- The start of a call. -/
def start (i : RelayIngress) : Progress := ⟨i, 0, 0, []⟩

end RelayIngress

namespace Progress

def remember (p : Progress) (sequence : UInt64) (packet : Bytes) : Progress :=
  { p with ingress := { p.ingress with repair := p.ingress.repair.remember sequence packet } }

def accept (p : Progress) (sequence : UInt64) : Progress :=
  { p with ingress := { p.ingress with replay := (p.ingress.replay.accept sequence).1 } }

/-- `inbound.try_send`, and whether the queue took the packet. -/
def trySend (env : Environment) (p : Progress) (sequence : UInt64) (packet : Bytes) :
    Progress × Bool :=
  if env.room p.sends then
    ({ p with sends := p.sends + 1, handed := p.handed ++ [(sequence, packet)] }, true)
  else ({ p with sends := p.sends + 1 }, false)

def admitRebuilt (env : Environment) (p : Progress) (sequence : UInt64) (packet : Bytes) :
    Progress × Bool :=
  if p.ingress.replay.wouldAccept sequence then
    match (p.remember sequence packet).trySend env sequence packet with
    -- Not accepted: the frame itself, or another repair, may still bring the packet.
    | (p, false) =>
      ({ p with ingress :=
          { p.ingress with repairQueueRejected := p.ingress.repairQueueRejected + 1 } }, false)
    | (p, true) =>
      let p := p.accept sequence
      ({ p with ingress := { p.ingress with recovered := p.ingress.recovered + 1 } }, true)
  else (p, false)

/-- One turn of the loop in `retry_pending`, with the packet the decoder rebuilt. -/
def retry (env : Environment) (p : Progress) : Progress × Option (UInt64 × Bytes) :=
  let result := p.ingress.repair.retryPending (env.clock p.readings) p.ingress.delivered
  ({ p with ingress := { p.ingress with repair := result.1 }, readings := p.readings + 1 },
    result.2)

/-- The loop of `retry_pending`, for at most `fuel` turns. -/
def retryLoop (env : Environment) : Nat → Progress → Progress
  | 0, p => p
  | fuel + 1, p =>
    if p.ingress.repair.hasPending then
      match p.retry env with
      | (p, none) => p
      | (p, some (sequence, packet)) =>
        retryLoop env fuel (p.admitRebuilt env sequence packet).1
    else p

/-- `retry_pending`: every turn that rebuilds a packet takes a repair off the list, so its length is
fuel enough (`retryPending_eq`). -/
def retryPending (env : Environment) (p : Progress) : Progress :=
  retryLoop env p.ingress.repair.pending.length p

end Progress

namespace RelayIngress

/-- `enqueue_authenticated`. An error hands the packet back. -/
def enqueueAuthenticated (i : RelayIngress) (env : Environment) (header : FrameHeader)
    (plaintext : Bytes) : Progress × Except Bytes Bool :=
  if !i.isOurs header || header.has flagRepair then (i.start, .ok false)
  else if !i.replay.wouldAccept header.sequence then (i.start, .ok false)
  else
    -- Remembered even if the queue turns it away: its bytes still help to rebuild a neighbour.
    match (i.start.remember header.sequence plaintext).trySend env header.sequence plaintext with
    -- The window is not touched, so another copy can be taken later.
    | (p, false) => (p, .error plaintext)
    | (p, true) => ((p.accept header.sequence).retryPending env, .ok true)

def enqueueRepair (i : RelayIngress) (env : Environment) (header : FrameHeader) (payload : Bytes) :
    Progress × Bool :=
  if !i.isOurs header || !header.has flagRepair then (i.start, false)
  -- A repair takes its own sequence whatever comes of it.
  else if !(i.replay.accept header.sequence).2 then (i.start.accept header.sequence, false)
  else
    let p := i.start.accept header.sequence
    let result := p.ingress.repair.acceptRepair payload (env.clock p.readings) p.ingress.delivered
    let p : Progress :=
      { p with ingress := { p.ingress with repair := result.1 }, readings := p.readings + 1 }
    let admitted : Progress × Bool :=
      match result.2 with
      | some (sequence, packet) => p.admitRebuilt env sequence packet
      | none => (p, false)
    (admitted.1.retryPending env, admitted.2)

/-- One call on the ingress, by any path worker. -/
inductive Call where
  | authenticated (header : FrameHeader) (plaintext : Bytes) (env : Environment)
  | repair (header : FrameHeader) (payload : Bytes) (env : Environment)

/-- The call, from the start to its end. -/
def perform (i : RelayIngress) : Call → Progress
  | .authenticated header plaintext env => (i.enqueueAuthenticated env header plaintext).1
  | .repair header payload env => (i.enqueueRepair env header payload).1

/-- One call: the ingress after it and what it handed to the queue. -/
def step (i : RelayIngress) (call : Call) : RelayIngress × List Sent :=
  ((i.perform call).ingress, (i.perform call).handed)

end RelayIngress

/-! ## The loop over waiting repairs ends -/

namespace Progress

variable (env : Environment)

theorem ingress_trySend (p : Progress) (sequence : UInt64) (packet : Bytes) :
    (p.trySend env sequence packet).1.ingress = p.ingress := by
  unfold trySend
  split <;> rfl

theorem pending_admitRebuilt (p : Progress) (sequence : UInt64) (packet : Bytes) :
    (p.admitRebuilt env sequence packet).1.ingress.repair.pending = p.ingress.repair.pending := by
  have hsend := ingress_trySend env (p.remember sequence packet) sequence packet
  have hpending :
      ((p.remember sequence packet).trySend env sequence packet).1.ingress.repair.pending
      = p.ingress.repair.pending := by
    rw [hsend]
    exact pending_remember _ _ _
  unfold admitRebuilt
  split
  · generalize (p.remember sequence packet).trySend env sequence packet = result at hpending
    obtain ⟨q, taken⟩ := result
    cases taken with
    | false | true => exact hpending
  · rfl

/-- One turn of the loop in `retry_pending`, from the test of its condition on. -/
def retryTurn (p : Progress) : Loop.Turn Progress :=
  if p.ingress.repair.hasPending then
    match p.retry env with
    | (q, none) => .stop q
    | (q, some packet) => .again (q.admitRebuilt env packet.1 packet.2).1
  else .stop p

theorem isLoop_retryLoop : Loop.IsLoop (retryTurn env) (retryLoop env) := by
  refine ⟨fun p => rfl, fun fuel p => ?_⟩
  rw [retryLoop, retryTurn]
  split
  · cases p.retry env with
    | mk q rebuilt =>
      cases rebuilt with
      | none | some => rfl
  · rfl

theorem decreases_retryTurn :
    Loop.Decreases (retryTurn env) fun p => p.ingress.repair.pending.length := by
  refine ⟨fun p q hagain => ?_, fun p hnone => ?_⟩
  · unfold retryTurn at hagain
    split at hagain
    · cases hretry : p.retry env with
      | mk r rebuilt =>
        rw [hretry] at hagain
        cases rebuilt with
        | none => cases hagain
        | some packet =>
          have hshorter := length_pending_retryPending (congrArg Prod.snd hretry)
          have hr : r.ingress.repair = (p.ingress.repair.retryPending
              (env.clock p.readings) p.ingress.delivered).1 :=
            congrArg (fun result => result.1.ingress.repair) hretry.symm
          rw [← hr] at hshorter
          rw [← Loop.Turn.again.inj hagain, pending_admitRebuilt]
          exact hshorter
    · cases hagain
  · have hnil : p.ingress.repair.pending = [] := List.length_eq_zero_iff.1 hnone
    rw [retryTurn, Decoder.hasPending, hnil]
    rfl

/-- `retry_pending` is the loop of the source: it goes on as long as a repair is waiting and the
decoder rebuilds a packet. -/
theorem retryPending_eq (p : Progress) :
    p.retryPending env = (p.retryTurn env).andThen fun q => q.retryPending env :=
  (isLoop_retryLoop env).unroll (decreases_retryTurn env) p

end Progress

end GamePath.Engine.Session
