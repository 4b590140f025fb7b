import GamePath.Engine.Basic
import GamePath.Lib.Threads

/-!
# Handing frames to the path workers (`session/dispatch.rs`, `drain_send_queue`)

`Dispatch::send` reserves a place in the depth of a path before it queues the frame, and gives it
back when the queue refuses it; the worker subtracts what it has taken out. A worker that leaves
drops its receiver, and the frames still queued go with it but stay counted. The depths are exact in
every run in which a worker leaves only an empty queue (`depths_exact`). What a worker does with a
frame it has subtracted changes no depth. An addition does not wrap: 2^64 frames are out of reach.
-/

namespace GamePath.Engine.Dispatch

open Lib Run Threads List

structure PathCommand where
  frame : Bytes
  queuedAt : Instant

/-- The queue of a path and its worker: `taken` is the command taken out and not yet subtracted. -/
structure Route where
  queue : List PathCommand
  capacity : ℕ
  connected : Bool
  taken : Option PathCommand

/-- The queues, and the counters of `PathTelemetry` that `send` changes. -/
structure Paths where
  routes : List Route
  queueDepth : List ℕ
  queuePeak : List ℕ
  dropped : List ℕ
  queueFullDropped : List ℕ

structure Dispatched where
  selected : ℕ
  accepted : ℕ
  disconnected : ℕ

/-- A call of `send`: its command, its mask, and the outcome so far. -/
structure Call where
  command : PathCommand
  mask : UInt64
  outcome : Dispatched

/-- How far a call has come: it looks at a path, has reserved, has been accepted with the depth it
read, or has been refused; after a full queue the two counters follow. -/
inductive Place where
  | returned (outcome : Dispatched)
  | looking (call : Call) (index : ℕ)
  | reserved (call : Call) (index : ℕ) (current : Option ℕ)
  | accepted (call : Call) (index : ℕ) (current : Option ℕ)
  | refused (call : Call) (index : ℕ) (full : Bool)
  | shed (call : Call) (index : ℕ)
  | shedFull (call : Call) (index : ℕ)

inductive Operation where
  | send (frame : Bytes) (mask : UInt64) (now : Instant)
  | next

/-- `1_u64.checked_shl(index)`, or zero. -/
def bit (index : ℕ) : UInt64 := if index < 64 then 1 <<< UInt64.ofNat index else 0

/-- `fetch_sub(1)` on 64 bits. -/
def fetchSub (depth : ℕ) : ℕ := if depth = 0 then 2 ^ 64 - 1 else depth - 1

/-- One atomic operation of `Dispatch::send`. -/
def op (s : Paths) : Place → Operation → Paths × Place
  | .returned _, .send frame mask now => (s, .looking ⟨⟨frame, now⟩, mask, ⟨0, 0, 0⟩⟩ 0)
  | .looking call i, .next =>
    if i < s.routes.length then
      if call.mask &&& bit i = 0 then (s, .looking call (i + 1))
      else
        ({ s with queueDepth := s.queueDepth.modify i (· + 1) },
          .reserved { call with outcome.selected := call.outcome.selected + 1 } i
            (s.queueDepth[i]?.map (· + 1)))
    else (s, .returned call.outcome)
  | .reserved call i current, .next =>
    match s.routes[i]? with
    | none => (s, .looking call (i + 1))
    | some route =>
      if ¬ route.connected then (s, .refused call i false)
      else if route.queue.length < route.capacity then
        ({ s with
            routes := s.routes.modify i fun r => { r with queue := r.queue ++ [call.command] } },
          .accepted { call with outcome.accepted := call.outcome.accepted + 1 } i current)
      else (s, .refused call i true)
  | .accepted call i current, .next =>
    match current with
    | none => (s, .looking call (i + 1))
    | some depth => ({ s with queuePeak := s.queuePeak.modify i (max depth) },
      .looking call (i + 1))
  | .refused call i full, .next =>
    ({ s with queueDepth := s.queueDepth.modify i fetchSub },
      if full then .shed call i
      else .looking { call with outcome.disconnected := call.outcome.disconnected + 1 } (i + 1))
  | .shed call i, .next => ({ s with dropped := s.dropped.modify i (· + 1) }, .shedFull call i)
  | .shedFull call i, .next =>
    ({ s with queueFullDropped := s.queueFullDropped.modify i (· + 1) }, .looking call (i + 1))
  | p, _ => (s, p)

/-- The worker of a path: `try_recv` and `fetch_sub` of `drain_send_queue`, and its end. -/
inductive Event where
  | tryRecv (index : ℕ)
  | subtract (index : ℕ)
  | leave (index : ℕ)

def Route.tryRecv (r : Route) : Route :=
  match r.taken, r.queue with
  | none, command :: queue => { r with queue, taken := some command }
  | _, _ => r

/-- The receiver is dropped, and what is queued with it. -/
def Route.leave (r : Route) : Route :=
  if r.taken.isSome then r else { r with connected := false, queue := [] }

/-- One atomic operation of a worker. -/
def env (s : Paths) : Event → Paths
  | .tryRecv i => { s with routes := s.routes.modify i Route.tryRecv }
  | .subtract i =>
    if s.routes[i]?.bind Route.taken = none then s
    else
      { s with
        queueDepth := s.queueDepth.modify i fetchSub
        routes := s.routes.modify i fun r => { r with taken := none } }
  | .leave i => { s with routes := s.routes.modify i Route.leave }

/-- Empty queues of the given capacities, depths of zero, and threads that have sent nothing. -/
def start (capacities : List ℕ) (threads : ℕ) : Pool Paths Place :=
  let zeros := capacities.map fun _ => 0
  ⟨⟨capacities.map fun capacity => ⟨[], capacity, true, none⟩, zeros, zeros, zeros, zeros⟩,
    List.replicate threads (.returned ⟨0, 0, 0⟩)⟩

/-- The frames reserved on a path and neither queued nor given back. -/
def pending (index : ℕ) : Place → ℕ
  | .reserved _ i _ => if i = index then 1 else 0
  | .refused _ i _ => if i = index then 1 else 0
  | _ => 0

/-- The frames queued, and the one taken out and not subtracted. -/
def Route.counted (r : Route) : ℕ := r.queue.length + r.taken.toList.length

/-- A depth counts what is reserved, queued, or taken and not subtracted; no subtraction finds it
zero; and at rest it is the length of the queue. -/
structure DepthExact (places : List Place) (index depth : ℕ) (r : Route) : Prop where
  counts : depth = held (pending index) places + r.queue.length + r.taken.toList.length
  givenBack : ∀ call full, .refused call index full ∈ places → depth ≠ 0
  subtracted : r.taken ≠ none → depth ≠ 0
  atRest : (∀ p ∈ places, ∃ outcome, p = .returned outcome) → r.taken = none →
    depth = r.queue.length

/-- A worker leaves an empty queue. -/
def LeavesEmpty (s : Paths) (event : Event) : Prop :=
  ∀ i, event = .leave i → ∀ r ∈ s.routes[i]?, r.queue = []

section Invariant

/-- The depth of a path counts what the calls hold, and what its worker has or is to get. -/
def Balanced (index : ℕ) (s : Paths) (reserved : ℕ) : Prop :=
  ∀ depth ∈ s.queueDepth[index]?, ∀ r ∈ s.routes[index]?, depth = reserved + r.counted

variable {index i n m : ℕ} {s : Paths}

theorem Balanced.count (h : Balanced index s n) {f : ℕ → ℕ} (hother : i ≠ index → m = n)
    (hf : i = index → ∀ depth, n ≤ depth → f depth + n = depth + m) :
    Balanced index { s with queueDepth := s.queueDepth.modify i f } m := by
  intro depth hdepth r hr
  obtain ⟨d, hd, rfl⟩ := Option.map_eq_some_iff.1 ((getElem?_modify f i _ index).symm.trans hdepth)
  have hold := h d hd r hr
  split
  · have hnew := hf ‹_› d (by omega)
    omega
  · rw [hother ‹_›]
    exact hold

theorem Balanced.route (h : Balanced index s n) {f : Route → Route} (hother : i ≠ index → m = n)
    (hf : i = index → ∀ r, s.routes[index]? = some r → m + (f r).counted = n + r.counted) :
    Balanced index { s with routes := s.routes.modify i f } m := by
  intro depth hdepth r' hr'
  obtain ⟨r, hr, rfl⟩ := Option.map_eq_some_iff.1 ((getElem?_modify f i _ index).symm.trans hr')
  have hold := h depth hdepth r hr
  split
  · rw [hold, hf ‹_› r hr]
  · rw [hother ‹_›]
    exact hold

theorem op_balanced (s : Paths) (p : Place) (a : Operation) (rest : ℕ) (_ : True)
    (h : Balanced index s (pending index p + rest)) :
    Balanced index (op s p a).1 (pending index (op s p a).2 + rest) := by
  cases a with
  | send frame mask now => cases p <;> exact h
  | next =>
    cases p with
    | returned outcome => exact h
    | looking call i =>
      simp only [op]
      split_ifs with hi hmask
      · exact h
      · apply h.count
        · intro hne
          simp [pending, hne]
        · intro heq depth _
          simp only [pending, heq, if_true]
          omega
      · exact h
    | reserved call i current =>
      simp only [op]
      split
      · intro depth hdepth r hr
        rename_i hnone
        by_cases heq : i = index
        · rw [heq] at hnone
          cases hnone.symm.trans hr
        · simpa [pending, heq] using h depth hdepth r hr
      · split_ifs
        · apply h.route
          · intro hne
            simp [pending, hne]
          · intro heq r _
            simp only [pending, heq, if_true, Route.counted, length_append, length_singleton]
            omega
        · exact h
        · exact h
    | accepted call i current => cases current <;> exact h
    | refused call i full =>
      have hsub : Balanced index { s with queueDepth := s.queueDepth.modify i fetchSub } rest := by
        apply h.count
        · intro hne
          simp [pending, hne]
        · intro heq depth hle
          simp only [pending, heq, if_true] at hle ⊢
          rw [fetchSub, if_neg (by omega)]
          omega
      cases full <;> simpa [op, pending] using hsub
    | shed call i => exact h
    | shedFull call i => exact h

theorem env_balanced (s : Paths) (event : Event) (all : ℕ) (hempty : LeavesEmpty s event)
    (h : Balanced index s all) : Balanced index (env s event) all := by
  cases event with
  | tryRecv i =>
    refine h.route (fun _ => rfl) fun _ r _ => ?_
    simp only [Route.tryRecv, Route.counted]
    split <;> simp_all
  | subtract i =>
    simp only [env]
    split_ifs with htaken
    · exact h
    have hroute : Balanced index { s with routes := s.routes.modify i fun r =>
        { r with taken := none } }
        (all + if i = index then 1 else 0) := by
      apply h.route
      · intro hne
        simp [hne]
      · intro heq r hr
        obtain ⟨command, hcommand⟩ : ∃ command, r.taken = some command := by
          rw [heq, hr] at htaken
          exact Option.ne_none_iff_exists'.1 htaken
        simp [heq, Route.counted, hcommand]
        omega
    apply hroute.count
    · intro hne
      simp [hne]
    · intro heq depth hle
      simp only [heq, if_true] at hle ⊢
      rw [fetchSub, if_neg (by omega)]
      omega
  | leave i =>
    refine h.route (fun _ => rfl) fun heq r hr => ?_
    rw [Route.leave]
    split
    · rfl
    · simp [Route.counted, hempty i rfl r (heq ▸ hr)]

end Invariant

theorem start_balanced (capacities : List ℕ) (threads index : ℕ) :
    Balanced index (start capacities threads).shared
      (held (pending index) (start capacities threads).places) := by
  intro depth hdepth r hr
  obtain ⟨_, -, rfl⟩ := mem_map.1 (mem_of_getElem? hdepth)
  obtain ⟨_, -, rfl⟩ := mem_map.1 (mem_of_getElem? hr)
  simp [held, start, pending, Route.counted]

/-- In a run in which workers leave only empty queues every depth is exact, after any steps of any
number of calls and of the workers. -/
theorem depths_exact (capacities : List ℕ) (threads : ℕ) (moves : List (Move Operation Event))
    (hmeets : Meets (step op env) (Allowed (fun _ _ _ => True) LeavesEmpty)
      ⟨start capacities threads, []⟩ moves) (index depth : ℕ) (r : Route) :
    let s := (exec (step op env) (start capacities threads) moves).state
    s.shared.queueDepth[index]? = some depth → s.shared.routes[index]? = some r →
      DepthExact s.places index depth r := by
  intro s hdepth hr
  have hcount : depth = held (pending index) s.places + r.counted :=
    exec_holding op_balanced env_balanced (start_balanced capacities threads index) moves hmeets
      depth hdepth r hr
  constructor
  · rw [hcount, Route.counted, Nat.add_assoc]
  · intro call full hmem
    have hle := @le_held _ (pending index) _ _ hmem
    simp only [pending, if_true] at hle
    omega
  · intro htaken
    obtain ⟨command, hcommand⟩ := Option.ne_none_iff_exists'.1 htaken
    simp [hcount, Route.counted, hcommand]
  · intro hrest hnone
    have hzero : held (pending index) s.places = 0 := by
      refine held_eq_zero fun p hp => ?_
      obtain ⟨outcome, rfl⟩ := hrest p hp
      rfl
    simp [hcount, hzero, Route.counted, hnone]

/-- A frame is queued, and the worker leaves without taking it out. -/
theorem queued_frame_stays_counted :
    let s := (exec (step op env) (start [2] 1)
      [.thread 0 (.send [1] 1 0), .thread 0 .next, .thread 0 .next, .thread 0 .next,
        .thread 0 .next,
        .outside (.leave 0)]).state
    ∃ r, s.shared.queueDepth[0]? = some 1 ∧ s.shared.routes[0]? = some r ∧
      ¬ DepthExact s.places 0 1 r := by
  refine ⟨⟨[], 2, false, none⟩, rfl, rfl, fun h => ?_⟩
  have hlength := h.atRest (by rintro p (_ | ⟨_, ⟨⟩⟩); exact ⟨_, rfl⟩) rfl
  cases hlength

/-- Two calls reserve on a path whose queue has one place: the frame of one is queued and taken out,
and that of the other is refused. -/
def contended : List (Move Operation Event) :=
  [.thread 0 (.send [1] 1 0), .thread 1 (.send [2] 1 0), .thread 0 .next, .thread 1 .next,
    .thread 0 .next, .thread 1 .next, .outside (.tryRecv 0)]

/-- The other call gives its place back after the worker has subtracted; both return and the worker
leaves. -/
def settling : List (Move Operation Event) :=
  [.outside (.subtract 0), .thread 1 .next, .thread 0 .next, .thread 1 .next, .thread 1 .next,
    .thread 0 .next, .thread 1 .next, .outside (.leave 0)]

theorem depths_exact_drained :
    DepthExact [.accepted ⟨⟨[1], 0⟩, 1, ⟨1, 1, 0⟩⟩ 0 (some 1),
      .refused ⟨⟨[2], 0⟩, 1, ⟨1, 0, 0⟩⟩ 0 true]
        0 2 ⟨[], 1, true, some ⟨[1], 0⟩⟩ ∧
      DepthExact [.returned ⟨1, 1, 0⟩, .returned ⟨1, 0, 0⟩] 0 0 ⟨[], 1, false, none⟩ := by
  have hmeets : Meets (step op env) (Allowed (fun _ _ _ => True) LeavesEmpty) ⟨start [1] 2, []⟩
      (contended ++ settling) := by
    simp only [contended, settling, cons_append, nil_append, Meets, Allowed, LeavesEmpty]
    simp only [implies_true, reduceCtorEq, false_implies, true_and, and_true]
    rintro i ⟨⟩ r ⟨⟩
    rfl
  exact ⟨depths_exact [1] 2 contended (meets_append.1 hmeets).1 0 2 _ rfl rfl,
    depths_exact [1] 2 _ hmeets 0 0 _ rfl rfl⟩

end GamePath.Engine.Dispatch
