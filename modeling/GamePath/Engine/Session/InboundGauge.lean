import GamePath.Engine.Basic
import GamePath.Lib.Threads

/-!
# The gauge of the inbound queue (`session/local_tap.rs`, `DataReceiver::receive`)

A producer puts a reply into the queue and then counts it, and the consumer takes it out and then
subtracts it. The subtraction stops at zero. When it runs before the addition it subtracts nothing,
and the addition then stays for ever. The gauge is exact in every run in which no subtraction finds
the depth zero (`depth_exact`). A count of 2^64 replies is out of reach, so an addition does not
wrap.
-/

namespace GamePath.Engine.InboundGauge

open Lib Run Threads
open Prod (fst_add fst_zero snd_add snd_zero)

/-- The inbound queue with its `InboundGauge`, and `user_bytes_received`. -/
structure Inbound where
  queue : List Bytes
  capacity : ℕ
  depth : ℕ
  peak : ℕ
  userBytesReceived : ℕ

inductive Diversion where
  | notLocal (packet : Bytes)
  | taken
  | full

/-- How far a call has come: `try_send` has queued the reply, or `queued` has added it and is to
raise the peak; `receive` has taken the reply out, or has subtracted it too. -/
inductive Place where
  | idle
  | sent
  | added (depth : ℕ)
  | received (packet : Bytes)
  | subtracted (packet : Bytes)
  deriving DecidableEq

/-- The next operation of a thread: a call with what the tap says of its packet, a call of the
consumer, or the rest of the call in progress. -/
inductive Operation where
  | trySend (diversion : Diversion)
  | receive
  | next

/-- One atomic operation of `InboundSink::try_send`, `InboundGauge::queued`, `DataReceiver::receive`
or `InboundGauge::taken`. -/
def op (s : Inbound) : Place → Operation → Inbound × Place
  | .idle, .trySend (.notLocal packet) =>
    if s.queue.length < s.capacity then ({ s with queue := s.queue ++ [packet] }, .sent)
    else (s, .idle)
  | .idle, .receive =>
    match s.queue with
    | [] => (s, .idle)
    | packet :: queue => ({ s with queue }, .received packet)
  | .sent, .next => ({ s with depth := s.depth + 1 }, .added (s.depth + 1))
  | .added depth, .next => ({ s with peak := max s.peak depth }, .idle)
  -- `checked_sub`: a depth of zero stays.
  | .received packet, .next => ({ s with depth := s.depth - 1 }, .subtracted packet)
  | .subtracted packet, .next =>
    ({ s with userBytesReceived := s.userBytesReceived + packet.length }, .idle)
  | p, _ => (s, p)

/-- Nothing but the threads touches the queue. -/
def env (_ : Inbound) (event : Empty) : Inbound := event.elim

/-- An empty queue, and threads that have called nothing. -/
def start (capacity threads : ℕ) : Pool Inbound Place :=
  ⟨⟨[], capacity, 0, 0, 0⟩, List.replicate threads .idle⟩

/-- The depth is what the queue holds whenever no call is in progress. -/
def Exact (s : Pool Inbound Place) : Prop :=
  (∀ p ∈ s.places, p = .idle) → s.shared.depth = s.shared.queue.length

/-- A subtraction does not find the depth zero. -/
def FindsCount (s : Inbound) (p : Place) (a : Operation) : Prop :=
  ∀ packet, p = .received packet → a = .next → s.depth ≠ 0

/-- The replies queued and not counted, and those taken out and not subtracted. -/
def weight : Place → ℕ × ℕ
  | .sent => (1, 0)
  | .received _ => (0, 1)
  | _ => 0

/-- What is counted or is to be, is what is queued or is to be subtracted. -/
def Balanced (s : Inbound) (pending : ℕ × ℕ) : Prop :=
  s.depth + pending.1 = s.queue.length + pending.2

theorem op_balanced (s : Inbound) (p : Place) (a : Operation) (rest : ℕ × ℕ)
    (hok : FindsCount s p a) (h : Balanced s (weight p + rest)) :
    Balanced (op s p a).1 (weight (op s p a).2 + rest) := by
  cases p with
  | idle =>
    cases a with
    | trySend diversion =>
      cases diversion with
      | notLocal packet =>
        simp only [op]
        split
        · simp only [Balanced, weight, fst_add, snd_add, fst_zero, snd_zero,
            List.length_append, List.length_singleton] at h ⊢
          omega
        · exact h
      | taken => exact h
      | full => exact h
    | receive =>
      simp only [op]
      split
      · exact h
      · rename_i packet queue hqueue
        simp only [Balanced, weight, hqueue, fst_add, snd_add, fst_zero, snd_zero,
          List.length_cons] at h ⊢
        omega
    | next => exact h
  | sent =>
    cases a with
    | next =>
      simp only [op, Balanced, weight, fst_add, snd_add, fst_zero, snd_zero] at h ⊢
      omega
    | _ => exact h
  | received packet =>
    cases a with
    | next =>
      have hcount := hok packet rfl rfl
      simp only [op, Balanced, weight, fst_add, snd_add, fst_zero, snd_zero] at h ⊢
      omega
    | _ => exact h
  | _ => cases a <;> exact h

/-- No reply is left counted or uncounted by a run in which every subtraction finds a count. -/
theorem depth_exact (capacity threads : ℕ) (moves : List (Move Operation Empty))
    (hmeets : Meets (step op env) (Allowed FindsCount fun _ _ => True) ⟨start capacity threads, []⟩
      moves) :
    Exact (exec (step op env) (start capacity threads) moves).state := by
  intro hidle
  have hstart : Balanced (start capacity threads).shared
      (held weight (start capacity threads).places) := by
    simp [Balanced, start, held, weight]
  have h := exec_holding op_balanced (fun _ b _ => b.elim) hstart moves hmeets
  have hzero : held weight (exec (step op env) (start capacity threads) moves).state.places = 0 :=
    held_eq_zero fun p hp => (congrArg weight (hidle p hp)).trans rfl
  rw [hzero] at h
  exact h

/-- The consumer takes the reply out and subtracts nothing before the producer counts it. -/
theorem reply_counted_after_it_left :
    ¬ Exact (exec (step op env) (start 2048 2)
      [.thread 0 (.trySend (.notLocal [0x45])), .thread 1 .receive, .thread 1 .next,
        .thread 1 .next,
        .thread 0 .next, .thread 0 .next]).state := by
  intro h
  have hdepth := h (by decide)
  cases hdepth

/-- The same calls with the count first. -/
theorem depth_exact_counted_first :
    Exact (exec (step op env) (start 2048 2)
      [.thread 0 (.trySend (.notLocal [0x45])), .thread 0 .next, .thread 1 .receive,
        .thread 1 .next,
        .thread 1 .next, .thread 0 .next]).state := by
  apply depth_exact
  simp [Meets, Allowed, FindsCount, advance, step, start, op]

end GamePath.Engine.InboundGauge
