import GamePath.Lib.Threads

/-!
# The flush of the DNS cache (`flush_dns_cache` in `netconfig.rs`)

A call stores `AGAIN` and starts a worker where none has taken `RUNNING`. The worker flushes while
it finds `AGAIN`, gives `RUNNING` back, and looks at `AGAIN` once more. A place is that of one call,
and of the worker it starts. Creating a thread succeeds.
-/

namespace GamePath.Engine.DnsFlush

open Lib Run Threads Multiset

/-- The two atomics. `flushes` is history: how many flushes have begun. -/
structure Flags where
  running : Bool
  again : Bool
  flushes : ℕ

/-- What is to be done next. -/
inductive Next where
  | swapRunning
  | spawn
  | takeAgain
  | flush
  | endFlush
  | storeRunning
  | loadAgain
  | takeRunning
  | nothing
  deriving DecidableEq

/-- A call that has not been made, or one that stored `AGAIN` when so many flushes had begun. -/
inductive Place where
  | idle
  | made (flushes : ℕ) (next : Next)

/-- One atomic operation of a call or of its worker. -/
def op (s : Flags) : Place → Unit → Flags × Place
  | .idle, _ => ({ s with again := true }, .made s.flushes .swapRunning)
  | .made n .swapRunning, _ =>
    ({ s with running := true }, .made n (if s.running then .nothing else .spawn))
  | .made n .spawn, _ => (s, .made n .takeAgain)
  | .made n .takeAgain, _ => ({ s with again := false },
    .made n (if s.again then .flush else .storeRunning))
  | .made n .flush, _ => ({ s with flushes := s.flushes + 1 }, .made n .endFlush)
  | .made n .endFlush, _ => (s, .made n .takeAgain)
  | .made n .storeRunning, _ => ({ s with running := false }, .made n .loadAgain)
  | .made n .loadAgain, _ => (s, .made n (if s.again then .takeRunning else .nothing))
  | .made n .takeRunning, _ =>
    ({ s with running := true }, .made n (if s.running then .nothing else .takeAgain))
  | .made n .nothing, _ => (s, .made n .nothing)

/-- Nothing else touches the atomics. -/
def env (_ : Flags) (event : Empty) : Flags := event.elim

/-- No call was made. -/
def start (calls : ℕ) : Pool Flags Place := ⟨⟨false, false, 0⟩, List.replicate calls .idle⟩

/-- The place has taken `RUNNING`. -/
def Next.holds : Next → Bool
  | .spawn | .takeAgain | .flush | .endFlush | .storeRunning => true
  | _ => false

/-- A worker runs, or is about to be started. -/
def Next.works : Next → Bool
  | .swapRunning | .nothing => false
  | _ => true

def Place.next : Place → Next
  | .idle => .nothing
  | .made _ next => next

/-- What holds between two operations. -/
structure Kept (s : Flags) (all : Multiset Place) : Prop where
  holder : all.countP (fun p => p.next.holds = true) = if s.running then 1 else 0
  again : s.again = true → ∃ p ∈ all, p.next.works = true ∨ p.next = .swapRunning
  served : ∀ n next, .made n next ∈ all → n ≤ s.flushes ∧
    (n = s.flushes → s.again = true ∨ ∃ p ∈ all, p.next = .flush)
  worker : ∀ n next, .made n next ∈ all → n = s.flushes → next ≠ .swapRunning →
    ∃ p ∈ all, p.next.works = true

end GamePath.Engine.DnsFlush
