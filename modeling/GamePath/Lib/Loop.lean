import Mathlib.Tactic

/-!
# Loops with fuel

A loop whose every turn uses something up can be written as a structural recursion on a number of
turns. `IsLoop turn go` says that `go` takes turns until one ends the loop or its fuel runs out.
`IsLoop.invariant` is the rule for what every turn keeps. A measure that every turn takes from is
fuel enough (`IsLoop.unroll`): run with it, the recursion is the loop itself, fuel or no fuel.
-/

namespace GamePath.Lib.Loop

universe u

variable {α : Type u}

/-- What a turn comes to: the loop goes on from a state, or stops in one. -/
inductive Turn (α : Type u) where
  | again (a : α)
  | stop (a : α)

namespace Turn

/-- The state after a turn. -/
def state : Turn α → α
  | .again a => a
  | .stop a => a

/-- Goes on with `f` unless the turn stops. -/
def andThen (f : α → α) : Turn α → α
  | .again a => f a
  | .stop a => a

end Turn

/-- `go` takes turns until one ends the loop or the fuel runs out. -/
structure IsLoop (turn : α → Turn α) (go : Nat → α → α) : Prop where
  out : ∀ a, go 0 a = a
  next : ∀ fuel a, go (fuel + 1) a = (turn a).andThen (go fuel)

/-- Every turn that goes on takes from the measure, and there is nothing to do when it is used up.
-/
structure Decreases (turn : α → Turn α) (measure : α → Nat) : Prop where
  shrinks : ∀ a b, turn a = .again b → measure b < measure a
  idle : ∀ a, measure a = 0 → turn a = .stop a

variable {turn : α → Turn α} {go : Nat → α → α} {measure : α → Nat} {I : α → Prop}

/-- What every turn keeps, the loop keeps. -/
theorem IsLoop.invariant (h : IsLoop turn go)
    (hturn : ∀ a, I a → I (turn a).state) (fuel : Nat) : ∀ a, I a → I (go fuel a) := by
  induction fuel with
  | zero =>
    intro a ha
    rw [h.out]
    exact ha
  | succ fuel ih =>
    intro a ha
    have hkept := hturn a ha
    rw [h.next]
    generalize turn a = result at hkept
    cases result with
    | again b => exact ih b hkept
    | stop b => exact hkept

/-- Fuel beyond the measure changes nothing. -/
theorem IsLoop.add (h : IsLoop turn go) (hm : Decreases turn measure) (fuel : Nat) :
    ∀ extra a, measure a ≤ fuel → go (fuel + extra) a = go fuel a := by
  induction fuel with
  | zero =>
    intro extra a hle
    cases extra with
    | zero => rfl
    | succ extra =>
      rw [Nat.zero_add, h.next, h.out, hm.idle a (Nat.le_zero.1 hle)]
      rfl
  | succ fuel ih =>
    intro extra a hle
    rw [Nat.add_right_comm, h.next, h.next]
    cases hcase : turn a with
    | again b =>
      have hless := hm.shrinks a b hcase
      exact ih extra b (by omega)
    | stop b => rfl

/-- With the measure as fuel the loop takes a turn and, if that does not end it, goes on as a loop
with the measure as fuel again. -/
theorem IsLoop.unroll (h : IsLoop turn go) (hm : Decreases turn measure) (a : α) :
    go (measure a) a = (turn a).andThen fun b => go (measure b) b := by
  rw [← h.add hm (measure a) 1 a (Nat.le_refl _), h.next]
  cases hcase : turn a with
  | again b =>
    obtain ⟨extra, hextra⟩ := Nat.exists_eq_add_of_lt (hm.shrinks a b hcase)
    rw [hextra]
    exact h.add hm (measure b) (extra + 1) b (Nat.le_refl _)
  | stop b => rfl

end GamePath.Lib.Loop
