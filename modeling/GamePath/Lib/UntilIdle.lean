import Mathlib.Tactic

/-!
# Repeating a step until it makes no progress

A loop that calls a step until the step reports that nothing happened need not end. `untilIdle`
gives it a number of turns and is `none` when these are used up, so that the loop ends exactly when
some number of turns is enough. `exists_untilIdle_of_measure` is the rule for loops that end: every
step that makes progress takes from a measure. `untilIdle_eq_none` is the rule for loops that do
not: some states make progress for ever.
-/

namespace GamePath.Lib

universe u

variable {σ : Type u} {step : σ → Bool × σ} {I : σ → Prop} {m : σ → Nat}

/-- Steps until one makes no progress, at most so many. -/
def untilIdle (step : σ → Bool × σ) : Nat → σ → Option σ
  | 0, _ => none
  | fuel + 1, s =>
    match step s with
    | (false, s) => some s
    | (true, s) => untilIdle step fuel s

/-- A measure that every progress takes from is turns enough. -/
theorem exists_untilIdle_of_measure
    (hstep : ∀ s, I s → (step s).1 = true → I (step s).2 ∧ m (step s).2 < m s) (s : σ)
    (hs : I s) : ∃ fuel t, untilIdle step fuel s = some t := by
  induction hn : m s using Nat.strong_induction_on generalizing s with
  | _ n ih =>
    cases hprogress : (step s).1 with
    | false =>
      refine ⟨1, (step s).2, ?_⟩
      have hpair : step s = (false, (step s).2) := Prod.ext hprogress rfl
      rw [untilIdle, hpair]
    | true =>
      obtain ⟨hI, hless⟩ := hstep s hs hprogress
      obtain ⟨fuel, t, ht⟩ := ih (m (step s).2) (hn ▸ hless) (step s).2 hI rfl
      refine ⟨fuel + 1, t, ?_⟩
      have hpair : step s = (true, (step s).2) := Prod.ext hprogress rfl
      rw [untilIdle, hpair]
      exact ht

/-- What makes progress for ever never ends. -/
theorem untilIdle_eq_none (hstep : ∀ s, I s → (step s).1 = true ∧ I (step s).2) (fuel : Nat) :
    ∀ s, I s → untilIdle step fuel s = none := by
  induction fuel with
  | zero => exact fun s _ => rfl
  | succ fuel ih =>
    intro s hs
    obtain ⟨hprogress, hI⟩ := hstep s hs
    have hpair : step s = (true, (step s).2) := Prod.ext hprogress rfl
    rw [untilIdle, hpair]
    exact ih (step s).2 hI

end GamePath.Lib
