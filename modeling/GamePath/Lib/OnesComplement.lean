import Mathlib.Tactic

/-!
# Sixteen-bit one's complement sums

End-around carries: a sum of words is folded to 16 bits by adding what overflows back in. Folding
keeps the residue modulo `2 ^ 16 - 1` and never turns a positive sum into zero, which determines the
word that completes a sum up to the two spellings of zero (`complement_eq_iff`).
-/

namespace GamePath.Lib.OnesComplement

/-- Adds the carries back in, at most `rounds` times. -/
def fold : Nat → Nat → Nat
  | 0, sum => sum
  | rounds + 1, sum => if 65535 < sum then fold rounds (sum % 65536 + sum / 65536) else sum

theorem fold_mod (rounds : Nat) : ∀ sum, fold rounds sum % 65535 = sum % 65535 := by
  induction rounds with
  | zero => exact fun _ => rfl
  | succ rounds ih =>
    intro sum
    rw [fold]
    split
    · rw [ih]
      omega
    · rfl

theorem fold_pos (rounds : Nat) : ∀ sum, 0 < sum → 0 < fold rounds sum := by
  induction rounds with
  | zero => exact fun _ => id
  | succ rounds ih =>
    intro sum h
    rw [fold]
    split
    · apply ih
      omega
    · exact h

variable {rounds sum : Nat}

/-- Two rounds are enough for a sum of 32 bits. -/
theorem fold_le (hrounds : 2 ≤ rounds) (h : sum < 2 ^ 32) :
    fold rounds sum ≤ 65535 := by
  obtain ⟨more, rfl⟩ := Nat.exists_eq_add_of_le' hrounds
  rw [fold]
  split
  · rw [fold]
    split
    · have hsmall : ∀ n s, s ≤ 65535 → fold n s = s := by
        intro n s hs
        cases n with
        | zero => rfl
        | succ n => rw [fold, if_neg (by omega)]
      rw [hsmall] <;> omega
    · omega
  · omega

/-- A sum folds to all ones exactly when it is a positive multiple of `2 ^ 16 - 1`. -/
theorem fold_eq_ones_iff (hrounds : 2 ≤ rounds) (h : sum < 2 ^ 32) :
    fold rounds sum = 65535 ↔ 0 < sum ∧ sum % 65535 = 0 := by
  have hmod := fold_mod rounds sum
  have hle := fold_le hrounds h
  constructor
  · intro hones
    refine ⟨Nat.pos_of_ne_zero ?_, by omega⟩
    rintro rfl
    have hzero : fold rounds 0 = 0 := by
      cases rounds with
      | zero | succ => rfl
    omega
  · rintro ⟨hpos, hzero⟩
    have hfold := fold_pos rounds sum hpos
    omega

/-- Adding the complement of a folded sum completes it. -/
theorem fold_add_complement (hrounds : 2 ≤ rounds) (hpos : 0 < sum)
    (h : sum + 65535 < 2 ^ 32) : fold rounds (sum + (65535 - fold rounds sum)) = 65535 := by
  have hmod := fold_mod rounds sum
  have hle : fold rounds sum ≤ 65535 := fold_le hrounds (by omega)
  exact (fold_eq_ones_iff hrounds (by omega)).2 ⟨by omega, by omega⟩

/-- A word that completes a sum to all ones is the complement of the folded sum, unless it is all
ones itself: the second spelling of zero, next to a sum that is all ones already. -/
theorem complement_eq_iff {rounds sum word : Nat} (hrounds : 2 ≤ rounds) (hpos : 0 < sum)
    (hsum : sum + word < 2 ^ 32) (hword : word ≤ 65535) (hones : fold rounds (sum + word) = 65535) :
    65535 - fold rounds sum = word ↔ word ≠ 65535 := by
  have hmod := fold_mod rounds sum
  have hfold := fold_pos rounds sum hpos
  have hle : fold rounds sum ≤ 65535 := fold_le hrounds (by omega)
  have hmod' := fold_mod rounds (sum + word)
  constructor
  · intro heq
    omega
  · intro hne
    omega

end GamePath.Lib.OnesComplement
