import Mathlib.Tactic

/-!
# Aligned blocks of numbers

A block has a power of two numbers and starts at a multiple of that power. Two blocks that share a
number are nested. An interval is `Cut` into blocks by taking, from its start on, the largest block
that fits; every block inside the interval then lies in one of them. Intervals with gaps between
them are so cut into the fewest blocks that have the same numbers: `Cuts.length_le`.
-/

namespace GamePath.Lib

open List

universe u v

/-- Things of which each needs one of the others to itself are no more than the others. -/
theorem length_le_of_own {α : Type u} {β : Type v} {owns : α → β → Prop} (xs : List α) :
    ∀ ys : List β, (∀ x ∈ xs, ∃ y ∈ ys, owns x y) →
      (xs.Pairwise fun x x' => ∀ y, owns x y → ¬ owns x' y) → xs.length ≤ ys.length := by
  induction xs with
  | nil =>
    intro ys _ _
    exact Nat.zero_le _
  | cons x xs ih =>
    intro ys hown hapart
    obtain ⟨hx, hxs⟩ := pairwise_cons.1 hapart
    obtain ⟨y, hy, hxy⟩ := hown x mem_cons_self
    obtain ⟨before, after, rfl⟩ := append_of_mem hy
    have hrest : xs.length ≤ (before ++ after).length := by
      apply ih _ _ hxs
      intro x' hx'
      obtain ⟨y', hy', hxy'⟩ := hown x' (mem_cons_of_mem x hx')
      refine ⟨y', ?_, hxy'⟩
      have hne : y' ≠ y := by
        rintro rfl
        exact hx x' hx' y' hxy hxy'
      simpa [hne] using hy'
    simp only [length_append, length_cons] at hrest ⊢
    omega

/-- The numbers from `start` on, `2 ^ bits` of them. -/
structure Block where
  start : ℕ
  bits : ℕ
  aligned : 2 ^ bits ∣ start

namespace Block

/-- The number is one of the block. -/
def Contains (b : Block) (n : ℕ) : Prop := b.start ≤ n ∧ n < b.start + 2 ^ b.bits

variable {a b c : Block} {n m : ℕ}

theorem contains_start (b : Block) : b.Contains b.start :=
  ⟨le_rfl, Nat.lt_add_of_pos_right (Nat.two_pow_pos _)⟩

/-- The numbers of a block agree above its bits. -/
theorem contains_iff_div : b.Contains n ↔ n / 2 ^ b.bits = b.start / 2 ^ b.bits := by
  obtain ⟨k, hk⟩ := b.aligned
  have hpos : 0 < 2 ^ b.bits := Nat.two_pow_pos _
  rw [Contains, hk, Nat.mul_div_cancel_left k hpos, Nat.div_eq_iff hpos]
  rw [Nat.mul_comm k]
  omega

/-- Blocks that share a number are nested. -/
theorem Contains.mono (hbits : a.bits ≤ b.bits) (ha : a.Contains n) (hb : b.Contains n)
    (hm : a.Contains m) : b.Contains m := by
  rw [contains_iff_div] at ha hb hm ⊢
  have hsame : m / 2 ^ a.bits = n / 2 ^ a.bits := hm.trans ha.symm
  obtain ⟨d, hd⟩ := Nat.exists_eq_add_of_le hbits
  calc m / 2 ^ b.bits = m / 2 ^ a.bits / 2 ^ d := by rw [hd, pow_add, Nat.div_div_eq_div_mul]
    _ = n / 2 ^ a.bits / 2 ^ d := by rw [hsame]
    _ = n / 2 ^ b.bits := by rw [hd, pow_add, Nat.div_div_eq_div_mul]
    _ = b.start / 2 ^ b.bits := hb

/-- No number is in both. -/
def Apart (a b : Block) : Prop := ∀ n, a.Contains n → ¬ b.Contains n

instance : Std.Symm Apart := ⟨fun _ _ h n hb ha => h n ha hb⟩

/-- The block `a` is a part of `b`. -/
def Within (a b : Block) : Prop := ∀ n, a.Contains n → b.Contains n

theorem bits_le_of_within (h : a.Within b) : a.bits ≤ b.bits := by
  have hpos := Nat.two_pow_pos a.bits
  have hfirst := h a.start a.contains_start
  have hlast := h (a.start + (2 ^ a.bits - 1)) ⟨by omega, by omega⟩
  have hpow : 2 ^ a.bits ≤ 2 ^ b.bits := by
    have := hfirst.1
    have := hlast.2
    omega
  exact (Nat.pow_le_pow_iff_right (by omega)).1 hpow

end Block

/-! ## Cutting an interval -/

/-- A block of `2 ^ bits` numbers from `start` on is aligned and does not pass `last`. -/
structure Fits (start last bits : ℕ) : Prop where
  aligned : 2 ^ bits ∣ start
  room : start + 2 ^ bits ≤ last + 1

/-- It is the largest one that fits. -/
structure Largest (start last bits : ℕ) : Prop where
  fits : Fits start last bits
  greatest : ∀ k, Fits start last k → k ≤ bits

/-- The blocks that come of taking the largest one that fits again and again. -/
inductive Cut (last : ℕ) : ℕ → List Block → Prop where
  | nil {start : ℕ} : last < start → Cut last start []
  | cons {b : Block} {bs : List Block} :
      Largest b.start last b.bits → Cut last (b.start + 2 ^ b.bits) bs → Cut last b.start (b :: bs)

namespace Cut

variable {start last : ℕ} {bs : List Block}

/-- The blocks have the numbers of the interval. -/
theorem contains_iff (h : Cut last start bs) (n : ℕ) :
    (∃ b ∈ bs, b.Contains n) ↔ start ≤ n ∧ n ≤ last := by
  induction h with
  | nil hlast =>
    simp only [not_mem_nil, false_and, exists_false, false_iff, not_and, not_le]
    omega
  | @cons b bs hlargest _ ih =>
    have hroom := hlargest.fits.room
    have hpos := Nat.two_pow_pos b.bits
    rw [exists_mem_cons_iff, ih, Block.Contains]
    omega

theorem apart (h : Cut last start bs) : bs.Pairwise Block.Apart := by
  induction h with
  | nil => exact List.Pairwise.nil
  | @cons b bs _ hrest ih =>
    refine List.Pairwise.cons ?_ ih
    intro c hc n hb hn
    have := ((hrest.contains_iff n).1 ⟨c, hc, hn⟩).1
    exact absurd hb.2 (by omega)

/-- Every block inside the interval lies in one of those it is cut into. -/
theorem exists_within (h : Cut last start bs) {c : Block} (hstart : start ≤ c.start)
    (hroom : c.start + 2 ^ c.bits ≤ last + 1) : ∃ b ∈ bs, c.Within b := by
  induction h with
  | nil hlast =>
    have := Nat.two_pow_pos c.bits
    omega
  | @cons b bs hlargest _ ih =>
    by_cases hafter : b.start + 2 ^ b.bits ≤ c.start
    · obtain ⟨b', hb', hwithin⟩ := ih hafter
      exact ⟨b', mem_cons_of_mem b hb', hwithin⟩
    have hshared : b.Contains c.start := ⟨hstart, by omega⟩
    refine ⟨b, mem_cons_self, ?_⟩
    intro n hn
    apply Block.Contains.mono _ c.contains_start hshared hn
    -- A larger block would have the start of the interval, so it would start there and fit.
    by_contra hlarger
    have hfirst : c.Contains b.start :=
      Block.Contains.mono (by omega) hshared c.contains_start b.contains_start
    have hsame : b.start = c.start := le_antisymm hstart hfirst.1
    exact hlarger (hlargest.greatest c.bits ⟨hsame ▸ c.aligned, by omega⟩)

end Cut

/-! ## Cutting intervals with gaps between them -/

/-- Intervals, each with its cut, of which each ends before a number that the next one leaves out.
-/
structure Cuts (intervals : List (ℕ × ℕ)) (blocks : ℕ × ℕ → List Block) : Prop where
  gaps : intervals.Pairwise fun i j => i.2 + 1 < j.1
  cut : ∀ i ∈ intervals, Cut i.2 i.1 (blocks i)

namespace Cuts

variable {intervals : List (ℕ × ℕ)} {blocks : ℕ × ℕ → List Block}

section

variable (h : Cuts intervals blocks)
include h

theorem contains_iff (n : ℕ) :
    (∃ b ∈ intervals.flatMap blocks, b.Contains n) ↔ ∃ i ∈ intervals, i.1 ≤ n ∧ n ≤ i.2 := by
  constructor
  · rintro ⟨b, hb, hn⟩
    obtain ⟨i, hi, hb⟩ := mem_flatMap.1 hb
    exact ⟨i, hi, ((h.cut i hi).contains_iff n).1 ⟨b, hb, hn⟩⟩
  · rintro ⟨i, hi, hn⟩
    obtain ⟨b, hb, hn⟩ := ((h.cut i hi).contains_iff n).2 hn
    exact ⟨b, mem_flatMap.2 ⟨i, hi, hb⟩, hn⟩

/-- Neighbouring numbers of the intervals are of one interval. -/
theorem same_interval {i j : ℕ × ℕ} (hi : i ∈ intervals) (hj : j ∈ intervals) {n : ℕ}
    (hin : i.1 ≤ n ∧ n ≤ i.2) (hjn : j.1 ≤ n + 1 ∧ n + 1 ≤ j.2) :
    i = j := by
  by_contra hne
  have : Std.Symm fun i j : ℕ × ℕ => i.2 + 1 < j.1 ∨ j.2 + 1 < i.1 := ⟨fun _ _ => Or.symm⟩
  have hboth : intervals.Pairwise fun i j : ℕ × ℕ => i.2 + 1 < j.1 ∨ j.2 + 1 < i.1 :=
    h.gaps.imp .inl
  have hgap := hboth.forall hi hj hne
  omega

/-- A block whose numbers are all of the intervals lies in one interval. -/
theorem exists_interval {c : Block} (hc : ∀ n, c.Contains n → ∃ i ∈ intervals, i.1 ≤ n ∧ n ≤ i.2) :
    ∃ i ∈ intervals, i.1 ≤ c.start ∧ c.start + 2 ^ c.bits ≤ i.2 + 1 := by
  obtain ⟨i, hi, hfirst, hlast⟩ := hc c.start c.contains_start
  have hpos := Nat.two_pow_pos c.bits
  -- From the start on, number by number.
  have hall : ∀ k, k < 2 ^ c.bits → c.start + k ≤ i.2 := by
    intro k
    induction k with
    | zero =>
      intro _
      exact hlast
    | succ k ih =>
      intro hk
      have hbefore := ih (by omega)
      obtain ⟨j, hj, hjn⟩ := hc (c.start + (k + 1)) ⟨by omega, by omega⟩
      obtain rfl := h.same_interval hi hj (n := c.start + k) ⟨by omega, hbefore⟩ hjn
      exact hjn.2
  refine ⟨i, hi, hfirst, ?_⟩
  have := hall (2 ^ c.bits - 1) (by omega)
  omega

theorem apart : (intervals.flatMap blocks).Pairwise Block.Apart := by
  rw [pairwise_flatMap]
  refine ⟨fun i hi => (h.cut i hi).apart, ?_⟩
  apply h.gaps.imp_of_mem
  intro i j hi hj hgap b hb c hc n hbn hcn
  have hbefore := ((h.cut i hi).contains_iff n).1 ⟨b, hb, hbn⟩
  have hafter := ((h.cut j hj).contains_iff n).1 ⟨c, hc, hcn⟩
  omega

/-- No list of blocks with the numbers of the intervals is shorter. -/
theorem length_le {other : List Block}
    (hother : ∀ n, (∃ b ∈ other, b.Contains n) ↔ ∃ i ∈ intervals, i.1 ≤ n ∧ n ≤ i.2) :
    (intervals.flatMap blocks).length ≤ other.length := by
  apply @length_le_of_own _ _ (fun b c => Block.Within c b)
  · intro b hb
    obtain ⟨c, hc, hcontains⟩ := (hother b.start).2
      ((h.contains_iff b.start).1 ⟨b, hb, b.contains_start⟩)
    obtain ⟨i, hi, hstart, hroom⟩ := h.exists_interval fun n hn => (hother n).1 ⟨c, hc, hn⟩
    obtain ⟨b', hb', hwithin⟩ := (h.cut i hi).exists_within hstart hroom
    -- Both have the start of `b`.
    have hsame : b = b' := by
      by_contra hne
      exact h.apart.forall hb (mem_flatMap.2 ⟨i, hi, hb'⟩) hne b.start b.contains_start
        (hwithin _ hcontains)
    exact ⟨c, hc, hsame ▸ hwithin⟩
  · apply h.apart.imp
    intro b b' hapart c hcb hcb'
    exact hapart c.start (hcb _ c.contains_start) (hcb' _ c.contains_start)

end

end Cuts

end GamePath.Lib
