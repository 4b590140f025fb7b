import Mathlib.Data.Vector.Basic
import Mathlib.Tactic

/-!
# Bitmaps stored in 64-bit words

A set of positions below `64 * n` kept as `n` words of 64 bits. A position is addressed by a
`Slot`: the word that holds it and a mask with its bit set. `test`, `insert` and `erase` are the
three word operations a program performs on such a bitmap; the lemmas say what they do to the set
of positions, with no word arithmetic left in the statement.
-/

namespace GamePath.Lib.WordBitmap

open BitVec

variable {n : Nat}

/-- A position of the bitmap: the index of its word and the mask of its bit. -/
abbrev Slot (n : Nat) := Fin n × UInt64

/-- The slot of a position. -/
def slotOf (position : Fin (64 * n)) : Slot n :=
  (⟨position.val / 64, by omega⟩, 1 <<< UInt64.ofNat (position.val % 64))

/-- The empty bitmap. -/
def empty (n : Nat) : Vector UInt64 n := Vector.replicate n 0

variable (words : Vector UInt64 n)

/-- Whether the bit of a slot is set. -/
def test (slot : Slot n) : Bool :=
  words[slot.1] &&& slot.2 != 0

/-- Sets the bit of a slot. -/
def insert (slot : Slot n) : Vector UInt64 n :=
  words.set slot.1 (words[slot.1] ||| slot.2)

/-- Clears the bit of a slot. -/
def erase (slot : Slot n) : Vector UInt64 n :=
  words.set slot.1 (words[slot.1] &&& ~~~slot.2)

/-! ## Masks -/

theorem getLsbD_mask {k j : Nat} (hk : k < 64) :
    ((1 : UInt64) <<< UInt64.ofNat k).toBitVec.getLsbD j = decide (j = k) := by
  have hmask : ((1 : UInt64) <<< UInt64.ofNat k).toBitVec = twoPow 64 k := by
    apply eq_of_toNat_eq
    have hmod : k % 2 ^ 64 % 64 = k := by omega
    simp only [UInt64.toNat_toBitVec, UInt64.toNat_shiftLeft, UInt64.toNat_ofNat', hmod,
      UInt64.toNat_one, Nat.one_mul, toNat_twoPow, Nat.shiftLeft_eq]
  rw [hmask, getLsbD_twoPow]
  simp only [hk, decide_true, Bool.true_and, eq_comm]

/-- Testing a word against a mask reads the bit of the mask. -/
theorem and_mask_ne_zero (w : UInt64) {k : Nat} (hk : k < 64) :
    (w &&& (1 <<< UInt64.ofNat k) != 0) = w.toBitVec.getLsbD k := by
  rw [Bool.eq_iff_iff, bne_iff_ne, ne_eq, ← UInt64.toBitVec_inj]
  constructor
  · intro h
    by_contra hbit
    apply h
    apply eq_of_getLsbD_eq
    intro i hi
    rw [UInt64.toBitVec_and, getLsbD_and, getLsbD_mask hk]
    by_cases hik : i = k
    · subst hik
      simp [hbit]
    · simp [hik]
  · intro hbit h
    have hk' := congrArg (fun b => b.getLsbD k) h
    simp only [UInt64.toBitVec_and, getLsbD_and, getLsbD_mask hk, hbit] at hk'
    simp at hk'

/-! ## The three operations on positions -/

@[simp] theorem test_empty (p : Fin (64 * n)) : test (empty n) (slotOf p) = false := by
  simp [test, empty]

/-- Setting a bit adds exactly its position. -/
theorem test_insert (p q : Fin (64 * n)) :
    test (insert words (slotOf p)) (slotOf q) = (decide (q = p) || test words (slotOf q)) := by
  have hq : q.val % 64 < 64 := Nat.mod_lt _ (by omega)
  have hp : p.val % 64 < 64 := Nat.mod_lt _ (by omega)
  unfold test insert slotOf
  simp only [Fin.getElem_fin, Vector.getElem_set]
  rw [and_mask_ne_zero _ hq, and_mask_ne_zero _ hq]
  by_cases hword : p.val / 64 = q.val / 64
  · simp only [hword, ↓reduceIte, UInt64.toBitVec_or, getLsbD_or, getLsbD_mask hp]
    have hpos : q.val % 64 = p.val % 64 ↔ q = p := by
      omega
    simp only [hpos, Bool.or_comm]
  · have hne : q ≠ p := fun h => hword (by rw [h])
    simp [hword, hne]

/-- Clearing a bit removes exactly its position. -/
theorem test_erase (p q : Fin (64 * n)) :
    test (erase words (slotOf p)) (slotOf q) = (!decide (q = p) && test words (slotOf q)) := by
  have hq : q.val % 64 < 64 := Nat.mod_lt _ (by omega)
  have hp : p.val % 64 < 64 := Nat.mod_lt _ (by omega)
  unfold test erase slotOf
  simp only [Fin.getElem_fin, Vector.getElem_set]
  rw [and_mask_ne_zero _ hq, and_mask_ne_zero _ hq]
  by_cases hword : p.val / 64 = q.val / 64
  · have hpos : q.val % 64 = p.val % 64 ↔ q = p := by
      omega
    simp only [hword, ↓reduceIte, UInt64.toBitVec_and, UInt64.toBitVec_not, getLsbD_and,
      getLsbD_not, getLsbD_mask hp, hpos, hq, decide_true, Bool.true_and]
    exact Bool.and_comm _ _
  · have hne : q ≠ p := fun h => hword (by rw [h])
    simp [hword, hne]

end GamePath.Lib.WordBitmap
