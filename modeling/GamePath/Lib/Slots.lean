import Mathlib.Tactic

/-!
# Values in numbered slots

A table of slots, each empty or holding a value. A new value goes into the first empty slot, or into
a new one at the end, so that the slots of values that are added one after the other are in order
(`firstFree_lt_add`). `first` looks for the first slot, in order, that holds a value with a
property.
-/

namespace GamePath.Lib

open List

universe u

/-- Slots, each empty or with a value. -/
structure Slots (α : Type u) where
  cells : List (Option α)

namespace Slots

variable {α : Type u}

/-- No slots. -/
def empty : Slots α := ⟨[]⟩

variable (s : Slots α)

/-- The value in a slot. -/
def get? (i : Nat) : Option α := (s.cells[i]?).join

/-- Puts a value in place of the one in a slot; an empty slot stays empty. -/
def modify (i : Nat) (f : α → α) : Slots α := ⟨s.cells.modify i (Option.map f)⟩

/-- Empties a slot. -/
def remove (i : Nat) : Slots α := ⟨s.cells.set i none⟩

/-- The first empty slot, or the one past the end. -/
def firstFree : Nat := s.cells.findIdx Option.isNone

/-- Puts a value into the first empty slot. -/
def add (a : α) : Slots α :=
  if s.firstFree < s.cells.length then ⟨s.cells.set s.firstFree (some a)⟩ else ⟨s.cells ++ [some a]⟩

/-- The first slot that holds a value with a property. -/
def first (p : α → Bool) : Option Nat := s.cells.findIdx? fun cell => cell.any p

/-- Every value changed according to its slot. -/
def mapSlots (f : Nat → α → α) : Slots α :=
  ⟨s.cells.mapIdx fun i cell => cell.map (f i)⟩

@[simp] theorem get?_empty (i : Nat) : (empty : Slots α).get? i = none := rfl

@[simp] theorem get?_modify (i j : Nat) (f : α → α) :
    (s.modify i f).get? j = if i = j then (s.get? j).map f else s.get? j := by
  simp only [get?, modify, getElem?_modify]
  split
  · cases s.cells[j]? <;> rfl
  · cases s.cells[j]? <;> rfl

@[simp] theorem get?_remove (i j : Nat) :
    (s.remove i).get? j = if i = j then none else s.get? j := by
  simp only [get?, remove, getElem?_set]
  split
  · split <;> rfl
  · rfl

@[simp] theorem get?_mapSlots (f : Nat → α → α) (i : Nat) :
    (s.mapSlots f).get? i = (s.get? i).map (f i) := by
  simp only [get?, mapSlots, getElem?_mapIdx]
  cases s.cells[i]? <;> rfl

/-- The slot a new value goes into is empty. -/
theorem get?_firstFree : s.get? s.firstFree = none := by
  simp only [get?, firstFree]
  by_cases hin : s.cells.findIdx Option.isNone < s.cells.length
  · have hnone := findIdx_getElem (p := Option.isNone) (w := hin)
    rw [getElem?_eq_getElem hin]
    simpa using hnone
  · rw [getElem?_eq_none (Nat.le_of_not_lt hin)]
    rfl

theorem get?_add (a : α) (i : Nat) :
    (s.add a).get? i = if s.firstFree = i then some a else s.get? i := by
  by_cases hin : s.firstFree < s.cells.length
  · rw [add, if_pos hin]
    simp only [get?, getElem?_set]
    by_cases hi : s.firstFree = i
    · rw [if_pos hi, if_pos hin, if_pos hi]
      rfl
    · rw [if_neg hi, if_neg hi]
  have hend : s.firstFree = s.cells.length := by
    have hle : s.firstFree ≤ s.cells.length := findIdx_le_length
    omega
  rw [add, if_neg hin]
  simp only [get?, getElem?_append, hend]
  by_cases hi : s.cells.length = i
  · subst hi
    simp
  rw [if_neg hi]
  by_cases hlt : i < s.cells.length
  · rw [if_pos hlt]
  · rw [if_neg hlt, getElem?_eq_none (by simpa using (by omega : 1 ≤ i - s.cells.length)),
      getElem?_eq_none (by omega)]

/-- Every slot before the first empty one holds a value. -/
theorem get?_ne_none_of_lt {s : Slots α} {i : Nat} (h : i < s.firstFree) : s.get? i ≠ none := by
  have hlen : i < s.cells.length := Nat.lt_of_lt_of_le h findIdx_le_length
  have hsome := not_of_lt_findIdx h
  simp only [get?, getElem?_eq_getElem hlen]
  cases hcell : s.cells[i] with
  | none => simp [hcell] at hsome
  | some a => exact Option.some_ne_none a

/-- What is added next goes behind what was added before. -/
theorem firstFree_lt_add (a : α) : s.firstFree < (s.add a).firstFree := by
  by_contra hge
  have hle : (s.add a).firstFree ≤ s.firstFree := Nat.le_of_not_lt hge
  have hnone := (s.add a).get?_firstFree
  rw [get?_add] at hnone
  split at hnone
  · exact absurd hnone (Option.some_ne_none a)
  next hne =>
    have hlt : (s.add a).firstFree < s.firstFree := Nat.lt_of_le_of_ne hle (Ne.symm hne)
    exact get?_ne_none_of_lt hlt hnone

/-- The first slot with a property holds a value that has it, and no slot before it does. -/
theorem first_eq_some_iff {s : Slots α} {p : α → Bool} {i : Nat} :
    s.first p = some i ↔
      (∃ a, s.get? i = some a ∧ p a = true) ∧ ∀ j, j < i → ∀ a, s.get? j = some a →
        p a = false := by
  simp only [first, findIdx?_eq_some_iff_getElem, get?]
  constructor
  · rintro ⟨hlen, hany, hbefore⟩
    refine ⟨?_, fun j hj a ha => ?_⟩
    · rw [getElem?_eq_getElem hlen]
      cases hcell : s.cells[i] with
      | none => simp [hcell] at hany
      | some a => exact ⟨a, rfl, by simpa [hcell] using hany⟩
    · have hjlen : j < s.cells.length := Nat.lt_trans hj hlen
      have hno := hbefore j hj
      rw [getElem?_eq_getElem hjlen] at ha
      have hcell : s.cells[j] = some a := ha
      simpa [hcell] using hno
  · rintro ⟨⟨a, hget, hp⟩, hbefore⟩
    have hlen : i < s.cells.length := by
      by_contra hout
      rw [getElem?_eq_none (Nat.le_of_not_lt hout)] at hget
      cases hget
    rw [getElem?_eq_getElem hlen] at hget
    have hcell : s.cells[i] = some a := hget
    refine ⟨hlen, by simpa [hcell] using hp, fun j hj => ?_⟩
    have hjlen : j < s.cells.length := Nat.lt_trans hj hlen
    cases hj' : s.cells[j] with
    | none => simp
    | some b =>
      have := hbefore j hj b (by rw [getElem?_eq_getElem hjlen]; exact hj')
      simp [this]

/-- No slot holds a value with a property. -/
theorem first_eq_none_iff {s : Slots α} {p : α → Bool} :
    s.first p = none ↔ ∀ i a, s.get? i = some a → p a = false := by
  simp only [first, findIdx?_eq_none_iff, get?]
  constructor
  · intro hnone i a hget
    cases hcell : s.cells[i]? with
    | none => simp [hcell] at hget
    | some cell =>
      rw [hcell] at hget
      obtain rfl : cell = some a := hget
      simpa using hnone _ (mem_of_getElem? hcell)
  intro hall cell hmem
  obtain ⟨i, hi, rfl⟩ := getElem_of_mem hmem
  cases hcell : s.cells[i] with
  | none => simp
  | some a =>
    have := hall i a (by rw [getElem?_eq_getElem hi]; exact hcell)
    simp [this]

end Slots

end GamePath.Lib
