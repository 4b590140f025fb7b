import Mathlib.Order.Basic
import Mathlib.Tactic

/-!
# Finite maps kept in the order of their keys

`SortedMap κ ν` stands for a B-tree map: entries in strictly increasing order of their keys, the
proof of which is a field. An operation is specified by the entries of its result.
-/

namespace GamePath.Lib

open List

universe u v

/-- A finite map whose entries are in the order of their keys. -/
structure SortedMap (κ : Type u) (ν : Type v) [LinearOrder κ] where
  entries : List (κ × ν)
  sorted : entries.Pairwise fun e e' => e.1 < e'.1

namespace SortedMap

variable {κ : Type u} {ν : Type v} [LinearOrder κ]

/-- The empty map. -/
def empty : SortedMap κ ν := ⟨[], List.Pairwise.nil⟩

/-- Removes a key. -/
def remove (m : SortedMap κ ν) (k : κ) : SortedMap κ ν :=
  ⟨m.entries.filter fun e => e.1 ≠ k, m.sorted.sublist filter_sublist⟩

/-- Stores a value under a key, replacing what was there. -/
def insert (m : SortedMap κ ν) (k : κ) (v : ν) : SortedMap κ ν where
  entries := (m.entries.filter fun e => e.1 < k) ++ (k, v) :: m.entries.filter fun e => k < e.1
  sorted := by
    rw [pairwise_append, pairwise_cons]
    refine ⟨m.sorted.sublist filter_sublist,
      ⟨?_, m.sorted.sublist filter_sublist⟩, ?_⟩
    · intro e he
      simpa using (mem_filter.1 he).2
    intro e he e' he'
    have hlt : e.1 < k := by simpa using (mem_filter.1 he).2
    rcases mem_cons.1 he' with rfl | he'
    · exact hlt
    · have hgt : k < e'.1 := by simpa using (mem_filter.1 he').2
      exact hlt.trans hgt

/-- The entries up to a key, in order (`range(..=k)`). -/
def rangeTo (m : SortedMap κ ν) (k : κ) : List (κ × ν) := m.entries.filter fun e => e.1 ≤ k

variable {m : SortedMap κ ν}

@[simp] theorem mem_remove {k : κ} {e : κ × ν} :
    e ∈ (m.remove k).entries ↔ e ∈ m.entries ∧ e.1 ≠ k := by
  simp [remove]

@[simp] theorem mem_insert {k : κ} {v : ν} {e : κ × ν} :
    e ∈ (m.insert k v).entries ↔ e = (k, v) ∨ (e ∈ m.entries ∧ e.1 ≠ k) := by
  simp only [insert, mem_append, mem_cons, mem_filter, decide_eq_true_eq]
  constructor
  · rintro (⟨he, hlt⟩ | rfl | ⟨he, hgt⟩)
    · exact .inr ⟨he, hlt.ne⟩
    · exact .inl rfl
    · exact .inr ⟨he, hgt.ne'⟩
  · rintro (rfl | ⟨he, hne⟩)
    · exact .inr (.inl rfl)
    · rcases lt_or_gt_of_ne hne with hlt | hgt
      · exact .inl ⟨he, hlt⟩
      · exact .inr (.inr ⟨he, hgt⟩)

@[simp] theorem mem_rangeTo {k : κ} {e : κ × ν} :
    e ∈ m.rangeTo k ↔ e ∈ m.entries ∧ e.1 ≤ k := by
  simp [rangeTo]

theorem sorted_rangeTo (m : SortedMap κ ν) (k : κ) :
    (m.rangeTo k).Pairwise fun e e' => e.1 < e'.1 :=
  m.sorted.sublist filter_sublist

/-- A key has one entry. -/
theorem eq_of_mem {e e' : κ × ν} (h : e ∈ m.entries) (h' : e' ∈ m.entries) (hkey : e.1 = e'.1) :
    e = e' := by
  have hnodup : (m.entries.map Prod.fst).Nodup := by
    rw [List.Nodup, pairwise_map]
    exact m.sorted.imp fun h => h.ne
  exact inj_on_of_nodup_map hnodup h h' hkey

end SortedMap

end GamePath.Lib
