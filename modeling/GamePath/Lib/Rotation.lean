import Mathlib.Data.List.Perm.Basic
import Mathlib.Data.Nat.Periodic
import Mathlib.Order.Interval.Finset.Nat
import Mathlib.Tactic

/-!
# Rotations over a list

A counter that goes up by one a turn picks the element at its remainder by the length of a list. As
many turns as the list has elements pick each of them once, wherever the counter stands
(`perm_rotation`).
-/

namespace GamePath.Lib.Rotation

open List

universe u

variable {α : Type u}

/-- The remainders of `n` consecutive numbers by `n` are the numbers below `n`. -/
theorem perm_map_mod_range' (start n : Nat) :
    ((List.range' start n).map fun turn => turn % n).Perm (List.range n) := by
  have hmod : ((List.range' start (start + n - start) : Multiset Nat)).map (fun turn => turn % n) =
      (List.range n : Multiset Nat) := Nat.multiset_Ico_map_mod start n
  rw [Nat.add_sub_cancel_left, Multiset.map_coe, Multiset.coe_eq_coe] at hmod
  exact hmod

theorem map_getElem?_range (l : List α) :
    (List.range l.length).map (fun i => l[i]?) = l.map some := by
  apply ext_getElem
  · rw [length_map, length_map, length_range]
  · intro i hi hi'
    rw [getElem_map, getElem_map, getElem_range]
    exact getElem?_eq_getElem (by simpa using hi')

/-- As many consecutive turns as the list has elements pick each element once. -/
theorem perm_rotation (l : List α) (start : Nat) :
    ((List.range' start l.length).map fun turn => l[turn % l.length]?).Perm (l.map some) := by
  have hturns := (perm_map_mod_range' start l.length).map fun i => l[i]?
  rw [map_map, map_getElem?_range] at hturns
  exact hturns

end GamePath.Lib.Rotation
