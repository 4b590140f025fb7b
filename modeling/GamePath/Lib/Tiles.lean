import Mathlib.Tactic

/-!
# Cutting a string into tiles

A string cut into pieces of one width, the last one being what is left. `tile` is one piece,
`tileCount` how many there are; a tile and the string after it are the string from there on.

`Tiling` is the other way round: things that have a place and a length and lie end to end.
-/

namespace GamePath.Lib.Tiles

open List

universe u

variable {α : Type u}

/-- The `i`-th piece of width `width`. -/
def tile (xs : List α) (width i : Nat) : List α := (xs.drop (i * width)).take width

/-- The number of pieces, rounded up. -/
def tileCount (length width : Nat) : Nat := (length + width - 1) / width

variable {xs : List α} {width i : Nat}

theorem length_tile (xs : List α) (width i : Nat) :
    (tile xs width i).length = min width (xs.length - i * width) := by
  rw [tile, length_take, length_drop]

theorem lt_tileCount_iff (hwidth : 0 < width) {length : Nat} :
    i < tileCount length width ↔ i * width < length := by
  rw [tileCount, Nat.lt_div_iff_mul_lt hwidth]
  omega

/-- Every piece but the last one is full. -/
theorem length_tile_of_lt (hwidth : 0 < width) (h : i + 1 < tileCount xs.length width) :
    (tile xs width i).length = width := by
  rw [lt_tileCount_iff hwidth, Nat.add_mul] at h
  rw [length_tile]
  omega

/-- The pieces up to one that is there end where it does. -/
theorem mul_add_length_tile (hwidth : 0 < width) (h : i + 1 = tileCount xs.length width) :
    i * width + (tile xs width i).length = xs.length := by
  have hin : i * width < xs.length := (lt_tileCount_iff hwidth).1 (by omega)
  have hout : ¬ (i + 1) * width < xs.length := by
    intro hlt
    have := (lt_tileCount_iff hwidth).2 hlt
    omega
  rw [Nat.add_mul] at hout
  rw [length_tile]
  omega

/-- A piece and what follows it. -/
theorem tile_append_drop (xs : List α) (width i : Nat) :
    tile xs width i ++ xs.drop ((i + 1) * width) = xs.drop (i * width) := by
  rw [Nat.add_mul, Nat.one_mul, ← drop_drop]
  exact take_append_drop width _

/-- The first pieces are what the string starts with. -/
theorem flatMap_tile_range (xs : List α) (width k : Nat) :
    (List.range k).flatMap (tile xs width) = xs.take (k * width) := by
  induction k with
  | zero => simp
  | succ k ih =>
    rw [range_succ, flatMap_append, ih, flatMap_singleton, tile, Nat.add_mul,
      Nat.one_mul, take_add]

/-- All pieces together are the string. -/
theorem flatMap_tile (hwidth : 0 < width) (xs : List α) :
    (List.range (tileCount xs.length width)).flatMap (tile xs width) = xs := by
  rw [flatMap_tile_range]
  apply take_of_length_le
  by_contra hlt
  exact absurd ((lt_tileCount_iff hwidth).2 (Nat.lt_of_not_le hlt)) (Nat.lt_irrefl _)

/-! ## Things that lie end to end -/

section Tiling

universe v

variable {β : Type v} {start length : α → Nat}

/-- The things lie end to end, the first one at `a` and the last one up to `b`. -/
def Tiling (start length : α → Nat) : Nat → List α → Nat → Prop
  | a, [], b => a = b
  | a, x :: xs, b => start x = a ∧ Tiling start length (a + length x) xs b

/-- What lies end to end is as long as its parts together. -/
theorem Tiling.length_eq {xs : List α} :
    ∀ {a b : Nat}, Tiling start length a xs b → a + (xs.map length).sum = b := by
  induction xs with
  | nil => exact id
  | cons x xs ih =>
    intro a b h
    rw [map_cons, sum_cons, ← Nat.add_assoc]
    exact ih h.2

/-- Other things with the same places and lengths lie end to end as well. -/
theorem Tiling.map {start' length' : β → Nat} (f : α → β) {xs : List α} :
    (∀ x ∈ xs, start' (f x) = start x ∧ length' (f x) = length x) →
    ∀ {a b : Nat}, Tiling start length a xs b → Tiling start' length' a (xs.map f) b := by
  induction xs with
  | nil => exact fun _ _ _ => id
  | cons x xs ih =>
    intro hsame a b h
    obtain ⟨hstart, hlength⟩ := hsame x mem_cons_self
    refine ⟨hstart.trans h.1, ?_⟩
    rw [hlength]
    exact ih (fun y hy => hsame y (mem_cons_of_mem _ hy)) h.2

end Tiling

end GamePath.Lib.Tiles
