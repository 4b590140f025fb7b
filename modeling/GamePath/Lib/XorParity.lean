import Mathlib.Tactic

/-!
# Parity of strings of different lengths

`merge op xs ys` combines two strings letter by letter and keeps the tail of the longer one, which
is the same as extending the shorter one with a neutral letter first. For an associative and
commutative `op` the merge of a family of strings does not depend on the order, and when every
letter is its own inverse the parity of a family gives back any one member from the others
(`take_foldl_parity`).
-/

namespace GamePath.Lib.XorParity

open List

universe u

variable {α : Type u}

/-- Letter by letter, keeping the tail of the longer string. -/
def merge (op : α → α → α) : List α → List α → List α
  | [], ys => ys
  | xs, [] => xs
  | x :: xs, y :: ys => op x y :: merge op xs ys

/-- The merge of a family of strings. -/
def parity (op : α → α → α) (family : List (List α)) : List α :=
  family.foldl (merge op) []

variable {op : α → α → α}

@[simp] theorem merge_nil_left (ys : List α) : merge op [] ys = ys := by
  cases ys with
  | nil | cons => rfl

@[simp] theorem merge_nil_right (xs : List α) : merge op xs [] = xs := by
  cases xs with
  | nil | cons => rfl

@[simp] theorem merge_cons_cons (x y : α) (xs ys : List α) :
    merge op (x :: xs) (y :: ys) = op x y :: merge op xs ys := rfl

theorem length_merge (xs ys : List α) : (merge op xs ys).length = max xs.length ys.length := by
  induction xs generalizing ys with
  | nil => simp
  | cons x xs ih =>
    cases ys with
    | nil => simp
    | cons y ys =>
      rw [merge_cons_cons, length_cons, length_cons, ih]
      exact (Nat.add_max_add_right _ _ 1).symm

/-- Extending the first string with neutral letters, up to the length of the second, is no
change. -/
theorem merge_extend {z : α} (hz : ∀ a, op z a = a) {n : Nat} {xs ys : List α}
    (hn : n ≤ ys.length) :
    merge op (xs ++ List.replicate (n - xs.length) z) ys = merge op xs ys := by
  induction xs generalizing n ys with
  | nil =>
    rw [nil_append, length_nil, Nat.sub_zero, merge_nil_left]
    induction n generalizing ys with
    | zero => rw [replicate_zero, merge_nil_left]
    | succ n ih =>
      cases ys with
      | nil => cases hn
      | cons y ys =>
        rw [replicate_succ, merge_cons_cons, hz, ih (Nat.le_of_succ_le_succ hn)]
  | cons x xs ih =>
    cases ys with
    | nil =>
      have : n - (x :: xs).length = 0 := by
        rw [length_nil] at hn
        omega
      rw [this, replicate_zero, append_nil]
    | cons y ys =>
      rw [cons_append, merge_cons_cons, merge_cons_cons, length_cons,
        Nat.sub_add_eq, Nat.sub_right_comm, ih]
      rw [length_cons] at hn
      omega

theorem merge_append {xs xs' ys ys' : List α} (h : xs.length = ys.length) :
    merge op (xs ++ xs') (ys ++ ys') = merge op xs ys ++ merge op xs' ys' := by
  induction xs generalizing ys with
  | nil =>
    rw [length_nil, eq_comm, length_eq_zero_iff] at h
    rw [h, nil_append, nil_append, merge_nil_left, nil_append]
  | cons x xs ih =>
    cases ys with
    | nil => cases h
    | cons y ys =>
      rw [cons_append, cons_append, merge_cons_cons, ih (Nat.succ.inj h)]
      rfl

theorem merge_comm [Std.Commutative op] (xs ys : List α) : merge op xs ys = merge op ys xs := by
  induction xs generalizing ys with
  | nil => rw [merge_nil_left, merge_nil_right]
  | cons x xs ih =>
    cases ys with
    | nil => rfl
    | cons y ys =>
      rw [merge_cons_cons, merge_cons_cons, ih, @Std.Commutative.comm α op _ x y]

theorem merge_assoc [Std.Associative op] (xs ys zs : List α) :
    merge op (merge op xs ys) zs = merge op xs (merge op ys zs) := by
  induction xs generalizing ys zs with
  | nil => rw [merge_nil_left, merge_nil_left]
  | cons x xs ih =>
    cases ys with
    | nil => rw [merge_nil_right, merge_nil_left]
    | cons y ys =>
      cases zs with
      | nil => rw [merge_nil_right, merge_nil_right]
      | cons z zs =>
        rw [merge_cons_cons, merge_cons_cons, merge_cons_cons, merge_cons_cons, ih,
          @Std.Associative.assoc α op _ x y z]

theorem foldl_merge [Std.Associative op] (acc : List α) (family : List (List α)) :
    family.foldl (merge op) acc = merge op acc (parity op family) := by
  induction family generalizing acc with
  | nil => exact (merge_nil_right acc).symm
  | cons xs family ih =>
    rw [foldl_cons, ih, merge_assoc]
    refine congrArg (merge op acc) ?_
    show _ = family.foldl (merge op) (merge op [] xs)
    rw [merge_nil_left, ih xs]

/-- Merging a second time undoes the first. -/
theorem take_merge_merge [Std.Associative op] {z : α} (hself : ∀ a, op a a = z)
    (hz : ∀ a, op a z = a)
    (xs ys : List α) : (merge op (merge op xs ys) ys).take xs.length = xs := by
  induction xs generalizing ys with
  | nil => exact take_zero
  | cons x xs ih =>
    cases ys with
    | nil => simp
    | cons y ys =>
      rw [merge_cons_cons, merge_cons_cons, length_cons, take_succ_cons, ih,
        @Std.Associative.assoc α op _ x y y, hself, hz]

section Family

variable [Std.Associative op] [Std.Commutative op]

/-- The parity of a family is that of its other members, merged with the one taken out. -/
theorem parity_middle (before after : List (List α)) (xs : List α) :
    parity op (before ++ xs :: after) = merge op xs (parity op (before ++ after)) := by
  have hsplit : parity op (before ++ after) = merge op (parity op before) (parity op after) := by
    rw [parity, foldl_append, foldl_merge]
    rfl
  rw [hsplit, parity, foldl_append, foldl_cons, foldl_merge]
  show merge op (merge op (parity op before) xs) (parity op after) = _
  rw [merge_comm (parity op before) xs, merge_assoc]

theorem length_le_parity {family : List (List α)} {xs : List α} (h : xs ∈ family) :
    xs.length ≤ (parity op family).length := by
  obtain ⟨before, after, rfl⟩ := append_of_mem h
  rw [parity_middle, length_merge]
  exact Nat.le_max_left _ _

/-- The parity of a family, merged with all members but one, starts with that one. -/
theorem take_foldl_parity {z : α} (hself : ∀ a, op a a = z) (hz : ∀ a, op a z = a)
    (before after : List (List α)) (xs : List α) :
    ((before ++ after).foldl (merge op) (parity op (before ++ xs :: after))).take xs.length =
      xs := by
  rw [foldl_merge, parity_middle]
  exact take_merge_merge hself hz xs _

end Family

end GamePath.Lib.XorParity
