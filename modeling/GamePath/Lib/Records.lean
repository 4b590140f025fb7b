import Mathlib.Data.List.Nodup

/-!
# Lists of records told apart by a key

A list of records is edited by changing one of them, and loaded by keeping the first of each key.
What a change leaves alone it leaves alone in the whole list, and a list whose keys differ is kept
as it is.
-/

namespace GamePath.Lib.Records

open List

variable {α β : Type}

/-! ## Changing one record -/

theorem mem_modify {l : List α} {i : Nat} {f : α → α} {b : α} (h : b ∈ l.modify i f) :
    b ∈ l ∨ ∃ a ∈ l, b = f a := by
  induction l generalizing i with
  | nil =>
    rw [modify_nil] at h
    exact .inl h
  | cons c l ih =>
    cases i with
    | zero =>
      rcases mem_cons.1 h with rfl | hmem
      · exact .inr ⟨c, mem_cons_self, rfl⟩
      · exact .inl (mem_cons_of_mem c hmem)
    | succ i =>
      rcases mem_cons.1 h with rfl | hmem
      · exact .inl mem_cons_self
      · rcases ih hmem with hold | ⟨a, ha, rfl⟩
        · exact .inl (mem_cons_of_mem c hold)
        · exact .inr ⟨a, mem_cons_of_mem c ha, rfl⟩

/-- What the change of a record keeps is the same in the whole list. -/
theorem map_modify (l : List α) (i : Nat) {f : α → α} {g : α → β} (h : ∀ a, g (f a) = g a) :
    (l.modify i f).map g = l.map g := by
  induction l generalizing i with
  | nil => rw [modify_nil]
  | cons c l ih =>
    cases i with
    | zero => rw [modify_zero_cons, map_cons, map_cons, h]
    | succ i => rw [modify_succ_cons, map_cons, map_cons, ih]

/-! ## The first of each key -/

/-- The first of the records of each key, but for the keys that were seen. -/
def distinctBy [DecidableEq β] (key : α → β) : List β → List α → List α
  | _, [] => []
  | seen, a :: as =>
    if key a ∈ seen then distinctBy key seen as else a :: distinctBy key (key a :: seen) as

theorem mem_of_mem_distinctBy [DecidableEq β] {key : α → β} {l : List α} {seen : List β} {a : α}
    (h : a ∈ distinctBy key seen l) : a ∈ l := by
  induction l generalizing seen with
  | nil => exact h
  | cons c l ih =>
    rw [distinctBy] at h
    split at h
    · exact mem_cons_of_mem c (ih h)
    · rcases mem_cons.1 h with rfl | hrest
      · exact mem_cons_self
      · exact mem_cons_of_mem c (ih hrest)

theorem distinctBy_eq_self [DecidableEq β] {key : α → β} {l : List α} {seen : List β}
    (hnodup : (l.map key).Nodup) (hseen : ∀ a ∈ l, key a ∉ seen) : distinctBy key seen l = l := by
  induction l generalizing seen with
  | nil => rfl
  | cons a l ih =>
    obtain ⟨hfirst, hrest⟩ := nodup_cons.1 (map_cons ▸ hnodup)
    rw [distinctBy, if_neg (hseen a mem_cons_self)]
    congr 1
    apply ih hrest
    intro b hb hmem
    rcases mem_cons.1 hmem with hsame | hold
    · exact hfirst (hsame ▸ mem_map_of_mem hb)
    · exact hseen b (mem_cons_of_mem a hb) hold

end GamePath.Lib.Records
