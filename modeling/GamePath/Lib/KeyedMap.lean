import Mathlib.Data.List.Nodup
import Mathlib.Data.List.Perm.Basic
import Mathlib.Tactic

/-!
# Finite maps as lists of entries with distinct keys

`KeyedMap κ ν` stands for a hash map: a list of entries in which no key occurs twice, the proof of
which is a field. The order of the entries carries no meaning. An operation of a program whose
result depends on the iteration order takes that choice as an argument (`minBy`), so a statement
for every choice covers every order.

`perm_cons_erase` takes one entry out of the list; sums, lengths and concatenations over all
entries follow from it.
-/

namespace GamePath.Lib

open List

universe u v w

/-- A finite map: entries with distinct keys. -/
structure KeyedMap (κ : Type u) (ν : Type v) where
  entries : List (κ × ν)
  nodup : (entries.map Prod.fst).Nodup

namespace KeyedMap

variable {κ : Type u} {ν : Type v}

/-- The empty map. -/
def empty : KeyedMap κ ν := ⟨[], nodup_nil⟩

variable (m : KeyedMap κ ν)

/-- The number of entries. -/
def size : Nat := m.entries.length

/-- Keeps the entries a predicate holds of. -/
def retain (keep : κ → ν → Bool) : KeyedMap κ ν :=
  ⟨m.entries.filter fun e => keep e.1 e.2, (filter_sublist.map Prod.fst).nodup m.nodup⟩

/-- An entry whose weight is least. Which one is chosen among several is the argument `pick`. -/
def minBy (weight : ν → Nat) (pick : Nat) : Option (κ × ν) :=
  let least := m.entries.filter fun e => m.entries.all fun e' => weight e.2 ≤ weight e'.2
  least[pick % least.length]?

/-- An entry whose weight is greatest, chosen by `pick` as in `minBy`. -/
def maxBy (weight : ν → Nat) (pick : Nat) : Option (κ × ν) :=
  let greatest := m.entries.filter fun e => m.entries.all fun e' => weight e'.2 ≤ weight e.2
  greatest[pick % greatest.length]?

/-- What `f` gives for an entry it gives something for, the entry chosen by `pick` as in `minBy`. -/
def findMap {α : Type w} (m : KeyedMap κ ν) (f : κ → ν → Option α) (pick : Nat) : Option α :=
  let found := m.entries.filterMap fun e => f e.1 e.2
  found[pick % found.length]?

/-- Replaces every value. -/
def mapValues {ν' : Type w} (m : KeyedMap κ ν) (f : κ → ν → ν') : KeyedMap κ ν' :=
  ⟨m.entries.map fun e => (e.1, f e.1 e.2), by
    rw [map_map]
    exact m.nodup⟩

section Keys

variable [DecidableEq κ]

/-- The value stored under a key. -/
def get? (m : KeyedMap κ ν) (k : κ) : Option ν :=
  (m.entries.find? fun e => e.1 = k).map Prod.snd

/-- Removes a key. -/
def erase (m : KeyedMap κ ν) (k : κ) : KeyedMap κ ν := m.retain fun k' _ => k' ≠ k

/-- Stores a value under a key, replacing what was there. -/
def insert (m : KeyedMap κ ν) (k : κ) (v : ν) : KeyedMap κ ν :=
  ⟨(k, v) :: (m.erase k).entries, by
    rw [map_cons, nodup_cons]
    refine ⟨fun h => ?_, (m.erase k).nodup⟩
    obtain ⟨e, he, hk⟩ := mem_map.1 h
    have hne := (mem_filter.1 he).2
    simp [hk] at hne⟩

/-- The keys, in the order given if it is an order of theirs. -/
def keysIn (m : KeyedMap κ ν) (order : List κ) : List κ :=
  if order.Perm (m.entries.map Prod.fst) then order else m.entries.map Prod.fst

/-- The entries, in the order given for their keys. -/
def entriesIn (m : KeyedMap κ ν) (order : List κ) : List (κ × ν) :=
  (m.keysIn order).filterMap fun k => (m.get? k).map fun v => (k, v)

end Keys

/-! ## Membership -/

theorem eq_of_mem_of_mem {k : κ} {v v' : ν} (h : (k, v) ∈ m.entries)
    (h' : (k, v') ∈ m.entries) : v = v' := by
  have hinj := inj_on_of_nodup_map m.nodup h h' rfl
  exact (Prod.mk.inj hinj).2

variable {e : κ × ν}

@[simp] theorem mem_retain {m : KeyedMap κ ν} {keep : κ → ν → Bool} :
    e ∈ (m.retain keep).entries ↔ e ∈ m.entries ∧ keep e.1 e.2 = true :=
  mem_filter

theorem size_retain_le (keep : κ → ν → Bool) : (m.retain keep).size ≤ m.size :=
  length_filter_le _ _

variable {weight : ν → Nat} {pick : Nat}

theorem mem_of_minBy {m : KeyedMap κ ν} (h : m.minBy weight pick = some e) : e ∈ m.entries :=
  (mem_filter.1 (mem_of_getElem? h)).1

theorem mem_of_maxBy {m : KeyedMap κ ν} (h : m.maxBy weight pick = some e) : e ∈ m.entries :=
  (mem_filter.1 (mem_of_getElem? h)).1

theorem exists_of_findMap {α : Type w} {m : KeyedMap κ ν} {f : κ → ν → Option α} {a : α}
    (h : m.findMap f pick = some a) : ∃ k v, (k, v) ∈ m.entries ∧ f k v = some a := by
  obtain ⟨⟨k, v⟩, hmem, hsome⟩ := mem_filterMap.1 (mem_of_getElem? h)
  exact ⟨k, v, hmem, hsome⟩

/-- When `f` gives something for one entry only, every choice finds that one. -/
theorem findMap_eq_some {α : Type w} {m : KeyedMap κ ν} {f : κ → ν → Option α} {k : κ} {v : ν}
    {a : α} (hmem : (k, v) ∈ m.entries) (hsome : f k v = some a)
    (hother : ∀ k' v', (k', v') ∈ m.entries → k' ≠ k → f k' v' = none) :
    m.findMap f pick = some a := by
  have hfound : a ∈ m.entries.filterMap fun e => f e.1 e.2 :=
    mem_filterMap.2 ⟨(k, v), hmem, hsome⟩
  have hpos := length_pos_of_mem hfound
  obtain ⟨b, hb⟩ : ∃ b, m.findMap f pick = some b :=
    ⟨_, getElem?_eq_getElem (Nat.mod_lt _ hpos)⟩
  obtain ⟨k', v', hmem', hsome'⟩ := exists_of_findMap hb
  by_cases hk : k' = k
  · subst hk
    have hv := m.eq_of_mem_of_mem hmem hmem'
    subst hv
    rw [hb, ← hsome', hsome]
  · rw [hother k' v' hmem' hk] at hsome'
    cases hsome'

/-- Some choice takes an entry exactly when no entry has a greater weight. -/
theorem exists_maxBy_iff {m : KeyedMap κ ν} :
    (∃ pick, m.maxBy weight pick = some e) ↔
      e ∈ m.entries ∧ ∀ e' ∈ m.entries, weight e'.2 ≤ weight e.2 := by
  have hmem : e ∈ (m.entries.filter fun e => m.entries.all fun e' =>
      decide (weight e'.2 ≤ weight e.2)) ↔
      e ∈ m.entries ∧ ∀ e' ∈ m.entries, weight e'.2 ≤ weight e.2 := by
    simp [mem_filter]
  rw [← hmem]
  unfold maxBy
  dsimp only
  constructor
  · rintro ⟨pick, h⟩
    exact mem_of_getElem? h
  · intro h
    obtain ⟨i, hi, heq⟩ := mem_iff_getElem.1 h
    refine ⟨i, ?_⟩
    rw [Nat.mod_eq_of_lt hi, getElem?_eq_getElem hi, heq]

section Lookup

variable [DecidableEq κ] {m : KeyedMap κ ν} {k : κ} {v : ν}

theorem get?_eq_some_iff :
    m.get? k = some v ↔ (k, v) ∈ m.entries := by
  unfold get?
  rw [Option.map_eq_some_iff]
  constructor
  · rintro ⟨⟨k', v'⟩, hfind, rfl⟩
    have hmem := mem_of_find?_eq_some hfind
    have hkey : k' = k := by simpa using find?_some hfind
    rw [← hkey]
    exact hmem
  intro h
  have hsome : (m.entries.find? fun e => decide (e.1 = k)).isSome = true := by
    rw [find?_isSome]
    exact ⟨(k, v), h, by simp⟩
  obtain ⟨⟨k', v'⟩, hfind⟩ := Option.isSome_iff_exists.1 hsome
  have hmem := mem_of_find?_eq_some hfind
  have hkey : k' = k := by simpa using find?_some hfind
  subst hkey
  exact ⟨(k', v'), hfind, m.eq_of_mem_of_mem hmem h⟩

theorem get?_eq_none_iff :
    m.get? k = none ↔ ∀ e ∈ m.entries, e.1 ≠ k := by
  unfold get?
  simp

theorem keysIn_perm (m : KeyedMap κ ν) (order : List κ) :
    (m.keysIn order).Perm (m.entries.map Prod.fst) := by
  rw [keysIn]
  split
  · assumption
  · exact List.Perm.refl _

theorem nodup_keysIn (m : KeyedMap κ ν) (order : List κ) : (m.keysIn order).Nodup :=
  (m.keysIn_perm order).nodup_iff.2 m.nodup

@[simp] theorem mem_keysIn {order : List κ} :
    k ∈ m.keysIn order ↔ ∃ v, m.get? k = some v := by
  rw [(m.keysIn_perm order).mem_iff, mem_map]
  constructor
  · rintro ⟨⟨k', v⟩, hmem, rfl⟩
    exact ⟨v, get?_eq_some_iff.2 hmem⟩
  · rintro ⟨v, hv⟩
    exact ⟨(k, v), get?_eq_some_iff.1 hv, rfl⟩

@[simp] theorem mem_entriesIn {order : List κ} {e : κ × ν} :
    e ∈ m.entriesIn order ↔ e ∈ m.entries := by
  rw [entriesIn, mem_filterMap, ← get?_eq_some_iff (k := e.1) (v := e.2)]
  constructor
  · rintro ⟨k, -, hk⟩
    obtain ⟨v, hv, rfl⟩ := Option.map_eq_some_iff.1 hk
    exact hv
  · intro h
    exact ⟨e.1, mem_keysIn.2 ⟨e.2, h⟩, by rw [h]; rfl⟩

theorem nodup_keys_entriesIn (m : KeyedMap κ ν) (order : List κ) :
    ((m.entriesIn order).map Prod.fst).Nodup := by
  have hkeys : (m.entriesIn order).map Prod.fst = m.keysIn order := by
    rw [entriesIn, map_filterMap]
    have hall : ∀ k ∈ m.keysIn order, ((m.get? k).map fun v => (k, v)).map Prod.fst = some k := by
      intro k hk
      obtain ⟨v, hv⟩ := mem_keysIn.1 hk
      rw [hv]
      rfl
    rw [filterMap_congr hall, filterMap_some]
  rw [hkeys]
  exact m.nodup_keysIn order

/-- The entries in an order are the entries. -/
theorem entriesIn_perm (m : KeyedMap κ ν) (order : List κ) :
    (m.entriesIn order).Perm m.entries := by
  have hnodup := List.Nodup.of_map _ (m.nodup_keys_entriesIn order)
  exact (perm_ext_iff_of_nodup hnodup (List.Nodup.of_map _ m.nodup)).2 fun e => mem_entriesIn

@[simp] theorem get?_empty (k : κ) : (empty : KeyedMap κ ν).get? k = none := rfl

@[simp] theorem mem_erase {e : κ × ν} :
    e ∈ (m.erase k).entries ↔ e ∈ m.entries ∧ e.1 ≠ k := by
  simp [erase]

@[simp] theorem mem_insert {e : κ × ν} :
    e ∈ (m.insert k v).entries ↔ e = (k, v) ∨ e ∈ m.entries ∧ e.1 ≠ k := by
  show e ∈ (k, v) :: (m.erase k).entries ↔ _
  rw [mem_cons, mem_erase]

theorem get?_insert (m : KeyedMap κ ν) (k k' : κ) (v : ν) :
    (m.insert k v).get? k' = if k' = k then some v else m.get? k' := by
  ext w
  rw [get?_eq_some_iff, mem_insert]
  by_cases hk : k' = k
  · subst hk
    simp [eq_comm]
  · simp [hk, get?_eq_some_iff]

@[simp] theorem get?_insert_self (m : KeyedMap κ ν) (k : κ) (v : ν) :
    (m.insert k v).get? k = some v := by
  rw [get?_insert, if_pos rfl]

theorem get?_erase (m : KeyedMap κ ν) (k k' : κ) :
    (m.erase k).get? k' = if k' = k then none else m.get? k' := by
  ext w
  rw [get?_eq_some_iff, mem_erase]
  by_cases hk : k' = k
  · simp [hk]
  · simp [hk, get?_eq_some_iff]

theorem get?_retain (m : KeyedMap κ ν) (keep : κ → ν → Bool) (k : κ) :
    (m.retain keep).get? k = (m.get? k).filter (keep k) := by
  ext w
  rw [get?_eq_some_iff, mem_retain, Option.filter_eq_some_iff, get?_eq_some_iff]

theorem get?_mapValues {ν' : Type w} (m : KeyedMap κ ν) (f : κ → ν → ν') (k : κ) :
    (m.mapValues f).get? k = (m.get? k).map (f k) := by
  ext v
  rw [get?_eq_some_iff, Option.map_eq_some_iff]
  constructor
  · intro h
    obtain ⟨e, he, heq⟩ := mem_map.1 h
    cases heq
    exact ⟨e.2, get?_eq_some_iff.2 he, rfl⟩
  · rintro ⟨v', hget, rfl⟩
    exact mem_map.2 ⟨(k, v'), get?_eq_some_iff.1 hget, rfl⟩

/-! ## Taking one entry out -/

theorem perm_cons_erase (h : m.get? k = some v) :
    m.entries.Perm ((k, v) :: (m.erase k).entries) := by
  have hnodup : m.entries.Nodup := List.Nodup.of_map _ m.nodup
  have hnodup' : (m.insert k v).entries.Nodup := List.Nodup.of_map _ (m.insert k v).nodup
  refine (perm_ext_iff_of_nodup hnodup hnodup').2 fun e => ?_
  rw [mem_insert]
  constructor
  · intro he
    by_cases hk : e.1 = k
    · refine .inl (Prod.ext hk ?_)
      rw [get?_eq_some_iff, ← hk] at h
      exact m.eq_of_mem_of_mem he h
    · exact .inr ⟨he, hk⟩
  · rintro (rfl | ⟨he, -⟩)
    · exact get?_eq_some_iff.1 h
    · exact he

/-- When only one key contributes, a concatenation over all entries is what that key contributes. -/
theorem flatMap_entries_eq {α : Type w} (h : m.get? k = some v) {f : κ × ν → List α}
    (hf : ∀ e ∈ m.entries, e.1 ≠ k → f e = []) :
    m.entries.flatMap f = f (k, v) := by
  rw [get?_eq_some_iff] at h
  obtain ⟨entries, hnodup⟩ := m
  induction entries with
  | nil => exact absurd h not_mem_nil
  | cons first entries ih =>
    rw [map_cons, nodup_cons] at hnodup
    rw [flatMap_cons]
    rcases mem_cons.1 h with heq | hin
    · -- The others have other keys and contribute nothing.
      have hrest : entries.flatMap f = [] := by
        rw [flatMap_eq_nil_iff]
        intro e he
        refine hf e (mem_cons_of_mem _ he) ?_
        intro hkey
        refine hnodup.1 ?_
        rw [show first.1 = e.1 from (congrArg Prod.fst heq).symm.trans hkey.symm]
        exact mem_map_of_mem he
      rw [hrest, append_nil, heq]
    have hfirst : f first = [] := by
      refine hf first mem_cons_self ?_
      intro hkey
      refine hnodup.1 ?_
      rw [hkey]
      exact mem_map.2 ⟨(k, v), hin, rfl⟩
    rw [hfirst, nil_append]
    exact ih hnodup.2 hin fun e he => hf e (mem_cons_of_mem _ he)

theorem entries_erase_of_get?_none (h : m.get? k = none) :
    (m.erase k).entries = m.entries := by
  show m.entries.filter _ = m.entries
  rw [filter_eq_self]
  intro e he
  simpa using get?_eq_none_iff.1 h e he

theorem size_erase_of_get?_some (h : m.get? k = some v) :
    (m.erase k).size + 1 = m.size :=
  (perm_cons_erase h).length_eq.symm

theorem size_erase_le (m : KeyedMap κ ν) (k : κ) : (m.erase k).size ≤ m.size :=
  length_filter_le _ _

@[simp] theorem size_insert (m : KeyedMap κ ν) (k : κ) (v : ν) :
    (m.insert k v).size = (m.erase k).size + 1 := rfl

end Lookup

/-- A map with an entry has a least one, whatever is picked. -/
theorem minBy_isSome {m : KeyedMap κ ν} (hm : m.entries ≠ []) (weight : ν → Nat) (pick : Nat) :
    (m.minBy weight pick).isSome = true := by
  unfold minBy
  have hne : (m.entries.filter fun e => m.entries.all fun e' =>
      decide (weight e.2 ≤ weight e'.2)) ≠ [] := by
    obtain ⟨e₀, he₀⟩ := exists_mem_of_ne_nil _ hm
    obtain ⟨e, he, hmin⟩ :=
      (measure fun e : κ × ν => weight e.2).wf.has_min {e | e ∈ m.entries} ⟨e₀, he₀⟩
    refine ne_nil_of_mem (mem_filter.2 ⟨he, all_eq_true.2 fun e' he' => ?_⟩)
    exact decide_eq_true (Nat.le_of_not_lt (hmin e' he'))
  have hpos := length_pos_iff.2 hne
  rw [getElem?_eq_getElem (Nat.mod_lt _ hpos)]
  rfl

/-! ## The order of the entries -/

section Order

variable [DecidableEq κ]

/-- The same map, with its entries in another order. -/
def reorder (m : KeyedMap κ ν) (order : List κ) :
    KeyedMap κ ν := ⟨m.entriesIn order, m.nodup_keys_entriesIn order⟩

/-- Stores a value under a key as a hash map does that is iterated: in place where the key is there,
and where it is not, every order may come of it. -/
def set (m : KeyedMap κ ν) (k : κ) (v : ν) (order : List κ) : KeyedMap κ ν :=
  if (m.get? k).isSome then m.mapValues fun k' v' => if k' =
    k then v else v' else (m.insert k v).reorder order

@[simp] theorem get?_reorder (m : KeyedMap κ ν) (order : List κ) (k : κ) :
    (m.reorder order).get? k = m.get? k := by
  ext v
  rw [get?_eq_some_iff, get?_eq_some_iff]
  exact mem_entriesIn

theorem get?_set (m : KeyedMap κ ν) (k k' : κ) (v : ν) (order : List κ) :
    (m.set k v order).get? k' = if k' = k then some v else m.get? k' := by
  rw [set]
  split
  next hsome =>
    rw [get?_mapValues]
    obtain ⟨w, hw⟩ := Option.isSome_iff_exists.1 hsome
    by_cases hk : k' = k
    · rw [hk, hw, if_pos rfl]
      exact congrArg some (if_pos rfl)
    · rw [if_neg hk]
      simp [hk]
  · rw [get?_reorder, get?_insert]

/-- A value that is there already is stored without a trace. -/
theorem set_of_get? {m : KeyedMap κ ν} {k : κ} {v : ν} (order : List κ) (h : m.get? k = some v) :
    m.set k v order = m := by
  rw [set, if_pos (by rw [h]; rfl)]
  obtain ⟨entries, nodup⟩ := m
  rw [mapValues]
  congr 1
  refine (map_congr_left fun e he => ?_).trans (map_id entries)
  by_cases hk : e.1 = k
  · have hmem : (k, e.2) ∈ entries := hk ▸ he
    rw [if_pos hk, ← Option.some.inj ((get?_eq_some_iff.2 hmem).symm.trans h)]
    rfl
  · rw [if_neg hk]
    rfl

end Order

end KeyedMap

end GamePath.Lib
