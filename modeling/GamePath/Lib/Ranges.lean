import Mathlib.Order.Basic
import Mathlib.Tactic

/-!
# Ranges of a linear order that carry values

A list of ranges is `Ordered` when no range is empty and each one ends before the next begins; then
a point is in at most one of them and a binary search for the last range that begins at or before
the point finds it. Ranges painted one over another, the widest first, leave at every point the
value of a narrowest range there: `painted_narrowest`.
-/

namespace GamePath.Lib

open List

universe u v w

/-! ## Binary search -/

section PartitionPoint

variable {β : Type u}

/-- The halving loop of `partitionPoint` on the positions from `lo` to before `hi`. -/
def partitionSearch (p : β → Bool) (xs : List β) : Nat → Nat → Nat → Nat
  | 0, lo, _ => lo
  | fuel + 1, lo, hi =>
    if lo < hi then
      match xs[lo + (hi - lo) / 2]? with
      | some x =>
        if p x then partitionSearch p xs fuel (lo + (hi - lo) / 2 + 1) hi
        else partitionSearch p xs fuel lo (lo + (hi - lo) / 2)
      | none => lo
    else lo

/-- The position of the first element a predicate fails on, found by halving. The predicate holds of
a first part of the list and of nothing after it. -/
def partitionPoint (p : β → Bool) (xs : List β) : Nat :=
  partitionSearch p xs xs.length 0 xs.length

/-- `k` parts a list by a predicate. -/
structure Parts (p : β → Bool) (xs : List β) (k : Nat) : Prop where
  within : k ≤ xs.length
  before : ∀ i x, i < k → xs[i]? = some x → p x = true
  after : ∀ i x, k ≤ i → xs[i]? = some x → p x = false

variable {p : β → Bool} {xs : List β}

section

variable (hp : xs.Pairwise fun x y => p y = true → p x = true)
include hp

theorem partitionSearch_parts :
    ∀ (fuel lo hi : Nat), hi - lo ≤ fuel → lo ≤ hi → hi ≤ xs.length →
      (∀ i x, i < lo → xs[i]? = some x → p x = true) →
      (∀ i x, hi ≤ i → xs[i]? = some x → p x = false) →
      Parts p xs (partitionSearch p xs fuel lo hi) := by
  -- An element answers for all those on one side of it.
  have hside : ∀ {i j : Nat} {x y : β}, i < j → xs[i]? = some x → xs[j]? = some y →
      p y = true → p x = true := by
    intro i j x y hij hx hy
    obtain ⟨hi, rfl⟩ := List.getElem?_eq_some_iff.1 hx
    obtain ⟨hj, rfl⟩ := List.getElem?_eq_some_iff.1 hy
    exact List.pairwise_iff_getElem.1 hp i j hi hj hij
  intro fuel
  induction fuel with
  | zero =>
    intro lo hi hfuel hle hlen hbefore hafter
    have heq : lo = hi := by omega
    subst heq
    exact ⟨hlen, hbefore, hafter⟩
  | succ fuel ih =>
    intro lo hi hfuel hle hlen hbefore hafter
    rw [partitionSearch]
    split
    · rename_i hlt
      have hmid : lo + (hi - lo) / 2 < xs.length := by omega
      rw [List.getElem?_eq_getElem hmid]
      have hget := List.getElem?_eq_getElem hmid
      simp only
      split
      · rename_i hholds
        apply ih _ _ (by omega) (by omega) hlen _ hafter
        intro i x hi hx
        rcases Nat.lt_succ_iff_lt_or_eq.1 hi with hbelow | rfl
        · exact hside hbelow hx hget hholds
        · rw [hget] at hx
          rwa [← Option.some.inj hx]
      rename_i hfails
      apply ih _ _ (by omega) (by omega) (by omega) hbefore
      intro i x hi hx
      rcases Nat.eq_or_lt_of_le hi with rfl | habove
      · rw [hget] at hx
        rw [← Option.some.inj hx]
        exact Bool.eq_false_iff.2 hfails
      · rw [Bool.eq_false_iff]
        intro hholds
        exact hfails (hside habove hget hx hholds)
    · have heq : lo = hi := by omega
      subst heq
      exact ⟨hlen, hbefore, hafter⟩

theorem partitionPoint_parts :
    Parts p xs (partitionPoint p xs) := by
  apply partitionSearch_parts hp xs.length 0 xs.length (by omega) (by omega) (by omega)
  · intro i x hi
    omega
  · intro i x hi hx
    rw [getElem?_eq_none hi] at hx
    cases hx

/-- Where a predicate holds of a first part of the list, `takeWhile` takes all it holds of. -/
theorem mem_takeWhile_iff {x : β} :
    x ∈ xs.takeWhile p ↔ x ∈ xs ∧ p x = true := by
  induction xs with
  | nil => simp
  | cons y ys ih =>
    obtain ⟨hy, hys⟩ := pairwise_cons.1 hp
    by_cases hpy : p y = true
    · rw [takeWhile_cons_of_pos hpy, mem_cons, mem_cons, ih hys]
      constructor
      · rintro (rfl | ⟨hx, hpx⟩)
        · exact ⟨.inl rfl, hpy⟩
        · exact ⟨.inr hx, hpx⟩
      · rintro ⟨rfl | hx, hpx⟩
        · exact .inl rfl
        · exact .inr ⟨hx, hpx⟩
    rw [takeWhile_cons_of_neg hpy]
    constructor
    · intro hx
      cases hx
    · rintro ⟨hx, hpx⟩
      rcases mem_cons.1 hx with rfl | hx
      · exact absurd hpx hpy
      · exact absurd (hy x hx hpx) hpy

end

end PartitionPoint

/-! ## Ranges -/

/-- A closed range with a value. -/
structure Range (α : Type u) (ν : Type v) where
  first : α
  last : α
  value : ν
  deriving DecidableEq

namespace Range

variable {α : Type u} {ν : Type v} [LinearOrder α]

/-- A point is in the range. -/
def Contains (r : Range α ν) (a : α) : Prop := r.first ≤ a ∧ a ≤ r.last

instance (r : Range α ν) (a : α) : Decidable (r.Contains a) := inferInstanceAs (Decidable (_ ∧ _))

/-- Some range of the list has the point and the value. -/
def Holds (rs : List (Range α ν)) (a : α) (v : ν) : Prop := ∃ r ∈ rs, r.Contains a ∧ r.value = v

theorem holds_cons {r : Range α ν} {rs : List (Range α ν)} {a : α} {v : ν} :
    Holds (r :: rs) a v ↔ (r.Contains a ∧ r.value = v) ∨ Holds rs a v :=
  exists_mem_cons_iff _ _ _

/-- No range is empty, and each one ends before those after it begin. -/
structure Ordered (rs : List (Range α ν)) : Prop where
  proper : ∀ r ∈ rs, r.first ≤ r.last
  apart : rs.Pairwise fun r r' => r.last < r'.first

/-- The range a search for the point finds: the last one that begins at or before it, when the point
is not past its end. -/
def find (rs : List (Range α ν)) (a : α) : Option (Range α ν) :=
  match partitionPoint (fun r => decide (r.first ≤ a)) rs with
  | 0 => none
  | i + 1 => rs[i]?.filter fun r => decide (a ≤ r.last)

variable {rs : List (Range α ν)} {a : α} {r : Range α ν} {v : ν}

theorem Ordered.firsts (h : Ordered rs) : rs.Pairwise fun r r' => r.first < r'.first := by
  apply h.apart.imp_of_mem
  intro r r' hr hr' hlt
  exact (h.proper r hr).trans_lt hlt

/-- The ranges that begin at or before a point are a first part of the list. -/
theorem Ordered.decides_firsts (h : Ordered rs) (a : α) :
    rs.Pairwise fun r r' => decide (r'.first ≤ a) = true → decide (r.first ≤ a) = true := by
  apply h.firsts.imp
  intro r r' hlt hle
  simp only [decide_eq_true_eq] at hle ⊢
  exact hlt.le.trans hle

/-- In an ordered list the search finds exactly the range that has the point. -/
theorem Ordered.find_eq_some_iff (h : Ordered rs) : find rs a = some r ↔ r ∈ rs ∧ r.Contains a := by
  have hparts := partitionPoint_parts (h.decides_firsts a)
  unfold find
  constructor
  · intro hfind
    split at hfind
    · cases hfind
    · rename_i i hpoint
      rw [Option.filter_eq_some_iff] at hfind
      obtain ⟨hget, hlast⟩ := hfind
      have hfirst := hparts.before i r (by omega) hget
      exact ⟨mem_of_getElem? hget, by simpa using hfirst, by simpa using hlast⟩
  rintro ⟨hmem, hfirst, hlast⟩
  obtain ⟨i, hi, rfl⟩ := mem_iff_getElem.1 hmem
  have hget := getElem?_eq_getElem hi
  -- Every range after the one that has the point begins past it.
  have hpoint : partitionPoint (fun r => decide (r.first ≤ a)) rs = i + 1 := by
    apply Nat.le_antisymm
    · by_contra hlt
      have hwithin := hparts.within
      have hi' : i + 1 < rs.length := by omega
      have hlater := hparts.before (i + 1) _ (by omega) (getElem?_eq_getElem hi')
      have hapart := pairwise_iff_getElem.1 h.apart i (i + 1) hi hi' (by omega)
      simp only [decide_eq_true_eq] at hlater
      exact absurd (hapart.trans_le hlater) hlast.not_gt
    · by_contra hlt
      have hafter := hparts.after i _ (by omega) hget
      simp only [decide_eq_false_iff_not] at hafter
      exact hafter hfirst
  rw [hpoint]
  simp only [hget, Option.filter_some, hlast, decide_true, if_true]

/-! ## Painting -/

/-- The value is that of a range that has the point and is no wider than any other that has it. -/
def Narrowest (width : Range α ν → Nat) (rs : List (Range α ν)) (a : α) (v : ν) : Prop :=
  ∃ r ∈ rs, r.Contains a ∧ r.value = v ∧ ∀ r' ∈ rs, r'.Contains a → width r ≤ width r'

section Painting

variable {σ : Type w} (width : Range α ν → Nat) (holds : σ → α → ν → Prop)
variable (paint : σ → Range α ν → σ)

/-- Painting a range changes the points of the range, to its value, and no others. -/
def Paints (s : σ) (r : Range α ν) : Prop :=
  ∀ a v, holds (paint s r) a v ↔ if r.Contains a then v = r.value else holds s a v

/-- Ranges painted widest first on nothing leave a value at every point that some range has and at
no other, and the value is that of a narrowest one. -/
theorem painted_narrowest {I : σ → Prop} {s₀ : σ} (hI : I s₀)
    (hnothing : ∀ a v, ¬ holds s₀ a v) (rs : List (Range α ν))
    (hkeeps : ∀ s, ∀ r ∈ rs, I s → I (paint s r) ∧ Paints holds paint s r)
    (hwidest : rs.Pairwise fun r r' => width r' ≤ width r) :
    I (rs.foldl paint s₀) ∧
      (∀ a v, holds (rs.foldl paint s₀) a v → Narrowest width rs a v) ∧
      ∀ a, (∃ r ∈ rs, r.Contains a) → ∃ v, holds (rs.foldl paint s₀) a v := by
  -- The induction adds one range at the end: it is painted over the others and is no wider.
  induction rs using List.reverseRecOn with
  | nil =>
    refine ⟨hI, ?_, ?_⟩
    · intro a v h
      exact absurd h (hnothing a v)
    · simp
  | append_singleton rs r ih =>
    rw [pairwise_append] at hwidest
    obtain ⟨hrest, -, hlast⟩ := hwidest
    obtain ⟨hinv, hnarrow, hcover⟩ :=
      ih (fun s r' hr' => hkeeps s r' (mem_append_left _ hr')) hrest
    obtain ⟨hinv', hpaints⟩ := hkeeps (rs.foldl paint s₀) r (by simp) hinv
    rw [foldl_append, foldl_cons, foldl_nil]
    refine ⟨hinv', ?_, ?_⟩
    · intro a v h
      rw [hpaints] at h
      by_cases hr : r.Contains a
      · rw [if_pos hr] at h
        refine ⟨r, by simp, hr, h.symm, ?_⟩
        intro r' hr' _
        rcases mem_append.1 hr' with hr' | hr'
        · exact hlast r' hr' r (by simp)
        · rw [mem_singleton.1 hr']
      rw [if_neg hr] at h
      obtain ⟨r₀, hmem, hcontains, hvalue, hleast⟩ := hnarrow a v h
      refine ⟨r₀, mem_append_left _ hmem, hcontains, hvalue, ?_⟩
      intro r' hr' hcontains'
      rcases mem_append.1 hr' with hr' | hr'
      · exact hleast r' hr' hcontains'
      · rw [mem_singleton.1 hr'] at hcontains'
        exact absurd hcontains' hr
    · rintro a ⟨r', hr', hcontains⟩
      by_cases hr : r.Contains a
      · exact ⟨r.value, (hpaints a r.value).2 (by rw [if_pos hr])⟩
      · rcases mem_append.1 hr' with hr' | hr'
        · obtain ⟨v, hv⟩ := hcover a ⟨r', hr', hcontains⟩
          exact ⟨v, (hpaints a v).2 (by rwa [if_neg hr])⟩
        · rw [mem_singleton.1 hr'] at hcontains
          exact absurd hcontains hr

end Painting

end Range

end GamePath.Lib
