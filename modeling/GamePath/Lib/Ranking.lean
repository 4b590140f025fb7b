import Mathlib.Data.List.Sort
import Mathlib.Order.OrderIsoNat
import Mathlib.Tactic

/-!
# Stable rankings and chains that come to rest

`rankBy f l` sorts a list by a rank, keeping the order of elements of equal rank. Two rankings of
one list are compared by which element precedes which: one whose rank gets no worse keeps its place
before one whose rank gets no better (`precedes_rankBy_of_le`).

A sequence `Rests` when it is constant from some point on. A decreasing chain of finite sets rests,
and so does a sequence of iterates that repeats a value once.
-/

namespace GamePath.Lib.Ranking

open List

universe u v

variable {α : Type u} {β : Type v}

/-! ## Precedence -/

/-- `p` stands before `q` in the list. -/
def Precedes (l : List α) (p q : α) : Prop := [p, q].Sublist l

section

variable {l : List α}

theorem precedes_cons_iff {a p q : α} :
    Precedes (a :: l) p q ↔ Precedes l p q ∨ (p = a ∧ q ∈ l) := by
  constructor
  · intro h
    cases h with
    | cons _ h => exact .inl h
    | cons_cons _ h => exact .inr ⟨rfl, singleton_sublist.1 h⟩
  · rintro (h | ⟨rfl, h⟩)
    · exact h.cons a
    · exact (singleton_sublist.2 h).cons_cons p

variable {p q : α}

theorem Precedes.left_mem (h : Precedes l p q) : p ∈ l :=
  h.subset mem_cons_self

theorem Precedes.right_mem (h : Precedes l p q) : q ∈ l :=
  h.subset (mem_cons_of_mem _ mem_cons_self)

/-- Of two elements one precedes the other. -/
theorem precedes_or_precedes (hp : p ∈ l) (hq : q ∈ l) (hne : p ≠ q) :
    Precedes l p q ∨ Precedes l q p := by
  induction l with
  | nil => cases hp
  | cons a l ih =>
    simp only [precedes_cons_iff]
    rcases mem_cons.1 hp with hpa | hp'
    · rcases mem_cons.1 hq with hqa | hq'
      · exact absurd (hpa.trans hqa.symm) hne
      · exact .inl (.inr ⟨hpa, hq'⟩)
    · rcases mem_cons.1 hq with hqa | hq'
      · exact .inr (.inr ⟨hqa, hp'⟩)
      · rcases ih hp' hq' with h | h
        · exact .inl (.inl h)
        · exact .inr (.inl h)

/-- In a list without repetition precedence goes one way. -/
theorem Precedes.asymm (hl : l.Nodup) (h : Precedes l p q) :
    ¬ Precedes l q p := by
  induction l with
  | nil =>
    cases h.left_mem
  | cons a l ih =>
    obtain ⟨ha, hl⟩ := nodup_cons.1 hl
    intro h'
    rcases precedes_cons_iff.1 h with hpq | ⟨hpa, hq⟩
    · rcases precedes_cons_iff.1 h' with hqp | ⟨hqa, -⟩
      · exact ih hl hpq hqp
      · exact ha (hqa ▸ hpq.right_mem)
    · rcases precedes_cons_iff.1 h' with hqp | ⟨-, hp⟩
      · exact ha (hpa ▸ hqp.right_mem)
      · exact ha (hpa ▸ hp)

/-- Other elements keep their places when one is erased. -/
theorem precedes_erase_iff [DecidableEq α] {l : List α} {a p q : α} (hp : p ≠ a) (hq : q ≠ a) :
    Precedes (l.erase a) p q ↔ Precedes l p q := by
  constructor
  · exact fun h => h.trans (erase_sublist)
  · intro h
    have herase := List.Sublist.erase a h
    rwa [erase_of_not_mem (by simp [hp.symm, hq.symm])] at herase

/-- Nothing precedes the first element. -/
theorem not_precedes_head {a p : α} (hl : (a :: l).Nodup) :
    ¬ Precedes (a :: l) p a := by
  intro h
  have ha : a ∉ l := (nodup_cons.1 hl).1
  rcases precedes_cons_iff.1 h with h | ⟨-, h⟩
  · exact ha h.right_mem
  · exact ha h

/-- Only the first element precedes the second. -/
theorem Precedes.eq_head {a b p : α} (hl : (a :: b :: l).Nodup) (h : Precedes (a :: b :: l) p b) :
    p = a := by
  rcases precedes_cons_iff.1 h with h | ⟨h, -⟩
  · exact absurd h (not_precedes_head (nodup_cons.1 hl).2)
  · exact h

/-- The first two elements precede the others. -/
theorem precedes_of_ne_first {a b p : α} (hp : p ∈ a :: b :: l) (hpa : p ≠ a) (hpb : p ≠ b) :
    Precedes (a :: b :: l) a p ∧ Precedes (a :: b :: l) b p := by
  have hin := (mem_cons.1 hp).resolve_left hpa
  have hin' := (mem_cons.1 hin).resolve_left hpb
  constructor
  · exact precedes_cons_iff.2 (.inr ⟨rfl, hin⟩)
  · exact precedes_cons_iff.2 (.inl (precedes_cons_iff.2 (.inr ⟨rfl, hin'⟩)))

/-- Two elements before all others are the first two. -/
theorem eq_pair_of_precedes (hl : l.Nodup) (hp : p ∈ l) (hq : q ∈ l) (hne : p ≠ q)
    (h : ∀ r ∈ l, r ≠ p → r ≠ q → Precedes l p r ∧ Precedes l q r) :
    ∃ rest, l = p :: q :: rest ∨ l = q :: p :: rest := by
  match l with
  | [] => cases hp
  | [a] => exact absurd ((mem_singleton.1 hp).trans (mem_singleton.1 hq).symm) hne
  | a :: b :: rest =>
    have hab : a ≠ b := by
      rintro rfl
      simp at hl
    have hfirst : a = p ∨ a = q := by
      by_contra hnot
      have hnot := not_or.1 hnot
      exact not_precedes_head hl (h a mem_cons_self hnot.1 hnot.2).1
    refine ⟨rest, ?_⟩
    rcases hfirst with rfl | rfl
    · have hbq : b = q := by
        by_contra hbq
        have := (h b (by simp) hab.symm hbq).2
        exact hne (this.eq_head hl).symm
      exact .inl (by rw [hbq])
    · have hbp : b = p := by
        by_contra hbp
        have := (h b (by simp) hbp hab.symm).1
        exact hne (this.eq_head hl)
      exact .inr (by rw [hbp])

/-- The first element with a property precedes the others that have it. -/
theorem precedes_of_find? {f : α → Bool} (h : l.find? f = some p) (hq : q ∈ l) (hfq : f q = true)
    (hne : q ≠ p) : Precedes l p q := by
  induction l with
  | nil => cases hq
  | cons a l ih =>
    by_cases hfa : f a = true
    · rw [find?_cons_of_pos hfa, Option.some.injEq] at h
      subst h
      exact precedes_cons_iff.2 (.inr ⟨rfl, (mem_cons.1 hq).resolve_left hne⟩)
    · rw [find?_cons_of_neg hfa] at h
      refine precedes_cons_iff.2 (.inl (ih h ?_))
      refine (mem_cons.1 hq).resolve_left ?_
      rintro rfl
      exact hfa hfq

end

/-- What precedes has the lower index. -/
theorem Precedes.idxOf_lt [DecidableEq α] {l : List α} (hl : l.Nodup) {p q : α}
    (h : Precedes l p q) : l.idxOf p < l.idxOf q := by
  induction l with
  | nil => cases h.left_mem
  | cons a l ih =>
    obtain ⟨ha, hl⟩ := nodup_cons.1 hl
    have hother : ∀ r ∈ l, (a :: l).idxOf r = l.idxOf r + 1 := by
      intro r hr
      apply idxOf_cons_ne
      rintro rfl
      exact ha hr
    rcases precedes_cons_iff.1 h with h | ⟨rfl, hq⟩
    · rw [hother p h.left_mem, hother q h.right_mem]
      exact Nat.succ_lt_succ (ih hl h)
    · rw [hother q hq, idxOf_cons_self]
      exact Nat.succ_pos _

/-! ## Rankings -/

section Rank

variable [LinearOrder β]

/-- The list sorted by a rank, equal ranks in the order they had. -/
def rankBy (f : α → β) (l : List α) : List α := l.insertionSort fun a b => f a ≤ f b

variable {f g : α → β} {l : List α} {p q : α}

theorem rankBy_perm (f : α → β) (l : List α) : (rankBy f l).Perm l := perm_insertionSort _ l

theorem nodup_rankBy (hl : l.Nodup) (f : α → β) : (rankBy f l).Nodup :=
  (rankBy_perm f l).nodup_iff.2 hl

theorem mem_rankBy : p ∈ rankBy f l ↔ p ∈ l := (rankBy_perm f l).mem_iff

/-- A ranking depends on the ranks of the elements only. -/
theorem rankBy_congr (h : ∀ p ∈ l, f p = g p) : rankBy f l = rankBy g l := by
  have hmap := map_insertionSort (fun a b => f a ≤ f b) (fun a b => g a ≤ g b) id l (by
    intro a ha b hb
    simp [h a ha, h b hb])
  simpa [rankBy] using hmap

theorem Precedes.rank_le (h : Precedes (rankBy f l) p q) : f p ≤ f q := by
  have : Std.Total fun a b : α => f a ≤ f b := ⟨fun a b => le_total (f a) (f b)⟩
  have : IsTrans α fun a b : α => f a ≤ f b := ⟨fun a b c hab hbc => hab.trans hbc⟩
  have hsorted := pairwise_insertionSort (fun a b : α => f a ≤ f b) l
  have hpair := List.Pairwise.sublist h hsorted
  exact rel_of_pairwise_cons hpair mem_cons_self

/-- An element whose rank gets no worse keeps its place before one whose rank gets no better. -/
theorem precedes_rankBy_of_le (hl : l.Nodup) (h : Precedes (rankBy f l) p q)
    (hp : g p ≤ f p) (hq : f q ≤ g q) : Precedes (rankBy g l) p q := by
  have : Std.Total fun a b : α => f a ≤ f b := ⟨fun a b => le_total (f a) (f b)⟩
  have : IsTrans α fun a b : α => f a ≤ f b := ⟨fun a b c hab hbc => hab.trans hbc⟩
  have : Std.Total fun a b : α => g a ≤ g b := ⟨fun a b => le_total (g a) (g b)⟩
  have : IsTrans α fun a b : α => g a ≤ g b := ⟨fun a b c hab hbc => hab.trans hbc⟩
  have hrank := h.rank_le
  have hmemp : p ∈ l := mem_rankBy.1 h.left_mem
  have hmemq : q ∈ l := mem_rankBy.1 h.right_mem
  have hne : p ≠ q := by
    rintro rfl
    exact h.asymm (nodup_rankBy hl f) h
  rcases precedes_or_precedes hmemp hmemq hne with horder | horder
  · -- They stand in this order in the list, so the sort does not change it.
    exact pair_sublist_insertionSort (r := fun a b => g a ≤ g b)
      (hp.trans (hrank.trans hq)) horder
  have hlt : g p < g q := by
    by_contra hnot
    have hback : f q ≤ f p := hq.trans ((not_lt.1 hnot).trans hp)
    exact h.asymm (nodup_rankBy hl f)
      (pair_sublist_insertionSort (r := fun a b => f a ≤ f b) hback horder)
  rcases precedes_or_precedes (l := rankBy g l) (mem_rankBy.2 hmemp) (mem_rankBy.2 hmemq) hne
    with hkeep | hswap
  · exact hkeep
  · exact absurd hswap.rank_le hlt.not_ge

/-- The order of a ranking: the better rank, and of equal ranks the place in the list. -/
theorem precedes_rankBy_iff (hl : l.Nodup) (hp : p ∈ l) (hq : q ∈ l) (hne : p ≠ q) :
    Precedes (rankBy f l) p q ↔ f p < f q ∨ (f p = f q ∧ Precedes l p q) := by
  have hback : ∀ {a b}, f a ≤ f b → Precedes l a b → Precedes (rankBy f l) a b := by
    intro a b hle horder
    have : Std.Total fun a b : α => f a ≤ f b := ⟨fun a b => le_total (f a) (f b)⟩
    have : IsTrans α fun a b : α => f a ≤ f b := ⟨fun a b c hab hbc => hab.trans hbc⟩
    exact pair_sublist_insertionSort (r := fun a b => f a ≤ f b) hle horder
  have hsorted := nodup_rankBy hl f
  constructor
  · intro h
    rcases h.rank_le.lt_or_eq with hlt | heq
    · exact .inl hlt
    · refine .inr ⟨heq, (precedes_or_precedes hp hq hne).resolve_right ?_⟩
      intro hswap
      exact h.asymm hsorted (hback heq.ge hswap)
  · rintro (hlt | ⟨heq, horder⟩)
    · refine (precedes_or_precedes (mem_rankBy.2 hp) (mem_rankBy.2 hq) hne).resolve_right ?_
      intro hswap
      exact absurd hswap.rank_le hlt.not_ge
    · exact hback heq.le horder

end Rank

/-! ## Coming to rest -/

/-- The sequence is constant from some point on. -/
def Rests (f : ℕ → α) : Prop := ∃ N, ∀ n, N ≤ n → f n = f N

theorem Rests.of_shift {f : ℕ → α} {k : ℕ} (h : Rests fun n => f (k + n)) : Rests f := by
  obtain ⟨N, hN⟩ := h
  refine ⟨k + N, ?_⟩
  intro n hn
  have := hN (n - k) (by omega)
  simpa only [Nat.add_sub_cancel' (show k ≤ n by omega)] using this

/-- Iterates rest once a value repeats. -/
theorem rests_of_repeat {f : ℕ → α} {next : α → α} (hnext : ∀ n, f (n + 1) = next (f n)) {N : ℕ}
    (h : f (N + 1) = f N) : Rests f := by
  refine ⟨N, ?_⟩
  intro n hn
  induction n, hn using Nat.le_induction with
  | base => rfl
  | succ n hn ih => rw [hnext, ih, ← hnext, h]

/-- A sequence that only ever moves forward in a list comes to rest. -/
theorem rests_of_precedes [DecidableEq α] {l : List α} (hl : l.Nodup) {f : ℕ → α}
    (h : ∀ n, f (n + 1) = f n ∨ Precedes l (f (n + 1)) (f n)) : Rests f := by
  have hanti : Antitone fun n => l.idxOf (f n) := by
    apply antitone_nat_of_succ_le
    intro n
    rcases h n with h | h
    · rw [h]
    · exact (h.idxOf_lt hl).le
  obtain ⟨N, hN⟩ := WellFoundedLT.antitone_chain_condition hanti
  refine ⟨N, ?_⟩
  intro n hn
  induction n, hn using Nat.le_induction with
  | base => rfl
  | succ n hn ih =>
    rcases h n with h | h
    · exact h.trans ih
    · have hlt := h.idxOf_lt hl
      rw [← hN n hn, ← hN (n + 1) (by omega)] at hlt
      exact absurd hlt (Nat.lt_irrefl _)

/-- Finite sets of which each one contains the next come to rest. -/
theorem rests_of_antitone {f : ℕ → Finset α} (h : ∀ n, f (n + 1) ⊆ f n) : Rests f := by
  have hanti : Antitone f := antitone_nat_of_succ_le h
  obtain ⟨N, hN⟩ := WellFoundedLT.antitone_chain_condition hanti
  exact ⟨N, fun n hn => (hN n hn).symm⟩

/-- Sets that grow within a finite one come to rest. -/
theorem rests_of_monotone [DecidableEq α] {f : ℕ → Finset α} (b : Finset α)
    (hbound : ∀ n, f n ⊆ b) (h : ∀ n, f n ⊆ f (n + 1)) : Rests f := by
  obtain ⟨N, hN⟩ := rests_of_antitone (f := fun n => b \ f n) fun n =>
    Finset.sdiff_subset_sdiff (Finset.Subset.refl _) (h n)
  refine ⟨N, ?_⟩
  intro n hn
  have hsame : b \ f n = b \ f N := hN n hn
  rw [← Finset.sdiff_sdiff_eq_self (hbound n), hsame, Finset.sdiff_sdiff_eq_self (hbound N)]

end GamePath.Lib.Ranking
