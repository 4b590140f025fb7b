import GamePath.Engine.SchedulerCarriers

/-!
# Path selection on steady measurements

The incumbents of a run come to rest from the front of the ranking on: first the best route, then
the second, then the one it is exchanged for, and at last the routes behind them, of which the
unsettled ones only join and the settled ones only leave.

Two things can undo this. The test for degraded routes reads the discounted ranking, so it may give
up routes that it takes again without their discount; and the exchange of the second route may drop
a carrier that the unsettled routes kept beside it bring back. In runs where neither happens the
incumbents settle (`path_selection_settles`); a run where the first happens need not
(`steady_measurements_flap`).
-/

namespace GamePath.Engine.Scheduler

open Lib.Ranking PathMetrics List

universe u

variable {ι : Type u} [DecidableEq ι] {paths : Paths ι} {strategy : Strategy}
  {held : ℕ → PathMetrics ι → Bool} {x' y' p : PathMetrics ι} {rest' : Paths ι} {n : ℕ}

/-! ## The front of the ranking -/

section Front

variable (hsteady : Steady paths)

include hsteady

theorem rests_of_held (held : ℕ → PathMetrics ι → Bool) {f : ℕ → PathMetrics ι}
    (hheld : ∀ n, held (n + 1) (f n) = true)
    (h : ∀ n, f (n + 1) = f n ∨ Precedes (rankedPaths (held (n + 1)) paths) (f (n + 1)) (f n)) :
    Rests f := by
  -- They move forward in the ranking in which every route has its discount.
  apply rests_of_precedes (nodup_rankBy hsteady.nodup (discounted (fun _ => true) weight))
  intro n
  refine (h n).imp_right fun h => ?_
  have hmargin := hsteady.margin_pool _ ((rankedPaths_perm _ _).mem_iff.1 h.left_mem)
  apply precedes_rankBy_of_le hsteady.nodup h
  · simp only [discounted, if_true]
    split_ifs <;> linarith
  · simp only [discounted, hheld n, if_true, le_refl]

/-- With the same best route, the second route of a decision is one that carries traffic, or the
second one of the decision before, when that one did not lose its place among the carriers. -/
theorem second_mem_or_eq {x s s' : PathMetrics ι} {t t' : Paths ι}
    (hfollows : Follows paths strategy held) (hranked : rankedPaths (held n) paths = x :: s :: t)
    (hranked' : rankedPaths (held (n + 1)) paths = x :: s' :: t')
    (hkeeps : held n s = true → s ∈ carried paths strategy (held n)) :
    s' ∈ carried paths strategy (held n) ∨ s' = s := by
  by_contra hnot
  obtain ⟨hout, hne⟩ := not_or.1 hnot
  have hnodup : (x :: s :: t).Nodup := hranked ▸ nodup_rankBy hsteady.nodup _
  have hnodup' : (x :: s' :: t').Nodup := hranked' ▸ nodup_rankBy hsteady.nodup _
  have hpool : s' ∈ pool paths := by
    rw [← (rankedPaths_perm (held (n + 1)) paths).mem_iff, hranked']
    simp
  have hpool' : s ∈ pool paths := by
    rw [← (rankedPaths_perm (held n) paths).mem_iff, hranked]
    simp
  have hsx : s ≠ x := by
    rintro rfl
    simp at hnodup
  have hsx' : s' ≠ x := by
    rintro rfl
    simp at hnodup'
  have hbefore : Precedes (rankedPaths (held n) paths) s s' := by
    have hin := (rankedPaths_perm (held n) paths).mem_iff.2 hpool
    rw [hranked] at hin ⊢
    exact (precedes_of_ne_first hin hsx' hne).2
  have hafter : Precedes (rankedPaths (held (n + 1)) paths) s s' := by
    by_cases hs : s ∈ carried paths strategy (held n)
    · exact precedes_next hsteady hfollows hbefore hs hout
    -- It has no discount before or after, and the other one has none after.
    have hfree : held n s = false := by simpa using mt hkeeps hs
    have hfree' : ∀ q ∈ pool paths, q ∉ carried paths strategy (held n) →
        held (n + 1) q = false := by
      intro q hq hq'
      simpa using mt (hfollows n q (mem_of_mem_filter hq)).1 hq'
    have hmargin := hsteady.margin_pool s' hpool
    apply precedes_rankBy_of_le hsteady.nodup hbefore
    · simp only [discounted, hfree, hfree' s hpool' hs, Bool.false_eq_true, if_false, le_refl]
    · simp only [discounted, hfree' s' hpool hout, Bool.false_eq_true, if_false]
      split_ifs <;> linarith
  rw [hranked'] at hafter
  exact hsx (hafter.eq_head hnodup')

variable (hseveral : 2 ≤ (pool paths).length) (hfollows : Follows paths strategy held)

include hseveral hfollows

theorem held_of_carried (hp : p ∈ carried paths strategy (held n)) : held (n + 1) p = true :=
  (hfollows n p (mem_of_mem_filter (carried_subset hsteady hseveral hp))).2 hp

variable {t : ℕ → Paths ι}

theorem rests_best {x : ℕ → PathMetrics ι} (hranked : ∀ n,
    rankedPaths (held n) paths = x n :: t n) :
    Rests x := by
  have hcarried : ∀ n, x n ∈ carried paths strategy (held n) :=
    fun n => best_mem_carried hsteady hseveral (hranked n)
  apply rests_of_held hsteady held
  · intro n
    exact held_of_carried hsteady hseveral hfollows (hcarried n)
  intro n
  refine or_iff_not_imp_left.2 fun hne => ?_
  have hin := (rankedPaths_perm (held (n + 1)) paths).mem_iff.2
    (carried_subset hsteady hseveral (hcarried n))
  rw [hranked (n + 1)] at hin ⊢
  exact precedes_cons_iff.2 (.inr ⟨rfl, (mem_cons.1 hin).resolve_left (Ne.symm hne)⟩)

theorem rests_second {x : PathMetrics ι} {s : ℕ → PathMetrics ι}
    (hranked : ∀ n, rankedPaths (held n) paths = x :: s n :: t n)
    (hkeeps : ∀ n, held n (s n) = true → s n ∈ carried paths strategy (held n)) : Rests s := by
  have hnext := fun n => second_mem_or_eq hsteady hfollows (hranked n) (hranked (n + 1))
    (hkeeps n)
  by_cases hever : ∃ N, held N (s N) = true
  · -- From then on the second route always carries traffic.
    obtain ⟨N, hN⟩ := hever
    have hstays : ∀ k, held (N + k) (s (N + k)) = true := by
      intro k
      induction k with
      | zero => exact hN
      | succ k ih =>
        rcases hnext (N + k) with hcarried | heq
        · exact held_of_carried hsteady hseveral hfollows hcarried
        · have := held_of_carried hsteady hseveral hfollows (hkeeps (N + k) ih)
          rwa [← heq] at this
    apply Rests.of_shift (k := N)
    apply rests_of_held hsteady fun k => held (N + k)
    · intro k
      exact held_of_carried hsteady hseveral hfollows (hkeeps (N + k) (hstays k))
    intro k
    refine or_iff_not_imp_left.2 fun hne => ?_
    have hin := (rankedPaths_perm (held (N + k + 1)) paths).mem_iff.2
      (carried_subset hsteady hseveral (hkeeps (N + k) (hstays k)))
    have hnodup : (x :: s (N + k) :: t (N + k)).Nodup :=
      hranked (N + k) ▸ nodup_rankBy hsteady.nodup _
    have hsx : s (N + k) ≠ x := by
      intro heq
      simp [heq] at hnodup
    change Precedes (rankedPaths (held (N + k + 1)) paths) (s (N + k + 1)) (s (N + k))
    rw [hranked (N + k + 1)] at hin ⊢
    exact (precedes_of_ne_first hin hsx (Ne.symm hne)).2
  · -- The second route never carries traffic, so it is always the same one.
    have hsame : ∀ n, s (n + 1) = s n := by
      intro n
      refine (hnext n).resolve_left ?_
      intro hcarried
      exact hever ⟨n + 1, held_of_carried hsteady hseveral hfollows hcarried⟩
    refine ⟨0, ?_⟩
    intro n _
    induction n with
    | zero => rfl
    | succ n ih => exact (hsame n).trans (ih (Nat.zero_le n))

variable (hdup : ∀ n, carried paths strategy (held n) =
  duplicated (held n) (candidates strategy (held n) paths))

include hdup

/-- With the same best and second routes it is always the same whether the second is exchanged, and
the route it is exchanged for comes to rest. -/
theorem exists_front_of_second {x s : PathMetrics ι}
    (hranked : ∀ n, rankedPaths (held n) paths = x :: s :: t n) :
    ∃ N y, ∀ n, ∃ rest, candidates strategy (held (N + n)) paths = x :: y :: rest := by
  by_cases hswap : strategy = .adaptive ∧ x.sharesEndpoint s = true ∧
      ∃ p ∈ pool paths, alternative paths x p = true
  · have hexchanged : ∀ n, ∃ y,
        candidates strategy (held n) paths = x :: y :: (s :: t n).erase y ∧ y ∈ pool paths ∧
        alternative paths x y = true ∧
        ∀ p ∈ pool paths, alternative paths x p = true → p ≠ y →
          Precedes (rankedPaths (held n) paths) y p := by
      intro n
      rcases candidates_cases strategy (hranked n) with ⟨-, hnone⟩ | ⟨-, -, hy⟩
      · obtain ⟨hadaptive, hshares, p, hp, hprop⟩ := hswap
        rw [hnone hadaptive hshares p hp] at hprop
        cases hprop
      · exact hy
    choose y hfirst hpool hprop hleast using hexchanged
    have hrests : Rests y := by
      apply rests_of_held hsteady held
      · intro n
        apply held_of_carried hsteady hseveral hfollows
        have hperm := hfirst n ▸ candidates_perm strategy (held n) paths
        rw [hdup, hfirst]
        exact first_mem_duplicated hsteady.nodup hsteady.distinctIds hperm (.inr rfl)
      · intro n
        refine or_iff_not_imp_left.2 fun hne => ?_
        exact hleast (n + 1) (y n) (hpool n) (hprop n) (Ne.symm hne)
    obtain ⟨N, hN⟩ := hrests
    refine ⟨N, y N, ?_⟩
    intro n
    rw [hfirst, hN (N + n) (by omega)]
    exact ⟨_, rfl⟩
  · refine ⟨0, s, ?_⟩
    intro n
    rcases candidates_cases strategy (hranked (0 + n)) with
      ⟨heq, -⟩ | ⟨hadaptive, hshares, y, -, hy, hprop, -⟩
    · exact ⟨_, heq⟩
    · exact absurd ⟨hadaptive, hshares, y, hy, hprop⟩ hswap

theorem exists_front (hkeeps : ∀ n x s t, rankedPaths (held n) paths = x :: s :: t →
      held n s = true → s ∈ carried paths strategy (held n)) :
    ∃ N x y, ∀ n, ∃ rest, candidates strategy (held (N + n)) paths = x :: y :: rest := by
  choose x s t hranked using fun n => exists_eq_pair hseveral (rankedPaths_perm (held n) paths)
  obtain ⟨N, hN⟩ := rests_best hsteady hseveral hfollows hranked
  have hbest : ∀ n, rankedPaths (held (N + n)) paths = x N :: s (N + n) :: t (N + n) := by
    intro n
    rw [hranked, hN (N + n) (by omega)]
  have hfollows' : Follows paths strategy fun n => held (N + n) := fun n => hfollows (N + n)
  obtain ⟨M, hM⟩ := rests_second hsteady hseveral hfollows' hbest
    (fun n => hkeeps (N + n) _ _ _ (hbest n))
  have hsecond : ∀ n, rankedPaths (held (N + (M + n))) paths =
      x N :: s (N + M) :: t (N + (M + n)) := by
    intro n
    have hsame : s (N + (M + n)) = s (N + M) := hM (M + n) (by omega)
    rw [hbest, hsame]
  have hfollows'' : Follows paths strategy fun n => held (N + (M + n)) :=
    fun n => hfollows (N + (M + n))
  obtain ⟨K, y, hfront⟩ := exists_front_of_second hsteady hseveral hfollows''
    (fun n => hdup (N + (M + n))) hsecond
  refine ⟨N + (M + K), x N, y, ?_⟩
  intro n
  rw [show N + (M + K) + n = N + (M + (K + n)) by omega]
  exact hfront n

end Front

/-! ## The routes behind the front -/

section Behind

/-- The part of what the decisions carry that has a property. -/
def part (paths : Paths ι) (strategy : Strategy) (held : ℕ → PathMetrics ι → Bool)
    (f : PathMetrics ι → Bool) (n : ℕ) : Finset (PathMetrics ι) :=
  (carried paths strategy (held n)).toFinset.filter fun p => f p = true

theorem mem_part {f : PathMetrics ι → Bool} :
    p ∈ part paths strategy held f n ↔ p ∈ carried paths strategy (held n) ∧ f p = true := by
  simp [part]

variable {x y : PathMetrics ι} (hsteady : Steady paths) (hseveral : 2 ≤ (pool paths).length)
  (hfollows : Follows paths strategy held)
  (hdup : ∀ n, carried paths strategy (held n) =
    duplicated (held n) (candidates strategy (held n) paths))
  (hservers : HasTwoServers (pool paths))
  (hfront : ∀ n, ∃ t, candidates strategy (held n) paths = x :: y :: t)

include hsteady hseveral hdup hservers

theorem unsettled_persists (hpool : p ∈ pool paths) (hheld : held n p = true)
    (hunsettled : p.isSettled = false) : p ∈ carried paths strategy (held n) := by
  obtain ⟨x, y, rest, hfirst⟩ := exists_eq_pair hseveral (candidates_perm strategy (held n) paths)
  have hperm : (x :: y :: rest).Perm (pool paths) := hfirst ▸ candidates_perm _ _ _
  rw [hdup n, hfirst]
  apply (mem_duplicated hsteady.nodup hsteady.distinctIds hperm hservers).2
  exact .inr ⟨hpool, by simp [unsettledCarrier, hheld, hunsettled]⟩

include hfollows hfront

theorem settled_persists (hp : p ∈ carried paths strategy (held (n + 1)))
    (hsettled : p.isSettled = true) : p ∈ carried paths strategy (held n) := by
  have hnodup := hsteady.nodup
  have hids := hsteady.distinctIds
  obtain ⟨rest, hfirst⟩ := hfront n
  obtain ⟨rest', hfirst'⟩ := hfront (n + 1)
  have hperm : (x :: y :: rest).Perm (pool paths) := hfirst ▸ candidates_perm _ _ _
  have hperm' : (x :: y :: rest').Perm (pool paths) := hfirst' ▸ candidates_perm _ _ _
  have hpool := carried_subset hsteady hseveral hp
  by_contra hout
  have hout' := hout
  rw [hdup n, hfirst] at hout'
  rw [hdup (n + 1), hfirst'] at hp
  have hpair : ¬ (p = x ∨ p = y) := fun h => hout' (first_mem_duplicated hnodup hids hperm h)
  have hwithin : withinBudget (pool paths) p = true := by
    rcases duplicated_cases hnodup hids hperm' hservers hp with h | ⟨h, -⟩ | h
    · exact absurd h hpair
    · exact h
    · simp [unsettledCarrier, hsettled] at h
  obtain ⟨u, v, htwo, hu, hv, hbu, hbv⟩ :=
    exists_twoServers_of_not_duplicated hnodup hids hperm hservers hpool hwithin hsettled hout'
  -- Both routes that came before it still do, unless they are at the front.
  have hbefore : ∀ w, w.isSettled = true → w ∈ duplicated (held n) (x :: y :: rest) →
      Precedes (x :: y :: rest) w p → (w = x ∨ w = y) ∨
        (withinBudget (pool paths) w = true ∧ Precedes (x :: y :: rest') w p) := by
    intro w hw hin hpre
    refine or_iff_not_imp_left.2 fun hback => ?_
    constructor
    · rcases duplicated_cases hnodup hids hperm hservers hin with h | ⟨h, -⟩ | h
      · exact absurd h hback
      · exact h
      · simp [unsettledCarrier, hw] at h
    rw [← hfirst, ← hdup n] at hin
    have hwy := (not_or.1 hback).2
    have hpy := (not_or.1 hpair).2
    rw [precedes_candidates_iff hseveral hfirst hwy hpy] at hpre
    rw [precedes_candidates_iff hseveral hfirst' hwy hpy]
    exact precedes_next hsteady hfollows hpre hin hout
  exact not_duplicated_of_twoServers hnodup hids hperm' hservers hsettled hpair htwo
    (hbefore u htwo.left hu hbu) (hbefore v htwo.right hv hbv) hp

/-- With the same first two candidates the routes come to rest: the unsettled ones only join, and
the settled ones only leave. -/
theorem exists_repeats_of_front : ∃ n, Repeats paths strategy held n := by
  obtain ⟨U, hU⟩ : Rests (part paths strategy held fun p => !p.isSettled) := by
    apply rests_of_monotone (pool paths).toFinset
    · intro n p hp
      exact mem_toFinset.2 (carried_subset hsteady hseveral (mem_part.1 hp).1)
    intro n p hp
    obtain ⟨hp, hunsettled⟩ := mem_part.1 hp
    refine mem_part.2 ⟨?_, hunsettled⟩
    exact unsettled_persists hsteady hseveral hdup hservers
      (carried_subset hsteady hseveral hp) (held_of_carried hsteady hseveral hfollows hp)
      (by simpa using hunsettled)
  obtain ⟨S, hS⟩ : Rests (part paths strategy held isSettled) := by
    apply rests_of_antitone
    intro n p hp
    obtain ⟨hp, hsettled⟩ := mem_part.1 hp
    refine mem_part.2 ⟨?_, hsettled⟩
    exact settled_persists hsteady hseveral hfollows hdup hservers hfront hp hsettled
  refine ⟨max U S, ?_⟩
  intro p
  have hsame : ∀ f : PathMetrics ι → Bool, part paths strategy held f (max U S + 1) =
      part paths strategy held f (max U S) → f p = true →
      (p ∈ carried paths strategy (held (max U S + 1)) ↔
        p ∈ carried paths strategy (held (max U S))) := by
    intro f heq hf
    have := congrArg (p ∈ ·) heq
    simpa [mem_part, hf] using this
  by_cases hsettled : p.isSettled = true
  · apply hsame isSettled _ hsettled
    exact (hS _ (by omega)).trans (hS _ (by omega)).symm
  · refine hsame (fun p => !p.isSettled) ?_ (by simp [hsettled])
    exact (hU _ (by omega)).trans (hU _ (by omega)).symm

end Behind

/-! ## Every case -/

section Cases

variable (hsteady : Steady paths)

theorem candidates_of_not_adaptive {holding : PathMetrics ι → Bool} (h : strategy ≠ .adaptive) :
    candidates strategy holding paths = rankedPaths holding paths := if_neg h

include hsteady

/-- While an unsettled route carries traffic, the second route of the ranking goes on carrying it.
-/
theorem keeps_second {u x s : PathMetrics ι} {t : Paths ι} (hseveral : 2 ≤ (pool paths).length)
    (hdup : ∀ n, carried paths strategy (held n) =
      duplicated (held n) (candidates strategy (held n) paths))
    (hservers : HasTwoServers (pool paths))
    (hundisturbed : Undisturbed paths strategy (held n)) (hpool : u ∈ pool paths)
    (hheld : held n u = true) (hunsettled : u.isSettled = false)
    (hranked : rankedPaths (held n) paths = x :: s :: t) (hs : held n s = true) :
    s ∈ carried paths strategy (held n) := by
  have hin : s ∈ pool paths := by
    rw [← (rankedPaths_perm (held n) paths).mem_iff, hranked]
    simp
  by_cases hsettled : s.isSettled = true
  · have hplain : candidates strategy (held n) paths = x :: s :: t := by
      by_cases hadaptive : strategy = .adaptive
      · have hkeeps := (hundisturbed hadaptive).2
        have hany : (carriers (held n) paths).any (fun path => !path.isSettled) = true := by
          rw [any_eq_true]
          exact ⟨u, mem_filter.2 ⟨hpool, hheld⟩, by simp [hunsettled]⟩
        rw [hadaptive]
        simpa [displaces, hranked, hs, hsettled, hany] using hkeeps
      · rw [candidates_of_not_adaptive hadaptive, hranked]
    have hperm : (x :: s :: t).Perm (pool paths) := hplain ▸ candidates_perm _ _ _
    rw [hdup n, hplain]
    exact first_mem_duplicated hsteady.nodup hsteady.distinctIds hperm (.inr rfl)
  · exact unsettled_persists hsteady hseveral hdup hservers hin hs (by simpa using hsettled)

section

variable (hseveral : 2 ≤ (pool paths).length) (hfollows : Follows paths strategy held)
include hseveral hfollows

/-- With no unsettled carrier, two servers at the front are all that is used. -/
theorem carried_of_apart (hservers : HasTwoServers (pool paths))
    (hdup : ∀ n, carried paths strategy (held n) =
      duplicated (held n) (candidates strategy (held n) paths))
    (hcalm : ∀ n, ∀ p ∈ pool paths, held n p = true → p.isSettled = true) {x y : PathMetrics ι}
    {rest : Paths ι} (hfirst : candidates strategy (held n) paths = x :: y :: rest)
    (hapart : x.sharesEndpoint y = false) :
    p ∈ carried paths strategy (held n) ↔ (p = x ∨ p = y) := by
  have hnodup := hsteady.nodup
  have hids := hsteady.distinctIds
  have hperm : (x :: y :: rest).Perm (pool paths) := hfirst ▸ candidates_perm _ _ _
  have hused : ∀ q, q = x ∨ q = y → q ∈ carried paths strategy (held n) := by
    intro q hq
    rw [hdup n, hfirst]
    exact first_mem_duplicated hnodup hids hperm hq
  refine ⟨?_, hused p⟩
  have hsettled : ∀ q, q = x ∨ q = y → q.isSettled = true := by
    intro q hq
    have hpool := carried_subset hsteady hseveral (hused q hq)
    exact hcalm (n + 1) q hpool ((hfollows n q (mem_of_mem_filter hpool)).2 (hused q hq))
  have htwo : TwoServers x y := by
    refine ⟨?_, hsettled x (.inl rfl), hsettled y (.inr rfl), hapart⟩
    rintro rfl
    have := hperm.nodup_iff.2 hnodup
    simp at this
  intro hp
  rw [hdup n, hfirst] at hp
  by_contra hpair
  rcases duplicated_cases hnodup hids hperm hservers hp with hin | ⟨-, hp'⟩ | hcarries
  · exact hpair hin
  · exact not_duplicated_of_twoServers hnodup hids hperm hservers hp' hpair htwo (.inl (.inl rfl))
      (.inl (.inr rfl)) hp
  · rw [unsettledCarrier, Bool.and_eq_true, Bool.not_eq_true'] at hcarries
    rw [hcalm n p (duplicated_subset hnodup hids hperm hp) hcarries.1] at hcarries
    cases hcarries.2

theorem exists_repeats_of_duplicating (hdup : ∀ n, carried paths strategy (held n) =
      duplicated (held n) (candidates strategy (held n) paths))
    (hundisturbed : ∀ n, Undisturbed paths strategy (held n)) :
    ∃ n, Repeats paths strategy held n := by
  have hnodup := hsteady.nodup
  have hids := hsteady.distinctIds
  by_cases hservers : HasTwoServers (pool paths)
  · by_cases hcalm : ∀ n, ∀ p ∈ pool paths, held n p = true → p.isSettled = true
    · by_cases hapart : ∃ n x y rest, candidates strategy (held n) paths = x :: y :: rest ∧
          x.sharesEndpoint y = false
      · obtain ⟨n, x, y, rest, hfirst, hapart⟩ := hapart
        apply exists_repeats_of_pair hsteady hfollows hdup hseveral hfirst
        · intro p
          exact carried_of_apart hsteady hseveral hfollows hservers hdup hcalm hfirst hapart
        · intro x' y' rest' hfirst' hapart' p
          exact carried_of_apart hsteady hseveral hfollows hservers hdup hcalm hfirst' hapart'
      -- An exchange would put another server second.
      obtain ⟨N, x, y, hfront⟩ := exists_front hsteady hseveral hfollows hdup (by
        intro n x s t hranked _
        rcases candidates_cases strategy hranked with ⟨heq, -⟩ | ⟨-, -, y, heq, -, hy, -⟩
        · have hperm : (x :: s :: t).Perm (pool paths) := heq ▸ candidates_perm _ _ _
          rw [hdup n, heq]
          exact first_mem_duplicated hnodup hids hperm (.inr rfl)
        · exact absurd ⟨n, x, y, _, heq, not_shares_of_alternative hy⟩ hapart)
      have hshifted : Follows paths strategy fun k => held (N + k) := fun k => hfollows (N + k)
      obtain ⟨m, hm⟩ := exists_repeats_of_front hsteady hseveral hshifted
        (fun k => hdup (N + k)) hservers hfront
      exact ⟨N + m, hm⟩
    · -- An unsettled carrier stays one, and no settled carrier is exchanged while it does.
      push Not at hcalm
      obtain ⟨n, p, hpool, hheld, hunsettled⟩ := hcalm
      rw [ne_eq, Bool.not_eq_true] at hunsettled
      have hstays : ∀ k, held (n + k) p = true := by
        intro k
        induction k with
        | zero => exact hheld
        | succ k ih =>
          exact held_of_carried hsteady hseveral hfollows
            (unsettled_persists hsteady hseveral hdup hservers hpool ih hunsettled)
      have hshifted : Follows paths strategy fun k => held (n + k) := fun k => hfollows (n + k)
      obtain ⟨N, x, y, hfront⟩ := exists_front hsteady hseveral hshifted (fun k => hdup (n + k))
        fun k x s t hranked hs => keeps_second hsteady hseveral hdup hservers
          (hundisturbed (n + k)) hpool (hstays k) hunsettled hranked hs
      have hshifted' : Follows paths strategy fun k => held (n + (N + k)) :=
        fun k => hfollows (n + (N + k))
      obtain ⟨m, hm⟩ := exists_repeats_of_front hsteady hseveral hshifted'
        (fun k => hdup (n + (N + k))) hservers hfront
      exact ⟨n + (N + m), hm⟩
  · obtain ⟨x, y, rest, hfirst⟩ := exists_eq_pair hseveral (candidates_perm strategy (held 0) paths)
    have hpair : ∀ n x y rest, candidates strategy (held n) paths = x :: y :: rest →
        ∀ p, p ∈ carried paths strategy (held n) ↔ (p = x ∨ p = y) := by
      intro n x y rest hfirst p
      have hperm : (x :: y :: rest).Perm (pool paths) := hfirst ▸ candidates_perm _ _ _
      rw [hdup n, hfirst, duplicated_of_not_twoServers hnodup hperm hservers]
      simp
    exact exists_repeats_of_pair hsteady hfollows hdup hseveral hfirst (hpair 0 x y rest hfirst)
      fun x' y' rest' hfirst' _ => hpair 1 x' y' rest' hfirst'

theorem exists_repeats_of_several (hundisturbed : ∀ n, Undisturbed paths strategy (held (n + 1))) :
    ∃ n, Repeats paths strategy held n := by
  by_cases hstrategy : strategy = .duplicate ∨ strategy = .adaptive
  · by_cases hall : ∀ n, duplicates strategy (held (n + 1)) paths = true
    · have hshifted : Follows paths strategy fun n => held (n + 1) := fun n => hfollows (n + 1)
      obtain ⟨m, hm⟩ := exists_repeats_of_duplicating hsteady hseveral hshifted
        (fun n => carried_of_duplicates hseveral hstrategy (hall n)) hundisturbed
      exact ⟨m + 1, hm⟩
    push Not at hall
    obtain ⟨n, hn⟩ := hall
    rw [ne_eq, Bool.not_eq_true] at hn
    have hadaptive : strategy = .adaptive := by
      refine hstrategy.resolve_left ?_
      intro h
      simp [duplicates, h] at hn
    rcases repeats_of_not_duplicates hsteady hseveral hfollows hadaptive (hundisturbed n) hn with
      h | h
    · exact ⟨n, h⟩
    · exact ⟨n + 1, h⟩
  · obtain ⟨x, s, rest, hranked⟩ := exists_eq_pair hseveral (rankedPaths_perm (held 0) paths)
    obtain ⟨x', s', rest', hranked'⟩ := exists_eq_pair hseveral (rankedPaths_perm (held 1) paths)
    refine ⟨0, ?_⟩
    cases strategy with
    | allPaths =>
      intro p
      rw [carried_allPaths hranked, carried_allPaths hranked', (rankedPaths_perm _ _).mem_iff,
        (rankedPaths_perm _ _).mem_iff]
    | fastestPath =>
      exact repeats_of_best hsteady hseveral hfollows hranked' (carried_fastestPath hranked)
        (carried_fastestPath hranked')
    | duplicate => exact absurd (.inl rfl) hstrategy
    | adaptive => exact absurd (.inr rfl) hstrategy

end

end Cases

/-! ## Fewer healthy routes -/

section Few

variable {holding : PathMetrics ι → Bool}

/-- The routes the last resort is chosen from. -/
def probed (paths : Paths ι) : Paths ι :=
  paths.filter fun path => path.lastLatencyMs.isSome

theorem carried_of_none (hnone : pool paths = []) :
    carried paths strategy holding = (rankBy (discounted holding fun path =>
      path.latencyMs + path.jitterMs * 2) (probed paths)).head?.toList := by
  have hranked : rankedPaths holding paths = [] := by
    rw [← perm_nil, ← hnone]
    exact rankedPaths_perm holding paths
  simp only [carried, hranked, lastResort, minBy_eq_head?, probed]

theorem carried_mem_paths (hsteady : Steady paths) (hp : p ∈ carried paths strategy holding) :
    p ∈ paths := by
  rcases hpool : pool paths with - | ⟨a, - | ⟨b, others⟩⟩
  · rw [carried_of_none hpool, Option.mem_toList] at hp
    exact mem_of_mem_filter (mem_rankBy.1 (mem_of_mem_head? hp))
  · have hranked : rankedPaths holding paths = [a] := by
      rw [← perm_singleton, ← hpool]
      exact rankedPaths_perm holding paths
    simp only [carried, hranked, mem_singleton] at hp
    have ha : a ∈ pool paths := by simp [hpool]
    rw [hp]
    exact mem_of_mem_filter ha
  · have hseveral : 2 ≤ (pool paths).length := by simp [hpool]
    exact mem_of_mem_filter (carried_subset hsteady hseveral hp)

theorem repeats_of_none (hsteady : Steady paths) (hfollows : Follows paths strategy held)
    (hnone : pool paths = []) : Repeats paths strategy held 0 := by
  have hnodup : (probed paths).Nodup := (List.Nodup.of_map _ hsteady.distinct).filter _
  have hmargin : ∀ p ∈ probed paths, 0 ≤ p.incumbencyMargin :=
    fun p hp => hsteady.margin p (mem_of_mem_filter hp)
  intro p
  have hcarried := fun n => @carried_of_none ι _ paths strategy (held n) hnone
  rcases hrank : rankBy (discounted (held 0) fun path => path.latencyMs + path.jitterMs * 2)
    (probed paths) with - | ⟨x, t⟩
  · have hempty : probed paths = [] := by
      rw [← perm_nil, ← hrank]
      exact (rankBy_perm _ _).symm
    rw [hcarried, hcarried, hempty]
    rfl
  rcases hrank' : rankBy (discounted (held 1) fun path => path.latencyMs + path.jitterMs * 2)
    (probed paths) with - | ⟨x', t'⟩
  · have hempty : probed paths = [] := by
      rw [← perm_nil, ← hrank']
      exact (rankBy_perm _ _).symm
    rw [hempty] at hrank
    cases hrank
  have hzero : carried paths strategy (held 0) = [x] := by
    rw [hcarried, hrank]
    rfl
  have hone : carried paths strategy (held 1) = [x'] := by
    rw [hcarried, hrank']
    rfl
  have hknown : ∀ n, ∀ q ∈ carried paths strategy (held n), q ∈ paths :=
    fun n q hq => carried_mem_paths hsteady hq
  have hx : held 1 x = true :=
    (hfollows 0 x (hknown 0 x (by simp [hzero]))).2 (by simp [hzero])
  have hx' := holding_best hnodup hmargin hrank hrank' hx
  have hin := (hfollows 0 x' (hknown 1 x' (by simp [hone]))).1 hx'
  rw [hzero, mem_singleton] at hin
  rw [hzero, hone, hin]

theorem exists_repeats (hsteady : Steady paths) (hfollows : Follows paths strategy held)
    (hundisturbed : ∀ n, Undisturbed paths strategy (held (n + 1))) :
    ∃ n, Repeats paths strategy held n := by
  rcases hpool : pool paths with - | ⟨a, - | ⟨b, others⟩⟩
  · exact ⟨0, repeats_of_none hsteady hfollows hpool⟩
  · have hcarried : ∀ n, carried paths strategy (held n) = [a] := by
      intro n
      have hranked : rankedPaths (held n) paths = [a] := by
        rw [← perm_singleton, ← hpool]
        exact rankedPaths_perm (held n) paths
      simp only [carried, hranked]
    refine ⟨0, ?_⟩
    intro p
    rw [hcarried, hcarried]
  · have hseveral : 2 ≤ (pool paths).length := by simp [hpool]
    exact exists_repeats_of_several hsteady hseveral hfollows hundisturbed

end Few

/-! ## The incumbents -/

/-- The routes of an incumbent set. -/
def heldBy (incumbent : List ι) (path : PathMetrics ι) : Bool := decide (path.id ∈ incumbent)

theorem mem_incumbents_succ (paths : Paths ι) (strategy : Strategy) (initial : List ι)
    (n : ℕ) (i : ι) : i ∈ incumbents paths strategy initial (n + 1) ↔
      ∃ p ∈ carried paths strategy (heldBy (incumbents paths strategy initial n)), p.id = i := by
  rw [incumbents, choosePathsWithIncumbent, pathIds_chooseHolding, mem_map]
  rfl

theorem follows_incumbents (hsteady : Steady paths) (initial : List ι) :
    Follows paths strategy fun n => heldBy (incumbents paths strategy initial n) := by
  intro n p hp
  change decide (p.id ∈ incumbents paths strategy initial (n + 1)) = true ↔ _
  rw [decide_eq_true_eq, mem_incumbents_succ]
  constructor
  · rintro ⟨q, hq, hid⟩
    have hin := carried_mem_paths hsteady hq
    rwa [← inj_on_of_nodup_map hsteady.distinct hin hp hid]
  · intro h
    exact ⟨p, h, rfl⟩

/-- The set of incumbents after a decision on a set of incumbents. -/
def nextIncumbents (paths : Paths ι) (strategy : Strategy) (s : Finset ι) :
    Finset ι :=
  (chooseHolding paths strategy fun path => decide (path.id ∈ s)).pathIds.toFinset

theorem incumbents_succ_toFinset (paths : Paths ι) (strategy : Strategy)
    (initial : List ι) (n : ℕ) : (incumbents paths strategy initial (n + 1)).toFinset =
      nextIncumbents paths strategy (incumbents paths strategy initial n).toFinset := by
  simp only [nextIncumbents, mem_toFinset]
  rfl

/-- On steady measurements, with no incumbent ranked worse for being one, the incumbents settle on
one set of routes, if no decision after the first falls back or displaces. -/
theorem path_selection_settles (paths : Paths ι) (strategy : Strategy)
    (initial : List ι) (hsteady : Steady paths) (hundisturbed : ∀ n, Undisturbed paths strategy
      (heldBy (incumbents paths strategy initial (n + 1)))) :
    ∃ N, ∀ n, N ≤ n → (incumbents paths strategy initial n).toFinset =
      (incumbents paths strategy initial N).toFinset := by
  obtain ⟨n, hrepeats⟩ := exists_repeats hsteady (follows_incumbents hsteady initial) hundisturbed
  apply rests_of_repeat (incumbents_succ_toFinset paths strategy initial) (N := n + 1)
  ext i
  rw [List.mem_toFinset, List.mem_toFinset, mem_incumbents_succ, mem_incumbents_succ]
  simp only [hrepeats _]

section Runs

/-- Two routes on one server and a slower one on another. -/
def settledPaths : List (PathMetrics Nat) :=
  [⟨0, some (198, 51, 100, 7), true, 1, 20, 5, 0, some 20, 0, 0⟩,
    ⟨1, some (198, 51, 100, 7), true, 1, 22, 5, 0, some 22, 0, 0⟩,
    ⟨2, some (203, 0, 113, 9), true, 1, 40, 5, 0, some 40, 0, 0⟩]

theorem incumbents_settledPaths (n : ℕ) :
    incumbents settledPaths .adaptive [] (n + 1) = [0, 2] := by
  induction n with
  | zero => decide +kernel
  | succ n ih =>
    rw [incumbents, ih]
    decide +kernel

theorem path_selection_settles_settledPaths :
    ∃ N, ∀ n, N ≤ n → (incumbents settledPaths .adaptive [] n).toFinset =
      (incumbents settledPaths .adaptive [] N).toFinset := by
  apply path_selection_settles
  · exact ⟨by decide, by decide +kernel⟩
  · intro n
    rw [incumbents_settledPaths]
    decide +kernel

/-- A quick unsettled route with much jitter, a lossy one, and another with much jitter. -/
def flappingPaths : List (PathMetrics Nat) :=
  [⟨0, none, true, 1, 20, 50, 0, some 20, 0, 3⟩,
    ⟨1, none, true, 1, 50, 0, 3 / 10, some 50, 0, 0⟩,
    ⟨2, none, true, 1, 40, 50, 0, some 40, 0, 0⟩]

theorem incumbents_flappingPaths (n : ℕ) :
    incumbents flappingPaths .adaptive [0] (2 * n) = [0] ∧
      incumbents flappingPaths .adaptive [0] (2 * n + 1) = [0, 1, 2] := by
  have halone : choosePathsWithIncumbent flappingPaths .adaptive [0] = .duplicate [0, 1, 2] := by
    decide +kernel
  have htogether : choosePathsWithIncumbent flappingPaths .adaptive [0, 1, 2] = .single 0 := by
    decide +kernel
  induction n with
  | zero => exact ⟨rfl, by rw [incumbents, Nat.mul_zero, incumbents, halone, Decision.pathIds]⟩
  | succ n ih =>
    have heven : incumbents flappingPaths .adaptive [0] (2 * (n + 1)) = [0] := by
      rw [Nat.mul_succ, incumbents, ih.2, htogether, Decision.pathIds]
    exact ⟨heven, by rw [incumbents, heven, halone, Decision.pathIds]⟩

/-- With one route carrying, the lossy route is second and both others are added; with all carrying,
the other route with much jitter is second, the first two are both degraded, and all but the best
are dropped. -/
theorem steady_measurements_flap :
    (flappingPaths.map PathMetrics.id).Nodup ∧
      ¬ ∃ N, ∀ n, N ≤ n → (incumbents flappingPaths .adaptive [0] n).toFinset =
        (incumbents flappingPaths .adaptive [0] N).toFinset := by
  refine ⟨by decide, ?_⟩
  rintro ⟨N, hN⟩
  have heven := hN (2 * N) (by omega)
  have hodd := hN (2 * N + 1) (by omega)
  rw [← heven, (incumbents_flappingPaths N).1, (incumbents_flappingPaths N).2] at hodd
  exact nomatch hodd

end Runs

end GamePath.Engine.Scheduler
