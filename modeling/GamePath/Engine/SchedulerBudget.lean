import GamePath.Engine.SchedulerMeasurements
import GamePath.Engine.SchedulerStability

/-!
# The delay budget of adaptive duplication

`ADAPTIVE_DUPLICATE_DELAY_BUDGET_MS` is there to keep the copies off a severely stalled tunnel. Each
route after the first two is held to it. The first two are not: that duplication is worthwhile is
read off any two routes, and the first two are then taken whichever they are.

The module says what a duplication that keeps the budget is, and proves that the decision keeps it
exactly when no late runner-up is taken in this way (`adaptive_budget_iff`). The decision to drop is
characterised with it.
-/

namespace GamePath.Engine.Scheduler

open Lib.Ranking List
open Route (metrics)

universe u

variable {ι : Type u}

/-! ## The ranking, said of two routes -/

section Ranked

variable {holding : PathMetrics ι → Bool} {paths : Paths ι} {p q x s : PathMetrics ι}
  {rest : Paths ι}

/-- The better score after the discount, or the same one and the earlier place. -/
def RanksBefore (holding : PathMetrics ι → Bool) (paths : Paths ι) (p q : PathMetrics ι) : Prop :=
  discounted holding PathMetrics.weight p < discounted holding PathMetrics.weight q ∨
    (discounted holding PathMetrics.weight p = discounted holding PathMetrics.weight q ∧
      Precedes (pool paths) p q)

/-- A healthy route that ranks before every other one but those of `taken`. -/
structure Leads (holding : PathMetrics ι → Bool) (paths taken : Paths ι)
    (p : PathMetrics ι) : Prop where
  healthy : p ∈ pool paths
  free : p ∉ taken
  first : ∀ q ∈ pool paths, q ∉ taken → q ≠ p → RanksBefore holding paths p q

theorem precedes_rankedPaths_iff (hnodup : (pool paths).Nodup) (hp : p ∈ pool paths)
    (hq : q ∈ pool paths) (hne : p ≠ q) :
    Precedes (rankedPaths holding paths) p q ↔ RanksBefore holding paths p q :=
  precedes_rankBy_iff hnodup hp hq hne

theorem nodup_rankedPaths (hnodup : (pool paths).Nodup) : (rankedPaths holding paths).Nodup :=
  nodup_rankBy hnodup _

theorem mem_rankedPaths : p ∈ rankedPaths holding paths ↔ p ∈ pool paths :=
  (rankedPaths_perm holding paths).mem_iff

theorem leads_nil_iff (hnodup : (pool paths).Nodup)
    (hranked : rankedPaths holding paths = x :: rest) : Leads holding paths [] p ↔ p = x := by
  have hmem : ∀ q, q ∈ x :: rest ↔ q ∈ pool paths := fun q => hranked ▸ mem_rankedPaths
  have hsorted : (x :: rest).Nodup := hranked ▸ nodup_rankedPaths hnodup
  have hx : x ∈ pool paths := (hmem x).1 mem_cons_self
  constructor
  · intro h
    by_contra hne
    have hbefore := h.first x hx not_mem_nil (Ne.symm hne)
    rw [← precedes_rankedPaths_iff hnodup h.healthy hx hne, hranked] at hbefore
    exact not_precedes_head hsorted hbefore
  · rintro rfl
    refine ⟨hx, not_mem_nil, ?_⟩
    intro q hq _ hne
    rw [← precedes_rankedPaths_iff hnodup hx hq hne.symm, hranked]
    exact precedes_cons_iff.2 (.inr ⟨rfl, (mem_cons.1 ((hmem q).2 hq)).resolve_left hne⟩)

theorem leads_first_iff (hnodup : (pool paths).Nodup)
    (hranked : rankedPaths holding paths = x :: s :: rest) : Leads holding paths [x] p ↔ p = s := by
  have hmem : ∀ q, q ∈ x :: s :: rest ↔ q ∈ pool paths := fun q => hranked ▸ mem_rankedPaths
  have hsorted : (x :: s :: rest).Nodup := hranked ▸ nodup_rankedPaths hnodup
  have hs : s ∈ pool paths := (hmem s).1 (by simp)
  have hxs : s ≠ x := by
    rintro rfl
    simp at hsorted
  constructor
  · intro h
    by_contra hne
    have hbefore := h.first s hs (by simpa using hxs) (Ne.symm hne)
    rw [← precedes_rankedPaths_iff hnodup h.healthy hs hne, hranked] at hbefore
    exact h.free (mem_singleton.2 (hbefore.eq_head hsorted))
  · rintro rfl
    refine ⟨hs, by simpa using hxs, ?_⟩
    intro q hq htaken hne
    rw [← precedes_rankedPaths_iff hnodup hs hq hne.symm, hranked]
    exact (precedes_of_ne_first ((hmem q).2 hq) (by simpa using htaken) hne).2

end Ranked

/-! ## The budget, said of two routes -/

section Budget

theorem le_foldl_min_iff (bound : WithTop ℚ) (l : List (WithTop ℚ)) :
    ∀ start : WithTop ℚ,
      bound ≤ l.foldl min start ↔ bound ≤ start ∧ ∀ value ∈ l, bound ≤ value := by
  induction l with
  | nil => simp
  | cons value rest ih =>
    intro start
    rw [foldl_cons, ih, le_min_iff, forall_mem_cons, and_assoc]

theorem withinBudget_iff {l : Paths ι} {p : PathMetrics ι} :
    withinBudget l p = true ↔
      ∀ q ∈ l, p.deliveryDelay ≤ q.deliveryDelay + adaptiveDuplicateDelayBudgetMs := by
  have hshift : ∀ m : WithTop ℚ,
      (p.deliveryDelay : WithTop ℚ) ≤ m + (adaptiveDuplicateDelayBudgetMs : ℚ) ↔
        ((p.deliveryDelay - adaptiveDuplicateDelayBudgetMs : ℚ) : WithTop ℚ) ≤ m := by
    intro m
    induction m with
    | top => simp
    | coe m => rw [← WithTop.coe_add, WithTop.coe_le_coe, WithTop.coe_le_coe, sub_le_iff_le_add]
  simp only [withinBudget, decide_eq_true_eq, hshift, le_foldl_min_iff, le_top, true_and,
    forall_mem_map, WithTop.coe_le_coe, sub_le_iff_le_add]

end Budget

/-! ## What is promised, and what breaks it -/

section Promise

variable [DecidableEq ι]

/-- What a duplication in the adaptive strategy promises of the ids it names. -/
structure KeepsBudget (paths : Paths ι) (incumbent ids : List ι) : Prop where
  distinct : ids.Nodup
  several : 2 ≤ ids.length
  healthy : ∀ i ∈ ids, ∃ p ∈ pool paths, p.id = i
  best : ∃ p, Leads (heldBy incumbent) paths [] p ∧ p.id ∈ ids
  budget : ∀ p ∈ pool paths, p.id ∈ ids → ¬ Leads (heldBy incumbent) paths [] p →
    (∀ q ∈ pool paths, p.deliveryDelay ≤ q.deliveryDelay + adaptiveDuplicateDelayBudgetMs) ∨
      (p.id ∈ incumbent ∧ p.isSettled = false)

/-- A runner-up that is duplicated onto although it is over the budget and no unsettled incumbent:
two routes make duplication worthwhile, the first two are not both degraded, and no other server is
preferred to that of the runner-up. -/
structure LateRunnerUp (paths : Paths ι) (incumbent : List ι)
    (best second : PathMetrics ι) : Prop where
  leads : Leads (heldBy incumbent) paths [] best
  follows : Leads (heldBy incumbent) paths [best] second
  late : withinBudget (pool paths) second = false
  idle : unsettledCarrier (heldBy incumbent) second = false
  worthwhile : 2 ≤ ((pool paths).filter fun p =>
    withinBudget (pool paths) p || unsettledCarrier (heldBy incumbent) p).length
  sound : (best.degraded && second.degraded) = false
  stays : best.sharesEndpoint second = true → ∀ p ∈ pool paths, alternative paths best p = false

end Promise

/-! ## The ids that are chosen -/

section Chosen

variable {paths : Paths ι} {holding : PathMetrics ι → Bool}

theorem chooseInOrder_sublist (independent : Bool) (within : PathMetrics ι → Bool) (l : Paths ι) :
    ∀ chosen : Paths ι,
      (chooseInOrder independent within chosen l).Sublist (chosen ++ l) := by
  induction l with
  | nil =>
    intro chosen
    simp [chooseInOrder]
  | cons path rest ih =>
    intro chosen
    rw [chooseInOrder]
    split_ifs
    · exact sublist_append_left chosen (path :: rest)
    · exact (ih chosen).trans ((sublist_cons_self path rest).append_left chosen)
    · simpa using ih (chosen ++ [path])

variable [DecidableEq ι]

theorem nodup_keepCarriers (l : Paths ι) :
    ∀ {chosen : Paths ι}, (chosen.map PathMetrics.id).Nodup →
      ((keepCarriers holding chosen l).map PathMetrics.id).Nodup := by
  induction l with
  | nil =>
    intro chosen h
    exact h
  | cons path rest ih =>
    intro chosen h
    unfold keepCarriers at ih ⊢
    rw [foldl_cons]
    split_ifs with hkeep
    · apply ih
      rw [Bool.and_eq_true, Bool.not_eq_true'] at hkeep
      rw [map_append, nodup_append]
      refine ⟨h, nodup_singleton _, ?_⟩
      rintro i hi j hj rfl
      obtain ⟨other, hother, hid⟩ := mem_map.1 hi
      have hnone := any_eq_false.1 hkeep.2 other hother
      exact hnone (by simpa [hid] using hj)
    · exact ih h

variable {x y : PathMetrics ι} {rest : Paths ι}

theorem nodup_duplicated (hnodup : (pool paths).Nodup) (hids : DistinctIds (pool paths))
    (hperm : (x :: y :: rest).Perm (pool paths)) :
    ((duplicated holding (x :: y :: rest)).map PathMetrics.id).Nodup := by
  have horder : ∀ independent within,
      ((chooseInOrder independent within [] (x :: y :: rest)).map PathMetrics.id).Nodup := by
    intro independent within
    have hsub := chooseInOrder_sublist independent within (x :: y :: rest) []
    rw [nil_append] at hsub
    apply List.Nodup.map_on _ (hsub.nodup (hperm.nodup_iff.2 hnodup))
    intro p hp q hq hid
    exact hids p (hperm.mem_iff.1 (hsub.mem hp)) q (hperm.mem_iff.1 (hsub.mem hq)) hid
  simp only [duplicated]
  split_ifs
  · exact nodup_keepCarriers _ (horder _ _)
  · exact horder _ _

end Chosen

/-! ## The decisions -/

section Decisions

variable [DecidableEq ι] {paths : Paths ι} {holding : PathMetrics ι → Bool}
  {incumbent ids : List ι} {x y s : PathMetrics ι} {rest : Paths ι}

omit [DecidableEq ι] in
theorem minBy_eq_none_iff (cost : PathMetrics ι → ℚ) (l : Paths ι) :
    minBy cost l = none ↔ l = [] := by
  cases l with
  | nil | cons => simp [minBy]

theorem chooseHolding_eq_drop_iff (strategy : Strategy) :
    chooseHolding paths strategy holding = .drop ↔
      ∀ p ∈ paths, p.lastLatencyMs.isSome = false := by
  have hresort : lastResort holding paths = none ↔
      ∀ p ∈ paths, p.lastLatencyMs.isSome = false := by
    rw [lastResort, minBy_eq_none_iff, filter_eq_nil_iff]
    simp only [Bool.not_eq_true]
  -- A ranked route has a latency.
  have hranked : ∀ p ∈ rankedPaths holding paths, ¬ ∀ p ∈ paths,
      p.lastLatencyMs.isSome = false := by
    intro p hp hnone
    obtain ⟨hin, hhealthy⟩ := mem_filter.1 (mem_rankedPaths.1 hp)
    simp [PathMetrics.isHealthy, hnone p hin] at hhealthy
  unfold chooseHolding
  rcases hlist : rankedPaths holding paths with - | ⟨best, - | ⟨second, rest⟩⟩
  · rw [← hresort]
    cases lastResort holding paths <;> simp
  · exact iff_of_false (by simp) (hranked best (by simp [hlist]))
  refine iff_of_false ?_ (hranked best (by simp [hlist]))
  cases strategy with
  | allPaths | fastestPath | duplicate => simp
  | adaptive =>
    simp only
    split_ifs <;> simp

/-- The adaptive strategy duplicates when the first two candidates are not both degraded and two
routes are comparable. -/
theorem chooseHolding_adaptive_eq_duplicate_iff :
    chooseHolding paths .adaptive holding = .duplicate ids ↔
      (2 ≤ (pool paths).length ∧ allDegraded (candidates .adaptive holding paths) = false ∧
        latencyComparable holding (candidates .adaptive holding paths) = true) ∧
      ids = (duplicated holding (candidates .adaptive holding paths)).map PathMetrics.id := by
  have hlength : (rankedPaths holding paths).length = (pool paths).length :=
    (rankedPaths_perm holding paths).length_eq
  unfold chooseHolding
  rcases hlist : rankedPaths holding paths with - | ⟨best, - | ⟨second, rest⟩⟩ <;>
    rw [hlist] at hlength
  · have hfew : ¬ 2 ≤ (pool paths).length := by simp [← hlength]
    cases lastResort holding paths <;> simp [hfew]
  · have hfew : ¬ 2 ≤ (pool paths).length := by simp [← hlength]
    simp [hfew]
  · have hseveral : 2 ≤ (pool paths).length := by simp [← hlength]
    simp only [reduceCtorEq, false_or, Bool.and_eq_true, Bool.not_eq_true']
    split_ifs with hdup
    · simp [hdup, hseveral, eq_comm]
    · simp [hdup, hseveral]

section Pair

variable (hnodup : (pool paths).Nodup) (hids : DistinctIds (pool paths))

include hnodup

theorem budget_of_mem_duplicated (hids : DistinctIds (pool paths))
    (hperm : (x :: y :: rest).Perm (pool paths)) {p : PathMetrics ι}
    (hp : p ∈ duplicated holding (x :: y :: rest)) :
    (p = x ∨ p = y) ∨ withinBudget (pool paths) p = true ∨ unsettledCarrier holding p = true := by
  by_cases hservers : HasTwoServers (pool paths)
  · rcases duplicated_cases hnodup hids hperm hservers hp with hpair | ⟨hwithin, -⟩ | hcarries
    · exact .inl hpair
    · exact .inr (.inl hwithin)
    · exact .inr (.inr hcarries)
  · rw [duplicated_of_not_twoServers hnodup hperm hservers] at hp
    exact .inl (by simpa using hp)

theorem keepsBudget_duplicated_iff (hids : DistinctIds (pool paths))
    (hlead : ∀ p, Leads (heldBy incumbent) paths [] p ↔ p = x)
    (hperm : (x :: y :: rest).Perm (pool paths)) :
    KeepsBudget paths incumbent
        ((duplicated (heldBy incumbent) (x :: y :: rest)).map PathMetrics.id) ↔
      withinBudget (pool paths) y = true ∨ unsettledCarrier (heldBy incumbent) y = true := by
  have hfirst : ∀ p, p = x ∨ p = y → p ∈ duplicated (heldBy incumbent) (x :: y :: rest) :=
    fun p hp => first_mem_duplicated hnodup hids hperm hp
  have hsub : ∀ p ∈ duplicated (heldBy incumbent) (x :: y :: rest), p ∈ pool paths :=
    fun p hp => duplicated_subset hnodup hids hperm hp
  have hxy : x ≠ y := by
    rintro rfl
    simpa using hperm.nodup_iff.2 hnodup
  have hbudget : ∀ p : PathMetrics ι,
      ((∀ q ∈ pool paths, p.deliveryDelay ≤ q.deliveryDelay + adaptiveDuplicateDelayBudgetMs) ∨
        (p.id ∈ incumbent ∧ p.isSettled = false)) ↔
      withinBudget (pool paths) p = true ∨ unsettledCarrier (heldBy incumbent) p = true := by
    intro p
    rw [withinBudget_iff]
    simp [unsettledCarrier, heldBy]
  constructor
  · intro h
    have hy := hfirst y (.inr rfl)
    exact (hbudget y).1 (h.budget y (hsub y hy) (mem_map_of_mem hy)
      (fun hleads => hxy ((hlead y).1 hleads).symm))
  intro hsecond
  refine ⟨nodup_duplicated hnodup hids hperm, ?_, ?_, ?_, ?_⟩
  · have hpair : [x, y] ⊆ duplicated (heldBy incumbent) (x :: y :: rest) := by
      intro p hp
      exact hfirst p (by simpa using hp)
    have := (subperm_of_subset (by simpa using hxy) hpair).length_le
    simpa using this
  · intro i hi
    obtain ⟨p, hp, rfl⟩ := mem_map.1 hi
    exact ⟨p, hsub p hp, rfl⟩
  · exact ⟨x, (hlead x).2 rfl, mem_map_of_mem (hfirst x (.inl rfl))⟩
  · intro p hp hid hnot
    obtain ⟨q, hq, hqp⟩ := mem_map.1 hid
    obtain rfl := hids q (hsub q hq) p hp hqp
    rw [hbudget]
    rcases budget_of_mem_duplicated hnodup hids hperm hq with (rfl | rfl) | h
    · exact absurd ((hlead q).2 rfl) hnot
    · exact hsecond
    · exact h

/-- A late runner-up is the second candidate of a duplication, over the budget and idle. -/
theorem exists_lateRunnerUp_iff (hranked : rankedPaths (heldBy incumbent) paths = x :: s :: rest)
    {others : Paths ι}
    (hcandidates : candidates .adaptive (heldBy incumbent) paths = x :: y :: others) :
    (∃ best second, LateRunnerUp paths incumbent best second) ↔
      allDegraded (x :: y :: others) = false ∧
      latencyComparable (heldBy incumbent) (x :: y :: others) = true ∧
      withinBudget (pool paths) y = false ∧ unsettledCarrier (heldBy incumbent) y = false := by
  have hperm : (x :: y :: others).Perm (pool paths) := hcandidates ▸ candidates_perm _ _ _
  have hcomparable : latencyComparable (heldBy incumbent) (x :: y :: others) = true ↔
      2 ≤ ((pool paths).filter fun p =>
        withinBudget (pool paths) p || unsettledCarrier (heldBy incumbent) p).length := by
    rw [latencyComparable_eq hperm, decide_eq_true_eq, countP_eq_length_filter]
  have hdegraded : ∀ t, allDegraded (x :: t :: others) = (x.degraded && t.degraded) := by
    intro t
    simp [allDegraded]
  rw [hcomparable, hdegraded]
  rcases candidates_cases .adaptive hranked with ⟨heq, hstays⟩ | ⟨-, hshares, b, heq, hb,
    halt, -⟩ <;>
    rw [hcandidates] at heq <;> simp only [List.cons.injEq, true_and] at heq
  · obtain ⟨rfl, -⟩ := heq
    constructor
    · rintro ⟨best, second, h⟩
      obtain rfl := (leads_nil_iff hnodup hranked).1 h.leads
      obtain rfl := (leads_first_iff hnodup hranked).1 h.follows
      exact ⟨h.sound, h.worthwhile, h.late, h.idle⟩
    · rintro ⟨hsound, hworthwhile, hlate, hidle⟩
      exact ⟨x, y, (leads_nil_iff hnodup hranked).2 rfl, (leads_first_iff hnodup hranked).2 rfl,
        hlate, hidle, hworthwhile, hsound, hstays rfl⟩
  -- The second server that is preferred is within the budget.
  obtain ⟨rfl, -⟩ := heq
  have hwithin : withinBudget (pool paths) y = true := by
    simp only [alternative, Bool.and_eq_true] at halt
    exact halt.1.2
  refine iff_of_false ?_ (by simp [hwithin])
  rintro ⟨best, second, h⟩
  obtain rfl := (leads_nil_iff hnodup hranked).1 h.leads
  obtain rfl := (leads_first_iff hnodup hranked).1 h.follows
  rw [h.stays hshares y hb] at halt
  cases halt

end Pair

theorem keepsBudget_iff (hnodup : (pool paths).Nodup) (hids : DistinctIds (pool paths)) :
    (∀ ids, choosePathsWithIncumbent paths .adaptive incumbent = .duplicate ids →
      KeepsBudget paths incumbent ids) ↔
    ¬ ∃ best second, LateRunnerUp paths incumbent best second := by
  have hchoose : ∀ ids, choosePathsWithIncumbent paths .adaptive incumbent = .duplicate ids ↔ _ :=
    fun ids => @chooseHolding_adaptive_eq_duplicate_iff ι _ paths (heldBy incumbent) ids
  simp only [hchoose]
  by_cases hseveral : 2 ≤ (pool paths).length
  · obtain ⟨x, s, rest, hranked⟩ := exists_eq_pair hseveral
      (rankedPaths_perm (heldBy incumbent) paths)
    obtain ⟨x', y, others, hcandidates⟩ := exists_eq_pair hseveral
      (candidates_perm .adaptive (heldBy incumbent) paths)
    have hperm : (x' :: y :: others).Perm (pool paths) := hcandidates ▸ candidates_perm _ _ _
    obtain rfl := candidates_head hranked hcandidates
    have hsecond := keepsBudget_duplicated_iff hnodup hids
      (fun p => leads_nil_iff hnodup hranked) hperm
    rw [exists_lateRunnerUp_iff hnodup hranked hcandidates, hcandidates]
    constructor
    · rintro h ⟨hsound, hworthwhile, hlate, hidle⟩
      rcases hsecond.1 (h _ ⟨⟨hseveral, hsound, hworthwhile⟩, rfl⟩) with hwithin | hcarries
      · rw [hwithin] at hlate
        cases hlate
      · rw [hcarries] at hidle
        cases hidle
    · rintro h ids ⟨⟨-, hsound, hworthwhile⟩, rfl⟩
      rw [hsecond]
      by_contra hnot
      simp only [not_or, Bool.not_eq_true] at hnot
      exact h ⟨hsound, hworthwhile, hnot⟩
  · refine iff_of_true ?_ ?_
    · rintro ids ⟨⟨h, -⟩, -⟩
      exact absurd h hseveral
    · rintro ⟨best, second, h⟩
      exact hseveral (h.worthwhile.trans (length_filter_le _ _))

end Decisions

/-! ## Recorded measurements -/

section Recorded

variable [DecidableEq ι]

/-- On recorded measurements of distinct routes, a duplication of the adaptive strategy keeps its
budget, and every strategy drops exactly while no route has answered, if and only if no late
runner-up is duplicated onto. -/
theorem adaptive_budget_iff (routes : List (Route ι)) (incumbent : List ι)
    (hids : (routes.map Route.id).Nodup) :
    ((∀ ids, choosePathsWithIncumbent (routes.map metrics) .adaptive incumbent =
          .duplicate ids → KeepsBudget (routes.map metrics) incumbent ids) ∧
        ∀ strategy, choosePathsWithIncumbent (routes.map metrics) strategy incumbent = .drop ↔
          ∀ route ∈ routes, ¬ route.Answered) ↔
      ¬ ∃ best second, LateRunnerUp (routes.map metrics) incumbent best second := by
  have hsteady := steady_metrics hids
  have hdrop : ∀ strategy,
      choosePathsWithIncumbent (routes.map metrics) strategy incumbent = .drop ↔
        ∀ route ∈ routes, ¬ route.Answered := by
    intro strategy
    refine (chooseHolding_eq_drop_iff strategy).trans ?_
    simp only [List.forall_mem_map, ← Bool.not_eq_true, Route.isSome_lastLatencyMs_metrics]
  rw [and_iff_left hdrop]
  exact keepsBudget_iff hsteady.nodup hsteady.distinctIds

/-- A quick route, a late one, and one in budget whose loss ranks it behind the late one. -/
def lateSecond : List (Route Nat) :=
  [⟨0, none, [.probe 50]⟩, ⟨1, none, [.probe 151]⟩, ⟨2, none, [.probe 149, .loss]⟩]

/-- The late route is more than the budget behind the quick one and carries nothing yet. -/
theorem late_second_is_duplicated :
    (lateSecond.map Route.id).Nodup ∧
      choosePathsWithIncumbent (lateSecond.map metrics) .adaptive [] = .duplicate [0, 1] ∧
      ¬ KeepsBudget (lateSecond.map metrics) [] [0, 1] := by
  refine ⟨by decide, by decide +kernel, ?_⟩
  intro h
  let quick : PathMetrics Nat := metrics ⟨0, none, [.probe 50]⟩
  let late : PathMetrics Nat := metrics ⟨1, none, [.probe 151]⟩
  have hquick : quick ∈ pool (lateSecond.map metrics) := by decide +kernel
  have hlate : late ∈ pool (lateSecond.map metrics) := by decide +kernel
  have hbehind : ¬ Leads (heldBy []) (lateSecond.map metrics) [] late := by
    intro hleads
    rcases hleads.first quick hquick (by simp) (by decide +kernel) with hlt | ⟨heq, -⟩
    · exact absurd hlt (by decide +kernel)
    · exact absurd heq (by decide +kernel)
  rcases h.budget late hlate (by decide +kernel) hbehind with hwithin | ⟨hcarries, -⟩
  · exact absurd (hwithin quick hquick) (by decide +kernel)
  · cases hcarries

/-- A quick route and one in budget. -/
def pairInBudget : List (Route Nat) := [⟨0, none, [.probe 50]⟩, ⟨1, none, [.probe 149, .loss]⟩]

theorem adaptive_budget_iff_pairInBudget :
    ((∀ ids, choosePathsWithIncumbent (pairInBudget.map metrics) .adaptive [] =
          .duplicate ids → KeepsBudget (pairInBudget.map metrics) [] ids) ∧
        ∀ strategy, choosePathsWithIncumbent (pairInBudget.map metrics) strategy [] = .drop ↔
          ∀ route ∈ pairInBudget, ¬ route.Answered) ↔
      ¬ ∃ best second, LateRunnerUp (pairInBudget.map metrics) [] best second :=
  adaptive_budget_iff pairInBudget [] (by decide)

end Recorded

end GamePath.Engine.Scheduler
