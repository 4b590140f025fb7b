import GamePath.Engine.SchedulerChoice

/-!
# The routes that carry traffic, from one decision to the next

Each decision makes its routes the incumbents of the next, and an incumbent is ranked with a
discount: a route that carries traffic keeps its place before those that do not
(`precedes_of_holding`). From this it follows what two decisions in a row have in common when the
first one uses a single route, and when it uses two.
-/

namespace GamePath.Engine.Scheduler

open Lib.Ranking List

universe u

variable {ι : Type u}

/-! ## The discount -/

section Discount

variable {holding later : PathMetrics ι → Bool} {cost : PathMetrics ι → ℚ}
  {l t t' : Paths ι} {p q x x' : PathMetrics ι}

theorem precedes_of_holding (hl : l.Nodup) (hmargin : ∀ p ∈ l, 0 ≤ p.incumbencyMargin)
    (h : Precedes (rankBy (discounted holding cost) l) p q) (hp : later p = true)
    (hq : later q = false) : Precedes (rankBy (discounted later cost) l) p q := by
  have hmp := hmargin p (mem_rankBy.1 h.left_mem)
  have hmq := hmargin q (mem_rankBy.1 h.right_mem)
  apply precedes_rankBy_of_le hl h
  · simp only [discounted, hp, if_true]
    split_ifs <;> linarith
  · simp only [discounted, hq, Bool.false_eq_true, if_false]
    split_ifs <;> linarith

/-- When the best route carries traffic, so does the next best one. -/
theorem holding_best (hl : l.Nodup) (hmargin : ∀ p ∈ l, 0 ≤ p.incumbencyMargin)
    (hbest : rankBy (discounted holding cost) l = x :: t)
    (hbest' : rankBy (discounted later cost) l = x' :: t') (hx : later x = true) :
    later x' = true := by
  by_contra hx'
  rw [Bool.not_eq_true] at hx'
  have hne : x' ≠ x := by
    rintro rfl
    rw [hx] at hx'
    cases hx'
  have hin : x' ∈ rankBy (discounted holding cost) l := by
    rw [mem_rankBy, ← mem_rankBy (f := discounted later cost), hbest']
    exact mem_cons_self
  have hbefore : Precedes (rankBy (discounted holding cost) l) x x' := by
    rw [hbest] at hin ⊢
    exact precedes_cons_iff.2 (.inr ⟨rfl, (mem_cons.1 hin).resolve_left hne⟩)
  have hafter := precedes_of_holding hl hmargin hbefore hx hx'
  have hnodup := nodup_rankBy hl (discounted later cost)
  rw [hbest'] at hafter hnodup
  exact not_precedes_head hnodup hafter

/-- The least of a list is the first of its ranking. -/
theorem foldl_min_eq (cost : PathMetrics ι → ℚ) (l : Paths ι) :
    ∀ best, l.foldl (fun best other => if cost other < cost best then other else best) best =
      ((rankBy cost l).head?.elim best fun least =>
        if cost best ≤ cost least then best else least) := by
  induction l with
  | nil =>
    intro best
    rfl
  | cons path rest ih =>
    intro best
    rw [foldl_cons, ih]
    have hrank : rankBy cost (path :: rest) =
        (rankBy cost rest).orderedInsert (fun a b => cost a ≤ cost b) path := rfl
    rw [hrank]
    cases hrest : rankBy cost rest with
    | nil =>
      simp only [List.orderedInsert, head?_nil, head?_cons, Option.elim]
      split_ifs with h1 h2 h2
      · exact absurd h1 h2.not_gt
      · rfl
      · rfl
      · exact absurd (not_lt.1 h1) h2
    | cons least others =>
      simp only [List.orderedInsert, head?_cons, Option.elim]
      split_ifs <;> simp only [head?_cons] <;> split_ifs <;> grind

theorem minBy_eq_head? (cost : PathMetrics ι → ℚ) (l : Paths ι) :
    minBy cost l = (rankBy cost l).head? := by
  cases l with
  | nil => rfl
  | cons path rest =>
    have hrank : rankBy cost (path :: rest) =
        (rankBy cost rest).orderedInsert (fun a b => cost a ≤ cost b) path := rfl
    rw [minBy, foldl_min_eq, hrank]
    cases hrest : rankBy cost rest with
    | nil => rfl
    | cons least others =>
      simp only [List.orderedInsert, head?_cons, Option.elim]
      split_ifs <;> rfl

end Discount

/-! ## The routes that carry -/

section Carried

variable [DecidableEq ι] {paths : Paths ι} {strategy : Strategy}
  {holding : PathMetrics ι → Bool} {x s p : PathMetrics ι} {rest : Paths ι}

/-- Whether two healthy routes or more are duplicated onto. -/
def duplicates (strategy : Strategy) (holding : PathMetrics ι → Bool) (paths : Paths ι) : Bool :=
  strategy = .duplicate ||
    (!allDegraded (candidates strategy holding paths) &&
      latencyComparable holding (candidates strategy holding paths))

/-- The routes of a decision. -/
def carried (paths : Paths ι) (strategy : Strategy) (holding : PathMetrics ι → Bool) : Paths ι :=
  match rankedPaths holding paths with
  | [] => (lastResort holding paths).toList
  | [best] => [best]
  | best :: second :: rest =>
    match strategy with
    | .allPaths => best :: second :: rest
    | .fastestPath => [best]
    | strategy =>
      if duplicates strategy holding paths then
        duplicated holding (candidates strategy holding paths)
      else [best]

theorem pathIds_chooseHolding :
    (chooseHolding paths strategy holding).pathIds =
      (carried paths strategy holding).map PathMetrics.id := by
  unfold chooseHolding carried
  rcases hranked : rankedPaths holding paths with - | ⟨best, - | ⟨second, rest⟩⟩
  · cases hresort : lastResort holding paths <;> rfl
  · rfl
  cases strategy with
  | allPaths | fastestPath => rfl
  | duplicate => simp [duplicates, Decision.pathIds]
  | adaptive =>
    simp only [duplicates, reduceCtorEq, false_or, decide_false, Bool.false_or]
    split_ifs <;> rfl

theorem carried_allPaths (hranked : rankedPaths holding paths = x :: s :: rest) :
    carried paths .allPaths holding = rankedPaths holding paths := by
  simp only [carried, hranked]

theorem carried_fastestPath (hranked : rankedPaths holding paths = x :: s :: rest) :
    carried paths .fastestPath holding = [x] := by
  simp only [carried, hranked]

/-- With two healthy routes or more a decision takes all of them, the best one, or those that it
duplicates onto. -/
theorem carried_cases (strategy : Strategy) (hranked : rankedPaths holding paths = x :: s :: rest) :
    (strategy = .allPaths ∧ carried paths strategy holding = rankedPaths holding paths) ∨
    (strategy = .fastestPath ∧ carried paths strategy holding = [x]) ∨
    ((strategy = .duplicate ∨ strategy = .adaptive) ∧ duplicates strategy holding paths = true ∧
      carried paths strategy holding = duplicated holding (candidates strategy holding paths)) ∨
    (strategy = .adaptive ∧ duplicates strategy holding paths = false ∧
      carried paths strategy holding = [x]) := by
  cases strategy with
  | allPaths => exact .inl ⟨rfl, carried_allPaths hranked⟩
  | fastestPath => exact .inr (.inl ⟨rfl, carried_fastestPath hranked⟩)
  | duplicate =>
    have hdup : duplicates .duplicate holding paths = true := by simp [duplicates]
    exact .inr (.inr (.inl ⟨.inl rfl, hdup, by simp only [carried, hranked, hdup, if_true]⟩))
  | adaptive =>
    cases hdup : duplicates .adaptive holding paths with
    | true =>
      exact .inr (.inr (.inl ⟨.inr rfl, rfl, by simp only [carried, hranked, hdup, if_true]⟩))
    | false => exact .inr (.inr (.inr ⟨rfl, rfl, by simp [carried, hranked, hdup]⟩))

theorem carried_of_not_duplicates (hranked : rankedPaths holding paths = x :: s :: rest)
    (hadaptive : strategy = .adaptive) (hnot : duplicates strategy holding paths = false) :
    carried paths strategy holding = [x] := by
  rcases carried_cases strategy hranked with ⟨h, -⟩ | ⟨h, -⟩ | ⟨-, h, -⟩ | ⟨-, -, heq⟩
  · rw [hadaptive] at h
    cases h
  · rw [hadaptive] at h
    cases h
  · rw [hnot] at h
    cases h
  · exact heq

theorem carried_of_duplicates (hseveral : 2 ≤ (pool paths).length)
    (hstrategy : strategy = .duplicate ∨ strategy = .adaptive)
    (hdup : duplicates strategy holding paths = true) :
    carried paths strategy holding = duplicated holding (candidates strategy holding paths) := by
  obtain ⟨x, s, rest, hranked⟩ := exists_eq_pair hseveral (rankedPaths_perm holding paths)
  rcases carried_cases strategy hranked with ⟨h, -⟩ | ⟨h, -⟩ | ⟨-, -, heq⟩ | ⟨-, h, -⟩
  · rcases hstrategy with h' | h' <;> rw [h'] at h <;> cases h
  · rcases hstrategy with h' | h' <;> rw [h'] at h <;> cases h
  · exact heq
  · rw [hdup] at h
    cases h

end Carried

/-! ## Runs -/

section Runs

/-- Measurements with one route for each id, whose incumbents are ranked no worse for it. -/
structure Steady (paths : Paths ι) : Prop where
  distinct : (paths.map PathMetrics.id).Nodup
  margin : ∀ p ∈ paths, 0 ≤ p.incumbencyMargin

section

variable {paths : Paths ι} (h : Steady paths)
include h

theorem Steady.nodup : (pool paths).Nodup :=
  (List.Nodup.of_map _ h.distinct).filter _

theorem Steady.distinctIds :
    DistinctIds (pool paths) := by
  intro p hp q hq hid
  exact inj_on_of_nodup_map h.distinct (mem_of_mem_filter hp)
    (mem_of_mem_filter hq) hid

theorem Steady.margin_pool :
    ∀ p ∈ pool paths, 0 ≤ p.incumbencyMargin :=
  fun p hp => h.margin p (mem_of_mem_filter hp)

end

variable [DecidableEq ι]

/-- What holds traffic after each decision is what the decision carries. -/
def Follows (paths : Paths ι) (strategy : Strategy) (held : ℕ → PathMetrics ι → Bool) : Prop :=
  ∀ n, ∀ p ∈ paths, held (n + 1) p = true ↔ p ∈ carried paths strategy (held n)

/-- The next decision carries the same routes. -/
def Repeats (paths : Paths ι) (strategy : Strategy)
    (held : ℕ → PathMetrics ι → Bool) (n : ℕ) : Prop :=
  ∀ p, p ∈ carried paths strategy (held (n + 1)) ↔ p ∈ carried paths strategy (held n)

/-- The healthy routes that carry traffic. -/
def carriers (holding : PathMetrics ι → Bool) (paths : Paths ι) :
    Paths ι := (pool paths).filter holding

/-- The adaptive strategy gives up several carriers because its first two candidates are degraded,
which they would not be with the best route carrying alone. -/
def fallsBack (holding : PathMetrics ι → Bool) (paths : Paths ι) : Bool :=
  match rankedPaths holding paths with
  | [] => false
  | best :: _ =>
    2 ≤ (carriers holding paths).length && allDegraded (candidates .adaptive holding paths) &&
      !allDegraded (candidates .adaptive (fun path => path.id = best.id) paths)

/-- The adaptive strategy exchanges a settled second route that carries traffic for one on another
server, while an unsettled route carries traffic too. -/
def displaces (holding : PathMetrics ι → Bool) (paths : Paths ι) : Bool :=
  match rankedPaths holding paths with
  | _ :: second :: _ =>
    holding second && second.isSettled &&
      (carriers holding paths).any (fun path => !path.isSettled) &&
      candidates .adaptive holding paths ≠ rankedPaths holding paths
  | _ => false

/-- A decision that neither falls back nor displaces. -/
def Undisturbed (paths : Paths ι) (strategy : Strategy) (holding : PathMetrics ι → Bool) : Prop :=
  strategy = .adaptive → fallsBack holding paths = false ∧ displaces holding paths = false

instance (paths : Paths ι) (strategy : Strategy) (holding : PathMetrics ι → Bool) :
    Decidable (Undisturbed paths strategy holding) :=
  inferInstanceAs (Decidable (_ → _))

end Runs

/-! ## Two healthy routes or more -/

section Several

variable [DecidableEq ι] {paths : Paths ι} {strategy : Strategy}
  {held : ℕ → PathMetrics ι → Bool} {holding : PathMetrics ι → Bool}
  {x s y x' y' p q : PathMetrics ι} {t t' rest rest' : Paths ι} {n : ℕ}

theorem candidates_head (hranked : rankedPaths holding paths = x :: s :: rest)
    (hcandidates : candidates strategy holding paths = x' :: y :: rest') : x' = x := by
  rcases candidates_cases strategy hranked with ⟨heq, -⟩ | ⟨-, -, y', heq, -⟩
  · rw [heq] at hcandidates
    exact (List.cons.inj hcandidates).1.symm
  · rw [heq] at hcandidates
    exact (List.cons.inj hcandidates).1.symm

/-- What a decision carries keeps its place before what it leaves out. -/
theorem precedes_next (hsteady : Steady paths) (hfollows : Follows paths strategy held)
    (h : Precedes (rankedPaths (held n) paths) p q)
    (hp : p ∈ carried paths strategy (held n)) (hq : q ∉ carried paths strategy (held n)) :
    Precedes (rankedPaths (held (n + 1)) paths) p q := by
  have hp' := (rankedPaths_perm _ _).mem_iff.1 h.left_mem
  have hq' := (rankedPaths_perm _ _).mem_iff.1 h.right_mem
  apply precedes_of_holding hsteady.nodup hsteady.margin_pool h
  · exact (hfollows n p (mem_of_mem_filter hp')).2 hp
  · have := mt (hfollows n q (mem_of_mem_filter hq')).1 hq
    exact Bool.not_eq_true _ ▸ this

section Run

variable (hsteady : Steady paths) (hseveral : 2 ≤ (pool paths).length)

include hsteady hseveral

theorem best_mem_carried (hranked : rankedPaths holding paths = x :: t) :
    x ∈ carried paths strategy holding := by
  obtain ⟨x', s, rest, hranked'⟩ := exists_eq_pair hseveral (rankedPaths_perm holding paths)
  have hbest : x = x' := by
    rw [hranked'] at hranked
    exact (List.cons.inj hranked).1.symm
  subst hbest
  rcases carried_cases strategy hranked' with
    ⟨-, heq⟩ | ⟨-, heq⟩ | ⟨-, -, heq⟩ | ⟨-, -, heq⟩
  · rw [heq, hranked']
    exact mem_cons_self
  · rw [heq]
    exact mem_cons_self
  · obtain ⟨a, b, others, hcandidates⟩ :=
      exists_eq_pair hseveral (candidates_perm strategy holding paths)
    have ha := candidates_head hranked' hcandidates
    have hperm : (a :: b :: others).Perm (pool paths) :=
      hcandidates ▸ candidates_perm strategy holding paths
    rw [heq, hcandidates]
    exact first_mem_duplicated hsteady.nodup hsteady.distinctIds hperm (.inl ha.symm)
  · rw [heq]
    exact mem_cons_self

theorem carried_subset (hp : p ∈ carried paths strategy holding) : p ∈ pool paths := by
  obtain ⟨x, s, rest, hranked⟩ := exists_eq_pair hseveral (rankedPaths_perm holding paths)
  have hx : x ∈ pool paths := by
    rw [← (rankedPaths_perm _ _).mem_iff, hranked]
    exact mem_cons_self
  rcases carried_cases strategy hranked with
    ⟨-, heq⟩ | ⟨-, heq⟩ | ⟨-, -, heq⟩ | ⟨-, -, heq⟩
  · rw [heq] at hp
    exact (rankedPaths_perm _ _).mem_iff.1 hp
  · rw [heq] at hp
    exact mem_singleton.1 hp ▸ hx
  · obtain ⟨a, b, others, hcandidates⟩ :=
      exists_eq_pair hseveral (candidates_perm strategy holding paths)
    have hperm : (a :: b :: others).Perm (pool paths) :=
      hcandidates ▸ candidates_perm strategy holding paths
    rw [heq, hcandidates] at hp
    exact duplicated_subset hsteady.nodup hsteady.distinctIds hperm hp
  · rw [heq] at hp
    exact mem_singleton.1 hp ▸ hx

variable (hfollows : Follows paths strategy held)

include hfollows

theorem next_best_mem_carried (hranked : rankedPaths (held (n + 1)) paths = x :: t) :
    x ∈ carried paths strategy (held n) := by
  obtain ⟨best, s, rest, hbest⟩ := exists_eq_pair hseveral
    (rankedPaths_perm (held n) paths)
  have hcarried : best ∈ carried paths strategy (held n) :=
    best_mem_carried hsteady hseveral hbest
  have hin : ∀ p, p ∈ pool paths → p ∈ paths := fun p => mem_of_mem_filter
  have hx : x ∈ pool paths := by
    rw [← (rankedPaths_perm _ _).mem_iff, hranked]
    exact mem_cons_self
  apply (hfollows n x (hin x hx)).1
  apply holding_best hsteady.nodup hsteady.margin_pool hbest hranked
  exact (hfollows n best (hin best (carried_subset hsteady hseveral hcarried))).2 hcarried

end Run

/-! ## One route -/

section Single

variable (hsteady : Steady paths) (hseveral : 2 ≤ (pool paths).length)
  (hfollows : Follows paths strategy held)

include hsteady hseveral hfollows

theorem repeats_of_best (hranked : rankedPaths (held (n + 1)) paths = x' :: t)
    (hn : carried paths strategy (held n) = [x])
    (hn' : carried paths strategy (held (n + 1)) = [x']) : Repeats paths strategy held n := by
  have hx' := next_best_mem_carried hsteady hseveral hfollows hranked
  rw [hn, mem_singleton] at hx'
  intro p
  rw [hn, hn', hx']

/-- Once the adaptive strategy uses one route, it goes on using it. -/
theorem repeats_of_not_duplicates (hadaptive : strategy = .adaptive)
    (hundisturbed : Undisturbed paths strategy (held (n + 1)))
    (hnot : duplicates strategy (held (n + 1)) paths = false) :
    Repeats paths strategy held n ∨ Repeats paths strategy held (n + 1) := by
  obtain ⟨x, s, rest, hranked⟩ := exists_eq_pair hseveral (rankedPaths_perm (held (n + 1)) paths)
  obtain ⟨x', s', rest', hranked'⟩ := exists_eq_pair hseveral
    (rankedPaths_perm (held (n + 1 + 1)) paths)
  have hsingle := carried_of_not_duplicates hranked hadaptive hnot
  have hbest := next_best_mem_carried hsteady hseveral hfollows hranked
  have hin : ∀ p, p ∈ carried paths strategy (held n) → held (n + 1) p = true := by
    intro p hp
    exact (hfollows n p (mem_of_mem_filter (carried_subset hsteady hseveral hp))).2 hp
  have hwhy : allDegraded (candidates strategy (held (n + 1)) paths) = true ∨
      latencyComparable (held (n + 1)) (candidates strategy (held (n + 1)) paths) = false := by
    simp only [duplicates, hadaptive, reduceCtorEq, decide_false, Bool.false_or,
      Bool.and_eq_false_iff, Bool.not_eq_false'] at hnot ⊢
    exact hnot
  have hstays : duplicates strategy (held (n + 1 + 1)) paths = false →
      Repeats paths strategy held (n + 1) := by
    intro hnot'
    have hsingle' := carried_of_not_duplicates hranked' hadaptive hnot'
    exact repeats_of_best hsteady hseveral hfollows hranked' hsingle hsingle'
  rcases hwhy with hdegraded | hbudget
  · by_cases hfew : 2 ≤ (carriers (held (n + 1)) paths).length
    · -- The candidates of the best route alone are degraded too.
      right
      apply hstays
      have halone : allDegraded
          (candidates strategy (fun path => decide (path.id = x.id)) paths) = true := by
        have hback := (hundisturbed hadaptive).1
        rw [hadaptive] at hdegraded ⊢
        simpa [fallsBack, hranked, hfew, hdegraded] using hback
      have hsame : candidates strategy (held (n + 1 + 1)) paths =
          candidates strategy (fun path => decide (path.id = x.id)) paths := by
        apply candidates_congr
        intro p hp
        have hx := carried_subset hsteady hseveral hbest
        rw [Bool.eq_iff_iff, hfollows (n + 1) p (mem_of_mem_filter hp), hsingle,
          mem_singleton, decide_eq_true_eq]
        exact ⟨fun h => h ▸ rfl, fun h => hsteady.distinctIds p hp x hx h⟩
      rw [duplicates, hsame, halone, hadaptive]
      simp
    · -- The routes before were at most one, and the best was of them.
      left
      intro p
      rw [hsingle, mem_singleton]
      constructor
      · rintro rfl
        exact hbest
      intro hp
      by_contra hne
      have hmem : ∀ q, q ∈ carried paths strategy (held n) →
          q ∈ carriers (held (n + 1)) paths := by
        intro q hq
        exact mem_filter.2 ⟨carried_subset hsteady hseveral hq, hin q hq⟩
      rcases precedes_or_precedes (hmem p hp) (hmem x hbest) hne with
        h | h <;> exact hfew h.length_le
  · -- No more routes carry afterwards, so the budget is met by no more than before.
    right
    apply hstays
    have hcount := hbudget
    rw [latencyComparable_eq (candidates_perm _ _ _), decide_eq_false_iff_not] at hcount
    have hless : (pool paths).countP (fun path =>
          withinBudget (pool paths) path || unsettledCarrier (held (n + 1 + 1)) path) ≤
        (pool paths).countP (fun path =>
          withinBudget (pool paths) path || unsettledCarrier (held (n + 1)) path) := by
      apply countP_mono_left
      intro p hp hcounted
      rw [Bool.or_eq_true] at hcounted ⊢
      refine hcounted.imp_right fun hcarries => ?_
      rw [unsettledCarrier, Bool.and_eq_true] at hcarries ⊢
      refine ⟨?_, hcarries.2⟩
      have hp' := (hfollows (n + 1) p (mem_of_mem_filter hp)).1 hcarries.1
      rw [hsingle, mem_singleton] at hp'
      rw [hp']
      exact hin x hbest
    rw [duplicates, latencyComparable_eq (candidates_perm _ _ _), hadaptive,
      decide_eq_false (by omega : ¬ 2 ≤ (pool paths).countP fun path =>
        withinBudget (pool paths) path || unsettledCarrier (held (n + 1 + 1)) path)]
    simp

end Single

/-! ## Two routes -/

theorem not_shares_of_alternative (h : alternative paths x y = true) :
    x.sharesEndpoint y = false := by
  simp only [alternative, Bool.and_eq_true, Bool.not_eq_true'] at h
  exact h.1.1.2

theorem ne_of_alternative (h : alternative paths x y = true) : y ≠ x := by
  rintro rfl
  simp [alternative] at h

section Pair

variable (hsteady : Steady paths) (hfollows : Follows paths strategy held)
  (hdup : ∀ n, carried paths strategy (held n) =
    duplicated (held n) (candidates strategy (held n) paths))

include hsteady hfollows hdup

/-- Two routes that are all a decision carries, and are the first two of the next, are all the next
one carries. -/
theorem repeats_of_same_pair (hfirst : candidates strategy (held n) paths = x :: y :: rest)
    (hfirst' : candidates strategy (held (n + 1)) paths = x' :: y' :: rest')
    (hsame : ∀ p, (p = x' ∨ p = y') ↔ (p = x ∨ p = y))
    (hpair : ∀ p, p ∈ carried paths strategy (held n) ↔ (p = x ∨ p = y)) :
    Repeats paths strategy held n := by
  have hperm : (x :: y :: rest).Perm (pool paths) := hfirst ▸ candidates_perm _ _ _
  have hperm' : (x' :: y' :: rest').Perm (pool paths) := hfirst' ▸ candidates_perm _ _ _
  have hnodup := hsteady.nodup
  have hids := hsteady.distinctIds
  intro p
  rw [hpair, hdup (n + 1), hfirst']
  constructor
  · intro hp
    by_cases hservers : HasTwoServers (pool paths)
    · rcases duplicated_cases hnodup hids hperm' hservers hp with
        hin | ⟨hwithin, hsettled⟩ | hcarries
      · exact (hsame p).1 hin
      · -- The first two routes are on two settled servers if any such route was left out.
        by_contra hnot
        have hout : p ∉ duplicated (held n) (x :: y :: rest) := by
          rw [← hfirst, ← hdup n, hpair]
          exact hnot
        have hpool := duplicated_subset hnodup hids hperm' hp
        obtain ⟨u, v, htwo, hu, hv, -, -⟩ :=
          exists_twoServers_of_not_duplicated hnodup hids hperm hservers hpool hwithin hsettled hout
        rw [← hfirst, ← hdup n, hpair, ← hsame] at hu hv
        rw [← hsame] at hnot
        exact not_duplicated_of_twoServers hnodup hids hperm' hservers hsettled hnot htwo (.inl hu)
          (.inl hv) hp
      · rw [unsettledCarrier, Bool.and_eq_true] at hcarries
        have hpool := duplicated_subset hnodup hids hperm' hp
        exact (hpair p).1 ((hfollows n p (mem_of_mem_filter hpool)).1 hcarries.1)
    · rw [duplicated_of_not_twoServers hnodup hperm' hservers] at hp
      exact (hsame p).1 (by simpa using hp)
  · intro hp
    exact first_mem_duplicated hnodup hids hperm' ((hsame p).2 hp)

/-- Two routes that lead the ranking and are all a decision carries go on carrying. -/
theorem repeats_of_leading_pair (hranked : rankedPaths (held n) paths = x :: y :: rest)
    (hfirst : candidates strategy (held n) paths = x :: y :: rest)
    (hpair : ∀ p, p ∈ carried paths strategy (held n) ↔ (p = x ∨ p = y)) :
    Repeats paths strategy held n := by
  have hnodup : (x :: y :: rest).Nodup := hranked ▸ nodup_rankBy hsteady.nodup _
  have hne : x ≠ y := by
    rintro rfl
    simp at hnodup
  have hmem : ∀ p, p = x ∨ p = y → p ∈ pool paths := by
    intro p hp
    rw [← (rankedPaths_perm (held n) paths).mem_iff, hranked]
    rcases hp with rfl | rfl <;> simp
  have hmem' : ∀ p, p = x ∨ p = y → p ∈ rankedPaths (held (n + 1)) paths :=
    fun p hp => (rankedPaths_perm _ _).mem_iff.2 (hmem p hp)
  have hlead : ∀ r ∈ rankedPaths (held (n + 1)) paths, r ≠ x → r ≠ y →
      Precedes (rankedPaths (held (n + 1)) paths) x r ∧
        Precedes (rankedPaths (held (n + 1)) paths) y r := by
    intro r hr hrx hry
    have hin : r ∈ x :: y :: rest := by
      rw [← hranked, (rankedPaths_perm _ _).mem_iff, ← (rankedPaths_perm _ _).mem_iff]
      exact hr
    have hout : r ∉ carried paths strategy (held n) := by
      rw [hpair]
      exact not_or.2 ⟨hrx, hry⟩
    obtain ⟨hx, hy⟩ := precedes_of_ne_first hin hrx hry
    rw [← hranked] at hx hy
    exact ⟨precedes_next hsteady hfollows hx ((hpair x).2 (.inl rfl)) hout,
      precedes_next hsteady hfollows hy ((hpair y).2 (.inr rfl)) hout⟩
  have hnone : strategy = .adaptive → x.sharesEndpoint y = true →
      ∀ p ∈ pool paths, alternative paths x p = false := by
    rcases candidates_cases strategy hranked with ⟨-, hnone⟩ | ⟨-, hshares, b, heq, -, hb, -⟩
    · exact hnone
    · rw [hfirst] at heq
      have hby : y = b := (List.cons.inj (List.cons.inj heq).2).1
      rw [← hby] at hb
      rw [not_shares_of_alternative hb] at hshares
      cases hshares
  obtain ⟨rest', hranked' | hranked'⟩ := eq_pair_of_precedes
    (nodup_rankBy hsteady.nodup _) (hmem' x (.inl rfl)) (hmem' y (.inr rfl)) hne hlead
  · rcases candidates_cases strategy hranked' with ⟨heq, -⟩ | ⟨hadaptive, hshares, b, -, hin, hb, -⟩
    · exact repeats_of_same_pair hsteady hfollows hdup hfirst heq (fun _ => Iff.rfl) hpair
    · rw [hnone hadaptive hshares b hin] at hb
      cases hb
  rcases candidates_cases strategy hranked' with ⟨heq, -⟩ | ⟨hadaptive, hshares, b, -, hin, hb, -⟩
  · exact repeats_of_same_pair hsteady hfollows hdup hfirst heq (fun _ => or_comm) hpair
  · rw [sharesEndpoint_comm] at hshares
    have := no_alternative_of_shares hsteady.distinctIds (hmem x (.inl rfl)) hshares
      (hnone hadaptive hshares) b hin
    rw [this] at hb
    cases hb

section

variable (hseveral : 2 ≤ (pool paths).length) (hfirst : candidates strategy (held n) paths =
  x :: y :: rest) (hpair : ∀ p, p ∈ carried paths strategy (held n) ↔ (p = x ∨ p = y))
include hseveral hfirst hpair

/-- Two routes that are all a decision carries go on carrying, or the next ranking is led by routes
on two servers. -/
theorem repeats_or_leads :
    Repeats paths strategy held n ∨
    ∃ x' y' rest', rankedPaths (held (n + 1)) paths = x' :: y' :: rest' ∧
      candidates strategy (held (n + 1)) paths = x' :: y' :: rest' ∧
      x'.sharesEndpoint y' = false := by
  obtain ⟨best, s, others, hranked⟩ := exists_eq_pair hseveral (rankedPaths_perm (held n) paths)
  obtain rfl := candidates_head hranked hfirst
  rcases candidates_cases strategy hranked with
    ⟨heq, -⟩ | ⟨hadaptive, -, b, heq, hpool, halternative, hleast⟩
  · left
    rw [hfirst] at heq
    rw [← heq] at hranked
    exact repeats_of_leading_pair hsteady hfollows hdup hranked hfirst hpair
  obtain rfl : y = b := by
    rw [hfirst] at heq
    exact (List.cons.inj (List.cons.inj heq).2).1
  have hapart := not_shares_of_alternative halternative
  have hne := ne_of_alternative halternative
  obtain ⟨a, c, rest', hranked'⟩ := exists_eq_pair hseveral
    (rankedPaths_perm (held (n + 1)) paths)
  have hnodup' : (a :: c :: rest').Nodup := hranked' ▸ nodup_rankBy hsteady.nodup _
  have ha := next_best_mem_carried hsteady hseveral hfollows hranked'
  rw [hpair] at ha
  rcases ha with rfl | rfl
  · by_cases hshares : a.sharesEndpoint c = true
    · -- The exchange finds the same route, which keeps its place before the alternatives.
      left
      rcases candidates_cases strategy hranked' with
        ⟨-, hnone⟩ | ⟨-, -, b, heq', hpool', halternative', hleast'⟩
      · rw [hnone hadaptive hshares y hpool] at halternative
        cases halternative
      have hby : b = y := by
        by_contra hby
        have hout : b ∉ carried paths strategy (held n) := by
          rw [hpair]
          exact not_or.2 ⟨ne_of_alternative halternative', hby⟩
        have hbefore := precedes_next hsteady hfollows (hleast b hpool' halternative' hby)
          ((hpair y).2 (.inr rfl)) hout
        exact hbefore.asymm (nodup_rankBy hsteady.nodup _)
          (hleast' y hpool halternative (Ne.symm hby))
      rw [hby] at heq'
      exact repeats_of_same_pair hsteady hfollows hdup hfirst heq' (fun _ => Iff.rfl) hpair
    · right
      rcases candidates_cases strategy hranked' with ⟨heq', -⟩ | ⟨-, hshares', -⟩
      · exact ⟨a, c, rest', hranked', heq', by simpa using hshares⟩
      · exact absurd hshares' hshares
  · -- The second route became the best, and the best before it follows it.
    left
    have hc : c = x := by
      by_contra hcx
      have hout : c ∉ carried paths strategy (held n) := by
        rw [hpair]
        refine not_or.2 ⟨hcx, ?_⟩
        rintro rfl
        simp at hnodup'
      have hin : c ∈ x :: s :: others := by
        rw [← hranked, (rankedPaths_perm _ _).mem_iff,
          ← (rankedPaths_perm (held (n + 1)) paths).mem_iff, hranked']
        simp
      have hbefore : Precedes (rankedPaths (held n) paths) x c := by
        rw [hranked]
        exact precedes_cons_iff.2 (.inr ⟨rfl, (mem_cons.1 hin).resolve_left hcx⟩)
      have hafter := precedes_next hsteady hfollows hbefore ((hpair x).2 (.inl rfl)) hout
      rw [hranked'] at hafter
      exact hne (hafter.eq_head hnodup').symm
    subst hc
    rcases candidates_cases strategy hranked' with ⟨heq', -⟩ | ⟨-, hshares', -⟩
    · exact repeats_of_same_pair hsteady hfollows hdup hfirst heq' (fun _ => or_comm) hpair
    · rw [sharesEndpoint_comm, hapart] at hshares'
      cases hshares'

/-- Two routes that are all a decision carries come to rest, when routes on two servers that lead
the next decision are all that one carries. -/
theorem exists_repeats_of_pair
    (hnext : ∀ x' y' rest', candidates strategy (held (n + 1)) paths = x' :: y' :: rest' →
      x'.sharesEndpoint y' = false →
      ∀ p, p ∈ carried paths strategy (held (n + 1)) ↔ (p = x' ∨ p = y')) :
    ∃ m, Repeats paths strategy held m := by
  rcases repeats_or_leads hsteady hfollows hdup hseveral hfirst hpair with
    hrepeats | ⟨x', y', rest', hranked', hfirst', hapart⟩
  · exact ⟨n, hrepeats⟩
  · exact ⟨n + 1, repeats_of_leading_pair hsteady hfollows hdup hranked' hfirst'
      (hnext x' y' rest' hfirst' hapart)⟩

end

end Pair

end Several

end GamePath.Engine.Scheduler
