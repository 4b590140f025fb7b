import GamePath.Engine.Scheduler

/-!
# What one decision chooses

The facts about one decision of the scheduler that its behaviour over time rests on: how many
settled servers a list has, which routes the loop in order takes and which it passes over, which
routes are kept because they carry traffic, and what the preference for a second server does to the
ranking.
-/

namespace GamePath.Engine.Scheduler

open Lib.Ranking PathMetrics List

universe u

variable {ι : Type u}

/-! ## Servers -/

theorem sharesEndpoint_comm (p q : PathMetrics ι) : p.sharesEndpoint q = q.sharesEndpoint p := by
  unfold sharesEndpoint
  cases hp : p.endpointIpv4 with
  | none =>
    cases hq : q.endpointIpv4 with
    | none | some => rfl
  | some a =>
    cases hq : q.endpointIpv4 with
    | none => rfl
    | some b =>
      exact Bool.beq_comm

theorem sharesEndpoint_trans {p q r : PathMetrics ι} (hpq : p.sharesEndpoint q = true)
    (hqr : q.sharesEndpoint r = true) : p.sharesEndpoint r = true := by
  simp only [sharesEndpoint, Bool.and_eq_true, beq_iff_eq] at hpq hqr ⊢
  exact ⟨hpq.1, hpq.2.trans hqr.2⟩

/-- Two settled routes on different servers. -/
structure TwoServers (p q : PathMetrics ι) : Prop where
  distinct : p ≠ q
  left : p.isSettled = true
  right : q.isSettled = true
  apart : p.sharesEndpoint q = false

/-- A list has settled routes on two servers. -/
def HasTwoServers (l : Paths ι) : Prop := ∃ p ∈ l, ∃ q ∈ l, TwoServers p q

/-- A settled route is counted when it shares the endpoint of no settled one before it. -/
theorem settledPathCountFrom_pos_iff (l : Paths ι) :
    ∀ seen : Paths ι, 1 ≤ settledPathCountFrom seen l ↔
      ∃ p ∈ l, p.isSettled = true ∧
        ∀ q ∈ seen, q.isSettled = true → p.sharesEndpoint q = false := by
  induction l with
  | nil =>
    intro seen
    simp [settledPathCountFrom]
  | cons path rest ih =>
    intro seen
    rw [settledPathCountFrom]
    by_cases hcounted : (path.isSettled && !seen.any fun other =>
        other.isSettled && path.sharesEndpoint other) = true
    · simp only [hcounted, if_true]
      refine iff_of_true (by omega) ⟨path, mem_cons_self, ?_⟩
      simp only [Bool.and_eq_true, Bool.not_eq_true', any_eq_false, not_and,
        Bool.not_eq_true] at hcounted
      exact ⟨hcounted.1, hcounted.2⟩
    simp only [hcounted, Bool.false_eq_true, if_false, Nat.zero_add, ih, exists_mem_cons_iff]
    have hpath : ¬ (path.isSettled = true ∧
        ∀ q ∈ seen, q.isSettled = true → path.sharesEndpoint q = false) := by
      simpa only [Bool.and_eq_true, Bool.not_eq_true', any_eq_false, not_and,
        Bool.not_eq_true] using hcounted
    rw [or_iff_right hpath]
    constructor
    · rintro ⟨p, hp, hsettled, hnew⟩
      exact ⟨p, hp, hsettled, fun q hq => hnew q (mem_append_left _ hq)⟩
    rintro ⟨p, hp, hsettled, hnew⟩
    refine ⟨p, hp, hsettled, ?_⟩
    intro q hq hq'
    rcases mem_append.1 hq with hq | hq
    · exact hnew q hq hq'
    -- The route that was passed over shares its endpoint with one that was seen.
    obtain rfl := mem_singleton.1 hq
    by_contra hshares
    rw [Bool.not_eq_false] at hshares
    apply hpath
    refine ⟨hq', ?_⟩
    intro r hr hr'
    by_contra hshares'
    rw [Bool.not_eq_false] at hshares'
    have := hnew r hr hr'
    rw [sharesEndpoint_trans hshares hshares'] at this
    cases this

theorem two_le_settledPathCountFrom_iff (l : Paths ι) (hl : l.Nodup) :
    ∀ seen : Paths ι, (∀ q ∈ seen, q.isSettled = false) →
      (2 ≤ settledPathCountFrom seen l ↔ HasTwoServers l) := by
  induction l with
  | nil =>
    intro seen _
    simp [settledPathCountFrom, HasTwoServers]
  | cons path rest ih =>
    intro seen hseen
    obtain ⟨hpath, hrest⟩ := nodup_cons.1 hl
    rw [settledPathCountFrom]
    by_cases hsettled : path.isSettled = true
    · have hnone : (seen.any fun other => other.isSettled && path.sharesEndpoint other) =
          false := by
        rw [any_eq_false]
        intro q hq
        simp [hseen q hq]
      simp only [hsettled, hnone, Bool.not_false, Bool.and_self, if_true]
      have hpos := settledPathCountFrom_pos_iff rest (seen ++ [path])
      have harith : 2 ≤ 1 + settledPathCountFrom (seen ++ [path]) rest ↔
          1 ≤ settledPathCountFrom (seen ++ [path]) rest := by omega
      rw [harith, hpos]
      constructor
      · rintro ⟨p, hp, hp', hnew⟩
        refine ⟨path, mem_cons_self, p, mem_cons_of_mem _ hp, ?_, hsettled, hp', ?_⟩
        · rintro rfl
          exact hpath hp
        · rw [sharesEndpoint_comm]
          exact hnew path (by simp) hsettled
      -- Of two routes on different servers one is not on the first one's.
      rintro ⟨p, hp, q, hq, hne, hp', hq', hapart⟩
      have hfrom : ∀ r ∈ rest, r.isSettled = true → r.sharesEndpoint path = false →
          ∃ p ∈ rest, p.isSettled = true ∧ ∀ q ∈ seen ++ [path], q.isSettled = true →
            p.sharesEndpoint q = false := by
        intro r hr hr' hshares
        refine ⟨r, hr, hr', ?_⟩
        intro s hs hs'
        rcases mem_append.1 hs with hs | hs
        · rw [hseen s hs] at hs'
          cases hs'
        · rwa [mem_singleton.1 hs]
      rcases mem_cons.1 hp with hfirst | hin
      · subst hfirst
        have hin := (mem_cons.1 hq).resolve_left hne.symm
        exact hfrom q hin hq' (by rwa [sharesEndpoint_comm])
      rcases mem_cons.1 hq with hfirst | hin'
      · subst hfirst
        exact hfrom p hin hp' hapart
      by_cases hshares : p.sharesEndpoint path = true
      · apply hfrom q hin' hq'
        by_contra hboth
        rw [Bool.not_eq_false, sharesEndpoint_comm] at hboth
        rw [sharesEndpoint_trans hshares hboth] at hapart
        cases hapart
      · exact hfrom p hin hp' (by simpa using hshares)
    · have hunsettled : path.isSettled = false := by simpa using hsettled
      simp only [hunsettled, Bool.false_and, Bool.false_eq_true, if_false, Nat.zero_add]
      rw [ih hrest (seen ++ [path])]
      · constructor
        · rintro ⟨p, hp, q, hq, h⟩
          exact ⟨p, mem_cons_of_mem _ hp, q, mem_cons_of_mem _ hq, h⟩
        rintro ⟨p, hp, q, hq, h⟩
        have hne : ∀ r, r.isSettled = true → r ≠ path := by
          rintro r hr rfl
          exact hsettled hr
        exact ⟨p, (mem_cons.1 hp).resolve_left (hne p h.left), q,
          (mem_cons.1 hq).resolve_left (hne q h.right), h⟩
      · intro q hq
        rcases mem_append.1 hq with hq | hq
        · exact hseen q hq
        · rwa [mem_singleton.1 hq]

theorem two_le_settledPathCount_iff {l : Paths ι} (hl : l.Nodup) :
    2 ≤ settledPathCount l ↔ HasTwoServers l :=
  two_le_settledPathCountFrom_iff l hl [] (by simp)

/-! ## The loop in order -/

section Loop

variable (within : PathMetrics ι → Bool) {p : PathMetrics ι}

/-- The loop has two routes and settled ones on two servers. -/
def Enough (chosen : Paths ι) : Prop :=
  2 ≤ chosen.length ∧ settledRoutesWanted ≤ settledPathCount chosen

variable {chosen : Paths ι}

theorem hasTwoServers_of_enough (hnodup : chosen.Nodup) (h : Enough chosen) :
    HasTwoServers chosen :=
  (two_le_settledPathCount_iff hnodup).1 h.2

theorem enough_of_twoServers (hnodup : chosen.Nodup) (hlength : 2 ≤ chosen.length)
    (h : HasTwoServers chosen) : Enough chosen :=
  ⟨hlength, (two_le_settledPathCount_iff hnodup).2 h⟩

/-- The loop takes a route, passes it over, or stops. -/
theorem chooseInOrder_cons (hlength : 2 ≤ chosen.length) (path : PathMetrics ι) (rest : Paths ι) :
    (Enough chosen ∧ chooseInOrder true within chosen (path :: rest) = chosen) ∨
    (¬ Enough chosen ∧ (within path = false ∨ path.isSettled = false) ∧
      chooseInOrder true within chosen (path :: rest) =
        chooseInOrder true within chosen rest) ∨
    (¬ Enough chosen ∧ within path = true ∧ path.isSettled = true ∧
      chooseInOrder true within chosen (path :: rest) =
        chooseInOrder true within (chosen ++ [path]) rest) := by
  have hstop : (2 ≤ chosen.length ∧
      (!true || decide (settledRoutesWanted ≤ settledPathCount chosen)) = true) ↔
        Enough chosen := by
    simp [Enough]
  rw [chooseInOrder]
  by_cases henough : Enough chosen
  · refine .inl ⟨henough, ?_⟩
    rw [if_pos (hstop.2 henough)]
  refine .inr ?_
  rw [if_neg (mt hstop.1 henough)]
  by_cases hwithin : within path = true
  · by_cases hsettled : path.isSettled = true
    · refine .inr ⟨henough, hwithin, hsettled, ?_⟩
      simp [hwithin, hsettled]
    · refine .inl ⟨henough, .inr (by simpa using hsettled), ?_⟩
      rw [if_pos]
      exact ⟨hlength, by simp [hsettled]⟩
  · refine .inl ⟨henough, .inl (by simpa using hwithin), ?_⟩
    rw [if_pos]
    exact ⟨hlength, by simp [hwithin]⟩

variable (l : Paths ι)

theorem subset_chooseInOrder :
    ∀ {chosen : Paths ι}, 2 ≤ chosen.length → p ∈ chosen →
      p ∈ chooseInOrder true within chosen l := by
  induction l with
  | nil => exact fun _ => id
  | cons path rest ih =>
    intro chosen hlength hp
    rcases chooseInOrder_cons within hlength path rest with
      ⟨-, heq⟩ | ⟨-, -, heq⟩ | ⟨-, -, -, heq⟩
    · rwa [heq]
    · rw [heq]
      exact ih hlength hp
    · rw [heq]
      exact ih (by simp; omega) (mem_append_left _ hp)

/-- What the loop adds is of the list, settled and in budget. -/
theorem mem_chooseInOrder :
    ∀ {chosen : Paths ι}, 2 ≤ chosen.length →
      p ∈ chooseInOrder true within chosen l →
      p ∈ chosen ∨ (p ∈ l ∧ within p = true ∧ p.isSettled = true) := by
  induction l with
  | nil => exact fun _ hp => .inl hp
  | cons path rest ih =>
    intro chosen hlength hp
    rcases chooseInOrder_cons within hlength path rest with
      ⟨-, heq⟩ | ⟨-, -, heq⟩ | ⟨-, hwithin, hsettled, heq⟩
    · rw [heq] at hp
      exact .inl hp
    · rw [heq] at hp
      rcases ih hlength hp with hin | ⟨hin, hfacts⟩
      · exact .inl hin
      · exact .inr ⟨mem_cons_of_mem _ hin, hfacts⟩
    rw [heq] at hp
    rcases ih (by simp; omega) hp with hin | ⟨hin, hfacts⟩
    · rcases mem_append.1 hin with hin | hin
      · exact .inl hin
      · rw [mem_singleton.1 hin]
        exact .inr ⟨mem_cons_self, hwithin, hsettled⟩
    · exact .inr ⟨mem_cons_of_mem _ hin, hfacts⟩

/-- A settled route in budget that the loop did not take came after settled routes on two servers
that it took. -/
theorem exists_twoServers_before (hwithin : within p = true) (hsettled : p.isSettled = true) :
    ∀ {chosen : Paths ι}, 2 ≤ chosen.length → (chosen ++ l).Nodup → p ∈ l →
      p ∉ chooseInOrder true within chosen l →
      ∃ u v, TwoServers u v ∧ u ∈ chooseInOrder true within chosen l ∧
        v ∈ chooseInOrder true within chosen l ∧ (u ∈ chosen ∨ Precedes l u p) ∧
        (v ∈ chosen ∨ Precedes l v p) := by
  induction l with
  | nil =>
    intro chosen _ _ hp
    cases hp
  | cons path rest ih =>
    intro chosen hlength hnodup hp hnot
    rcases chooseInOrder_cons within hlength path rest with
      ⟨henough, heq⟩ | ⟨-, hskip, heq⟩ | ⟨-, -, -, heq⟩
    · obtain ⟨u, hu, v, hv, htwo⟩ :=
        hasTwoServers_of_enough (List.Nodup.of_append_left hnodup) henough
      rw [heq]
      exact ⟨u, v, htwo, hu, hv, .inl hu, .inl hv⟩
    · rw [heq] at hnot ⊢
      have hin : p ∈ rest := by
        refine (mem_cons.1 hp).resolve_left ?_
        rintro rfl
        rcases hskip with hskip | hskip
        · rw [hwithin] at hskip
          cases hskip
        · rw [hsettled] at hskip
          cases hskip
      have hnodup' : (chosen ++ rest).Nodup :=
        hnodup.sublist ((List.Sublist.refl _).append (sublist_cons_self _ _))
      obtain ⟨u, v, htwo, hu, hv, hbu, hbv⟩ := ih hlength hnodup' hin hnot
      refine ⟨u, v, htwo, hu, hv, ?_, ?_⟩
      · exact hbu.imp_right fun h => precedes_cons_iff.2 (.inl h)
      · exact hbv.imp_right fun h => precedes_cons_iff.2 (.inl h)
    · rw [heq] at hnot ⊢
      have hlength' : 2 ≤ (chosen ++ [path]).length := by simp; omega
      have hin : p ∈ rest := by
        refine (mem_cons.1 hp).resolve_left ?_
        rintro rfl
        exact hnot (subset_chooseInOrder within rest hlength' (by simp))
      have hnodup' : ((chosen ++ [path]) ++ rest).Nodup := by simpa using hnodup
      obtain ⟨u, v, htwo, hu, hv, hbu, hbv⟩ := ih hlength' hnodup' hin hnot
      have hbefore : ∀ w, w ∈ chosen ++ [path] ∨ Precedes rest w p →
          w ∈ chosen ∨ Precedes (path :: rest) w p := by
        rintro w (hw | hw)
        · rcases mem_append.1 hw with hw | hw
          · exact .inl hw
          · exact .inr (precedes_cons_iff.2 (.inr ⟨mem_singleton.1 hw, hin⟩))
        · exact .inr (precedes_cons_iff.2 (.inl hw))
      exact ⟨u, v, htwo, hu, hv, hbefore u hbu, hbefore v hbv⟩

/-- The loop takes no route after settled routes on two servers that it takes. -/
theorem not_twoServers_before {u v : PathMetrics ι} (htwo : TwoServers u v) :
    ∀ {chosen : Paths ι}, 2 ≤ chosen.length → (chosen ++ l).Nodup →
      p ∈ chooseInOrder true within chosen l → p ∉ chosen →
      (u ∈ chosen ∨ (within u = true ∧ Precedes l u p)) →
      (v ∈ chosen ∨ (within v = true ∧ Precedes l v p)) → False := by
  induction l with
  | nil =>
    intro chosen _ _ hp hnot
    exact absurd hp hnot
  | cons path rest ih =>
    intro chosen hlength hnodup hp hnot hu hv
    rcases chooseInOrder_cons within hlength path rest with
      ⟨-, heq⟩ | ⟨-, hskip, heq⟩ | ⟨henough, -, -, heq⟩
    · rw [heq] at hp
      exact hnot hp
    · rw [heq] at hp
      have hnodup' : (chosen ++ rest).Nodup :=
        hnodup.sublist ((List.Sublist.refl _).append (sublist_cons_self _ _))
      have hlater : ∀ w, w.isSettled = true →
          (w ∈ chosen ∨ (within w = true ∧ Precedes (path :: rest) w p)) →
          (w ∈ chosen ∨ (within w = true ∧ Precedes rest w p)) := by
        rintro w hw (hin | ⟨hwithin, hbefore⟩)
        · exact .inl hin
        rcases precedes_cons_iff.1 hbefore with hbefore | ⟨rfl, -⟩
        · exact .inr ⟨hwithin, hbefore⟩
        · rcases hskip with hskip | hskip
          · rw [hwithin] at hskip
            cases hskip
          · rw [hw] at hskip
            cases hskip
      exact ih hlength hnodup' hp hnot (hlater u htwo.left hu) (hlater v htwo.right hv)
    · rw [heq] at hp
      have hlength' : 2 ≤ (chosen ++ [path]).length := by simp; omega
      have hnodup' : ((chosen ++ [path]) ++ rest).Nodup := by simpa using hnodup
      by_cases hfirst : p = path
      · -- Nothing of the list precedes its first route, so both were chosen before it.
        subst hfirst
        have hnone : ∀ w, ¬ Precedes (p :: rest) w p := by
          intro w hbefore
          have hp' : p ∉ rest := by
            have := List.Nodup.of_append_right hnodup
            exact (nodup_cons.1 this).1
          rcases precedes_cons_iff.1 hbefore with hbefore | ⟨-, hin⟩
          · exact hp' hbefore.right_mem
          · exact hp' hin
        have hu' := hu.resolve_right fun h => hnone u h.2
        have hv' := hv.resolve_right fun h => hnone v h.2
        exact henough (enough_of_twoServers (List.Nodup.of_append_left hnodup) hlength
          ⟨u, hu', v, hv', htwo⟩)
      · have hlater : ∀ w, (w ∈ chosen ∨ (within w = true ∧ Precedes (path :: rest) w p)) →
            (w ∈ chosen ++ [path] ∨ (within w = true ∧ Precedes rest w p)) := by
          rintro w (hin | ⟨hwithin, hbefore⟩)
          · exact .inl (mem_append_left _ hin)
          · rcases precedes_cons_iff.1 hbefore with hbefore | ⟨rfl, -⟩
            · exact .inr ⟨hwithin, hbefore⟩
            · exact .inl (by simp)
        have hnot' : p ∉ chosen ++ [path] := by simp [hnot, hfirst]
        exact ih hlength' hnodup' hp hnot' (hlater u hu) (hlater v hv)

theorem chooseInOrder_pair (independent : Bool) (x y : PathMetrics ι) (rest : Paths ι) :
    chooseInOrder independent within [] (x :: y :: rest) =
      chooseInOrder independent within [x, y] rest := by
  simp [chooseInOrder]

theorem chooseInOrder_false (x y : PathMetrics ι) (rest : Paths ι) :
    chooseInOrder false within [x, y] rest = [x, y] := by
  cases rest with
  | nil => rfl
  | cons path rest => simp [chooseInOrder]

end Loop

/-! ## The routes that are kept -/

section Kept

variable [DecidableEq ι] {holding : PathMetrics ι → Bool} {p : PathMetrics ι}

/-- The routes of a list are told apart by their ids. -/
def DistinctIds (l : Paths ι) : Prop :=
  ∀ p ∈ l, ∀ q ∈ l, p.id = q.id → p = q

theorem mem_keepCarriers (l : Paths ι) :
    ∀ {chosen : Paths ι}, DistinctIds (chosen ++ l) →
      (p ∈ keepCarriers holding chosen l ↔
        p ∈ chosen ∨ (p ∈ l ∧ unsettledCarrier holding p = true)) := by
  induction l with
  | nil =>
    intro chosen _
    simp [keepCarriers]
  | cons path rest ih =>
    intro chosen hids
    unfold keepCarriers at ih ⊢
    rw [foldl_cons]
    by_cases hkeep : (unsettledCarrier holding path &&
        !chosen.any fun other => decide (other.id = path.id)) = true
    · rw [if_pos hkeep, ih (by simpa using hids)]
      rw [Bool.and_eq_true] at hkeep
      rw [mem_append, mem_singleton, mem_cons]
      constructor
      · rintro ((hin | rfl) | ⟨hin, hcarries⟩)
        · exact .inl hin
        · exact .inr ⟨.inl rfl, hkeep.1⟩
        · exact .inr ⟨.inr hin, hcarries⟩
      · rintro (hin | ⟨rfl | hin, hcarries⟩)
        · exact .inl (.inl hin)
        · exact .inl (.inr rfl)
        · exact .inr ⟨hin, hcarries⟩
    · have hids' : DistinctIds (chosen ++ rest) := by
        intro a ha b hb
        apply hids
        · rcases mem_append.1 ha with ha | ha <;> simp [ha]
        · rcases mem_append.1 hb with hb | hb <;> simp [hb]
      rw [if_neg hkeep, ih hids', mem_cons]
      constructor
      · rintro (hin | ⟨hin, hcarries⟩)
        · exact .inl hin
        · exact .inr ⟨.inr hin, hcarries⟩
      rintro (hin | ⟨rfl | hin, hcarries⟩)
      · exact .inl hin
      · -- It was passed over because a chosen route has its id, and that is the route itself.
        simp only [hcarries, Bool.true_and, Bool.not_eq_true', Bool.not_eq_false,
          any_eq_true, decide_eq_true_eq] at hkeep
        obtain ⟨other, hother, hid⟩ := hkeep
        have := hids other (by simp [hother]) p (by simp) hid
        exact .inl (this ▸ hother)
      · exact .inr ⟨hin, hcarries⟩

end Kept

/-! ## What does not depend on the order -/

section Order

variable {l l' : Paths ι}

theorem withinBudget_perm (h : l.Perm l') : withinBudget l = withinBudget l' := by
  have : RightCommutative (min : WithTop ℚ → WithTop ℚ → WithTop ℚ) :=
    ⟨fun a b c => min_right_comm a b c⟩
  have hfold := (h.map fun p => (deliveryDelay p : WithTop ℚ)).foldl_eq (f := min) ⊤
  funext path
  simp only [withinBudget, hfold]

theorem hasTwoServers_perm (h : l.Perm l') : HasTwoServers l ↔ HasTwoServers l' := by
  simp only [HasTwoServers, h.mem_iff]

end Order

/-! ## The preference for another server -/

section Preference

variable {paths : Paths ι} {holding : PathMetrics ι → Bool}
  {x s y p q : PathMetrics ι} {rest : Paths ι}

/-- The routes a decision ranks. -/
def pool (paths : Paths ι) : Paths ι := paths.filter isHealthy

theorem rankedPaths_perm (holding : PathMetrics ι → Bool) (paths : Paths ι) :
    (rankedPaths holding paths).Perm (pool paths) := rankBy_perm _ _

theorem exists_eq_pair {l : Paths ι} (hseveral : 2 ≤ (pool paths).length)
    (hperm : l.Perm (pool paths)) : ∃ x y rest, l = x :: y :: rest := by
  rw [← hperm.length_eq] at hseveral
  match l with
  | [] => simp at hseveral
  | [a] => simp at hseveral
  | a :: b :: rest => exact ⟨a, b, rest, rfl⟩

theorem latencyComparable_eq {l : Paths ι} (hperm : l.Perm (pool paths)) :
    latencyComparable holding l = decide (2 ≤ (pool paths).countP fun path =>
      withinBudget (pool paths) path || unsettledCarrier holding path) := by
  unfold latencyComparable
  rw [withinBudget_perm hperm, ← countP_eq_length_filter, hperm.countP_eq]

variable [DecidableEq ι] {strategy : Strategy}

/-- A route worth duplicating onto instead of one on the server of the best. -/
def alternative (paths : Paths ι) (best path : PathMetrics ι) : Bool :=
  path.id ≠ best.id && !best.sharesEndpoint path && withinBudget (pool paths) path && !path.degraded

theorem preferOtherServer_perm (l : Paths ι) : (preferOtherServer l).Perm l := by
  unfold preferOtherServer
  split
  next best second rest =>
    split_ifs with hshares
    · cases hother : otherServer (best :: second :: rest) best with
      | none => rfl
      | some backup =>
        have hfound := mem_of_find?_eq_some hother
        have hprop := find?_some hother
        have hin : backup ∈ second :: rest := by
          refine (mem_cons.1 hfound).resolve_left ?_
          rintro rfl
          simp at hprop
        exact (perm_cons_erase hin).symm.cons best
    · rfl
  · rfl

theorem candidates_perm (strategy : Strategy) (holding : PathMetrics ι → Bool)
    (paths : Paths ι) : (candidates strategy holding paths).Perm (pool paths) := by
  unfold candidates
  split_ifs
  · exact (preferOtherServer_perm _).trans (rankedPaths_perm _ _)
  · exact rankedPaths_perm _ _

/-- The candidates are the ranking, or the adaptive strategy found another server for the second. -/
theorem candidates_cases (strategy : Strategy)
    (hranked : rankedPaths holding paths = x :: s :: rest) :
    (candidates strategy holding paths = x :: s :: rest ∧
      (strategy = .adaptive → x.sharesEndpoint s = true →
        ∀ p ∈ pool paths, alternative paths x p = false)) ∨
    (strategy = .adaptive ∧ x.sharesEndpoint s = true ∧
      ∃ y, candidates strategy holding paths = x :: y :: (s :: rest).erase y ∧ y ∈ pool paths ∧
        alternative paths x y = true ∧
        ∀ p ∈ pool paths, alternative paths x p = true → p ≠ y →
          Precedes (rankedPaths holding paths) y p) := by
  have hperm : (x :: s :: rest).Perm (pool paths) := hranked ▸ rankedPaths_perm holding paths
  have hbudget := withinBudget_perm hperm
  unfold candidates
  by_cases hadaptive : strategy = .adaptive
  · rw [if_pos hadaptive, hranked]
    simp only [preferOtherServer]
    by_cases hshares : x.sharesEndpoint s = true
    · rw [if_pos hshares]
      cases hother : otherServer (x :: s :: rest) x with
      | none =>
        refine .inl ⟨rfl, ?_⟩
        intro _ _ p hp
        have := find?_eq_none.1 hother p (hperm.mem_iff.2 hp)
        rw [hbudget] at this
        simpa only [alternative, Bool.not_eq_true] using this
      | some y =>
        refine .inr ⟨hadaptive, hshares, y, rfl, ?_, ?_, ?_⟩
        · exact hperm.mem_iff.1 (mem_of_find?_eq_some hother)
        · have := find?_some hother
          rw [hbudget] at this
          exact this
        · intro p hp hprop hne
          apply precedes_of_find? hother (hperm.mem_iff.2 hp) _ hne
          rw [hbudget]
          exact hprop
    · rw [if_neg hshares]
      exact .inl ⟨rfl, fun _ h => absurd h hshares⟩
  · rw [if_neg hadaptive, hranked]
    exact .inl ⟨rfl, fun h => absurd h hadaptive⟩

theorem candidates_congr {later : PathMetrics ι → Bool} (strategy : Strategy)
    (h : ∀ p ∈ pool paths, holding p = later p) :
    candidates strategy holding paths = candidates strategy later paths := by
  have hranked : rankedPaths holding paths = rankedPaths later paths := by
    apply rankBy_congr
    intro p hp
    simp only [discounted, h p hp]
  simp only [candidates, hranked]

theorem precedes_candidates_iff (hseveral : 2 ≤ (pool paths).length)
    (hfirst : candidates strategy holding paths = x :: y :: rest) (hp : p ≠ y) (hq : q ≠ y) :
    Precedes (x :: y :: rest) p q ↔ Precedes (rankedPaths holding paths) p q := by
  obtain ⟨best, s, others, hranked⟩ := exists_eq_pair hseveral (rankedPaths_perm holding paths)
  rcases candidates_cases strategy hranked with ⟨heq, -⟩ | ⟨-, -, b, heq, -⟩
  · rw [← hfirst, heq, hranked]
  · rw [hfirst, List.cons.injEq] at heq
    obtain ⟨rfl, rfl, rfl⟩ := heq
    rw [hranked, precedes_cons_iff, precedes_cons_iff, precedes_cons_iff, mem_cons,
      precedes_erase_iff hp hq, mem_erase_of_ne hq]
    simp only [hp, hq, false_and, or_false, false_or]

/-- Routes on one server have the same alternatives. -/
theorem no_alternative_of_shares (hids : DistinctIds (pool paths)) (hx : x ∈ pool paths)
    (hshares : x.sharesEndpoint y = true)
    (hnone : ∀ p ∈ pool paths, alternative paths x p = false) :
    ∀ p ∈ pool paths, alternative paths y p = false := by
  intro p hp
  by_contra hprop
  simp only [alternative, Bool.not_eq_false, Bool.and_eq_true, Bool.not_eq_true',
    decide_eq_true_eq] at hprop
  obtain ⟨⟨⟨-, hapart⟩, hwithin⟩, hsound⟩ := hprop
  have hapart' : x.sharesEndpoint p = false := by
    by_contra hxp
    rw [Bool.not_eq_false] at hxp
    rw [sharesEndpoint_trans (sharesEndpoint_comm x y ▸ hshares) hxp] at hapart
    cases hapart
  have hne : p.id ≠ x.id := by
    intro hid
    obtain rfl := hids p hp x hx hid
    rw [sharesEndpoint_comm, hshares] at hapart
    cases hapart
  have := hnone p hp
  simp [alternative, hne, hapart', hwithin, hsound] at this

end Preference

/-! ## The routes that are duplicated onto -/

section Duplicated

variable [DecidableEq ι] {paths : Paths ι} {holding : PathMetrics ι → Bool}
  {x y p u v : PathMetrics ι} {rest : Paths ι}

theorem duplicated_of_not_twoServers (hnodup : (pool paths).Nodup)
    (hperm : (x :: y :: rest).Perm (pool paths)) (h : ¬ HasTwoServers (pool paths)) :
    duplicated holding (x :: y :: rest) = [x, y] := by
  have hcount : ¬ settledRoutesWanted ≤ settledPathCount (x :: y :: rest) := by
    rw [← hasTwoServers_perm hperm] at h
    exact mt (two_le_settledPathCount_iff (hperm.nodup_iff.2 hnodup)).1 h
  simp only [duplicated, hcount, decide_false, Bool.false_eq_true, if_false, chooseInOrder_pair,
    chooseInOrder_false]

/-- Where there are two settled servers, the loop in order chooses from the first two routes on, and
the unsettled routes that carry traffic stay. -/
theorem mem_duplicated (hnodup : (pool paths).Nodup) (hids : DistinctIds (pool paths))
    (hperm : (x :: y :: rest).Perm (pool paths)) (h : HasTwoServers (pool paths)) :
    p ∈ duplicated holding (x :: y :: rest) ↔
      p ∈ chooseInOrder true (withinBudget (pool paths)) [x, y] rest ∨
      (p ∈ pool paths ∧ unsettledCarrier holding p = true) := by
  have hcount : settledRoutesWanted ≤ settledPathCount (x :: y :: rest) := by
    rw [← hasTwoServers_perm hperm] at h
    exact (two_le_settledPathCount_iff (hperm.nodup_iff.2 hnodup)).2 h
  simp only [duplicated, hcount, decide_true, if_true, chooseInOrder_pair,
    withinBudget_perm hperm]
  have hin : ∀ q, q ∈ chooseInOrder true (withinBudget (pool paths)) [x, y] rest →
      q ∈ pool paths := by
    intro q hq
    apply hperm.mem_iff.1
    rcases mem_chooseInOrder _ rest (by simp) hq with hq | ⟨hq, -⟩
    · exact mem_append_left rest hq
    · exact mem_cons_of_mem _ (mem_cons_of_mem _ hq)
  rw [mem_keepCarriers, hperm.mem_iff]
  intro a ha b hb
  have hpool : ∀ q, q ∈ chooseInOrder true (withinBudget (pool paths)) [x, y] rest ++
      x :: y :: rest → q ∈ pool paths := by
    intro q hq
    rcases mem_append.1 hq with hq | hq
    · exact hin q hq
    · exact hperm.mem_iff.1 hq
  exact hids a (hpool a ha) b (hpool b hb)

section Independent

variable (hnodup : (pool paths).Nodup) (hids : DistinctIds (pool paths))
  (hperm : (x :: y :: rest).Perm (pool paths)) (hservers : HasTwoServers (pool paths))

include hnodup hids hperm hservers

theorem duplicated_cases (hp : p ∈ duplicated holding (x :: y :: rest)) :
    (p = x ∨ p = y) ∨ (withinBudget (pool paths) p = true ∧ p.isSettled = true) ∨
    unsettledCarrier holding p = true := by
  rcases (mem_duplicated hnodup hids hperm hservers).1 hp with hchosen | ⟨-, hcarries⟩
  · rcases mem_chooseInOrder _ rest (by simp) hchosen with hpair | ⟨-, hfacts⟩
    · exact .inl (by simpa using hpair)
    · exact .inr (.inl hfacts)
  · exact .inr (.inr hcarries)

/-- A settled route in budget that is not used stands after settled routes on two servers that
are. -/
theorem exists_twoServers_of_not_duplicated (hpool : p ∈ pool paths)
    (hwithin : withinBudget (pool paths) p = true) (hsettled : p.isSettled = true)
    (hp : p ∉ duplicated holding (x :: y :: rest)) :
    ∃ u v, TwoServers u v ∧ u ∈ duplicated holding (x :: y :: rest) ∧
      v ∈ duplicated holding (x :: y :: rest) ∧ Precedes (x :: y :: rest) u p ∧
      Precedes (x :: y :: rest) v p := by
  have hmem := fun q => @mem_duplicated ι _ paths holding x y q rest hnodup hids hperm hservers
  have hchosen : p ∉ chooseInOrder true (withinBudget (pool paths)) [x, y] rest :=
    fun h => hp ((hmem p).2 (.inl h))
  have hpair : p ∉ [x, y] := fun h => hchosen (subset_chooseInOrder _ rest (by simp) h)
  have hrest : p ∈ rest := (mem_append.1 (hperm.mem_iff.2 hpool)).resolve_left hpair
  obtain ⟨u, v, htwo, hu, hv, hbu, hbv⟩ := exists_twoServers_before _ rest hwithin hsettled
    (by simp) (hperm.nodup_iff.2 hnodup) hrest hchosen
  have hbefore : ∀ w, w ∈ [x, y] ∨ Precedes rest w p → Precedes (x :: y :: rest) w p := by
    rintro w (hw | hw)
    · rcases mem_cons.1 hw with rfl | hw
      · exact precedes_cons_iff.2 (.inr ⟨rfl, mem_cons_of_mem _ hrest⟩)
      · exact precedes_cons_iff.2 (.inl (precedes_cons_iff.2
          (.inr ⟨mem_singleton.1 hw, hrest⟩)))
    · exact precedes_cons_iff.2 (.inl (precedes_cons_iff.2 (.inl hw)))
  exact ⟨u, v, htwo, (hmem u).2 (.inl hu), (hmem v).2 (.inl hv), hbefore u hbu, hbefore v hbv⟩

/-- A settled route beyond the first two is not used after settled routes on two servers, each in
budget or of the first two. -/
theorem not_duplicated_of_twoServers (hsettled : p.isSettled = true) (hpair : ¬ (p = x ∨ p = y))
    (htwo : TwoServers u v) (hu : (u = x ∨ u = y) ∨
      (withinBudget (pool paths) u = true ∧ Precedes (x :: y :: rest) u p))
    (hv : (v = x ∨ v = y) ∨
      (withinBudget (pool paths) v = true ∧ Precedes (x :: y :: rest) v p)) :
    p ∉ duplicated holding (x :: y :: rest) := by
  intro hp
  have hchosen : p ∈ chooseInOrder true (withinBudget (pool paths)) [x, y] rest := by
    refine ((mem_duplicated hnodup hids hperm hservers).1 hp).resolve_right ?_
    rintro ⟨-, hcarries⟩
    simp [unsettledCarrier, hsettled] at hcarries
  have hlater : ∀ w, ((w = x ∨ w = y) ∨
        (withinBudget (pool paths) w = true ∧ Precedes (x :: y :: rest) w p)) →
      (w ∈ [x, y] ∨ (withinBudget (pool paths) w = true ∧ Precedes rest w p)) := by
    rintro w (hw | ⟨hwithin, hbefore⟩)
    · exact .inl (by simpa using hw)
    · rcases precedes_cons_iff.1 hbefore with hbefore | ⟨rfl, -⟩
      · rcases precedes_cons_iff.1 hbefore with hbefore | ⟨rfl, -⟩
        · exact .inr ⟨hwithin, hbefore⟩
        · exact .inl (by simp)
      · exact .inl (by simp)
  exact not_twoServers_before _ rest htwo (by simp) (hperm.nodup_iff.2 hnodup) hchosen
    (by simpa using hpair) (hlater u hu) (hlater v hv)

end Independent

theorem first_mem_duplicated (hnodup : (pool paths).Nodup) (hids : DistinctIds (pool paths))
    (hperm : (x :: y :: rest).Perm (pool paths)) (hp : p = x ∨ p = y) :
    p ∈ duplicated holding (x :: y :: rest) := by
  by_cases hservers : HasTwoServers (pool paths)
  · apply (mem_duplicated hnodup hids hperm hservers).2
    exact .inl (subset_chooseInOrder _ rest (by simp) (by simpa using hp))
  · rw [duplicated_of_not_twoServers hnodup hperm hservers]
    simpa using hp

theorem duplicated_subset (hnodup : (pool paths).Nodup) (hids : DistinctIds (pool paths))
    (hperm : (x :: y :: rest).Perm (pool paths)) (hp : p ∈ duplicated holding (x :: y :: rest)) :
    p ∈ pool paths := by
  by_cases hservers : HasTwoServers (pool paths)
  · rcases (mem_duplicated hnodup hids hperm hservers).1 hp with hchosen | ⟨hin, -⟩
    · apply hperm.mem_iff.1
      rcases mem_chooseInOrder _ rest (by simp) hchosen with hpair | ⟨hin, -⟩
      · exact mem_append_left rest hpair
      · exact mem_cons_of_mem _ (mem_cons_of_mem _ hin)
    · exact hin
  · rw [duplicated_of_not_twoServers hnodup hperm hservers] at hp
    exact hperm.mem_iff.1 (mem_append_left rest hp)

end Duplicated

end GamePath.Engine.Scheduler
