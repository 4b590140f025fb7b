import GamePath.Lib.Rotation
import GamePath.Relay.EndpointTable

/-!
# Which endpoints replies and repairs go to

`targets` and `repair_target` of `relay/src/endpoints.rs` prune the table and then choose. Replies
go to every live endpoint until a policy has been applied, to the selected ones after that, and to
the one heard from last where none is selected. Repairs rotate over the endpoints that a healthy
path brought a frame from a moment ago, the ones replies do not use before the others.

`targets_of_selected` and `repairTarget_eq` put both choices in terms of `Live`, `Fresh` and
`eligible`; `replies_and_repairs_stay_live` states them for every table a run of calls leads to.
-/

namespace GamePath.Relay

open Lib List Endpoint Engine

/-! ## Live and fresh endpoints -/

/-- The endpoint was seen within `TTL`. -/
def Endpoint.Live (now : Instant) (entry : Endpoint) : Prop := now - entry.seen ≤ ttl

/-- The endpoint has a policy, is healthy and was seen within `REPAIR_FRESHNESS`. -/
def Endpoint.Fresh (now : Instant) (entry : Endpoint) : Prop :=
  entry.policy.isSome = true ∧ entry.healthy = true ∧ now - entry.seen ≤ repairFreshness

instance (now : Instant) (entry : Endpoint) : Decidable (entry.Live now) :=
  inferInstanceAs (Decidable (_ ≤ _))

instance (now : Instant) (entry : Endpoint) : Decidable (entry.Fresh now) :=
  inferInstanceAs (Decidable (_ ∧ _))

deriving instance DecidableEq for Endpoint

theorem Endpoint.Fresh.live {now : Instant} {entry : Endpoint} (h : entry.Fresh now) :
    entry.Live now := by
  have hle : repairFreshness ≤ ttl := by decide
  exact le_trans h.2.2 hle

namespace Endpoints

/-- Some fresh endpoint is not selected. -/
def HasSpare (e : Endpoints) (now : Instant) : Prop :=
  ∃ entry ∈ e.entries, entry.Fresh now ∧ entry.selected = false

instance (e : Endpoints) (now : Instant) : Decidable (e.HasSpare now) :=
  inferInstanceAs (Decidable (∃ entry ∈ e.entries, _))

/-- The endpoints repairs rotate over: the fresh ones, without the selected ones if others are
there. -/
def eligible (e : Endpoints) (now : Instant) : List Endpoint :=
  e.entries.filter fun entry =>
    decide (entry.Fresh now ∧ (e.HasSpare now → entry.selected = false))

section Choices

variable {e : Endpoints} {now t : Instant} {entry : Endpoint}

theorem mem_prune : entry ∈ (e.prune now).entries ↔ entry ∈ e.entries ∧ entry.Live now := by
  show entry ∈ e.entries.filter _ ↔ _
  rw [mem_filter, decide_eq_true_iff]
  exact Iff.rfl

/-- Who may get a repair: a fresh endpoint, the selected one only if no other is. -/
theorem mem_eligible : entry ∈ e.eligible now ↔
    entry ∈ e.entries ∧ entry.Fresh now ∧ (e.HasSpare now → entry.selected = false) := by
  show entry ∈ e.entries.filter _ ↔ _
  rw [mem_filter, decide_eq_true_iff]

theorem exists_mem_eligible (h : ∃ entry ∈ e.entries, entry.Fresh now) :
    ∃ entry, entry ∈ e.eligible now := by
  by_cases hspare : e.HasSpare now
  · obtain ⟨entry, hentry, hfresh, hselected⟩ := hspare
    exact ⟨entry, mem_eligible.2 ⟨hentry, hfresh, fun _ => hselected⟩⟩
  · obtain ⟨entry, hentry, hfresh⟩ := h
    exact ⟨entry, mem_eligible.2 ⟨hentry, hfresh, fun h => absurd h hspare⟩⟩

/-- Pruning first changes nothing as long as it keeps the eligible ones. -/
theorem eligible_prune (h : ∀ entry ∈ e.eligible now, entry.Live t) :
    (e.prune t).eligible now = e.eligible now := by
  have hspare : (e.prune t).HasSpare now ↔ e.HasSpare now := by
    constructor
    · rintro ⟨entry, hentry, hentry'⟩
      exact ⟨entry, (mem_prune.1 hentry).1, hentry'⟩
    · rintro ⟨entry, hentry, hfresh, hselected⟩
      have hmem : entry ∈ e.eligible now := mem_eligible.2 ⟨hentry, hfresh, fun _ => hselected⟩
      exact ⟨entry, mem_prune.2 ⟨hentry, h entry hmem⟩, hfresh, hselected⟩
  show (e.entries.filter _).filter _ = e.entries.filter _
  rw [filter_filter]
  apply filter_congr
  intro entry hentry
  rw [Bool.eq_iff_iff, Bool.and_eq_true, decide_eq_true_iff, decide_eq_true_iff,
    decide_eq_true_iff, hspare]
  constructor
  · exact fun hboth => hboth.1
  · exact fun hfresh => ⟨hfresh, h entry (mem_eligible.2 ⟨hentry, hfresh⟩)⟩

theorem eligible_prune_self : (e.prune now).eligible now = e.eligible now :=
  eligible_prune fun _ hentry => (mem_eligible.1 hentry).2.1.live

/-! ## The endpoint heard from last -/

/-- The fold keeps the newest so far. -/
theorem newest_foldl_spec (best : Endpoint) (entries : List Endpoint) :
    ∃ entry, entries.foldl (fun best entry => match best with
        | some best => if best.seen ≤ entry.seen then some entry else some best
        | none => some entry) (some best) = some entry ∧
      (entry = best ∨ entry ∈ entries) ∧ best.seen ≤ entry.seen ∧
      ∀ other ∈ entries, other.seen ≤ entry.seen := by
  induction entries generalizing best with
  | nil => exact ⟨best, rfl, .inl rfl, le_rfl, nofun⟩
  | cons first entries ih =>
    rw [foldl_cons]
    by_cases hle : best.seen ≤ first.seen
    · obtain ⟨entry, hentry, hmem, hbest, hrest⟩ := ih first
      refine ⟨entry, ?_, .inr ?_, le_trans hle hbest, ?_⟩
      · simpa only [if_pos hle] using hentry
      · rcases hmem with rfl | hmem
        · exact mem_cons_self
        · exact mem_cons_of_mem _ hmem
      · exact forall_mem_cons.2 ⟨hbest, hrest⟩
    · obtain ⟨entry, hentry, hmem, hbest, hrest⟩ := ih best
      refine ⟨entry, ?_, hmem.imp id (mem_cons_of_mem _), hbest, ?_⟩
      · simpa only [if_neg hle] using hentry
      · exact forall_mem_cons.2 ⟨le_trans (not_le.1 hle).le hbest, hrest⟩

theorem newest_spec {entries : List Endpoint} (h : entries ≠ []) :
    ∃ entry ∈ entries, newest entries = some entry ∧ ∀ other ∈ entries,
      other.seen ≤ entry.seen := by
  cases entries with
  | nil => exact absurd rfl h
  | cons first entries =>
    obtain ⟨entry, hentry, hmem, hfirst, hrest⟩ := newest_foldl_spec first entries
    refine ⟨entry, ?_, hentry, forall_mem_cons.2 ⟨hfirst, hrest⟩⟩
    rcases hmem with rfl | hmem
    · exact mem_cons_self
    · exact mem_cons_of_mem _ hmem

/-! ## Replies -/

theorem targets_of_not_selective (h : e.selective = false) :
    (e.prune now).targets = (e.prune now).entries.map address := by
  have hpruned : (e.prune now).selective = false := h
  unfold targets
  simp only [hpruned, Bool.not_false, Bool.true_or, filter_true]
  split
  · rfl
  next hnone =>
    -- a table with an entry in it has one that `any` finds
    have hempty : (e.prune now).entries = [] := by
      apply eq_nil_iff_forall_not_mem.2
      intro entry hentry
      exact hnone (any_eq_true.2 ⟨entry, hentry, rfl⟩)
    rw [hempty]
    rfl

theorem targets_of_selected (h : e.selective = true)
    (hselected : ∃ entry ∈ (e.prune now).entries, entry.selected = true) :
    (e.prune now).targets =
      ((e.prune now).entries.filter selected).map address := by
  have hpruned : (e.prune now).selective = true := h
  have hany : ((e.prune now).entries.any selected) = true := any_eq_true.2 hselected
  unfold targets
  simp only [hpruned, Bool.not_true, Bool.false_or]
  rw [if_pos hany]

/-- With nobody selected the newest live endpoint is answered. -/
theorem targets_of_none_selected (haddresses : (e.entries.map address).Nodup)
    (h : e.selective = true) (hselected : ¬ ∃ entry ∈ (e.prune now).entries, entry.selected = true)
    (hlive : (e.prune now).entries ≠ []) :
    ∃ entry ∈ (e.prune now).entries, (e.prune now).targets = [entry.address] ∧
      ∀ other ∈ (e.prune now).entries, other.seen ≤ entry.seen := by
  have hpruned : (e.prune now).selective = true := h
  have hany : ¬ ((e.prune now).entries.any selected) = true := fun h =>
    hselected (any_eq_true.1 h)
  have hnodup : ((e.prune now).entries.map address).Nodup :=
    (filter_sublist.map address).nodup haddresses
  obtain ⟨entry, hentry, hnewest, hlast⟩ := newest_spec hlive
  refine ⟨entry, hentry, ?_, hlast⟩
  unfold targets
  simp only [hpruned, Bool.not_true, Bool.false_or]
  rw [if_neg hany, hnewest, Option.map_some]
  simp only [Option.some.injEq]
  -- addresses are unique, so the fallback address is that of one entry
  have hone : ((e.prune now).entries.map address).filter
      (fun address => decide (address = entry.address)) = [entry.address] := by
    have hmem : entry.address ∈ (e.prune now).entries.map address :=
      mem_map_of_mem hentry
    rw [filter_eq, hnodup.count, if_pos hmem]
    rfl
  rw [← hone, filter_map]
  rfl

/-- Nobody is answered only if nobody is live. -/
theorem targets_eq_nil_iff (haddresses : (e.entries.map address).Nodup) :
    (e.prune now).targets = [] ↔ ¬ ∃ entry ∈ e.entries, entry.Live now := by
  have hempty : (e.prune now).entries = [] ↔ ¬ ∃ entry ∈ e.entries, entry.Live now := by
    rw [eq_nil_iff_forall_not_mem]
    constructor
    · rintro h ⟨entry, hentry⟩
      exact h entry (mem_prune.2 hentry)
    · intro h entry hentry
      exact h ⟨entry, mem_prune.1 hentry⟩
  rw [← hempty]
  constructor
  · intro h
    by_contra hlive
    cases hselective : e.selective with
    | false =>
      rw [targets_of_not_selective hselective, map_eq_nil_iff] at h
      exact hlive h
    | true =>
      by_cases hselected : ∃ entry ∈ (e.prune now).entries, entry.selected = true
      · rw [targets_of_selected hselective hselected, map_eq_nil_iff] at h
        obtain ⟨entry, hentry, hentry'⟩ := hselected
        have hin := mem_filter.2 ⟨hentry, hentry'⟩
        rw [h] at hin
        exact absurd hin not_mem_nil
      · obtain ⟨entry, -, hone, -⟩ :=
          targets_of_none_selected haddresses hselective hselected hlive
        rw [hone] at h
        cases h
  · intro h
    apply eq_nil_iff_forall_not_mem.2
    intro a ha
    obtain ⟨entry, hentry, -⟩ := exists_mem_of_mem_targets ha
    rw [h] at hentry
    exact absurd hentry not_mem_nil

/-! ## Repairs -/

/-- Repairs go round the eligible endpoints by the turn. -/
theorem repairTarget_eq (h : e.selective = true) (turn : UInt64) :
    e.repairTarget now turn =
      if (e.eligible now).isEmpty then e.targets.head?
      else ((e.eligible now)[turn.toNat % (e.eligible now).length]?).map address := by
  have hspare : ((e.entries.filter fun entry => entry.healthy &&
      decide (now - entry.seen ≤ repairFreshness) && entry.policy.isSome).any fun entry =>
        entry.policy.isSome && !entry.selected) = decide (e.HasSpare now) := by
    rw [Bool.eq_iff_iff, any_eq_true, decide_eq_true_iff]
    constructor
    · rintro ⟨entry, hentry, hspare⟩
      obtain ⟨hin, hfresh⟩ := mem_filter.1 hentry
      simp only [Bool.and_eq_true, decide_eq_true_iff, Bool.not_eq_true'] at hfresh hspare
      exact ⟨entry, hin, ⟨hfresh.2, hfresh.1.1, hfresh.1.2⟩, hspare.2⟩
    · rintro ⟨entry, hin, hfresh, hselected⟩
      refine ⟨entry, mem_filter.2 ⟨hin, ?_⟩, ?_⟩
      · simp only [hfresh.2.1, decide_eq_true hfresh.2.2, hfresh.1, Bool.and_self]
      · simp only [hfresh.1, hselected, Bool.not_false, Bool.and_self]
  have heligible : (e.entries.filter fun entry => (entry.healthy &&
      decide (now - entry.seen ≤ repairFreshness) && entry.policy.isSome) &&
        (!decide (e.HasSpare now) || (entry.policy.isSome && !entry.selected))) =
      e.eligible now := by
    apply filter_congr
    intro entry _
    rw [Bool.eq_iff_iff, decide_eq_true_iff]
    simp only [Bool.and_eq_true, Bool.or_eq_true, Bool.not_eq_true', decide_eq_true_iff,
      decide_eq_false_iff_not, Fresh]
    tauto
  unfold repairTarget
  rw [if_pos h]
  simp only [hspare, heligible]

theorem repairTarget_eligible (h : e.selective = true)
    (heligible : ∃ entry, entry ∈ e.eligible now) (turn : UInt64) :
    (e.prune now).repairTarget now turn =
      ((e.eligible now)[turn.toNat % (e.eligible now).length]?).map address := by
  have hpruned : (e.prune now).selective = true := h
  have hsome : (e.eligible now).isEmpty = false := by
    obtain ⟨entry, hentry⟩ := heligible
    rw [isEmpty_eq_false_iff]
    exact ne_nil_of_mem hentry
  rw [repairTarget_eq hpruned, eligible_prune_self, hsome]
  rfl

theorem exists_repairTarget (h : e.selective = true)
    (heligible : ∃ entry, entry ∈ e.eligible now) (turn : UInt64) :
    ∃ entry ∈ e.eligible now, (e.prune now).repairTarget now turn = some entry.address := by
  have hpos : 0 < (e.eligible now).length := length_pos_of_mem heligible.choose_spec
  have hlt : turn.toNat % (e.eligible now).length < (e.eligible now).length := Nat.mod_lt _ hpos
  refine ⟨(e.eligible now)[turn.toNat % (e.eligible now).length], getElem_mem hlt, ?_⟩
  rw [repairTarget_eligible h heligible, getElem?_eq_getElem hlt, Option.map_some]

theorem live_of_repairTarget {turn : UInt64} {a : SocketAddr}
    (h : (e.prune now).repairTarget now turn = some a) :
    ∃ entry ∈ e.entries, entry.Live now ∧ entry.address = a := by
  obtain ⟨entry, hentry, haddress⟩ := exists_mem_of_repairTarget h
  obtain ⟨hin, hlive⟩ := mem_prune.1 hentry
  exact ⟨entry, hin, hlive, haddress⟩

end Choices

/-! ## Runs of repairs -/

/-- What `repair_target` answers over a run of calls, each pruning the table the next one sees. -/
def repairs (e : Endpoints) : List (Instant × UInt64) → List (Option SocketAddr)
  | [] => []
  | (now, turn) :: turns =>
    (e.prune now).repairTarget now turn :: repairs (e.call (.repairTarget now turn)) turns

/-- Each turn is one more than the turn before it. -/
def Consecutive (turns : List UInt64) : Prop :=
  turns.IsChain fun turn next => next.toNat = turn.toNat + 1

theorem Consecutive.toNat_eq {first : UInt64} {turns : List UInt64}
    (h : Consecutive (first :: turns)) :
    (first :: turns).map UInt64.toNat = List.range' first.toNat (turns.length + 1) := by
  induction turns generalizing first with
  | nil => rfl
  | cons next turns ih =>
    obtain ⟨hnext, hrest⟩ := isChain_cons_cons.1 h
    rw [map_cons, ih hrest, hnext]
    exact range'_succ.symm

section Rotation

variable {entries : List Endpoint} {turns : List (Instant × UInt64)}

/-- Repairs of consecutive turns, as long as the same endpoints are eligible. -/
theorem repairs_eq {e : Endpoints} (h : e.selective = true) (hsome : entries ≠ [])
    (heligible : ∀ turn ∈ turns, e.eligible turn.1 = entries) :
    e.repairs turns = turns.map fun turn =>
      (entries[turn.2.toNat % entries.length]?).map address := by
  induction turns generalizing e with
  | nil => rfl
  | cons turn turns ih =>
    have hturn : e.eligible turn.1 = entries := heligible turn mem_cons_self
    obtain ⟨entry, hentry⟩ := exists_mem_of_ne_nil entries hsome
    -- the endpoints repairs rotate over are live, so a call leaves them in the table
    have hlive : ∀ other ∈ entries, other.Live turn.1 := by
      intro other hother
      rw [← hturn] at hother
      exact (mem_eligible.1 hother).2.1.live
    have hrest : (e.prune turn.1).repairs turns = turns.map fun turn =>
        (entries[turn.2.toNat % entries.length]?).map address := by
      have hselective : (e.prune turn.1).selective = true := h
      apply ih hselective
      intro next hnext
      have hnext' : e.eligible next.1 = entries := heligible next (mem_cons_of_mem _ hnext)
      rw [eligible_prune, hnext']
      rw [hnext']
      exact hlive
    show (e.prune turn.1).repairTarget turn.1 turn.2 :: (e.prune turn.1).repairs turns = _
    rw [hrest, repairTarget_eligible h ⟨entry, hturn.symm ▸ hentry⟩, hturn, map_cons]

/-- A round of repairs reaches each eligible endpoint once. -/
theorem perm_repairs {e : Endpoints} (h : e.selective = true)
    (heligible : ∀ turn ∈ turns, e.eligible turn.1 = entries)
    (hturns : Consecutive (turns.map Prod.snd)) (hlength : turns.length = entries.length) :
    (e.repairs turns).Perm (entries.map fun entry => some entry.address) := by
  cases turns with
  | nil =>
    rw [length_eq_zero_iff.1 hlength.symm]
    exact List.Perm.nil
  | cons turn turns =>
    have hsome : entries ≠ [] := by
      rintro rfl
      cases hlength
    have hnumbers := hturns.toNat_eq
    rw [length_map, ← length_cons (a := turn), hlength] at hnumbers
    have hrotation := (Rotation.perm_rotation entries turn.2.toNat).map
      (Option.map address)
    rw [← hnumbers, ← map_cons (f := Prod.snd), map_map, map_map, map_map,
      map_map] at hrotation
    rw [repairs_eq h hsome heligible]
    exact hrotation

end Rotation

/-! ## Every table of a run -/

/-- An entry has a policy only in a selective table. -/
def Announced (e : Endpoints) : Prop :=
  ∀ entry ∈ e.entries, entry.policy.isSome = true → e.selective = true

variable {e : Endpoints}

theorem Announced.prune (h : e.Announced) (now : Instant) :
    (e.prune now).Announced :=
  fun entry hentry hpolicy => h entry (mem_prune.1 hentry).1 hpolicy

theorem Announced.observe (h : e.Announced) (address : SocketAddr)
    (now : Instant) : (e.observe address now).Announced := by
  intro entry hentry hpolicy
  rw [observe_selective]
  rcases observe_cases e address now with ⟨-, heq⟩ | ⟨-, heq⟩
  · rw [heq] at hentry
    rcases mem_or_of_mem_update hentry with hold | ⟨old, hold, rfl⟩
    · exact h.prune now entry hold hpolicy
    · exact h.prune now old hold hpolicy
  · rw [heq] at hentry
    rcases mem_append.1 hentry with hold | hnew
    · exact h.prune now entry (mem_of_mem_makeRoom hold) hpolicy
    · rw [mem_singleton.1 hnew] at hpolicy
      cases hpolicy

theorem Announced.call (h : e.Announced) (c : Call) : (e.call c).Announced := by
  cases c with
  | observe address now => exact h.observe address now
  | apply address policy healthy sequence now =>
    rcases apply_cases e address policy healthy sequence now with ⟨-, heq⟩ | ⟨-, heq⟩
    · show (e.apply address policy healthy sequence now).Announced
      rw [heq]
      exact h
    · intro entry _ _
      show (e.apply address policy healthy sequence now).selective = true
      rw [heq]
      exact observe_selective _ _ _
  | targets now | repairTarget now => exact h.prune now

/-- The invariant over a run of calls. -/
theorem announced_run (h : e.Announced) (calls : List Call) :
    (e.run calls).Announced := by
  induction calls generalizing e with
  | nil => exact h
  | cons c calls ih => exact ih (h.call c)

theorem announced_default : default.Announced := nofun

theorem nodup_targets (h : (e.entries.map address).Nodup) :
    e.targets.Nodup := by
  unfold targets
  dsimp only
  split <;> exact (filter_sublist.map address).nodup h

/-- In every table a run of calls leads to: replies have somewhere to go exactly while an endpoint
is live; they go to every live endpoint, to the selected ones, or to the one heard from last, each
once. A repair goes to a fresh endpoint if there is one, to a spare one if there is one, and never
to one that is not live; consecutive turns take each eligible endpoint once. -/
theorem replies_and_repairs_stay_live (calls : List Call) (now : Instant) :
    let e := default.run calls
    ((e.prune now).targets = [] ↔ ¬ ∃ entry ∈ e.entries, entry.Live now) ∧
    (e.prune now).targets.Nodup ∧
    (e.selective = false → ∀ a, a ∈ (e.prune now).targets ↔
      ∃ entry ∈ e.entries, entry.Live now ∧ entry.address = a) ∧
    (e.selective = true → (∃ entry ∈ e.entries, entry.Live now ∧ entry.selected = true) →
      ∀ a, a ∈ (e.prune now).targets ↔
        ∃ entry ∈ e.entries, entry.Live now ∧ entry.selected = true ∧ entry.address = a) ∧
    (e.selective = true → (¬ ∃ entry ∈ e.entries, entry.Live now ∧ entry.selected = true) →
      (∃ entry ∈ e.entries, entry.Live now) →
        ∃ entry ∈ e.entries, entry.Live now ∧ (e.prune now).targets = [entry.address] ∧
          ∀ other ∈ e.entries, other.Live now → other.seen ≤ entry.seen) ∧
    (∀ turn, (∃ entry ∈ e.entries, entry.Live now ∧ entry.Fresh now) →
      ∃ entry ∈ e.entries, entry.Live now ∧ entry.Fresh now ∧
        (e.prune now).repairTarget now turn = some entry.address ∧
        ((∃ spare ∈ e.entries, spare.Fresh now ∧ spare.selected = false) →
          entry.selected = false)) ∧
    (∀ (turns : List (Instant × UInt64)) (entries : List Endpoint),
      (∀ turn ∈ turns, e.eligible turn.1 = entries) → Consecutive (turns.map Prod.snd) →
        turns.length = entries.length →
          (e.repairs turns).Perm (entries.map fun entry => some entry.address) ∧
          (e.repairs turns).Nodup) ∧
    ∀ turn a, (e.prune now).repairTarget now turn = some a →
      ∃ entry ∈ e.entries, entry.Live now ∧ entry.address = a := by
  intro e
  have hwell : e.WellFormed := wellFormed_run wellFormed_default calls
  have hannounced : e.Announced := announced_run announced_default calls
  refine ⟨targets_eq_nil_iff hwell.addresses, nodup_targets (hwell.prune now).addresses, ?_, ?_, ?_,
    ?_, ?_, fun turn a h => live_of_repairTarget h⟩
  · intro hselective a
    rw [targets_of_not_selective hselective, List.mem_map]
    simp only [mem_prune, and_assoc]
  · rintro hselective ⟨entry, hentry, hlive, hselected⟩ a
    rw [targets_of_selected hselective ⟨entry, mem_prune.2 ⟨hentry, hlive⟩, hselected⟩,
      List.mem_map]
    simp only [List.mem_filter, mem_prune, and_assoc]
  · rintro hselective hnone ⟨live, hin, hlive⟩
    have hnone' : ¬ ∃ entry ∈ (e.prune now).entries, entry.selected = true := by
      rintro ⟨entry, hentry, hselected⟩
      obtain ⟨hin, hlive⟩ := mem_prune.1 hentry
      exact hnone ⟨entry, hin, hlive, hselected⟩
    obtain ⟨entry, hentry, hone, hlast⟩ :=
      targets_of_none_selected hwell.addresses hselective hnone'
      (List.ne_nil_of_mem (mem_prune.2 ⟨hin, hlive⟩))
    obtain ⟨hin, hlive⟩ := mem_prune.1 hentry
    exact ⟨entry, hin, hlive, hone, fun other hother hlive => hlast other
      (mem_prune.2 ⟨hother, hlive⟩)⟩
  · rintro turn ⟨entry, hentry, -, hfresh⟩
    have hselective := hannounced entry hentry hfresh.1
    obtain ⟨chosen, hchosen, hanswer⟩ :=
      exists_repairTarget hselective (exists_mem_eligible ⟨entry, hentry, hfresh⟩) turn
    obtain ⟨hin, hfresh, hspare⟩ := mem_eligible.1 hchosen
    exact ⟨chosen, hin, hfresh.live, hfresh, hanswer, hspare⟩
  · intro turns entries heligible hturns hlength
    have hperm : (e.repairs turns).Perm (entries.map fun entry => some entry.address) := by
      cases turns with
      | nil =>
        rw [List.length_eq_zero_iff.1 hlength.symm]
        exact List.Perm.nil
      | cons turn turns =>
        have hfirst := heligible turn List.mem_cons_self
        obtain ⟨entry, hentry⟩ : ∃ entry, entry ∈ entries :=
          List.exists_mem_of_length_pos (hlength ▸ Nat.succ_pos _)
        rw [← hfirst] at hentry
        obtain ⟨hin, hfresh, -⟩ := mem_eligible.1 hentry
        exact perm_repairs (hannounced entry hin hfresh.1) heligible hturns hlength
    refine ⟨hperm, ?_⟩
    cases turns with
    | nil => exact List.nodup_nil
    | cons turn turns =>
      apply hperm.nodup_iff.2
      have hsub : entries.Sublist e.entries := by
        rw [← heligible turn List.mem_cons_self]
        exact List.filter_sublist
      have haddresses := (hsub.map address).nodup hwell.addresses
      have hsome := haddresses.map (Option.some_injective SocketAddr)
      rw [List.map_map] at hsome
      exact hsome

/-- One selected path and two spare ones: repairs alternate between the spare ones. -/
theorem replies_and_repairs_stay_live_alternating :
    let address (port : UInt16) : SocketAddr := .v4 (192, 0, 2, 1) port
    let e := default.run
      [.apply (address 1000) ⟨0, true⟩ true 1 0, .apply (address 2000) ⟨1, false⟩ true 2 0,
        .apply (address 3000) ⟨2, false⟩ true 3 0, .targets 1]
    (e.repairs [(1, 7), (2, 8)]).Perm [some (address 2000), some (address 3000)] ∧
      (e.repairs [(1, 7), (2, 8)]).Nodup := by
  intro address e
  apply (replies_and_repairs_stay_live
    [.apply (address 1000) ⟨0, true⟩ true 1 0, .apply (address 2000) ⟨1, false⟩ true 2 0,
      .apply (address 3000) ⟨2, false⟩ true 3 0, .targets 1] 1).2.2.2.2.2.2.1 [(1, 7), (2, 8)]
    [⟨address 2000, 0, some ⟨1, false⟩, true⟩, ⟨address 3000, 0, some ⟨2, false⟩, true⟩]
  · intro turn hturn
    rcases List.mem_pair.1 hturn with rfl | rfl <;> decide +kernel
  · exact List.isChain_pair.2 rfl
  · rfl

end Endpoints

end GamePath.Relay
