import GamePath.Engine.FecRepair

/-!
# The decoder only knows what was sent

`Faithful known d`: every packet the decoder keeps is a known one and every repair it holds back
stands for known packets. The decoder's operations keep that, and whatever they rebuild is known
too. `known` is a parameter: for the client's ingress it will be the relay's own data frames.
-/

namespace GamePath.Engine.Fec

open List Decoder Repair

/-- A set of sent packets, at most one for each sequence. -/
structure Stream where
  known : Sent → Prop
  unique : ∀ m p q, known (m, p) → known (m, q) → p = q

/-- A repair that stands for known packets. -/
def Stream.Backs (stream : Stream) (repair : Repair) : Prop :=
  ∃ group, Genuine repair group ∧ ∀ sent ∈ group, stream.known sent

/-- Everything the decoder keeps is known. -/
structure Faithful (stream : Stream) (d : Decoder) : Prop where
  stored : ∀ m p, d.stored m = some p → stream.known (m, p)
  pending : ∀ repair ∈ d.pending, stream.Backs repair

variable {stream : Stream}

theorem faithful_default : Faithful stream default where
  stored := nofun
  pending := nofun

/-! ## Storing -/

variable {d : Decoder}

theorem stored_eq_some {m : UInt64} {p : Bytes} (h : d.stored m = some p) :
    d.recent[slotOf m]? = some (m, p) := by
  unfold stored at h
  split at h
  · rename_i stored packet hslot
    split at h
    · rename_i hcond
      rw [hslot, hcond.1, Option.some.inj h]
    · cases h
  · cases h

theorem getElem?_of_padded {recent : List (UInt64 × Bytes)} {i n : Nat} {m : UInt64} {p : Bytes}
    (h : (if recent.isEmpty then List.replicate n (0, []) else recent)[i]? = some (m, p))
    (hne : p ≠ []) : recent[i]? = some (m, p) := by
  split at h
  · have hmem := mem_of_getElem? h
    rw [mem_replicate] at hmem
    exact absurd (congrArg Prod.snd hmem.2) hne
  · exact h

theorem ne_nil_of_stored {m : UInt64} {p : Bytes} (h : d.stored m = some p) :
    p ≠ [] := by
  intro hnil
  have hslot := stored_eq_some h
  unfold stored at h
  rw [hslot, hnil] at h
  exact absurd h (by simp)

/-- A slot holds after `remember` what it held before, or the packet that was remembered. -/
theorem stored_remember {sequence m : UInt64} {packet p : Bytes}
    (h : (d.remember sequence packet).stored m = some p) :
    d.stored m = some p ∨ (m = sequence ∧ p = packet) := by
  have hne := ne_nil_of_stored h
  have hslot := stored_eq_some h
  cases hstoring : d.storing with
  | false =>
    rw [remember, hstoring] at h
    exact .inl h
  | true =>
    rw [remember, hstoring] at hslot
    generalize hrecent : (if d.recent.isEmpty then List.replicate recentCapacity (0, [])
      else d.recent) = recent at hslot
    have hslot' : (recent.set (slotOf sequence) (sequence, packet))[slotOf m]? = some (m, p) :=
      hslot
    rw [getElem?_set] at hslot'
    by_cases hsame : slotOf sequence = slotOf m
    · rw [if_pos hsame] at hslot'
      split at hslot'
      · cases hslot'
        exact .inr ⟨rfl, rfl⟩
      · cases hslot'
    · rw [if_neg hsame, ← hrecent] at hslot'
      exact .inl (stored_of_holds (getElem?_of_padded hslot' hne) hne)

@[simp] theorem pending_remember (d : Decoder) (sequence : UInt64) (packet : Bytes) :
    (d.remember sequence packet).pending = d.pending := by
  unfold remember
  split <;> rfl

theorem faithful_remember (h : Faithful stream d) {sequence : UInt64} {packet : Bytes}
    (hknown : stream.known (sequence, packet)) :
    Faithful stream (d.remember sequence packet) where
  stored := by
    intro m p hstored
    rcases stored_remember hstored with hold | ⟨rfl, rfl⟩
    · exact h.stored m p hold
    · exact hknown
  pending := by
    intro repair hmem
    rw [pending_remember] at hmem
    exact h.pending repair hmem

/-! ## Rebuilding -/

theorem stored_of_xorOut (members : List UInt64) :
    ∀ parity result : Bytes, d.xorOut members parity = some result →
      ∀ m ∈ members, ∃ p, d.stored m = some p := by
  induction members with
  | nil => exact nofun
  | cons member members ih =>
    intro parity result h m hm
    rw [xorOut] at h
    cases hstored : d.stored member with
    | none =>
      rw [hstored] at h
      cases h
    | some packet =>
      rw [hstored] at h
      dsimp only at h
      split at h
      · cases h
      · rcases mem_cons.1 hm with rfl | hm
        · exact ⟨packet, hstored⟩
        · exact ih _ result h m hm

variable {repair : Repair}

theorem known_of_rebuild (h : Faithful stream d) (hbacks : stream.Backs repair) {lost : UInt64}
    (hlost : lost ∈ repair.members) {packet : Bytes}
    (hrebuild : d.rebuild repair lost = some packet) :
    stream.known (lost, packet) := by
  obtain ⟨group, hgenuine, hknown⟩ := hbacks
  rw [hgenuine.members] at hlost
  obtain ⟨sent, hsent, rfl⟩ := mem_map.1 hlost
  -- The parity could only be undone because every other member was stored.
  have hstored : ∀ s ∈ group, s.1 ≠ sent.1 → d.stored s.1 = some s.2 := by
    intro s hs hne
    obtain ⟨result, hxor, -⟩ := Option.bind_eq_some_iff.1 hrebuild
    have hmember : s.1 ∈ repair.members.filter fun member => decide (member ≠ sent.1) := by
      rw [hgenuine.members]
      exact mem_filter.2 ⟨mem_map.2 ⟨s, hs, rfl⟩, decide_eq_true hne⟩
    obtain ⟨p, hp⟩ := stored_of_xorOut _ _ result hxor s.1 hmember
    rw [hp, stream.unique s.1 p s.2 (h.stored s.1 p hp) (hknown s hs)]
  rw [rebuild_of_stored hgenuine hsent hstored, Option.some.injEq] at hrebuild
  rw [← hrebuild]
  exact hknown sent hsent

/-! ## Repairs -/

variable {delivered : UInt64 → Bool}

theorem mem_members_of_lost {lost : UInt64} {rest : List UInt64}
    (h : repair.lost delivered = lost :: rest) :
    lost ∈ repair.members ∧ delivered lost = false := by
  have hmem : lost ∈ repair.lost delivered := by
    rw [h]
    exact mem_cons_self
  obtain ⟨hin, hnot⟩ := mem_filter.1 hmem
  exact ⟨hin, by simpa using hnot⟩

theorem mem_postpone {repair r : Repair} (h : r ∈ (d.postpone repair).pending) :
    r ∈ d.pending ∨ r = repair := by
  unfold postpone at h
  split at h
  · rcases mem_snoc.1 h with hr | hr
    · exact .inl (mem_of_mem_drop hr)
    · exact .inr hr
  · rcases mem_snoc.1 h with hr | hr
    · exact .inl hr
    · exact .inr hr

theorem stored_postpone (d : Decoder) (repair : Repair) (m : UInt64) :
    (d.postpone repair).stored m = d.stored m := by
  unfold postpone
  split <;> rfl

theorem faithful_postpone (h : Faithful stream d) (hbacks : stream.Backs repair) :
    Faithful stream (d.postpone repair) := by
  refine ⟨fun m p hstored => ?_, fun r hr => ?_⟩
  · rw [stored_postpone] at hstored
    exact h.stored m p hstored
  · rcases mem_postpone hr with hr | rfl
    · exact h.pending r hr
    · exact hbacks

/-- What `resolve` can do. -/
theorem resolve_cases (d : Decoder) (repair : Repair) (delivered : UInt64 → Bool) :
    (repair.lost delivered = [] ∧ d.resolve repair delivered = (d, none)) ∨
    (∃ lost packet, repair.lost delivered = [lost] ∧ d.rebuild repair lost = some packet ∧
      d.resolve repair delivered = (d, some (lost, packet))) ∨
    (∃ lost, repair.lost delivered = [lost] ∧ d.rebuild repair lost = none ∧
      d.resolve repair delivered = ({ d with unrecoverable := d.unrecoverable + 1 }, none)) ∨
    (2 ≤ repair.missing delivered ∧ d.resolve repair delivered = (d.postpone repair, none)) := by
  unfold resolve missing
  cases hlost : repair.lost delivered with
  | nil => exact .inl ⟨rfl, rfl⟩
  | cons lost rest =>
    cases rest with
    | nil =>
      cases hrebuild : d.rebuild repair lost with
      | none => exact .inr (.inr (.inl ⟨lost, rfl, hrebuild, by simp [hrebuild]⟩))
      | some packet =>
        exact .inr (.inl ⟨lost, packet, rfl, hrebuild, by simp [hrebuild]⟩)
    | cons second rest => exact .inr (.inr (.inr ⟨by simp, rfl⟩))

/-- `resolve` rebuilds known packets only. -/
theorem faithful_resolve (h : Faithful stream d) (hbacks : stream.Backs repair)
    (delivered : UInt64 → Bool) :
    Faithful stream (d.resolve repair delivered).1 ∧
      ∀ sent, (d.resolve repair delivered).2 = some sent →
        stream.known sent ∧ delivered sent.1 = false := by
  rcases resolve_cases d repair delivered with
    ⟨-, heq⟩ | ⟨lost, packet, hlost, hrebuild, heq⟩ | ⟨lost, -, -, heq⟩ | ⟨-, heq⟩
  · rw [heq]
    exact ⟨h, nofun⟩
  · rw [heq]
    obtain ⟨hmember, hdelivered⟩ := mem_members_of_lost hlost
    refine ⟨h, fun sent hsome => ?_⟩
    rw [← Option.some.inj hsome]
    exact ⟨known_of_rebuild h hbacks hmember hrebuild, hdelivered⟩
  · rw [heq]
    exact ⟨⟨h.stored, h.pending⟩, nofun⟩
  · rw [heq]
    exact ⟨faithful_postpone h hbacks, nofun⟩

variable {payload : Bytes}

/-- `accept_repair` of a payload that stands for known packets. -/
theorem faithful_acceptRepair (h : Faithful stream d) {group : List Sent}
    (hstands : Stands payload group) (hknown : ∀ sent ∈ group, stream.known sent) (now : Instant)
    (delivered : UInt64 → Bool) :
    Faithful stream (d.acceptRepair payload now delivered).1 ∧
      ∀ sent, (d.acceptRepair payload now delivered).2 = some sent →
        stream.known sent ∧ delivered sent.1 = false := by
  obtain ⟨repair, hparse, hgenuine⟩ := hstands.2 now
  rw [acceptRepair, hparse]
  apply faithful_resolve
  · exact ⟨h.stored, h.pending⟩
  · exact ⟨group, hgenuine, hknown⟩

theorem mem_swapRemove {α : Type} {xs : List α} {i : Nat} {x : α} (h : x ∈ swapRemove xs i) :
    x ∈ xs := by
  unfold swapRemove at h
  split at h
  · rename_i last hlast
    rcases mem_or_eq_of_mem_set (mem_of_mem_dropLast h) with hx | rfl
    · exact hx
    · exact mem_of_getLast? hlast
  · exact absurd h not_mem_nil

/-- What `retry_pending` can do after its housekeeping. -/
theorem retryPending_cases (d : Decoder) (now : Instant) (delivered : UInt64 → Bool) :
    ((∀ repair ∈ (d.prune now delivered).pending, repair.missing delivered ≠ 1) ∧
      d.retryPending now delivered = (d.prune now delivered, none)) ∨
    ∃ ready repair, (d.prune now delivered).pending[ready]? = some repair ∧
      repair.missing delivered = 1 ∧
      d.retryPending now delivered =
        { d.prune now delivered with
          pending := swapRemove
            (d.prune now delivered).pending ready }.resolve repair delivered := by
  unfold retryPending
  dsimp only
  cases hready : (d.prune now delivered).pending.findIdx?
      fun repair => decide (repair.missing delivered = 1) with
  | none =>
    refine .inl ⟨fun repair hmem hone => ?_, rfl⟩
    have hnone := findIdx?_eq_none_iff.1 hready repair hmem
    exact absurd (decide_eq_true hone) (by rw [hnone]; exact Bool.false_ne_true)
  | some ready =>
    obtain ⟨hlt, hone, -⟩ := findIdx?_eq_some_iff_getElem.1 hready
    have hget : (d.prune now delivered).pending[ready]? =
        some (d.prune now delivered).pending[ready] := getElem?_eq_getElem hlt
    refine .inr ⟨ready, _, hget, of_decide_eq_true hone, ?_⟩
    simp only [hget]

variable {now : Instant}

theorem mem_pending_prune {r : Repair} (h : r ∈ (d.prune now delivered).pending) : r ∈ d.pending :=
  mem_of_mem_filter (mem_of_mem_filter h)

/-- `retry_pending` rebuilds known packets only. -/
theorem faithful_retryPending (h : Faithful stream d) (now : Instant) (delivered : UInt64 → Bool) :
    Faithful stream (d.retryPending now delivered).1 ∧
      ∀ sent, (d.retryPending now delivered).2 = some sent →
        stream.known sent ∧ delivered sent.1 = false := by
  have hprune : Faithful stream (d.prune now delivered) :=
    ⟨h.stored, fun repair hmem => h.pending repair (mem_pending_prune hmem)⟩
  rcases retryPending_cases d now delivered with ⟨-, heq⟩ | ⟨ready, repair, hget, -, heq⟩
  · rw [heq]
    exact ⟨hprune, nofun⟩
  · rw [heq]
    apply faithful_resolve
    · exact ⟨hprune.stored, fun r hr => hprune.pending r (mem_swapRemove hr)⟩
    · exact hprune.pending repair (mem_of_getElem? hget)

/-! ## Only members are rebuilt

What waits and what is rebuilt comes from the repairs that were given to the decoder, whatever they
say. -/

theorem mem_pending_resolve {repair r : Repair} (h : r ∈ (d.resolve repair delivered).1.pending) :
    r ∈ d.pending ∨ r = repair := by
  rcases resolve_cases d repair delivered with
    ⟨-, heq⟩ | ⟨lost, packet, -, -, heq⟩ | ⟨lost, -, -, heq⟩ | ⟨-, heq⟩
  · rw [heq] at h
    exact .inl h
  · rw [heq] at h
    exact .inl h
  · rw [heq] at h
    exact .inl h
  · rw [heq] at h
    exact mem_postpone h

theorem member_of_resolve {sent : Sent} (h : (d.resolve repair delivered).2 = some sent) :
    sent.1 ∈ repair.members := by
  rcases resolve_cases d repair delivered with
    ⟨-, heq⟩ | ⟨lost, packet, hlost, -, heq⟩ | ⟨lost, -, -, heq⟩ | ⟨-, heq⟩
  · rw [heq] at h
    cases h
  · rw [heq] at h
    rw [← Option.some.inj h]
    exact (mem_members_of_lost hlost).1
  · rw [heq] at h
    cases h
  · rw [heq] at h
    cases h

/-- The members a payload covers, if it is a repair. -/
def covers (payload : Bytes) : List UInt64 := ((parse payload 0).map members).getD []

theorem covers_of_parse (h : parse payload now = some repair) :
    covers payload = repair.members := by
  have htime : (parse payload 0).map members =
      (parse payload now).map members := by
    unfold parse
    cases payload with
    | nil => rfl
    | cons head rest =>
      dsimp only
      split_ifs
      · rfl
      · rfl
      · rfl
      · rfl
      · rw [Option.map_map, Option.map_map]
        rfl
  rw [covers, htime, h]
  rfl

theorem mem_pending_acceptRepair {r : Repair}
    (h : r ∈ (d.acceptRepair payload now delivered).1.pending) :
    r ∈ d.pending ∨ r.members = covers payload := by
  unfold acceptRepair at h
  cases hparse : parse payload now with
  | none =>
    rw [hparse] at h
    exact .inl h
  | some repair =>
    rw [hparse] at h
    rcases mem_pending_resolve h with hr | rfl
    · exact .inl hr
    · exact .inr (covers_of_parse hparse).symm

theorem member_of_acceptRepair {sent : Sent}
    (h : (d.acceptRepair payload now delivered).2 = some sent) : sent.1 ∈ covers payload := by
  unfold acceptRepair at h
  cases hparse : parse payload now with
  | none =>
    rw [hparse] at h
    cases h
  | some repair =>
    rw [hparse] at h
    rw [covers_of_parse hparse]
    exact member_of_resolve h

/-- `retry_pending` adds no repair, and rebuilds a member of one that waits. -/
theorem retryPending_from_pending (d : Decoder) (now : Instant) (delivered : UInt64 → Bool) :
    (∀ r ∈ (d.retryPending now delivered).1.pending, r ∈ d.pending) ∧
      ∀ sent, (d.retryPending now delivered).2 = some sent →
        ∃ repair ∈ d.pending, sent.1 ∈ repair.members := by
  rcases retryPending_cases d now delivered with ⟨-, heq⟩ | ⟨ready, repair, hget, -, heq⟩
  · rw [heq]
    exact ⟨fun r hr => mem_pending_prune hr, nofun⟩
  have hrepair := mem_pending_prune (mem_of_getElem? hget)
  rw [heq]
  refine ⟨fun r hr => ?_, fun sent hsome => ⟨repair, hrepair, member_of_resolve hsome⟩⟩
  rcases mem_pending_resolve hr with hr | rfl
  · exact mem_pending_prune (mem_swapRemove hr)
  · exact hrepair

/-! ## The caller's loop ends -/

theorem length_swapRemove {α : Type} {xs : List α} (i : Nat) (h : xs ≠ []) :
    (swapRemove xs i).length + 1 = xs.length := by
  unfold swapRemove
  rw [getLast?_eq_some_getLast h]
  rw [length_dropLast, length_set]
  have := length_pos_iff.2 h
  omega

/-- A call that rebuilds a packet takes a repair off the list. -/
theorem length_pending_retryPending {sent : Sent}
    (h : (d.retryPending now delivered).2 = some sent) :
    (d.retryPending now delivered).1.pending.length < d.pending.length := by
  have hprune : (d.prune now delivered).pending.length ≤ d.pending.length :=
    (length_filter_le _ _).trans (length_filter_le _ _)
  rcases retryPending_cases d now delivered with ⟨-, heq⟩ | ⟨ready, repair, hget, -, heq⟩
  · rw [heq] at h
    cases h
  have hne : (d.prune now delivered).pending ≠ [] := by
    intro hnil
    rw [hnil] at hget
    cases hget
  have hlength := length_swapRemove ready hne
  rw [heq] at h ⊢
  -- A packet was rebuilt, so `resolve` did not put the repair back.
  rcases resolve_cases { d.prune now delivered with
      pending := swapRemove (d.prune now delivered).pending ready } repair delivered with
    ⟨-, hres⟩ | ⟨lost, packet, -, -, hres⟩ | ⟨lost, -, -, hres⟩ | ⟨-, hres⟩
  · rw [hres] at h
    cases h
  · rw [hres]
    dsimp only
    omega
  · rw [hres] at h
    cases h
  · rw [hres] at h
    cases h

end GamePath.Engine.Fec
