import GamePath.Relay.Endpoints

/-!
# The table of reply endpoints

A run of `Endpoints` is a list of `Call`s. `observe_cases` and `apply_cases` say all that a call can
do; `WellFormed` holds in every state of every run.
-/

namespace GamePath.Relay

open Engine
open List (filterMap_cons map_cons mem_cons mem_cons_of_mem mem_cons_self mem_filterMap mem_map
    mem_of_mem_filter mem_singleton nodup_cons)

namespace Endpoints

/-! ## Changing one entry -/

section Update

variable {address : SocketAddr} {f : Endpoint → Endpoint}

theorem map_address_update (hf : ∀ entry, (f entry).address = entry.address)
    (entries : List Endpoint) :
    (update address f entries).map Endpoint.address = entries.map Endpoint.address := by
  induction entries with
  | nil => rfl
  | cons entry entries ih =>
    rw [update]
    split
    · rw [map_cons, map_cons, hf]
    · rw [map_cons, map_cons, ih]

theorem length_update (entries : List Endpoint) :
    (update address f entries).length = entries.length := by
  induction entries with
  | nil => rfl
  | cons entry entries ih =>
    rw [update]
    split
    · rfl
    · rw [List.length_cons, List.length_cons, ih]

/-- With one entry an address, `update` changes the entry of the address and no other. -/
theorem mem_update {entries : List Endpoint} (h : (entries.map Endpoint.address).Nodup)
    {entry : Endpoint} :
    entry ∈ update address f entries ↔
      (entry ∈ entries ∧ entry.address ≠ address) ∨
        ∃ old ∈ entries, old.address = address ∧ entry = f old := by
  induction entries with
  | nil => simp [update]
  | cons first entries ih =>
    rw [map_cons, nodup_cons] at h
    have hrest : ∀ old ∈ entries, old.address ≠ first.address := by
      intro old hold heq
      exact h.1 (heq ▸ List.mem_map_of_mem hold)
    rw [update]
    split
    next hfirst =>
      -- The rest of the table has other addresses.
      grind
    next hfirst => grind

theorem mem_or_of_mem_update {entries : List Endpoint} {entry : Endpoint}
    (h : entry ∈ update address f entries) :
    entry ∈ entries ∨ ∃ old ∈ entries, entry = f old := by
  induction entries with
  | nil => exact absurd h List.not_mem_nil
  | cons first entries ih =>
    rw [update] at h
    split at h
    · rcases mem_cons.1 h with rfl | hin
      · exact .inr ⟨first, mem_cons_self, rfl⟩
      · exact .inl (mem_cons_of_mem _ hin)
    · rcases mem_cons.1 h with rfl | hin
      · exact .inl mem_cons_self
      · rcases ih hin with hold | ⟨old, hold, heq⟩
        · exact .inl (mem_cons_of_mem _ hold)
        · exact .inr ⟨old, mem_cons_of_mem _ hold, heq⟩

end Update

/-! ## Calls -/

/-- A call on the endpoints of a session. `targets` and `repair_target` prune before they answer. -/
inductive Call where
  | observe (address : SocketAddr) (now : Instant)
  | apply (address : SocketAddr) (policy : PathPolicy) (healthy : Bool) (sequence : UInt64)
      (now : Instant)
  | targets (now : Instant)
  | repairTarget (now : Instant) (turn : UInt64)

variable (e : Endpoints)

/-- The endpoints after a call. -/
def call : Call → Endpoints
  | .observe address now => e.observe address now
  | .apply address policy healthy sequence now => e.apply address policy healthy sequence now
  | .targets now => e.prune now
  | .repairTarget now _ => e.prune now

/-- The endpoints after a run of calls. -/
def run (calls : List Call) : Endpoints := calls.foldl call e

/-- The path an entry speaks for. -/
def pathOf (entry : Endpoint) : Option (Fin 64) := entry.policy.map PathPolicy.path

variable {entry : Endpoint}

theorem isFor_iff {path : Fin 64} :
    isFor path entry = true ↔ pathOf entry = some path := by
  unfold isFor pathOf
  cases entry.policy with
  | none | some => simp

/-- No address occurs twice, no path is spoken for twice and the table is bounded. -/
structure WellFormed (e : Endpoints) : Prop where
  addresses : (e.entries.map Endpoint.address).Nodup
  paths : (e.entries.filterMap pathOf).Nodup
  bounded : e.entries.length ≤ capacity

variable {entries : List Endpoint}

section

variable {e : Endpoints} (h : e.WellFormed)
include h

theorem WellFormed.sublist (hsub : List.Sublist entries e.entries)
    (sequences : Vector (Option UInt64) 64)
    (selective : Bool) : WellFormed ⟨entries, sequences, selective⟩ where
  addresses := (hsub.map Endpoint.address).nodup h.addresses
  paths := (hsub.filterMap pathOf).nodup h.paths
  bounded := le_trans hsub.length_le h.bounded

theorem WellFormed.prune (now : Instant) :
    (e.prune now).WellFormed :=
  h.sublist List.filter_sublist _ _

/-! ### Every call keeps the table well formed -/

theorem WellFormed.perm (hperm : entries.Perm e.entries) :
    WellFormed { e with entries := entries } where
  addresses := (hperm.map Endpoint.address).nodup_iff.2 h.addresses
  paths := (hperm.filterMap pathOf).nodup_iff.2 h.paths
  bounded := hperm.length_eq.trans_le h.bounded

omit h in
theorem length_dropOldest (entries : List Endpoint) :
    (dropOldest entries).length = entries.length - 1 := by
  rw [dropOldest, List.length_drop, List.length_insertionSort]

theorem WellFormed.dropOldest :
    WellFormed { e with entries := dropOldest e.entries } :=
  (h.perm (List.perm_insertionSort _ _)).sublist (List.drop_sublist 1 _) _ _

omit h in
theorem mem_of_mem_dropOldest (h : entry ∈ dropOldest entries) : entry ∈ entries :=
  (List.mem_insertionSort _).1 (List.mem_of_mem_drop h)

theorem WellFormed.update (address : SocketAddr) {f : Endpoint → Endpoint}
    (hf : ∀ entry, (f entry).address = entry.address)
    (hpath : ∀ entry, pathOf (f entry) = pathOf entry) :
    WellFormed { e with entries := update address f e.entries } where
  addresses := (map_address_update hf e.entries).symm ▸ h.addresses
  paths := by
    have hsame : ∀ entries : List Endpoint,
        (Endpoints.update address f entries).filterMap pathOf = entries.filterMap pathOf := by
      intro entries
      induction entries with
      | nil => rfl
      | cons entry entries ih =>
        rw [Endpoints.update]
        split
        · rw [filterMap_cons, filterMap_cons, hpath]
        · rw [filterMap_cons, filterMap_cons, ih]
    exact (hsame e.entries).symm ▸ h.paths
  bounded := (length_update e.entries).trans_le h.bounded

end

/-- The entry of an address that is heard from again. -/
def refresh (now : Instant) (entry : Endpoint) : Endpoint := { entry with seen := now }

/-- The entry of an address that was not in the table. -/
def newcomer (address : SocketAddr) (now : Instant) : Endpoint := ⟨address, now, none, true⟩

/-- What `observe` keeps of a pruned table before it appends a newcomer. -/
def makeRoom (entries : List Endpoint) : List Endpoint :=
  if capacity ≤ entries.length then dropOldest entries else entries

theorem mem_of_mem_makeRoom (h : entry ∈ makeRoom entries) : entry ∈ entries := by
  unfold makeRoom at h
  split at h
  · exact mem_of_mem_dropOldest h
  · exact h

theorem length_makeRoom_lt (h : entries.length ≤ capacity) :
    (makeRoom entries).length < capacity := by
  unfold makeRoom
  split
  next hfull =>
    rw [length_dropOldest]
    have hpos : 0 < capacity := by decide
    omega
  next hroom => exact Nat.lt_of_not_le hroom

theorem WellFormed.makeRoom {e : Endpoints} (h : e.WellFormed) :
    WellFormed { e with entries := makeRoom e.entries } := by
  unfold Endpoints.makeRoom
  split
  · exact h.dropOldest
  · exact h

theorem observe_cases (address : SocketAddr) (now : Instant) :
    ((∃ entry ∈ (e.prune now).entries, entry.address = address) ∧
      e.observe address now = { e.prune now with
        entries := update address (refresh now) (e.prune now).entries }) ∨
    ((∀ entry ∈ (e.prune now).entries, entry.address ≠ address) ∧
      e.observe address now = { e.prune now with
        entries := makeRoom (e.prune now).entries ++ [newcomer address now] }) := by
  unfold observe
  dsimp only
  split
  next hknown =>
    obtain ⟨entry, hmem, haddress⟩ := List.any_eq_true.1 hknown
    exact .inl ⟨⟨entry, hmem, of_decide_eq_true haddress⟩, rfl⟩
  next hunknown =>
    refine .inr ⟨?_, rfl⟩
    intro entry hmem haddress
    exact hunknown (List.any_eq_true.2 ⟨entry, hmem, decide_eq_true haddress⟩)

theorem observe_selective (address : SocketAddr) (now : Instant) :
    (e.observe address now).selective = e.selective := by
  rcases observe_cases e address now with ⟨-, heq⟩ | ⟨-, heq⟩
  · rw [heq]
    rfl
  · rw [heq]
    rfl

theorem WellFormed.observe {e : Endpoints} (h : e.WellFormed) (address : SocketAddr)
    (now : Instant) : (e.observe address now).WellFormed := by
  have hpruned := h.prune now
  rcases observe_cases e address now with ⟨-, heq⟩ | ⟨hnew, heq⟩
  · rw [heq]
    apply hpruned.update address
    · intro entry
      rfl
    · intro entry
      rfl
  rw [heq]
  have hroom := hpruned.makeRoom
  constructor
  · rw [List.map_append, List.nodup_append]
    refine ⟨hroom.addresses, List.nodup_singleton _, ?_⟩
    intro other hother same hsame
    obtain ⟨entry, hentry, rfl⟩ := mem_map.1 hother
    rw [mem_singleton.1 hsame]
    exact hnew entry (mem_of_mem_makeRoom hentry)
  · rw [List.filterMap_append]
    exact (List.append_nil _).symm ▸ hroom.paths
  · rw [List.length_append]
    exact length_makeRoom_lt hpruned.bounded

theorem exists_mem_observe (address : SocketAddr) (now : Instant) :
    ∃ entry ∈ (e.observe address now).entries, entry.address = address := by
  rcases observe_cases e address now with ⟨⟨entry, hmem, haddress⟩, heq⟩ | ⟨-, heq⟩
  · have hin : address ∈ (e.observe address now).entries.map Endpoint.address := by
      rw [heq]
      rw [map_address_update (f := refresh now) (fun entry => rfl), ← haddress]
      exact List.mem_map_of_mem hmem
    exact mem_map.1 hin
  · refine ⟨newcomer address now, ?_, rfl⟩
    rw [heq]
    exact List.mem_append_right _ (List.mem_singleton_self _)

variable {address : SocketAddr} {now : Instant}

theorem mem_of_mem_observe {e : Endpoints} (h : (e.entries.map Endpoint.address).Nodup)
    (hmem : entry ∈ (e.observe address now).entries) (hother : entry.address ≠ address) :
    entry ∈ e.entries := by
  have hpruned : ((e.prune now).entries.map Endpoint.address).Nodup :=
    (List.filter_sublist.map Endpoint.address).nodup h
  rcases observe_cases e address now with ⟨-, heq⟩ | ⟨-, heq⟩
  · rw [heq] at hmem
    rcases (mem_update hpruned).1 hmem with ⟨hold, -⟩ | ⟨old, -, haddress, rfl⟩
    · exact mem_of_mem_filter hold
    · exact absurd haddress hother
  · rw [heq] at hmem
    rcases List.mem_append.1 hmem with hold | hnew
    · exact mem_of_mem_filter (mem_of_mem_makeRoom hold)
    · rw [mem_singleton.1 hnew] at hother
      exact absurd rfl hother

theorem address_of_mem_observe {e : Endpoints} (h : entry ∈ (e.observe address now).entries) :
    entry.address = address ∨ ∃ old ∈ e.entries, old.address = entry.address := by
  rcases observe_cases e address now with ⟨-, heq⟩ | ⟨-, heq⟩
  · rw [heq] at h
    rcases mem_or_of_mem_update h with hold | ⟨old, hold, rfl⟩
    · exact .inr ⟨entry, mem_of_mem_filter hold, rfl⟩
    · exact .inr ⟨old, mem_of_mem_filter hold, rfl⟩
  · rw [heq] at h
    rcases List.mem_append.1 h with hkept | hlast
    · exact .inr ⟨entry, mem_of_mem_filter (mem_of_mem_makeRoom hkept), rfl⟩
    · rw [mem_singleton.1 hlast]
      exact .inl rfl

/-! ### Announcing a policy -/

/-- The entry of an address whose policy arrived. -/
def announce (policy : PathPolicy) (healthy : Bool) (entry : Endpoint) : Endpoint :=
  { entry with policy := some policy, healthy := healthy }

/-- The table `apply` observes the address in: the sequence is recorded, and no other address speaks
for the path. -/
def takePath (address : SocketAddr) (path : Fin 64) (sequence : UInt64) :
    Endpoints where
  entries := e.entries.filter fun entry => decide (entry.address = address) || !isFor path entry
  policySequences := e.policySequences.set path (some sequence)
  selective := true

/-- The sequence is not newer than the last one of the path. -/
def stale (path : Fin 64) (sequence : UInt64) : Prop :=
  ∃ previous, e.policySequences.get path = some previous ∧ sequence ≤ previous

/-- `apply` ignores a stale sequence; another one takes the path for its address. -/
theorem apply_cases (address : SocketAddr) (policy : PathPolicy) (healthy : Bool)
    (sequence : UInt64) (now : Instant) :
    (e.stale policy.path sequence ∧ e.apply address policy healthy sequence now = e) ∨
    (¬ e.stale policy.path sequence ∧ e.apply address policy healthy sequence now =
      { (e.takePath address policy.path sequence).observe address now with
        entries := update address (announce policy healthy)
          ((e.takePath address policy.path sequence).observe address now).entries }) := by
  have hstale : ((e.policySequences.get policy.path).map
      fun previous => decide (sequence ≤ previous)).getD false = true ↔
        e.stale policy.path sequence := by
    unfold stale
    cases e.policySequences.get policy.path with
    | none | some => simp
  unfold apply
  dsimp only
  split
  next h => exact .inl ⟨hstale.1 h, rfl⟩
  next h => exact .inr ⟨fun hs => h (hstale.2 hs), rfl⟩

theorem mem_takePath {e : Endpoints} {path : Fin 64} {sequence : UInt64} :
    entry ∈ (e.takePath address path sequence).entries ↔
      entry ∈ e.entries ∧ (entry.address = address ∨ pathOf entry ≠ some path) := by
  show entry ∈ e.entries.filter _ ↔ _
  rw [List.mem_filter, Bool.or_eq_true, decide_eq_true_iff, Bool.not_eq_true', ne_eq, ← isFor_iff,
    Bool.not_eq_true]

/-- An address in the table was in it before, or is the one that announces a policy. -/
theorem address_of_mem_apply {e : Endpoints} {policy : PathPolicy}
    {healthy : Bool} {sequence : UInt64}
    (h : entry ∈ (e.apply address policy healthy sequence now).entries) :
    entry.address = address ∨ ∃ old ∈ e.entries, old.address = entry.address := by
  have htaken : ∀ other ∈ ((e.takePath address policy.path sequence).observe address now).entries,
      other.address = address ∨ ∃ old ∈ e.entries, old.address = other.address := by
    intro other hother
    rcases address_of_mem_observe hother with hsame | ⟨old, hold, hsame⟩
    · exact .inl hsame
    · exact .inr ⟨old, (mem_takePath.1 hold).1, hsame⟩
  rcases apply_cases e address policy healthy sequence now with ⟨-, heq⟩ | ⟨-, heq⟩
  · rw [heq] at h
    exact .inr ⟨entry, h, rfl⟩
  · rw [heq] at h
    rcases mem_or_of_mem_update h with hold | ⟨old, hold, rfl⟩
    · exact htaken entry hold
    · exact htaken old hold

section

variable {e : Endpoints} (h : e.WellFormed)
include h

theorem WellFormed.takePath (address : SocketAddr) (path : Fin 64) (sequence : UInt64) :
    (e.takePath address path sequence).WellFormed :=
  h.sublist List.filter_sublist _ _

/-- A path nobody else speaks for can be announced. -/
theorem WellFormed.announce {address : SocketAddr} {policy : PathPolicy} (healthy : Bool)
    (hfree : ∀ entry ∈ e.entries, entry.address ≠ address → pathOf entry ≠ some policy.path) :
    WellFormed { e with
      entries := Endpoints.update address (announce policy healthy) e.entries } where
  addresses := by
    rw [map_address_update (f := Endpoints.announce policy healthy) (fun entry => rfl)]
    exact h.addresses
  paths := by
    obtain ⟨entries, sequences, selective⟩ := e
    have haddresses := h.addresses
    have hpaths := h.paths
    clear h
    induction entries with
    | nil => exact hpaths
    | cons first entries ih =>
      have hrest : (entries.map Endpoint.address).Nodup := (nodup_cons.1 haddresses).2
      have hsub : List.Sublist (entries.filterMap pathOf) ((first :: entries).filterMap pathOf) :=
        (List.sublist_cons_self first entries).filterMap pathOf
      have ih := ih (fun entry hmem => hfree entry (mem_cons_of_mem _ hmem)) hrest
        (hsub.nodup hpaths)
      rw [Endpoints.update]
      split
      next hfirst =>
        -- The rest of the table has other addresses and so does not speak for the path.
        rw [filterMap_cons]
        refine nodup_cons.2 ⟨?_, hsub.nodup hpaths⟩
        intro hin
        obtain ⟨entry, hentry, hpath⟩ := mem_filterMap.1 hin
        refine hfree entry (mem_cons_of_mem _ hentry) ?_ hpath
        intro haddress
        refine (nodup_cons.1 haddresses).1 ?_
        rw [hfirst, ← haddress]
        exact List.mem_map_of_mem hentry
      next hfirst =>
        rw [filterMap_cons] at hpaths ⊢
        cases hpath : pathOf first with
        | none => exact ih
        | some path =>
          rw [hpath] at hpaths
          refine nodup_cons.2 ⟨?_, ih⟩
          intro hin
          obtain ⟨entry, hentry, hsame⟩ := mem_filterMap.1 hin
          rcases (mem_update hrest).1 hentry with ⟨hold, -⟩ | ⟨old, -, -, rfl⟩
          · exact (nodup_cons.1 hpaths).1 (mem_filterMap.2 ⟨entry, hold, hsame⟩)
          · exact hfree first mem_cons_self hfirst (hpath.trans hsame.symm)
  bounded := (length_update e.entries).trans_le h.bounded

theorem WellFormed.apply (address : SocketAddr) (policy : PathPolicy) (healthy : Bool)
    (sequence : UInt64) (now : Instant) :
    (e.apply address policy healthy sequence now).WellFormed := by
  rcases apply_cases e address policy healthy sequence now with ⟨-, heq⟩ | ⟨-, heq⟩
  · rw [heq]
    exact h
  rw [heq]
  have htaken := h.takePath address policy.path sequence
  apply (htaken.observe address now).announce healthy
  intro entry hentry hother
  rcases (mem_takePath.1 (mem_of_mem_observe htaken.addresses hentry hother)).2 with hsame | hpath
  · exact absurd hsame hother
  · exact hpath

theorem WellFormed.call (c : Call) : (e.call c).WellFormed := by
  cases c with
  | observe address now => exact h.observe address now
  | apply address policy healthy sequence now => exact h.apply address policy healthy sequence now
  | targets now | repairTarget now => exact h.prune now

/-- Every state of every run is well formed. -/
theorem wellFormed_run (calls : List Call) :
    (e.run calls).WellFormed := by
  induction calls generalizing e with
  | nil => exact h
  | cons c calls ih => exact ih (h.call c)

end

theorem wellFormed_default : default.WellFormed where
  addresses := List.nodup_nil
  paths := List.nodup_nil
  bounded := Nat.zero_le _

/-! ## Answers -/

section Answers

variable {e : Endpoints}

theorem exists_mem_of_mem_targets {a : SocketAddr} (h : a ∈ e.targets) :
    ∃ entry ∈ e.entries, entry.address = a := by
  unfold targets at h
  dsimp only at h
  split at h
  all_goals
    obtain ⟨entry, hentry, haddress⟩ := mem_map.1 h
    exact ⟨entry, (List.mem_filter.1 hentry).1, haddress⟩

theorem exists_mem_of_repairTarget {now : Instant} {turn : UInt64} {a : SocketAddr}
    (h : e.repairTarget now turn = some a) : ∃ entry ∈ e.entries, entry.address = a := by
  unfold repairTarget at h
  dsimp only at h
  split at h
  · split at h
    · exact exists_mem_of_mem_targets (List.mem_of_head? h)
    · obtain ⟨entry, hentry, haddress⟩ := Option.map_eq_some_iff.1 h
      exact ⟨entry, mem_of_mem_filter (List.mem_of_getElem? hentry), haddress⟩
  · cases h

end Answers

end Endpoints

end GamePath.Relay
