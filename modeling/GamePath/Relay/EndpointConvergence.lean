import GamePath.Relay.EndpointTable

/-!
# Path policies in any order

Path policies travel every transport and reach the relay late, twice and in any order. `Tracks` says
that the table speaks for the latest of the messages heard so far, and for nothing else. As long as
no entry has to leave the table every arrival keeps it, so the result of a `Delivery` does not
depend on the order of its arrivals.
-/

namespace GamePath.Relay

open Engine List

namespace Endpoints

/-! ## A table no entry leaves -/

/-- The entries have known addresses and were seen at known instants. -/
structure Settled (addresses : List SocketAddr) (times : Set Instant) (e : Endpoints) : Prop where
  wellFormed : e.WellFormed
  known : ∀ entry ∈ e.entries, entry.address ∈ addresses ∧ entry.seen ∈ times

section Settled

variable {addresses : List SocketAddr} {times : Set Instant} {e : Endpoints}
variable {address : SocketAddr} {now : Instant}

theorem Settled.prune_eq (h : e.Settled addresses times)
    (hwithin : ∀ t ∈ times, ∀ t' ∈ times, t - t' ≤ ttl) (hnow : now ∈ times) : e.prune now = e := by
  have hkeep : (e.entries.filter fun entry => decide (now - entry.seen ≤ ttl)) = e.entries := by
    rw [filter_eq_self]
    intro entry hentry
    exact decide_eq_true (hwithin now hnow entry.seen (h.known entry hentry).2)
  unfold prune
  rw [hkeep]

theorem Settled.makeRoom_eq (h : e.Settled addresses times)
    (hfew : addresses.dedup.length ≤ capacity) (haddress : address ∈ addresses)
    (hnew : ∀ entry ∈ e.entries, entry.address ≠ address) : makeRoom e.entries = e.entries := by
  have hnodup : (address :: e.entries.map Endpoint.address).Nodup := by
    refine nodup_cons.2 ⟨?_, h.wellFormed.addresses⟩
    intro hin
    obtain ⟨entry, hentry, heq⟩ := mem_map.1 hin
    exact hnew entry hentry heq
  have hsubset : address :: e.entries.map Endpoint.address ⊆ addresses.dedup := by
    intro other hother
    rw [mem_dedup]
    rcases mem_cons.1 hother with rfl | hin
    · exact haddress
    · obtain ⟨entry, hentry, rfl⟩ := mem_map.1 hin
      exact (h.known entry hentry).1
  have hlength := (hnodup.subperm hsubset).length_le
  rw [length_cons, length_map] at hlength
  unfold makeRoom
  rw [if_neg (by omega)]

section

variable (h : e.Settled addresses times) (hwithin : ∀ t ∈ times, ∀ t' ∈ times, t - t' ≤ ttl)
  (hfew : addresses.dedup.length ≤ capacity) (haddress : address ∈ addresses) (hnow : now ∈ times)
include h hwithin hfew haddress hnow

theorem Settled.mem_observe {entry : Endpoint} :
    entry ∈ (e.observe address now).entries ↔
      (entry ∈ e.entries ∧ entry.address ≠ address) ∨
      (∃ old ∈ e.entries, old.address = address ∧ entry = refresh now old) ∨
      ((∀ old ∈ e.entries, old.address ≠ address) ∧ entry = newcomer address now) := by
  have hprune := h.prune_eq hwithin hnow
  rcases observe_cases e address now with ⟨⟨old, hold, hsame⟩, heq⟩ | ⟨hnew, heq⟩
  · rw [heq, hprune]
    rw [hprune] at hold
    refine (mem_update h.wellFormed.addresses).trans ?_
    constructor
    · rintro (hother | hrefreshed)
      · exact .inl hother
      · exact .inr (.inl hrefreshed)
    · rintro (hother | hrefreshed | ⟨hnone, -⟩)
      · exact .inl hother
      · exact .inr hrefreshed
      · exact absurd hsame (hnone old hold)
  · rw [hprune] at hnew
    rw [heq, hprune, h.makeRoom_eq hfew haddress hnew, mem_append, mem_singleton]
    constructor
    · rintro (hin | rfl)
      · exact .inl ⟨hin, hnew entry hin⟩
      · exact .inr (.inr ⟨hnew, rfl⟩)
    · rintro (⟨hin, -⟩ | ⟨old, hold, hsame, -⟩ | ⟨-, rfl⟩)
      · exact .inl hin
      · exact absurd hsame (hnew old hold)
      · exact .inr rfl

omit h hwithin hfew haddress hnow in
theorem observe_policySequences :
    (e.observe address now).policySequences = e.policySequences := by
  rcases observe_cases e address now with ⟨-, heq⟩ | ⟨-, heq⟩
  · rw [heq]
    rfl
  · rw [heq]
    rfl

theorem Settled.observe : (e.observe address now).Settled addresses times where
  wellFormed := h.wellFormed.observe address now
  known := by
    intro entry hentry
    rcases (h.mem_observe hwithin hfew haddress hnow).1 hentry with
      ⟨hin, -⟩ | ⟨old, hold, -, rfl⟩ | ⟨-, rfl⟩
    · exact h.known entry hin
    · exact ⟨(h.known old hold).1, hnow⟩
    · exact ⟨haddress, hnow⟩

omit h hwithin hfew haddress hnow in
theorem Settled.takePath (h : e.Settled addresses times) (address : SocketAddr) (path : Fin 64)
    (sequence : UInt64) : (e.takePath address path sequence).Settled addresses times where
  wellFormed := h.wellFormed.takePath address path sequence
  known := fun entry hentry => h.known entry (mem_takePath.1 hentry).1

theorem Settled.apply (policy : PathPolicy) (healthy : Bool) (sequence : UInt64) :
    (e.apply address policy healthy sequence now).Settled addresses times := by
  refine ⟨h.wellFormed.apply address policy healthy sequence now, ?_⟩
  rcases apply_cases e address policy healthy sequence now with ⟨-, heq⟩ | ⟨-, heq⟩
  · rw [heq]
    exact h.known
  have hobserved := (h.takePath address policy.path sequence).observe hwithin hfew haddress hnow
  rw [heq]
  intro entry hentry
  rcases (mem_update hobserved.wellFormed.addresses).1 hentry with ⟨hin, -⟩ | ⟨old, hold, -, rfl⟩
  · exact hobserved.known entry hin
  · exact hobserved.known old hold

end

end Settled

/-! ## Messages in any order -/

/-- A path policy message: where it comes from and what it says. -/
structure Message where
  address : SocketAddr
  policy : PathPolicy
  healthy : Bool
  sequence : UInt64

/-- No message of the same path has a higher sequence. -/
def IsLatest (messages : List Message) (m : Message) : Prop :=
  m ∈ messages ∧ ∀ other ∈ messages, other.policy.path = m.policy.path → other.sequence ≤ m.sequence

/-- The table speaks for the latest of the messages heard so far, and for nothing else. -/
structure Tracks (heard : List Message) (e : Endpoints) : Prop where
  recorded : ∀ path sequence, e.policySequences.get path = some sequence →
    ∃ m ∈ heard, m.policy.path = path ∧ m.sequence = sequence
  newest : ∀ m ∈ heard, ∃ sequence,
    e.policySequences.get m.policy.path = some sequence ∧ m.sequence ≤ sequence
  spoken : ∀ entry ∈ e.entries, ∀ policy, entry.policy = some policy →
    ∃ sequence, IsLatest heard ⟨entry.address, policy, entry.healthy, sequence⟩
  present : ∀ m, IsLatest heard m → ∃ entry ∈ e.entries,
    entry.address = m.address ∧ entry.policy = some m.policy ∧ entry.healthy = m.healthy

theorem tracks_default : Tracks [] default where
  recorded := by
    intro path sequence h
    have hnone : default.policySequences.get path = none := by
      exact Vector.getElem_replicate _
    rw [hnone] at h
    cases h
  newest := nofun
  spoken := nofun
  present := nofun

section Tracks

variable {addresses : List SocketAddr} {times : Set Instant} {e : Endpoints}
variable {heard : List Message} {now : Instant}

theorem Tracks.observe {address : SocketAddr} (h : Tracks heard e)
    (hsettled : e.Settled addresses times) (hwithin : ∀ t ∈ times, ∀ t' ∈ times, t - t' ≤ ttl)
    (hfew : addresses.dedup.length ≤ capacity) (haddress : address ∈ addresses)
    (hnow : now ∈ times) : Tracks heard (e.observe address now) where
  recorded := by
    rw [observe_policySequences]
    exact h.recorded
  newest := by
    rw [observe_policySequences]
    exact h.newest
  spoken := by
    intro entry hentry policy hpolicy
    rcases (hsettled.mem_observe hwithin hfew haddress hnow).1 hentry with
      ⟨hin, -⟩ | ⟨old, hold, -, rfl⟩ | ⟨-, rfl⟩
    · exact h.spoken entry hin policy hpolicy
    · exact h.spoken old hold policy hpolicy
    · cases hpolicy
  present := by
    intro m hm
    obtain ⟨entry, hentry, hspeaks⟩ := h.present m hm
    by_cases hsame : entry.address = address
    · exact ⟨refresh now entry, (hsettled.mem_observe hwithin hfew haddress hnow).2
        (.inr (.inl ⟨entry, hentry, hsame, rfl⟩)), hspeaks⟩
    · exact ⟨entry, (hsettled.mem_observe hwithin hfew haddress hnow).2
        (.inl ⟨hentry, hsame⟩), hspeaks⟩

theorem isLatest_concat_of_le {m earlier m' : Message} (hearlier : earlier ∈ heard)
    (hpath : earlier.policy.path = m.policy.path) (hle : m.sequence ≤ earlier.sequence)
    (hdistinct : m.sequence = earlier.sequence → m = earlier) :
    IsLatest (heard ++ [m]) m' ↔ IsLatest heard m' := by
  constructor
  · rintro ⟨hmem, hmax⟩
    refine ⟨?_, fun other hother => hmax other (mem_append_left _ hother)⟩
    rcases mem_append.1 hmem with hin | hlast
    · exact hin
    · -- The message is itself the latest, so it is the one heard before.
      rw [mem_singleton.1 hlast] at hmax ⊢
      have hge := hmax earlier (mem_append_left _ hearlier) hpath
      rw [hdistinct (UInt64.le_antisymm hle hge)]
      exact hearlier
  rintro ⟨hmem, hmax⟩
  refine ⟨mem_append_left _ hmem, ?_⟩
  intro other hother hsame
  rcases mem_append.1 hother with hin | hlast
  · exact hmax other hin hsame
  · rw [mem_singleton.1 hlast] at hsame ⊢
    exact UInt64.le_trans hle (hmax earlier hearlier (hpath.trans hsame))

theorem isLatest_concat_of_lt {m m' : Message}
    (hnewer : ∀ other ∈ heard, other.policy.path = m.policy.path → other.sequence < m.sequence) :
    IsLatest (heard ++ [m]) m' ↔
      m' = m ∨ (m'.policy.path ≠ m.policy.path ∧ IsLatest heard m') := by
  constructor
  · rintro ⟨hmem, hmax⟩
    rcases mem_append.1 hmem with hin | hlast
    · refine .inr ⟨?_, hin, fun other hother => hmax other (mem_append_left _ hother)⟩
      intro hsame
      have hle := hmax m (mem_append_right _ (mem_singleton_self m)) hsame.symm
      exact absurd (hnewer m' hin hsame) (UInt64.not_lt.2 hle)
    · exact .inl (mem_singleton.1 hlast)
  rintro (rfl | ⟨hother, hmem, hmax⟩)
  · refine ⟨mem_append_right _ (mem_singleton_self _), ?_⟩
    intro other hin hsame
    rcases mem_append.1 hin with hin | hlast
    · exact UInt64.le_of_lt (hnewer other hin hsame)
    · rw [mem_singleton.1 hlast]
      exact UInt64.le_refl _
  refine ⟨mem_append_left _ hmem, ?_⟩
  intro other hin hsame
  rcases mem_append.1 hin with hin | hlast
  · exact hmax other hin hsame
  · rw [mem_singleton.1 hlast] at hsame
    exact absurd hsame.symm hother

theorem takePath_get (address : SocketAddr) (path other : Fin 64) (sequence : UInt64) :
    (e.takePath address path sequence).policySequences.get other =
      if other = path then some sequence else e.policySequences.get other := by
  show (e.policySequences.set path (some sequence))[other.val] = _
  rw [Vector.getElem_set]
  by_cases hsame : other = path
  · rw [if_pos hsame, if_pos (congrArg Fin.val hsame.symm)]
  · rw [if_neg hsame, if_neg fun heq => hsame (Fin.ext heq.symm)]
    rfl

theorem Tracks.late {m : Message} (h : Tracks heard e) (hstale : e.stale m.policy.path m.sequence)
    (hdistinct : ∀ other ∈ heard, m.sequence = other.sequence → m = other) :
    Tracks (heard ++ [m]) e := by
  obtain ⟨previous, hprevious, hle⟩ := hstale
  obtain ⟨earlier, hearlier, hpath, rfl⟩ := h.recorded _ _ hprevious
  have hlatest : ∀ m', IsLatest (heard ++ [m]) m' ↔ IsLatest heard m' := fun m' =>
    isLatest_concat_of_le hearlier hpath hle (hdistinct earlier hearlier)
  constructor
  · intro path sequence hget
    obtain ⟨m', hm', hrest⟩ := h.recorded path sequence hget
    exact ⟨m', mem_append_left _ hm', hrest⟩
  · intro m' hm'
    rcases mem_append.1 hm' with hin | hlast
    · exact h.newest m' hin
    · rw [mem_singleton.1 hlast]
      exact ⟨earlier.sequence, hprevious, hle⟩
  · intro entry hentry policy hpolicy
    obtain ⟨sequence, hspoken⟩ := h.spoken entry hentry policy hpolicy
    exact ⟨sequence, (hlatest _).2 hspoken⟩
  · intro m' hm'
    exact h.present m' ((hlatest m').1 hm')

section

variable {m : Message} (h : Tracks heard e) (hsettled : e.Settled addresses times)
  (hwithin : ∀ t ∈ times, ∀ t' ∈ times, t - t' ≤ ttl) (hfew : addresses.dedup.length ≤ capacity)
include h hsettled hwithin hfew

/-- A newer message takes its path over; the other paths speak through other addresses. -/
theorem Tracks.takeOver (haddress : m.address ∈ addresses) (hnow : now ∈ times)
    (hstale : ¬ e.stale m.policy.path m.sequence)
    (hone : ∀ other ∈ heard, other.address = m.address → other.policy.path = m.policy.path) :
    Tracks (heard ++ [m])
      { (e.takePath m.address m.policy.path m.sequence).observe m.address now with
        entries := update m.address (announce m.policy m.healthy)
          ((e.takePath m.address m.policy.path m.sequence).observe m.address now).entries } := by
  have hnewer : ∀ other ∈ heard, other.policy.path = m.policy.path →
      other.sequence < m.sequence := by
    intro other hother hpath
    obtain ⟨sequence, hget, hle⟩ := h.newest other hother
    rw [hpath] at hget
    refine UInt64.lt_of_le_of_lt hle ?_
    rw [← UInt64.not_le]
    exact fun hge => hstale ⟨sequence, hget, hge⟩
  have htaken := hsettled.takePath m.address m.policy.path m.sequence
  have hobserved := htaken.observe hwithin hfew haddress hnow
  constructor
  · intro path sequence hget
    rw [observe_policySequences, takePath_get] at hget
    split at hget
    next hpath =>
      exact ⟨m, mem_append_right _ (mem_singleton_self m), hpath.symm,
        Option.some.inj hget⟩
    next hpath =>
      obtain ⟨m', hm', hrest⟩ := h.recorded path sequence hget
      exact ⟨m', mem_append_left _ hm', hrest⟩
  · intro m' hm'
    rw [observe_policySequences, takePath_get]
    rcases mem_append.1 hm' with hin | hlast
    · split
      next hpath => exact ⟨m.sequence, rfl, UInt64.le_of_lt (hnewer m' hin hpath)⟩
      next hpath => exact h.newest m' hin
    · rw [mem_singleton.1 hlast, if_pos rfl]
      exact ⟨m.sequence, rfl, UInt64.le_refl _⟩
  · intro entry hentry policy hpolicy
    rcases (mem_update hobserved.wellFormed.addresses).1 hentry with
      ⟨hin, hother⟩ | ⟨old, -, hsame, rfl⟩
    · obtain ⟨hold, hfree⟩ := mem_takePath.1
        (mem_of_mem_observe htaken.wellFormed.addresses hin hother)
      obtain ⟨sequence, hspoken⟩ := h.spoken entry hold policy hpolicy
      refine ⟨sequence, (isLatest_concat_of_lt hnewer).2 (.inr ⟨?_, hspoken⟩)⟩
      intro hpath
      refine (hfree.resolve_left hother) ?_
      rw [pathOf, hpolicy]
      exact congrArg some hpath
    · refine ⟨m.sequence, (isLatest_concat_of_lt hnewer).2 (.inl ?_)⟩
      cases Option.some.inj hpolicy
      show Message.mk old.address m.policy m.healthy m.sequence = m
      rw [hsame]
  · intro m' hm'
    rcases (isLatest_concat_of_lt hnewer).1 hm' with rfl | ⟨hpath, hlatest⟩
    · obtain ⟨entry, hentry, hsame⟩ := exists_mem_observe
        (e.takePath m'.address m'.policy.path m'.sequence) m'.address now
      exact ⟨Endpoints.announce m'.policy m'.healthy entry,
        (mem_update hobserved.wellFormed.addresses).2 (.inr ⟨entry, hentry, hsame, rfl⟩),
        hsame, rfl, rfl⟩
    obtain ⟨entry, hentry, hwhere, hpolicy, hhealthy⟩ := h.present m' hlatest
    have hother : entry.address ≠ m.address := by
      intro hsame
      exact hpath (hone m' hlatest.1 (hwhere.symm.trans hsame))
    have htaken_mem : entry ∈ (e.takePath m.address m.policy.path m.sequence).entries := by
      refine mem_takePath.2 ⟨hentry, .inr ?_⟩
      rw [pathOf, hpolicy]
      exact fun heq => hpath (Option.some.inj heq)
    refine ⟨entry, (mem_update hobserved.wellFormed.addresses).2 (.inl ⟨?_, hother⟩),
      hwhere, hpolicy, hhealthy⟩
    exact (htaken.mem_observe hwithin hfew haddress hnow).2 (.inl ⟨htaken_mem, hother⟩)

theorem Tracks.apply (haddress : m.address ∈ addresses) (hnow : now ∈ times)
    (hdistinct : ∀ other ∈ heard, m.sequence = other.sequence → m = other)
    (hone : ∀ other ∈ heard, other.address = m.address → other.policy.path = m.policy.path) :
    Tracks (heard ++ [m]) (e.apply m.address m.policy m.healthy m.sequence now) := by
  rcases apply_cases e m.address m.policy m.healthy m.sequence now with
    ⟨hstale, heq⟩ | ⟨hstale, heq⟩
  · rw [heq]
    exact h.late hstale hdistinct
  · rw [heq]
    exact h.takeOver hsettled hwithin hfew haddress hnow hstale hone

end

end Tracks

/-! ## Deliveries -/

/-- What reaches the endpoints: a path policy message, whose source is observed before it is
applied, another frame of an address, or a reply that asks for targets. -/
inductive Arrival where
  | policy (m : Message) (observed applied : Instant)
  | plain (address : SocketAddr) (now : Instant)
  | reply (now : Instant)

namespace Arrival

/-- The calls an arrival makes. -/
def calls : Arrival → List Call
  | policy m observed applied =>
    [.observe m.address observed, .apply m.address m.policy m.healthy m.sequence applied]
  | plain address now => [.observe address now]
  | reply now => [.targets now]

/-- The clock readings of an arrival. -/
def instants : Arrival → List Instant
  | policy _ observed applied => [observed, applied]
  | plain _ now => [now]
  | reply now => [now]

/-- The address an arrival observes. -/
def source : Arrival → Option SocketAddr
  | policy m _ _ => some m.address
  | plain address _ => some address
  | reply _ => none

/-- The message an arrival brings. -/
def message : Arrival → Option Message
  | policy m _ _ => some m
  | plain _ _ => none
  | reply _ => none

end Arrival

/-- The messages arrive in some order, perhaps several times, among other frames of their addresses,
and all of it within the lifetime of an endpoint. -/
structure Delivery (messages : List Message) (arrivals : List Arrival) : Prop where
  distinct : (messages.map Message.sequence).Nodup
  onePath : ∀ m ∈ messages, ∀ m' ∈ messages, m.address = m'.address →
    m.policy.path = m'.policy.path
  few : (messages.map Message.address).dedup.length ≤ capacity
  complete : ∀ m, m ∈ messages ↔ m ∈ arrivals.filterMap Arrival.message
  known : ∀ address ∈ arrivals.filterMap Arrival.source, address ∈ messages.map Message.address
  within : ∀ t ∈ arrivals.flatMap Arrival.instants, ∀ t' ∈ arrivals.flatMap Arrival.instants,
    t - t' ≤ ttl

/-- The address, the selection and the health the table has for a path. -/
def announced (e : Endpoints) (path : Fin 64) : Option (SocketAddr × Bool × Bool) :=
  (e.entries.find? (isFor path)).map fun entry => (entry.address, entry.selected, entry.healthy)

/-- The message of a path with the highest sequence. -/
def highest (messages : List Message) (path : Fin 64) : Option Message :=
  (messages.filter fun m => decide (m.policy.path = path)).argmax fun m => m.sequence.toNat

section Delivery

variable {messages : List Message} {arrivals : List Arrival}

theorem Delivery.eq_of_sequence (h : Delivery messages arrivals) {m m' : Message}
    (hm : m ∈ messages) (hm' : m' ∈ messages) (heq : m.sequence = m'.sequence) : m = m' :=
  inj_on_of_nodup_map h.distinct hm hm' heq

/-- The whole delivery up to some arrival keeps the table in step with the messages heard. -/
theorem Delivery.tracks (h : Delivery messages arrivals) :
    ∀ before after, arrivals = before ++ after →
      (default.run (before.flatMap Arrival.calls)).Settled (messages.map Message.address)
        {t | t ∈ arrivals.flatMap Arrival.instants} ∧
      Tracks (before.filterMap Arrival.message) (default.run (before.flatMap Arrival.calls)) := by
  intro before
  induction before using List.reverseRecOn with
  | nil =>
    intro after _
    refine ⟨⟨wellFormed_default, ?_⟩, tracks_default⟩
    intro entry hentry
    exact absurd hentry not_mem_nil
  | append_singleton before arrival ih =>
    intro after hsplit
    rw [append_assoc] at hsplit
    obtain ⟨hsettled, htracks⟩ := ih _ hsplit
    have harrival : arrival ∈ arrivals := by
      rw [hsplit]
      simp
    have htime : ∀ t ∈ arrival.instants, t ∈ {t | t ∈ arrivals.flatMap Arrival.instants} :=
      fun t ht => mem_flatMap.2 ⟨arrival, harrival, ht⟩
    have hsource : ∀ address, arrival.source = some address →
        address ∈ messages.map Message.address := fun address heq =>
      h.known address (mem_filterMap.2 ⟨arrival, harrival, heq⟩)
    have hheard : ∀ m ∈ before.filterMap Arrival.message, m ∈ messages := by
      intro m hm
      refine (h.complete m).2 ?_
      rw [hsplit, filterMap_append]
      exact mem_append_left _ hm
    rw [flatMap_append, filterMap_append, run, foldl_append]
    change Settled _ _ (List.foldl call (default.run (before.flatMap Arrival.calls)) _) ∧
      Tracks _ (List.foldl call (default.run (before.flatMap Arrival.calls)) _)
    cases arrival with
    | policy m observed applied =>
      have hobserved := htime observed (by simp [Arrival.instants])
      have happlied := htime applied (by simp [Arrival.instants])
      have haddress := hsource m.address rfl
      have hm : m ∈ messages :=
        (h.complete m).2 (mem_filterMap.2 ⟨_, harrival, rfl⟩)
      have hsettled' := hsettled.observe h.within h.few haddress hobserved
      have htracks' := htracks.observe hsettled h.within h.few haddress hobserved
      refine ⟨hsettled'.apply h.within h.few haddress happlied _ _ _,
        htracks'.apply hsettled' h.within h.few haddress happlied ?_ ?_⟩
      · intro other hother heq
        exact h.eq_of_sequence hm (hheard other hother) heq
      · intro other hother heq
        exact h.onePath other (hheard other hother) m hm heq
    | plain address now =>
      have hnow := htime now (by simp [Arrival.instants])
      have haddress := hsource address rfl
      refine ⟨hsettled.observe h.within h.few haddress hnow, ?_⟩
      exact (append_nil _).symm ▸
        htracks.observe hsettled h.within h.few haddress hnow
    | reply now =>
      have hnow := htime now (by simp [Arrival.instants])
      have hprune : (default.run (before.flatMap Arrival.calls)).call (.targets now) =
          default.run (before.flatMap Arrival.calls) := hsettled.prune_eq h.within hnow
      show Settled _ _ (Endpoints.call _ (.targets now)) ∧
        Tracks _ (Endpoints.call _ (.targets now))
      rw [hprune]
      exact ⟨hsettled, (append_nil _).symm ▸ htracks⟩

theorem IsLatest.congr {heard : List Message} (h : ∀ m, m ∈ heard ↔ m ∈ messages) {m : Message}
    (hm : IsLatest heard m) : IsLatest messages m :=
  ⟨(h m).1 hm.1, fun other hother => hm.2 other ((h other).2 hother)⟩

theorem isLatest_of_highest {path : Fin 64} {m : Message} (h : highest messages path = some m) :
    IsLatest messages m ∧ m.policy.path = path := by
  have hmem := mem_filter.1 (argmax_mem h)
  have hpath := of_decide_eq_true hmem.2
  refine ⟨⟨hmem.1, ?_⟩, hpath⟩
  intro other hother hsame
  have hin : other ∈ messages.filter fun m => decide (m.policy.path = path) :=
    mem_filter.2 ⟨hother, decide_eq_true (hsame.trans hpath)⟩
  have hle := le_of_mem_argmax (f := fun m : Message => m.sequence.toNat) hin h
  exact UInt64.le_iff_toNat_le.2 hle

theorem Delivery.highest_eq (h : Delivery messages arrivals) {m : Message}
    (hm : IsLatest messages m) : highest messages m.policy.path = some m := by
  cases hmax : highest messages m.policy.path with
  | none =>
    have hempty := argmax_eq_none.1 hmax
    have hin : m ∈ messages.filter fun other => decide (other.policy.path = m.policy.path) :=
      mem_filter.2 ⟨hm.1, decide_eq_true rfl⟩
    rw [hempty] at hin
    exact absurd hin not_mem_nil
  | some m' =>
    obtain ⟨hlatest, hpath⟩ := isLatest_of_highest hmax
    have hle := hm.2 m' hlatest.1 hpath
    have hge := hlatest.2 m hm.1 hpath.symm
    rw [h.eq_of_sequence hlatest.1 hm.1 (UInt64.le_antisymm hle hge)]

theorem Tracks.announced_eq (h : Delivery messages arrivals) {e : Endpoints}
    (htracks : Tracks (arrivals.filterMap Arrival.message) e) (path : Fin 64) :
    e.announced path =
      (highest messages path).map fun m => (m.address, m.policy.selected, m.healthy) := by
  unfold announced
  cases hfind : e.entries.find? (isFor path) with
  | none =>
    cases hmax : highest messages path with
    | none => rfl
    | some m =>
      -- The highest message would have an entry that speaks for the path.
      obtain ⟨hlatest, hpath⟩ := isLatest_of_highest hmax
      obtain ⟨entry, hentry, -, hpolicy, -⟩ :=
        htracks.present m (hlatest.congr fun m => h.complete m)
      refine absurd ?_ (find?_eq_none.1 hfind entry hentry)
      rw [isFor_iff, pathOf, hpolicy]
      exact congrArg some hpath
  | some entry =>
    obtain ⟨policy, hpolicy, hpath⟩ :=
      Option.map_eq_some_iff.1 (isFor_iff.1 (find?_some hfind))
    obtain ⟨sequence, hlatest⟩ :=
      htracks.spoken entry (mem_of_find?_eq_some hfind) policy hpolicy
    have hmax := h.highest_eq (hlatest.congr fun m => (h.complete m).symm)
    rw [← hpath, hmax, Option.map_some, Endpoint.selected, hpolicy]
    rfl

/-- Whatever the order of delivery, every path ends at what its highest-sequence message says; and
in every state of every run addresses are unique, at most one entry speaks for a path and the table
is bounded. -/
theorem endpoints_converge :
    (∀ (messages : List Message) (arrivals : List Arrival), Delivery messages arrivals →
      ∀ path, (default.run (arrivals.flatMap Arrival.calls)).announced path =
        (highest messages path).map fun m => (m.address, m.policy.selected, m.healthy)) ∧
    ∀ calls : List Call, (default.run calls).WellFormed := by
  refine ⟨?_, fun calls => wellFormed_run wellFormed_default calls⟩
  intro messages arrivals h path
  obtain ⟨-, htracks⟩ := h.tracks arrivals [] (List.append_nil arrivals).symm
  exact htracks.announced_eq h path

/-- Two policies of one path, the newer one delivered first and then both again. -/
theorem endpoints_converge_reordered :
    let address (port : UInt16) : SocketAddr := .v4 (192, 0, 2, 1) port
    let old : Message := ⟨address 1000, ⟨3, true⟩, true, 7⟩
    let new : Message := ⟨address 2000, ⟨3, false⟩, true, 9⟩
    let arrivals : List Arrival :=
      [.policy new 0 1, .plain (address 1000) 2, .policy old 3 4, .policy new 5 6, .reply 7]
    (default.run (arrivals.flatMap Arrival.calls)).announced 3 = some (address 2000, false,
      true) := by
  intro address old new arrivals
  refine (endpoints_converge.1 [old, new] arrivals ⟨?_, ?_, ?_, ?_, ?_, ?_⟩ 3).trans ?_
  · decide
  · decide
  · decide
  · intro m
    simp [arrivals, Arrival.message]
    tauto
  · decide
  · decide
  · decide

end Delivery

end Endpoints

end GamePath.Relay
