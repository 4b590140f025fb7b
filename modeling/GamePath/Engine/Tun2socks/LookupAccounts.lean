import GamePath.Engine.Tun2socks.LookupStreams

/-!
# Where every lookup is

Every lookup is in flight on one stream, or it is over; a call only ever moves lookups from the one
to the other or from stream to stream. `Places` says so of one call, with what it needs and what it
keeps of the streams (`Sound`). A call returns where the streams to the resolver have room
(`RoomFor`), and sending the lookups of a lost stream again always has it, for the lost stream has
made room for them.
-/

namespace GamePath.Engine.Tun2socks

open Lib List KeyedMap
open KeyedMap (get?_eq_some_iff get?_insert get?_insert_self mem_entriesIn)
open Option (map_eq_some_iff some.inj)

/-- A later state of a stream. -/
structure DnsUpstream.Grows (d d' : DnsUpstream) : Prop where
  resolver : d'.resolver = d.resolver
  carried : d.carried <+: d'.carried
  messages : d.messages <+: d'.messages

theorem DnsUpstream.Grows.refl (d : DnsUpstream) : d.Grows d := ⟨rfl, prefix_rfl, prefix_rfl⟩

theorem DnsUpstream.Grows.trans {d d' d'' : DnsUpstream} (h : d.Grows d') (h' : d'.Grows d'') :
    d.Grows d'' :=
  ⟨h'.resolver.trans h.resolver, h.carried.trans h'.carried, h.messages.trans h'.messages⟩

theorem DnsUpstream.send_grows (d : DnsUpstream) (id : UInt16) (query : DnsQuery) (o : Outside) :
    d.Grows (d.send id query o) := by
  obtain ⟨-, hcarried, hmessages, hresolver⟩ := d.send_inFlight id query o
  exact ⟨hresolver, ⟨_, hcarried.symm⟩, ⟨[], by rw [hmessages, append_nil]⟩⟩

theorem DnsUpstream.Settles.grows {client : Octets} {stream : Nat} {d d' : DnsUpstream}
    {settled : List Settled} (h : DnsUpstream.Settles client stream d d' settled) : d.Grows d' := by
  obtain ⟨more, hmore⟩ := h.messages
  exact ⟨h.resolver, ⟨[], by rw [h.carried, append_nil]⟩, ⟨more, hmore.symm⟩⟩

namespace Lookups

variable {s s' : Lookups} {resolver : Octets} {t : Nat} {d d' : DnsUpstream}

/-- The queries in flight. -/
def flying (s : Lookups) : List DnsQuery := s.dns.entries.flatMap fun e => e.2.queries

/-- How many streams are open to a resolver. -/
def openTo (s : Lookups) (resolver : Octets) :
    Nat := (s.dns.entries.map fun e => e.2.resolver).count resolver

/-- The streams that were ever open. -/
def streams (s : Lookups) : List (Nat × DnsUpstream) := s.dns.entries ++ s.closed

/-- The query is in flight on the stream, under the id. -/
def Holds (s : Lookups) (t : Nat) (i : UInt16) (q : DnsQuery) : Prop :=
  ∃ d, s.dns.get? t = some d ∧ d.inFlight.get? i = some q

/-- The query is a lookup that was asked. -/
def Knows (s : Lookups) (resolver : Octets) (q : DnsQuery) : Prop :=
  s.asked[q.number]? = some ⟨q.localPort, resolver, q.message⟩ ∧ q.id = messageId q.message ∧
    Sendable q.message

/-- Nothing is lost on the streams, there are not too many of them, and what is in flight was asked.
-/
structure Sound (s : Lookups) : Prop where
  fresh : ∀ t d, s.dns.get? t = some d → t ≤ s.nextDnsStream
  tidy : ∀ t d, s.dns.get? t = some d → d.Cut s.credentials
  filed : ∀ t d, s.dns.get? t = some d → d.Filed
  limit : ∀ resolver, s.openTo resolver ≤ dnsStreamsPerResolver
  asks : ∀ t d i q, s.dns.get? t = some d → d.inFlight.get? i = some q → s.Knows d.resolver q
  framed : ∀ e ∈ s.closed, e.2.Framed

/-- A later state of the stack. -/
structure Extends (s s' : Lookups) : Prop where
  client : s'.client = s.client
  credentials : s'.credentials = s.credentials
  asked : s.asked <+: s'.asked
  streams : ∀ e ∈ s.streams, ∃ d', (e.1, d') ∈ s'.streams ∧ e.2.Grows d'

theorem Extends.refl (s : Lookups) : s.Extends s :=
  ⟨rfl, rfl, prefix_rfl, fun e he => ⟨e.2, he, DnsUpstream.Grows.refl e.2⟩⟩

theorem Extends.trans {s'' : Lookups} (h : s.Extends s') (h' : s'.Extends s'') : s.Extends s'' where
  client := h'.client.trans h.client
  credentials := h'.credentials.trans h.credentials
  asked := h.asked.trans h'.asked
  streams e he := by
    obtain ⟨d', hd', hgrows⟩ := h.streams e he
    obtain ⟨d'', hd'', hgrows'⟩ := h'.streams (e.1, d') hd'
    exact ⟨d'', hd'', hgrows.trans hgrows'⟩

theorem Knows.extends {q : DnsQuery} (h : s.Knows resolver q) (hext : s.Extends s') :
    s'.Knows resolver q := by
  obtain ⟨hasked, hid, hsend⟩ := h
  obtain ⟨more, hmore⟩ := hext.asked
  refine ⟨?_, hid, hsend⟩
  rw [← hmore, List.getElem?_append_left (List.getElem?_eq_some_iff.1 hasked).1]
  exact hasked

end Lookups

/-- The reply is the one to its lookup: addressed to the asker, under the asker's id, and either the
message that its stream brought under its id there, or SERVFAIL. Where no id was answered twice on
the stream, the lookup is the first that was sent under its id. -/
def Settled.Suits (s : Lookups) (r : Settled) : Prop :=
  s.Knows r.resolver r.query ∧
    match r.answer with
    | none =>
      r.packet = (servfail r.query.message).map (buildUdp ⟨r.resolver, dnsPort⟩ ⟨s.client,
        r.query.localPort⟩)
    | some (t, i, message) =>
      r.packet = some (buildUdp ⟨r.resolver, dnsPort⟩ ⟨s.client, r.query.localPort⟩
        (withId r.query.id message)) ∧
        i = messageId message ∧ 12 ≤ message.length ∧
        ∃ d, (t, d) ∈ s.streams ∧ d.resolver = r.resolver ∧ message ∈ d.messages ∧ (i, r.query) ∈
          d.carried ∧
          ((answerIds d.messages).Nodup → d.firstUnder i = some r.query)

theorem DnsUpstream.Grows.firstUnder {d d' : DnsUpstream} (h : d.Grows d') {i : UInt16}
    {q : DnsQuery} (hfirst : d.firstUnder i = some q) : d'.firstUnder i = some q := by
  obtain ⟨more, hmore⟩ := h.carried
  rw [DnsUpstream.firstUnder] at hfirst ⊢
  obtain ⟨e, he, rfl⟩ := map_eq_some_iff.1 hfirst
  rw [← hmore, find?_append, he]
  rfl

theorem Settled.Suits.extends {s s' : Lookups} {r : Settled} (h : r.Suits s) (hext : s.Extends s') :
    r.Suits s' := by
  obtain ⟨hknows, hreply⟩ := h
  refine ⟨hknows.extends hext, ?_⟩
  cases hanswer : r.answer with
  | none =>
    rw [hanswer] at hreply
    rw [hreply, hext.client]
  | some answer =>
    rw [hanswer] at hreply
    obtain ⟨hpacket, hi, hlen, d, hd, hresolver, hmem, hcarried, hfirst⟩ := hreply
    obtain ⟨d', hd', hgrows⟩ := hext.streams _ hd
    rw [hpacket, hext.client]
    refine ⟨rfl, hi, hlen, d', hd', hgrows.resolver.trans hresolver, hgrows.messages.subset hmem,
      hgrows.carried.subset hcarried, fun hnodup => hgrows.firstUnder (hfirst ?_)⟩
    obtain ⟨more, hmore⟩ := hgrows.messages
    rw [← hmore, answerIds_append] at hnodup
    exact (nodup_append.1 hnodup).1

/-! ## Choosing a stream -/

theorem scanStreams_idle {resolver : Octets} (l : List (Nat × DnsUpstream)) : ∀ {count : Nat}
    {leastBusy : Option (Nat × Nat)} {t : Nat}, scanStreams resolver l count leastBusy = .idle t →
    ∃ d, (t, d) ∈ l ∧ d.resolver = resolver ∧ d.inFlight.entries = [] := by
  induction l with
  | nil => exact nofun
  | cons e l ih =>
    obtain ⟨id, d⟩ := e
    intro count leastBusy t h
    rw [scanStreams] at h
    split at h
    · obtain ⟨d', hd', hrest⟩ := ih h
      exact ⟨d', mem_cons_of_mem _ hd', hrest⟩
    next hresolver =>
      split at h
      next hidle =>
        obtain rfl : id = t := by simpa using h
        exact ⟨d, mem_cons_self, by simpa using hresolver, by simpa using hidle⟩
      · obtain ⟨d', hd', hrest⟩ := ih h
        exact ⟨d', mem_cons_of_mem _ hd', hrest⟩

/-- What the loop found when no stream was idle: the streams of the resolver were counted, and the
least busy is one of them that is at most as busy as any. -/
structure Scanned (resolver : Octets) (l : List (Nat × DnsUpstream)) (count : Nat)
    (leastBusy : Option (Nat × Nat)) (count' : Nat) (leastBusy' : Option (Nat × Nat)) : Prop where
  counted : count' = count + (l.map fun e => e.2.resolver).count resolver
  least : ∀ e ∈ l, e.2.resolver = resolver → ∃ y, leastBusy' = some y ∧ y.2 ≤ e.2.inFlight.size
  before : ∀ x, leastBusy = some x → ∃ y, leastBusy' = some y ∧ y.2 ≤ x.2
  found : ∀ y, leastBusy' = some y → leastBusy = some y ∨
    ∃ e ∈ l, e.1 = y.1 ∧ e.2.resolver = resolver ∧ e.2.inFlight.size = y.2

theorem scanStreams_busy {resolver : Octets} (l : List (Nat × DnsUpstream)) : ∀ {count count' : Nat}
    {leastBusy leastBusy' : Option (Nat × Nat)}, scanStreams resolver l count leastBusy =
      .busy count' leastBusy' →
    Scanned resolver l count leastBusy count' leastBusy' := by
  induction l with
  | nil =>
    intro count count' leastBusy leastBusy' h
    obtain ⟨rfl, rfl⟩ : count = count' ∧ leastBusy = leastBusy' := by simpa [scanStreams] using h
    exact ⟨rfl, fun e he => absurd he not_mem_nil, fun x hx => ⟨x, hx, Nat.le_refl _⟩,
      fun y hy => .inl hy⟩
  | cons e l ih =>
    obtain ⟨id, d⟩ := e
    intro count count' leastBusy leastBusy' h
    rw [scanStreams] at h
    split at h
    next hother =>
      have hrest := ih h
      refine ⟨?_, ?_, hrest.before, ?_⟩
      · rw [map_cons, count_cons_of_ne hother]
        exact hrest.counted
      · intro e he hres
        rcases mem_cons.1 he with rfl | he
        · exact absurd hres hother
        · exact hrest.least e he hres
      · intro y hy
        rcases hrest.found y hy with hleast | ⟨e, he, hparts⟩
        · exact .inl hleast
        · exact .inr ⟨e, mem_cons_of_mem _ he, hparts⟩
    next hsame =>
      have hres : d.resolver = resolver := by simpa using hsame
      split at h
      · cases h
      have hrest := ih h
      -- The one that is kept is at most as busy as this stream and as the one before.
      have hkept : ∃ x, (if (leastBusy.all fun found => decide (d.inFlight.size < found.2)) =
          true then
          some (id, d.inFlight.size) else leastBusy) = some x ∧ x.2 ≤ d.inFlight.size ∧
          ∀ y, leastBusy = some y → x.2 ≤ y.2 := by
        cases leastBusy with
        | none => exact ⟨(id, d.inFlight.size), rfl, Nat.le_refl _, nofun⟩
        | some y =>
          by_cases hless : d.inFlight.size < y.2
          · refine ⟨(id, d.inFlight.size), by simp [hless], Nat.le_refl _, fun z hz => ?_⟩
            rw [← some.inj hz]
            exact Nat.le_of_lt hless
          · refine ⟨y, by simp [hless], Nat.le_of_not_lt hless, fun z hz => ?_⟩
            rw [← some.inj hz]
      obtain ⟨x, hx, hxd, hxbefore⟩ := hkept
      obtain ⟨y, hy, hyx⟩ := hrest.before x hx
      refine ⟨?_, ?_, ?_, ?_⟩
      · rw [map_cons, hres, count_cons_self, hrest.counted]
        omega
      · intro e he heres
        rcases mem_cons.1 he with rfl | he
        · exact ⟨y, hy, Nat.le_trans hyx hxd⟩
        · exact hrest.least e he heres
      · exact fun z hz => ⟨y, hy, Nat.le_trans hyx (hxbefore z hz)⟩
      · intro z hz
        rcases hrest.found z hz with hleast | ⟨e, he, hparts⟩
        · split at hleast
          · refine .inr ⟨(id, d), mem_cons_self, ?_⟩
            rw [← some.inj hleast]
            exact ⟨rfl, hres, rfl⟩
          · exact .inl hleast
        · exact .inr ⟨e, mem_cons_of_mem _ he, hparts⟩

namespace Lookups

variable {s s' : Lookups} {resolver : Octets} {t : Nat} {d d' : DnsUpstream} {g : Sending}

theorem openTo_entriesIn (s : Lookups) (resolver : Octets) (order : List Nat) :
    ((s.dns.entriesIn order).map fun e => e.2.resolver).count resolver = s.openTo resolver :=
  ((s.dns.entriesIn_perm order).map _).count_eq resolver

/-- Whom `dns_stream_for` chooses: an idle or least busy stream to the resolver, or a new one where
there are not too many. -/
inductive Chooses (s : Lookups) (resolver : Octets) (g : Sending) :
    Option Nat × Lookups → Prop where
  | reuses (t : Nat) (d : DnsUpstream) (hget : s.dns.get? t = some d) (hresolver : d.resolver =
    resolver)
      (hleast : d.inFlight.entries = [] ∨ (dnsStreamsPerResolver ≤ s.openTo resolver ∧
        ∀ t' d', s.dns.get? t' = some d' → d'.resolver = resolver → d.inFlight.size ≤
          d'.inFlight.size)) :
      Chooses s resolver g (some t, s)
  | dials (hfew : s.openTo resolver < dnsStreamsPerResolver) :
      Chooses s resolver g (s.dialDnsStream resolver g)

theorem dnsStreamFor_chooses (s : Lookups) (resolver : Octets) (g : Sending) :
    Chooses s resolver g (s.dnsStreamFor resolver g) := by
  rw [dnsStreamFor]
  cases hscan : scanStreams resolver (s.dns.entriesIn g.order) 0 none with
  | idle t =>
    obtain ⟨d, hd, hresolver, hidle⟩ := scanStreams_idle _ hscan
    exact .reuses t d (get?_eq_some_iff.2 (mem_entriesIn.1 hd)) hresolver (.inl hidle)
  | busy count leastBusy =>
    have hscanned := scanStreams_busy _ hscan
    have hcount : count = s.openTo resolver := by
      rw [hscanned.counted, openTo_entriesIn, Nat.zero_add]
    dsimp only
    split
    next hmany =>
      -- There are streams to the resolver, and so a least busy one.
      have hpos : 0 < s.openTo resolver := by
        rw [← hcount]
        exact Nat.lt_of_lt_of_le (by decide) hmany
      obtain ⟨e, he, heres⟩ := mem_map.1 (count_pos_iff.1 hpos)
      obtain ⟨y, rfl, -⟩ := hscanned.least e (mem_entriesIn.2 he) heres
      rcases hscanned.found y rfl with hnone | ⟨e', he', hid, hres', hsize⟩
      · cases hnone
      have hget : s.dns.get? y.1 = some e'.2 := by
        rw [get?_eq_some_iff, ← hid]
        exact mem_entriesIn.1 he'
      refine .reuses y.1 e'.2 hget hres' (.inr ⟨hcount ▸ hmany, fun t' d' hget' hres => ?_⟩)
      obtain ⟨z, hz, hle⟩ := hscanned.least (t', d')
        (mem_entriesIn.2 (get?_eq_some_iff.1 hget')) hres
      rw [hsize, some.inj hz]
      exact hle
    · next hfew => exact .dials (by omega)

/-! ## One stream changes -/

/-- A stream of the stack is replaced by a later state of itself. -/
def put (s : Lookups) (t : Nat) (d : DnsUpstream) : Lookups := { s with dns := s.dns.insert t d }

/-- The queries in flight on the other streams. -/
def elsewhere (s : Lookups) (t : Nat) :
    List DnsQuery := (s.dns.erase t).entries.flatMap fun e => e.2.queries

theorem flying_perm (hget : s.dns.get? t = some d) : s.flying.Perm (d.queries ++ s.elsewhere t) :=
  (perm_cons_erase hget).flatMap_right _

theorem flying_put (s : Lookups) (t : Nat) (d : DnsUpstream) :
    (s.put t d).flying = d.queries ++ s.elsewhere t := rfl

theorem openTo_erase (hget : s.dns.get? t = some d) (resolver : Octets) :
    s.openTo resolver = ((s.dns.erase t).entries.map fun e => e.2.resolver).count resolver +
      if d.resolver = resolver then 1 else 0 := by
  have hperm := ((perm_cons_erase hget).map fun e => e.2.resolver).count_eq resolver
  rw [map_cons, count_cons] at hperm
  rw [openTo]
  simpa using hperm

theorem openTo_put (hget : s.dns.get? t = some d) (hresolver : d'.resolver = d.resolver)
    (resolver : Octets) :
    (s.put t d').openTo resolver = s.openTo resolver := by
  rw [openTo_erase hget resolver, ← hresolver]
  show (((t, d') :: (s.dns.erase t).entries).map fun e => e.2.resolver).count resolver = _
  rw [map_cons, count_cons]
  simp

theorem put_extends (hget : s.dns.get? t = some d) (hgrows : d.Grows d') :
    s.Extends (s.put t d') := by
  refine ⟨rfl, rfl, prefix_rfl, fun e he => ?_⟩
  rcases mem_append.1 he with hlive | hclosed
  · by_cases ht : e.1 = t
    · refine ⟨d', mem_append_left _ ?_, ?_⟩
      · rw [ht]
        exact mem_insert.2 (.inl rfl)
      · have hsame : s.dns.get? t = some e.2 := by
          rw [← ht]
          exact get?_eq_some_iff.2 hlive
        rw [← some.inj (hget.symm.trans hsame)]
        exact hgrows
    · exact ⟨e.2, mem_append_left _ (mem_insert.2 (.inr ⟨hlive, ht⟩)), DnsUpstream.Grows.refl _⟩
  · exact ⟨e.2, mem_append_right _ hclosed, DnsUpstream.Grows.refl _⟩

theorem Sound.put (h : s.Sound) (hget : s.dns.get? t = some d)
    (hresolver : d'.resolver = d.resolver) (htidy : d'.Cut s.credentials) (hfiled : d'.Filed)
    (hasks : ∀ i q, d'.inFlight.get? i = some q → s.Knows d'.resolver q) : (s.put t d').Sound := by
  have hback : ∀ j f, (s.put t d').dns.get? j = some f → (j = t ∧ f = d') ∨ s.dns.get? j =
      some f := by
    intro j f hf
    rw [Lookups.put, get?_insert] at hf
    split at hf
    · next hj => exact .inl ⟨hj, (some.inj hf).symm⟩
    · exact .inr hf
  refine ⟨fun j f hf => ?_, fun j f hf => ?_, fun j f hf => ?_, fun r => ?_,
    fun j f i q hf hq => ?_, h.framed⟩
  · rcases hback j f hf with ⟨rfl, rfl⟩ | hf
    · exact h.fresh j d hget
    · exact h.fresh j f hf
  · rcases hback j f hf with ⟨rfl, rfl⟩ | hf
    · exact htidy
    · exact h.tidy j f hf
  · rcases hback j f hf with ⟨rfl, rfl⟩ | hf
    · exact hfiled
    · exact h.filed j f hf
  · rw [openTo_put hget hresolver]
    exact h.limit r
  · rcases hback j f hf with ⟨rfl, rfl⟩ | hf
    · exact hasks i q hq
    · exact h.asks j f i q hf hq

/-- A stream that was just dialled. -/
def fresh (s : Lookups) (resolver : Octets) (g : Sending) : DnsUpstream :=
  ⟨resolver, Upstream.dial g.token (.proxy s.credentials) .connect ⟨resolver, dnsPort⟩, false,
    g.opened, [], [], KeyedMap.empty, [], []⟩

theorem fresh_filed (s : Lookups) (resolver : Octets) (g : Sending) : (s.fresh resolver g).Filed :=
  ⟨nofun, nofun,
    nofun⟩

theorem Sound.new_get? (h : s.Sound) : s.dns.get? (s.nextDnsStream + 1) = none := by
  rw [Option.eq_none_iff_forall_ne_some]
  intro d hd
  have := h.fresh _ d hd
  omega

theorem dialDnsStream_eq (s : Lookups) (resolver : Octets) (g : Sending) :
    s.dialDnsStream resolver g =
      if g.dialled then
        (some (s.nextDnsStream + 1),
          { s with
            nextDnsStream := s.nextDnsStream + 1
            dns := s.dns.insert (s.nextDnsStream + 1) (s.fresh resolver g) })
      else (none, { s with nextDnsStream := s.nextDnsStream + 1 }) := rfl

/-- What choosing a stream keeps. -/
structure Chosen (s : Lookups) (resolver : Octets) (choice : Option Nat) (s' : Lookups) : Prop where
  sound : s'.Sound
  extended : s.Extends s'
  asked : s'.asked = s.asked
  flying : s'.flying = s.flying
  holds : ∀ t i q, s.Holds t i q → s'.Holds t i q
  chosen : ∀ t, choice = some t → ∃ d, s'.dns.get? t = some d ∧ d.resolver = resolver

theorem Sound.passed (h : s.Sound) :
    ({ s with nextDnsStream := s.nextDnsStream + 1 } : Lookups).Sound :=
  ⟨fun t d hd => Nat.le_succ_of_le (h.fresh t d hd), h.tidy, h.filed, h.limit, h.asks, h.framed⟩

theorem dnsStreamFor_chosen (h : s.Sound) (resolver : Octets) (g : Sending) :
    Chosen s resolver (s.dnsStreamFor resolver g).1 (s.dnsStreamFor resolver g).2 := by
  have hchooses := dnsStreamFor_chooses s resolver g
  generalize s.dnsStreamFor resolver g = result at hchooses
  cases hchooses with
  | reuses t d hget hresolver _ =>
    refine ⟨h, Extends.refl s, rfl, rfl, fun _ _ _ => id, fun t' ht => ?_⟩
    rw [← some.inj ht]
    exact ⟨d, hget, hresolver⟩
  | dials hfew =>
    rw [dialDnsStream_eq]
    cases g.dialled with
    | false =>
      exact ⟨h.passed, ⟨rfl, rfl, prefix_rfl, (Extends.refl s).streams⟩, rfl, rfl, fun _ _ _ => id,
        nofun⟩
    | true =>
      have hnone := h.new_get?
      have hentries : (s.dns.insert (s.nextDnsStream + 1) (s.fresh resolver g)).entries =
          (s.nextDnsStream + 1, s.fresh resolver g) :: s.dns.entries := by
        show _ :: (s.dns.erase (s.nextDnsStream + 1)).entries = _
        rw [entries_erase_of_get?_none hnone]
      have hother : ∀ j f, s.dns.get? j = some f → j ≠ s.nextDnsStream + 1 := by
        rintro j f hf rfl
        rw [hnone] at hf
        cases hf
      have hback :
          ∀ j f, (s.dns.insert (s.nextDnsStream + 1) (s.fresh resolver g)).get? j = some f →
          (j = s.nextDnsStream + 1 ∧ f = s.fresh resolver g) ∨ s.dns.get? j = some f := by
        intro j f hf
        rw [get?_insert] at hf
        split at hf
        · next hj => exact .inl ⟨hj, (some.inj hf).symm⟩
        · exact .inr hf
      refine ⟨⟨fun j f hf => ?_, fun j f hf => ?_, fun j f hf => ?_, fun r => ?_,
        fun j f i q hf hq => ?_, h.framed⟩, ⟨rfl, rfl, prefix_rfl, fun e he => ?_⟩, rfl, ?_, ?_, ?_⟩
      · rcases hback j f hf with ⟨rfl, -⟩ | hf
        · exact Nat.le_refl _
        · exact Nat.le_succ_of_le (h.fresh j f hf)
      · rcases hback j f hf with ⟨-, rfl⟩ | hf
        · exact DnsUpstream.dialled_cut _ _ _ _
        · exact h.tidy j f hf
      · rcases hback j f hf with ⟨-, rfl⟩ | hf
        · exact s.fresh_filed resolver g
        · exact h.filed j f hf
      · show ((s.dns.insert _ _).entries.map fun e => e.2.resolver).count r ≤ _
        rw [hentries, map_cons, count_cons]
        have hlimit := h.limit r
        split
        next hr =>
          have hsame : resolver = r := by simpa [Lookups.fresh] using hr
          rw [← hsame]
          exact hfew
        · exact hlimit
      · rcases hback j f hf with ⟨-, rfl⟩ | hf
        · simp [Lookups.fresh] at hq
        · exact h.asks j f i q hf hq
      · refine ⟨e.2, ?_, DnsUpstream.Grows.refl _⟩
        rcases mem_append.1 he with hlive | hclosed
        · refine mem_append_left _ ?_
          show e ∈ (s.dns.insert _ _).entries
          rw [hentries]
          exact mem_cons_of_mem _ hlive
        · exact mem_append_right _ hclosed
      · show (s.dns.insert _ _).entries.flatMap _ = _
        rw [hentries]
        rfl
      · rintro t i q ⟨d, hd, hq⟩
        refine ⟨d, ?_, hq⟩
        exact (get?_insert _ _ _ _).trans ((if_neg (hother t d hd)).trans hd)
      · intro t ht
        rw [← some.inj ht]
        exact ⟨_, get?_insert_self _ _ _, rfl⟩

/-! ## Sending -/

/-- A call that was given some lookups to place: they are in flight or over afterwards, like those
that were in flight before, and no other is. -/
structure Places (s : Lookups) (numbers : List Nat) (s' : Lookups) (settled : List Settled) :
    Prop where
  sound : s'.Sound
  extended : s.Extends s'
  asked : s'.asked = s.asked
  placed : (s'.flying.map DnsQuery.number ++ settled.map fun r => r.query.number).Perm
    (s.flying.map DnsQuery.number ++ numbers)
  suits : ∀ r ∈ settled, r.Suits s'

theorem Places.refl (h : s.Sound) : Places s [] s [] :=
  ⟨h, Extends.refl s, rfl, List.Perm.refl _, nofun⟩

theorem Places.trans {s'' : Lookups} {numbers numbers' : List Nat} {settled settled' : List Settled}
    (h : Places s numbers s' settled) (h' : Places s' numbers' s'' settled') :
    Places s (numbers ++ numbers') s'' (settled ++ settled') := by
  refine ⟨h'.sound, h.extended.trans h'.extended, h'.asked.trans h.asked, ?_, fun r hr => ?_⟩
  · rw [map_append, ← append_assoc]
    -- Both sides are what is in flight in the end, what was settled first and what was settled
    -- then.
    have hfirst := h.placed.append_right numbers'
    have hthen := h'.placed.append_right (settled.map fun r => r.query.number)
    have hswap : ∀ a b c : List Nat, (a ++ b ++ c).Perm (a ++ c ++ b) := by
      intro a b c
      rw [append_assoc, append_assoc]
      exact perm_append_comm.append_left a
    rw [← append_assoc (s.flying.map DnsQuery.number)]
    exact (hswap _ _ _).trans (hthen.trans ((hswap _ _ _).trans hfirst))
  · rcases mem_append.1 hr with hr | hr
    · exact (h.suits r hr).extends h'.extended
    · exact h'.suits r hr

theorem failLookup_suits {q : DnsQuery} (h : s.Knows resolver q) :
    (s.failLookup resolver q).Suits s := ⟨h, rfl⟩

/-- A lookup that was sent is in flight, or it failed. -/
structure Sends (s : Lookups) (number : Nat) (retried : Bool) (s' : Lookups)
    (settled : List Settled) : Prop where
  places : Places s [number] s' settled
  holds : ∀ t i q, s.Holds t i q → s'.Holds t i q
  lands : (∃ r ∈ settled, r.query.number = number) ∨
    ∃ t i q, s'.Holds t i q ∧ q.number = number ∧ q.retried = retried

theorem sendLookup_sends {number : Nat} {localPort : UInt16} {query : Bytes} {retried : Bool}
    {settled : List Settled}
    (h : s.Sound) (hknown : s.asked[number]? = some ⟨localPort, resolver, query⟩)
    (hsend : Sendable query)
    (hret : s.sendLookup number localPort resolver query retried g = some (s', settled)) :
    Sends s number retried s' settled := by
  have hchosen := dnsStreamFor_chosen h resolver g
  rw [sendLookup, if_pos hsend] at hret
  generalize s.dnsStreamFor resolver g = chosen at hchosen hret
  obtain ⟨choice, s₁⟩ := chosen
  have hknows : s₁.Knows resolver ⟨localPort, messageId query, g.now, query, retried, number⟩ := by
    refine ⟨?_, rfl, hsend⟩
    rw [hchosen.asked]
    exact hknown
  cases choice with
  | none =>
    cases hret
    refine ⟨⟨hchosen.sound, hchosen.extended, hchosen.asked, ?_, ?_⟩, hchosen.holds, ?_⟩
    · rw [hchosen.flying]
      exact List.Perm.refl _
    · intro r hr
      rw [mem_singleton.1 hr]
      exact failLookup_suits hknows
    · exact .inl ⟨_, mem_cons_self, rfl⟩
  | some t =>
    obtain ⟨d, hd, hresolver⟩ := hchosen.chosen t rfl
    obtain ⟨d₀, hd₀, hmap⟩ := Option.bind_eq_some_iff.1 hret
    cases hd.symm.trans hd₀
    obtain ⟨id, hid, hresult⟩ := map_eq_some_iff.1 hmap
    cases hresult
    have hfree := freeId_free 65536 hid
    obtain ⟨hflight, -, -, hsame⟩ := d.send_inFlight id
      ⟨localPort, messageId query, g.now, query, retried, number⟩ g.outside
    have hsound : (s₁.put t (d.send id ⟨localPort, messageId query, g.now, query, retried,
        number⟩ g.outside)).Sound := by
      apply hchosen.sound.put hd hsame
      · exact DnsUpstream.send_cut (hchosen.sound.tidy t d hd) _ _ _
      · exact DnsUpstream.send_filed (hchosen.sound.filed t d hd) hfree _ _
      intro i q hq
      rw [hsame]
      rw [hflight, get?_insert] at hq
      split at hq
      · rw [← some.inj hq, hresolver]
        exact hknows
      · exact hchosen.sound.asks t d i q hd hq
    have hput := put_extends hd (d.send_grows id ⟨localPort, messageId query, g.now, query, retried,
      number⟩ g.outside)
    refine ⟨⟨hsound, hchosen.extended.trans hput, hchosen.asked, ?_, by simp⟩, ?_, ?_⟩
    · show ((s₁.put t _).flying.map DnsQuery.number ++ []).Perm _
      rw [flying_put, append_nil, DnsUpstream.queries, hflight, ← hchosen.flying]
      have hqueries : (d.inFlight.insert id ⟨localPort, messageId query, g.now, query, retried,
          number⟩).entries.map
          Prod.snd = ⟨localPort, messageId query, g.now, query, retried, number⟩ :: d.queries := by
        show ((id, _) :: (d.inFlight.erase id).entries).map Prod.snd = _
        rw [entries_erase_of_get?_none hfree]
        rfl
      rw [hqueries]
      have hperm := (flying_perm hd).map DnsQuery.number
      exact (hperm.symm.cons number).trans (perm_append_singleton _ _).symm
    · rintro t' i q hq
      obtain ⟨d', hd', hq'⟩ := hchosen.holds t' i q hq
      by_cases ht : t' = t
      · subst ht
        cases hd.symm.trans hd'
        refine ⟨_, get?_insert_self _ _ _, ?_⟩
        rw [hflight, get?_insert, if_neg]
        · exact hq'
        · rintro rfl
          rw [hfree] at hq'
          cases hq'
      · exact ⟨d', (get?_insert _ _ _ _).trans ((if_neg ht).trans hd'), hq'⟩
    · refine .inr ⟨t, id, ⟨localPort, messageId query, g.now, query, retried, number⟩,
        ⟨_, get?_insert_self _ _ _, ?_⟩, rfl, rfl⟩
      rw [hflight]
      exact get?_insert_self _ _ _

/-! ## Whole calls -/

/-- Where a query that was in flight is after a call: there still, over, or sent again, which is
once. -/
def Leaves (s' : Lookups) (settled : List Settled) (t : Nat) (i : UInt16) (q : DnsQuery) : Prop :=
  s'.Holds t i q ∨ (∃ r ∈ settled, r.query.number = q.number) ∨
    (q.retried = false ∧ ∃ t' i' q', s'.Holds t' i' q' ∧ q'.number = q.number ∧ q'.retried = true)

/-- What a call does to the lookups in flight. -/
structure Moves (s s' : Lookups) (settled : List Settled) : Prop where
  places : Places s [] s' settled
  leaves : ∀ t i q, s.Holds t i q → s'.Leaves settled t i q

theorem Moves.refl (h : s.Sound) : Moves s s [] := ⟨Places.refl h, fun _ _ _ hq => .inl hq⟩

theorem Moves.trans {s'' : Lookups} {settled settled' : List Settled} (h : Moves s s' settled)
    (h' : Moves s' s'' settled') : Moves s s'' (settled ++ settled') := by
  refine ⟨h.places.trans h'.places, fun t i q hq => ?_⟩
  rcases h.leaves t i q hq with hstill | ⟨r, hr, hrq⟩ | ⟨hfirst, t', i', q', hq', hnumber, hretried⟩
  · rcases h'.leaves t i q hstill with hstill' | ⟨r, hr, hrq⟩ | hresent
    · exact .inl hstill'
    · exact .inr (.inl ⟨r, mem_append_right _ hr, hrq⟩)
    · exact .inr (.inr hresent)
  · exact .inr (.inl ⟨r, mem_append_left _ hr, hrq⟩)
  · -- What was sent again is not sent a third time.
    rcases h'.leaves t' i' q' hq' with hstill' | ⟨r, hr, hrq⟩ | ⟨hnot, -⟩
    · exact .inr (.inr ⟨hfirst, t', i', q', hstill', hnumber, hretried⟩)
    · exact .inr (.inl ⟨r, mem_append_right _ hr, hrq.trans hnumber⟩)
    · cases hretried.symm.trans hnot

/-! ### A stream that is gone -/

theorem close_extends (hget : s.dns.get? t = some d) (hgrows : d.Grows d') :
    s.Extends (s.close t d') := by
  refine ⟨rfl, rfl, prefix_rfl, fun e he => ?_⟩
  rcases mem_append.1 he with hlive | hclosed
  · by_cases ht : e.1 = t
    · have hsame : s.dns.get? t = some e.2 := by
        rw [← ht]
        exact get?_eq_some_iff.2 hlive
      refine ⟨d', mem_append_right _ (mem_append_right _ ?_), ?_⟩
      · rw [ht]
        exact mem_cons_self
      · rw [← some.inj (hget.symm.trans hsame)]
        exact hgrows
    · exact ⟨e.2, mem_append_left _ (mem_erase.2 ⟨hlive, ht⟩), DnsUpstream.Grows.refl _⟩
  · exact ⟨e.2, mem_append_right _ (mem_append_left _ hclosed), DnsUpstream.Grows.refl _⟩

theorem close_get? {j : Nat} {f : DnsUpstream} (hf : (s.close t d').dns.get? j = some f) :
    j ≠ t ∧ s.dns.get? j = some f := by
  rw [close, get?_erase] at hf
  split at hf
  · cases hf
  · next hj => exact ⟨hj, hf⟩

theorem Sound.close (h : s.Sound) (hget : s.dns.get? t = some d) (hframed : d'.Framed) :
    (s.close t d').Sound := by
  refine ⟨fun j f hf => h.fresh j f (close_get? hf).2, fun j f hf => h.tidy j f (close_get? hf).2,
    fun j f hf => h.filed j f (close_get? hf).2, fun r => ?_, fun j f i q hf => h.asks j f i q
      (close_get? hf).2,
    fun e he => ?_⟩
  · have hlimit := h.limit r
    rw [openTo_erase hget r] at hlimit
    exact Nat.le_trans (Nat.le_add_right _ _) hlimit
  · rcases mem_snoc.1 he with hclosed | rfl
    · exact h.framed e hclosed
    · exact hframed

/-- The lookups of a stream that is gone: each is over, or in flight once more. -/
structure Resends (s : Lookups) (queries : List DnsQuery) (s' : Lookups) (settled : List Settled) :
    Prop where
  places : Places s (queries.map DnsQuery.number) s' settled
  holds : ∀ t i q, s.Holds t i q → s'.Holds t i q
  lands : ∀ q ∈ queries, (∃ r ∈ settled, r.query.number = q.number) ∨
    (q.retried = false ∧ ∃ t i q', s'.Holds t i q' ∧ q'.number = q.number ∧ q'.retried = true)

theorem resendAll_resends (sends : Nat → Sending) (queries : List DnsQuery) :
    ∀ {n : Nat} {s s' : Lookups}
    {settled : List Settled}, s.Sound → (∀ q ∈ queries, s.Knows resolver q) →
    resendAll resolver sends n queries s = some (s', settled) → Resends s queries s' settled := by
  induction queries with
  | nil =>
    intro n s s' settled h _ hret
    cases hret
    exact ⟨Places.refl h, fun _ _ _ => id, nofun⟩
  | cons query queries ih =>
    intro n s s' settled h hknows hret
    obtain ⟨⟨s₁, first⟩, hfirst, hmap⟩ := Option.bind_eq_some_iff.1 hret
    obtain ⟨⟨s₂, rest⟩, hrest, hresult⟩ := map_eq_some_iff.1 hmap
    cases hresult
    have hquery := hknows query mem_cons_self
    -- The first lookup is failed, or sent.
    have hone : Places s [query.number] s₁ first ∧ (∀ t i q, s.Holds t i q → s₁.Holds t i q) ∧
        ((∃ r ∈ first, r.query.number = query.number) ∨
          (query.retried = false ∧ ∃ t i q', s₁.Holds t i q' ∧ q'.number = query.number ∧
            q'.retried = true)) := by
      split at hfirst
      · cases hfirst
        refine ⟨⟨h, Extends.refl s, rfl, List.Perm.refl _, fun r hr => ?_⟩, fun _ _ _ => id,
          .inl ⟨_, mem_cons_self, rfl⟩⟩
        rw [mem_singleton.1 hr]
        exact failLookup_suits hquery
      next hretried =>
        have hsent := sendLookup_sends h hquery.1 hquery.2.2 hfirst
        refine ⟨hsent.places, hsent.holds, ?_⟩
        rcases hsent.lands with hover | hlands
        · exact .inl hover
        · exact .inr ⟨by simpa using hretried, hlands⟩
    obtain ⟨hplaces, hholds, hlands⟩ := hone
    have hknows' : ∀ q ∈ queries, s₁.Knows resolver q :=
      fun q hq => (hknows q (mem_cons_of_mem _ hq)).extends hplaces.extended
    have hmore := ih hplaces.sound hknows' hrest
    refine ⟨hplaces.trans hmore.places, fun t i q hq => hmore.holds t i q (hholds t i q hq),
      fun q hq => ?_⟩
    rcases mem_cons.1 hq with rfl | hq
    · rcases hlands with ⟨r, hr, hrq⟩ | ⟨hretried, t, i, q', hq', hparts⟩
      · exact .inl ⟨r, mem_append_left _ hr, hrq⟩
      · exact .inr ⟨hretried, t, i, q', hmore.holds t i q' hq', hparts⟩
    · rcases hmore.lands q hq with ⟨r, hr, hrq⟩ | hresent
      · exact .inl ⟨r, mem_append_right _ hr, hrq⟩
      · exact .inr hresent

theorem mem_queriesIn {inFlight : KeyedMap UInt16 DnsQuery} {order : List UInt16} {q : DnsQuery} :
    q ∈ queriesIn inFlight order ↔ ∃ i, inFlight.get? i = some q := by
  rw [queriesIn, mem_map]
  constructor
  · rintro ⟨⟨i, q'⟩, hmem, rfl⟩
    exact ⟨i, get?_eq_some_iff.2 (mem_entriesIn.1 hmem)⟩
  · rintro ⟨i, hi⟩
    exact ⟨(i, q), mem_entriesIn.2 (get?_eq_some_iff.1 hi), rfl⟩

theorem queriesIn_perm (d : DnsUpstream) (order : List UInt16) :
    (queriesIn d.inFlight order).Perm d.queries :=
  (d.inFlight.entriesIn_perm order).map Prod.snd

end Lookups

end GamePath.Engine.Tun2socks
