import GamePath.Engine.Tun2socks.Lookups
import GamePath.Engine.Tun2socks.RelayedBytes

/-!
# One stream to a resolver

What the stack writes to a stream after the handshake is the queries it carried, each framed and
under its id there. What it cuts out of the stream are the messages that come after the proxy's
answers, however the bytes arrive. A message settles the query that is in flight under its id, and
no query leaves the stream in another way.
-/

namespace GamePath.Engine.Tun2socks

open Lib List KeyedMap Handshake Upstream
open Direct (Text)
open Socks (Token)

/-! ## Ids and frames -/

@[simp] theorem messageId_withId (id : UInt16) (message : Bytes) :
    messageId (withId id message) = id :=
  u16OfBe_bytes id

theorem beU16_u16OfBe (hi lo : UInt8) : beU16 (u16OfBe hi lo) = [hi, lo] := by
  rw [beU16, hiByte_u16OfBe, loByte_u16OfBe]

theorem framed_take {hi lo : UInt8} {rest : Bytes} (h : (u16OfBe hi lo).toNat ≤ rest.length) :
    framed (rest.take (u16OfBe hi lo).toNat) = hi :: lo :: rest.take (u16OfBe hi lo).toNat := by
  have hlen : (rest.take (u16OfBe hi lo).toNat).length = (u16OfBe hi lo).toNat := by
    rw [length_take]
    omega
  have hback : UInt16.ofNat (u16OfBe hi lo).toNat = u16OfBe hi lo := UInt16.ofNat_toNat
  rw [framed, hlen, hback, beU16_u16OfBe]
  rfl

/-! ## Free ids -/

variable {inFlight : KeyedMap UInt16 DnsQuery}

theorem freeId_free (turns : Nat) : ∀ {start id : UInt16},
    freeId inFlight turns start = some id → inFlight.get? id = none := by
  induction turns with
  | zero => exact nofun
  | succ turns ih =>
    intro start id h
    rw [freeId] at h
    split at h
    · exact ih h
    next hfree =>
      rw [← Option.some.inj h]
      simpa using hfree

theorem freeId_none (turns : Nat) : ∀ {start : UInt16},
    freeId inFlight turns start = none → ∀ k, k < turns → inFlight.get? (start + UInt16.ofNat k) ≠
      none := by
  induction turns with
  | zero => exact fun _ k hk => absurd hk (Nat.not_lt_zero k)
  | succ turns ih =>
    intro start h k hk
    rw [freeId] at h
    split at h
    next htaken =>
      cases k with
      | zero => simpa [Option.isSome_iff_ne_none] using htaken
      | succ k =>
        have hrest := ih h k (Nat.lt_of_succ_lt_succ hk)
        have hsum : start + UInt16.ofNat (k + 1) = start + 1 + UInt16.ofNat k := by
          rw [UInt16.ofNat_add, UInt16.add_comm (UInt16.ofNat k), UInt16.add_assoc]
          rfl
        rw [hsum]
        exact hrest
    · cases h

theorem size_le_ids (inFlight : KeyedMap UInt16 DnsQuery) : inFlight.size ≤ 65536 := by
  have hnodup : ((inFlight.entries.map Prod.fst).map UInt16.toNat).Nodup :=
    inFlight.nodup.map fun _ _ h => UInt16.toNat_inj.1 h
  have hsub : ((inFlight.entries.map Prod.fst).map UInt16.toNat) ⊆ List.range 65536 := by
    intro n hn
    obtain ⟨id, -, rfl⟩ := mem_map.1 hn
    exact mem_range.2 id.toNat_lt
  have hlen := (hnodup.subperm hsub).length_le
  rw [length_map, length_map, length_range] at hlen
  exact hlen

theorem freeId_isSome (h : inFlight.size < 65536) (start : UInt16) :
    ∃ id, freeId inFlight 65536 start = some id := by
  cases hfree : freeId inFlight 65536 start with
  | some id => exact ⟨id, rfl⟩
  | none =>
    -- Every id would be in flight.
    have hall : List.range 65536 ⊆ (inFlight.entries.map Prod.fst).map UInt16.toNat := by
      intro n hn
      have hlt := mem_range.1 hn
      have htaken := freeId_none 65536 hfree (UInt16.ofNat n - start).toNat (UInt16.toNat_lt _)
      have hid : start + UInt16.ofNat (UInt16.ofNat n - start).toNat = UInt16.ofNat n := by
        rw [UInt16.ofNat_toNat, UInt16.add_comm, UInt16.sub_add_cancel]
      rw [hid] at htaken
      obtain ⟨query, hquery⟩ := Option.ne_none_iff_exists'.1 htaken
      rw [map_map]
      refine mem_map.2 ⟨_, get?_eq_some_iff.1 hquery, ?_⟩
      exact UInt16.toNat_ofNat_of_lt' hlt
    have hlen := (nodup_range.subperm hall).length_le
    rw [length_map, length_map, length_range] at hlen
    exact absurd h (Nat.not_lt.2 hlen)

/-! ## Cutting messages out -/

/-- The ids of the messages that can be answers. -/
def answerIds (messages : List Bytes) : List UInt16 :=
  (messages.filter fun message => decide (12 ≤ message.length)).map messageId

theorem answerIds_append (messages more : List Bytes) :
    answerIds (messages ++ more) = answerIds messages ++ answerIds more := by
  rw [answerIds, filter_append, map_append, ← answerIds, ← answerIds]

theorem mem_answerIds {messages : List Bytes} {message : Bytes} (hmem : message ∈ messages)
    (hlen : 12 ≤ message.length) :
    messageId message ∈ answerIds messages :=
  mem_map.2 ⟨message, mem_filter.2 ⟨hmem, decide_eq_true hlen⟩, rfl⟩

namespace DnsUpstream

/-- The queries that wait on the stream. -/
def queries (d : DnsUpstream) : List DnsQuery := d.inFlight.entries.map Prod.snd

/-- The reply to a query that a message on the stream answers. -/
structure AnswersIn (client : Octets) (stream : Nat) (d d' : DnsUpstream) (r : Settled) : Prop where
  resolver : r.resolver = d.resolver
  told : ∃ message, r.answer = some (stream, messageId message, message) ∧ message ∈ d'.messages ∧
    12 ≤ message.length ∧ d.inFlight.get? (messageId message) = some r.query ∧
    r.packet = some (buildUdp ⟨d.resolver, dnsPort⟩ ⟨client, r.query.localPort⟩
      (withId r.query.id message)) ∧
    ((answerIds d'.messages).Nodup → messageId message ∉ answerIds d.messages)

/-- What a stream settles: a message answers the query under its id, and nothing else leaves the
stream. -/
structure Settles (client : Octets) (stream : Nat) (d d' : DnsUpstream) (settled : List Settled) :
    Prop where
  resolver : d'.resolver = d.resolver
  carried : d'.carried = d.carried
  messages : ∃ more, d'.messages = d.messages ++ more
  waiting : d.queries.Perm (settled.map Settled.query ++ d'.queries)
  kept : ∀ i q, d'.inFlight.get? i = some q → d.inFlight.get? i = some q
  left : ∀ i q, d.inFlight.get? i = some q →
    d'.inFlight.get? i = some q ∨ (i ∈ answerIds d'.messages ∧ ∃ r ∈ settled, r.query = q)
  answers : ∀ r ∈ settled, AnswersIn client stream d d' r

variable {client : Octets} {stream : Nat} {d d' d'' : DnsUpstream} {settled more : List Settled}

theorem Settles.refl (client : Octets) (stream : Nat) (d : DnsUpstream) :
    Settles client stream d d [] where
  resolver := rfl
  carried := rfl
  messages := ⟨[], (append_nil _).symm⟩
  waiting := List.Perm.refl _
  kept _ _ h := h
  left _ _ h := .inl h
  answers _ h := absurd h not_mem_nil

theorem Settles.answerIds_subset (h : Settles client stream d d' settled) {i : UInt16}
    (hi : i ∈ answerIds d.messages) :
    i ∈ answerIds d'.messages := by
  obtain ⟨more, hmore⟩ := h.messages
  rw [hmore, answerIds_append]
  exact mem_append_left _ hi

theorem Settles.trans (h : Settles client stream d d' settled)
    (h' : Settles client stream d' d'' more) :
    Settles client stream d d'' (settled ++ more) := by
  obtain ⟨cut, hcut⟩ := h.messages
  obtain ⟨cut', hcut'⟩ := h'.messages
  have hids : answerIds d''.messages = answerIds d'.messages ++ answerIds cut' := by rw [hcut',
    answerIds_append]
  constructor
  · exact h'.resolver.trans h.resolver
  · exact h'.carried.trans h.carried
  · exact ⟨cut ++ cut', by rw [hcut', hcut, append_assoc]⟩
  · have hrest := h'.waiting.append_left (settled.map Settled.query)
    rw [← append_assoc, ← map_append] at hrest
    exact h.waiting.trans hrest
  · exact fun i q hq => h.kept i q (h'.kept i q hq)
  · intro i q hq
    rcases h.left i q hq with hstill | ⟨hin, r, hr, hrq⟩
    · rcases h'.left i q hstill with hstill' | ⟨hin', r, hr, hrq⟩
      · exact .inl hstill'
      · exact .inr ⟨hin', r, mem_append_right _ hr, hrq⟩
    · exact .inr ⟨h'.answerIds_subset hin, r, mem_append_left _ hr, hrq⟩
  · intro r hr
    rcases mem_append.1 hr with hr | hr
    · obtain ⟨hresolver, message, hanswer, hmem, hlen, hq, hpacket, hfirst⟩ := h.answers r hr
      refine ⟨hresolver, message, hanswer, ?_, hlen, hq, hpacket, fun hnodup => hfirst ?_⟩
      · rw [hcut']
        exact mem_append_left _ hmem
      · rw [hids] at hnodup
        exact (nodup_append.1 hnodup).1
    · obtain ⟨hresolver, message, hanswer, hmem, hlen, hq, hpacket, hfirst⟩ := h'.answers r hr
      refine ⟨hresolver.trans h.resolver, message, hanswer, hmem, hlen, h.kept _ _ hq, ?_,
        fun hnodup hin => ?_⟩
      · rw [hpacket, h.resolver]
      · exact hfirst hnodup (h.answerIds_subset hin)

/-- Two states of a stream that differ in nothing the queries depend on. -/
structure SameQueries (d d' : DnsUpstream) : Prop where
  resolver : d'.resolver = d.resolver
  inFlight : d'.inFlight = d.inFlight
  carried : d'.carried = d.carried
  messages : d'.messages = d.messages

theorem SameQueries.settles (h : SameQueries d d') (client : Octets) (stream : Nat) :
    Settles client stream d d' [] where
  resolver := h.resolver
  carried := h.carried
  messages := ⟨[], by rw [h.messages, append_nil]⟩
  waiting := by
    rw [queries, queries, h.inFlight]
    exact List.Perm.refl _
  kept _ _ hq := by rwa [h.inFlight] at hq
  left _ _ hq := .inl (by rwa [h.inFlight])
  answers _ hr := absurd hr not_mem_nil

/-- Cutting messages out: the stream settles queries, and the bytes are those of the messages and
what is left. -/
structure Cuts (client : Octets) (stream : Nat) (d d' : DnsUpstream) (settled : List Settled) : Prop
    extends Settles client stream d d' settled where
  upstream : d'.upstream = d.upstream
  ready : d'.ready = d.ready
  queued : d'.queued = d.queued
  cut : ∃ more, d'.messages = d.messages ++ more ∧ d.received = (more.map framed).flatten ++
    d'.received

theorem Cuts.refl (client : Octets) (stream : Nat) (d : DnsUpstream) : Cuts client stream d d [] :=
  ⟨Settles.refl client stream d, rfl, rfl, rfl, [], (append_nil _).symm, rfl⟩

theorem Cuts.trans (h : Cuts client stream d d' settled) (h' : Cuts client stream d' d'' more) :
    Cuts client stream d d'' (settled ++ more) := by
  obtain ⟨cut, hcut, hreceived⟩ := h.cut
  obtain ⟨cut', hcut', hreceived'⟩ := h'.cut
  refine ⟨h.toSettles.trans h'.toSettles, h'.upstream.trans h.upstream, h'.ready.trans h.ready,
    h'.queued.trans h.queued, cut ++ cut', ?_, ?_⟩
  · rw [hcut', hcut, append_assoc]
  · rw [hreceived, hreceived', map_append, flatten_append, append_assoc]

theorem answer_cuts {message : Bytes} (d : DnsUpstream) (client : Octets) (stream : Nat)
    {received : Bytes} (hreceived : d.received = framed message ++ received) :
    Cuts client stream d ({ d with received }.answer client stream message).1
      ({ d with received }.answer client stream message).2 := by
  have hcut : ∃ more, d.messages ++ [message] = d.messages ++ more ∧
      d.received = (more.map framed).flatten ++ received :=
    ⟨[message], rfl, by simpa using hreceived⟩
  rw [answer]
  split
  · exact ⟨⟨rfl, rfl, ⟨_, rfl⟩, List.Perm.refl _, fun _ _ => id, fun _ _ h => .inl h,
      by rintro _ ⟨⟩⟩, rfl, rfl, rfl, hcut⟩
  next hlen =>
    have hlong : 12 ≤ message.length := Nat.le_of_not_lt hlen
    split
    · exact ⟨⟨rfl, rfl, ⟨_, rfl⟩, List.Perm.refl _, fun _ _ => id, fun _ _ h => .inl h,
        by rintro _ ⟨⟩⟩, rfl, rfl, rfl, hcut⟩
    next query hquery =>
      refine ⟨⟨rfl, rfl, ⟨_, rfl⟩, ?_, ?_, ?_, ?_⟩, rfl, rfl, rfl, hcut⟩
      · exact (perm_cons_erase hquery).map Prod.snd
      · intro i q hq
        rw [get?_erase] at hq
        split at hq
        · cases hq
        · exact hq
      · intro i q hq
        by_cases hi : i = messageId message
        · subst hi
          cases hquery.symm.trans hq
          exact .inr ⟨mem_answerIds (mem_append_right _ mem_cons_self) hlong, _, mem_cons_self, rfl⟩
        · refine .inl ?_
          rw [get?_erase, if_neg hi]
          exact hq
      · intro r hr
        rw [mem_singleton.1 hr]
        refine ⟨rfl, message, rfl, mem_append_right _ mem_cons_self, hlong, hquery, rfl, ?_⟩
        intro hnodup hin
        rw [answerIds_append] at hnodup
        exact (nodup_append.1 hnodup).2.2 _ hin _ (mem_answerIds mem_cons_self hlong) rfl

theorem answerAll_cuts (client : Octets) (stream : Nat) (turns : Nat) : ∀ d : DnsUpstream,
    Cuts client stream d (answerAll client stream turns d).1
      (answerAll client stream turns d).2 := by
  induction turns with
  | zero => exact fun d => Cuts.refl client stream d
  | succ turns ih =>
    intro d
    rw [answerAll]
    split
    next hi lo rest hreceived =>
      dsimp only
      split
      · exact Cuts.refl client stream d
      next hlong =>
        have hframe : d.received = framed (rest.take (u16OfBe hi lo).toNat) ++ rest.drop
            (u16OfBe hi lo).toNat := by
          rw [framed_take (Nat.le_of_not_lt hlong), hreceived]
          simp
        exact (answer_cuts d client stream hframe).trans (ih _)
    · exact Cuts.refl client stream d

/-! ## Reading -/

/-- What the stream brings is read in order, and nothing else changes. -/
structure Drained (u u' : Upstream) (data : Bytes) : Prop where
  handshake : u'.handshake = u.handshake
  given : u'.given = u.given
  read : u'.stream.read = u.stream.read ++ data

theorem drain_drained (rounds : Nat) : ∀ (u : Upstream) (o : Outside),
    Drained u (u.drain rounds o).2.2.1 (u.drain rounds o).1 := by
  induction rounds with
  | zero => exact fun u o => ⟨rfl, rfl, (append_nil _).symm⟩
  | succ rounds ih =>
    intro u o
    obtain ⟨hgiven, hread⟩ := u.read_given (64 * 1024) o
    have hone : Drained u (u.read (64 * 1024) o).2.2.1 (u.read (64 * 1024) o).1 :=
      ⟨u.read_handshake _ _, hgiven, hread⟩
    rw [drain]
    dsimp only
    split
    · exact hone
    · have hrest := ih (u.read (64 * 1024) o).2.2.1 (u.read (64 * 1024) o).2.2.2
      refine ⟨hrest.handshake.trans hone.handshake, hrest.given.trans hone.given, ?_⟩
      rw [hrest.read, hone.read, append_assoc]

/-! ## What a stream carries and brings -/

/-- The queries a stream carried, as they were written. -/
def frames (carried : List (UInt16 × DnsQuery)) : Bytes :=
  (carried.map fun e => framed (withId e.1 e.2.message)).flatten

/-- Nothing is lost, added or moved on the stream, in either direction. -/
structure Tidy (credentials : Option (Text × Text)) (d : DnsUpstream) : Prop where
  shaking : ∀ h, d.upstream.handshake = some h →
    d.ready = false ∧ credentials = h.credentials ∧ h.command = .connect ∧
      h.target = ⟨d.resolver, dnsPort⟩ ∧
      h.Said d.upstream.given ∧ d.queued = frames d.carried ∧ d.received = [] ∧ d.messages = [] ∧
      ∃ heard, h.Heard heard ∧ d.upstream.stream.read = heard ++ h.input
  opened : d.upstream.handshake = none → d.ready = true ∧ ∃ said heard,
    Dialogue credentials .connect ⟨d.resolver, dnsPort⟩ said ∧ Answers heard ∧
      d.upstream.given = said ++ frames d.carried ∧
      d.upstream.stream.read = heard ++ ((d.messages.map framed).flatten ++ d.received)

/-- What is left to cut is only a part of a message. -/
def Unfinished (d : DnsUpstream) : Prop := ∀ message rest, message.length < 2 ^ 16 → d.received ≠
    framed message ++ rest

/-- A stream as a call leaves it: tidy, with every whole message cut out. -/
structure Cut (credentials : Option (Text × Text)) (d : DnsUpstream) :
    Prop extends Tidy credentials d where
  unfinished : d.Unfinished

/-- The messages were cut out of what came after the proxy's answers. -/
def Framed (d : DnsUpstream) : Prop :=
  d.messages = [] ∨ ∃ heard rest, Answers heard ∧
    d.upstream.stream.read = heard ++ ((d.messages.map framed).flatten ++ rest)

/-- The first query that was carried under an id. -/
def firstUnder (d : DnsUpstream) (id : UInt16) :
    Option DnsQuery := (d.carried.find? fun e => e.1 = id).map Prod.snd

/-- Every query in flight was carried under its id, and an id is only used again once it was
answered. -/
structure Filed (d : DnsUpstream) : Prop where
  carried : ∀ i q, d.inFlight.get? i = some q → (i, q) ∈ d.carried
  used : ∀ e ∈ d.carried, d.inFlight.get? e.1 ≠ none ∨ e.1 ∈ answerIds d.messages
  first : ∀ i q, d.inFlight.get? i = some q → d.firstUnder i = some q ∨ i ∈ answerIds d.messages

variable {credentials : Option (Text × Text)}

theorem Tidy.framed (h : d.Tidy credentials) : d.Framed := by
  cases hshake : d.upstream.handshake with
  | some hs =>
    obtain ⟨-, -, -, -, -, -, -, hmessages, -⟩ := h.shaking hs hshake
    exact .inl hmessages
  | none =>
    obtain ⟨-, said, heard, -, hanswers, -, hread⟩ := h.opened hshake
    exact .inr ⟨heard, d.received, hanswers, hread⟩

theorem unfinished_of_short (h : d.received.length < 2) : d.Unfinished := by
  intro message rest _ heq
  rw [heq, framed, beU16] at h
  simp at h

/-- Where the loop stops for want of turns, nothing is left. -/
theorem answerAll_unfinished (client : Octets) (stream : Nat) (turns : Nat) : ∀ d : DnsUpstream,
    d.received.length ≤ turns → (answerAll client stream turns d).1.Unfinished := by
  induction turns with
  | zero => exact fun d hturns =>
      unfinished_of_short (by rw [answerAll]; exact Nat.lt_of_le_of_lt hturns Nat.two_pos)
  | succ turns ih =>
    intro d hturns
    rw [answerAll]
    split
    next hi lo rest hreceived =>
      dsimp only
      split
      next hshort =>
        intro message more hfits heq
        rw [hreceived, framed, beU16] at heq
        obtain ⟨rfl, rfl, rfl⟩ := by simpa using heq
        rw [u16OfBe_bytes, UInt16.toNat_ofNat_of_lt' hfits, length_append] at hshort
        omega
      next hlong =>
        apply ih
        have hsame : ∀ (d : DnsUpstream) message,
            (d.answer client stream message).1.received = d.received := by
          intro d message
          rw [answer]
          split
          · rfl
          · split <;> rfl
        rw [hsame, length_drop]
        rw [hreceived, length_cons, length_cons] at hturns
        omega
    next hnone =>
      refine unfinished_of_short ?_
      rcases hreceived : d.received with _ | ⟨hi, _ | ⟨lo, rest⟩⟩
      · exact Nat.two_pos
      · exact Nat.one_lt_two
      · exact absurd hreceived (hnone hi lo rest)

theorem dialled_cut (token : Token) (credentials : Option (Text × Text)) (resolver : Octets)
    (opened : Instant) :
    Cut credentials ⟨resolver, dial token (.proxy credentials) .connect ⟨resolver, dnsPort⟩, false,
      opened, [],
      [], KeyedMap.empty, [], []⟩ := by
  refine ⟨⟨fun h hshake => ?_, nofun⟩, unfinished_of_short Nat.two_pos⟩
  cases hshake
  exact ⟨rfl, rfl, rfl, rfl, rfl, rfl, rfl, rfl, [], rfl, rfl⟩

theorem frames_snoc (carried : List (UInt16 × DnsQuery)) (id : UInt16) (query : DnsQuery) :
    frames (carried ++ [(id, query)]) = frames carried ++ framed (withId id query.message) := by
  simp [frames]

/-! ### Sending -/

theorem send_tidy (h : d.Tidy credentials) (id : UInt16) (query : DnsQuery) (o : Outside) :
    (d.send id query o).Tidy credentials := by
  cases hshake : d.upstream.handshake with
  | some hs =>
    obtain ⟨hready, hcred, hcommand, htarget, hsaid, hqueued, hreceived, hmessages, hheard⟩ :=
      h.shaking hs hshake
    rw [send, if_neg (by simp [hready])]
    refine ⟨fun hs' hshake' => ?_, fun hnone => nomatch (hshake.symm.trans hnone)⟩
    cases hshake.symm.trans hshake'
    refine ⟨hready, hcred, hcommand, htarget, hsaid, ?_, hreceived, hmessages, hheard⟩
    rw [frames_snoc, ← hqueued]
  | none =>
    obtain ⟨hready, said, heard, hdialogue, hanswers, hgiven, hread⟩ := h.opened hshake
    have hflushed := flush_flushed
      { d.upstream with outgoing := d.upstream.outgoing ++ framed (withId id query.message) } o
    rw [send, if_pos (by exact hready)]
    refine ⟨fun hs' hshake' => absurd (hflushed.handshake.symm.trans hshake') (by simp [hshake]),
      fun _ => ⟨hready, said, heard, hdialogue, hanswers, ?_, hflushed.read.trans hread⟩⟩
    refine hflushed.sent.trans ?_
    dsimp only
    rw [← append_assoc, ← given, hgiven, frames_snoc, append_assoc]

theorem send_cut (h : d.Cut credentials) (id : UInt16) (query : DnsQuery) (o : Outside) :
    (d.send id query o).Cut credentials := by
  refine ⟨send_tidy h.toTidy id query o, ?_⟩
  rw [send]
  split <;> exact h.unfinished

theorem send_inFlight (d : DnsUpstream) (id : UInt16) (query : DnsQuery) (o : Outside) :
    (d.send id query o).inFlight = d.inFlight.insert id query ∧
      (d.send id query o).carried = d.carried ++ [(id, query)] ∧ (d.send id query o).messages =
        d.messages ∧
      (d.send id query o).resolver = d.resolver := by
  rw [send]
  split <;> exact ⟨rfl, rfl, rfl, rfl⟩

theorem firstUnder_snoc {id i : UInt16} {query q : DnsQuery}
    (hcarried : d'.carried = d.carried ++ [(id, query)])
    (h : d.firstUnder i = some q) : d'.firstUnder i = some q := by
  rw [firstUnder] at h ⊢
  obtain ⟨e, he, rfl⟩ := Option.map_eq_some_iff.1 h
  rw [hcarried, find?_append, he]
  rfl

theorem send_filed (h : d.Filed) {id : UInt16} (hfree : d.inFlight.get? id = none)
    (query : DnsQuery) (o : Outside) :
    (d.send id query o).Filed := by
  obtain ⟨hflight, hcarried, hmessages, -⟩ := d.send_inFlight id query o
  refine ⟨fun i q hq => ?_, fun e he => ?_, fun i q hq => ?_⟩
  · rw [hflight, get?_insert] at hq
    rw [hcarried]
    split at hq
    next hi =>
      rw [hi, Option.some.inj hq]
      exact mem_append_right _ mem_cons_self
    · exact mem_append_left _ (h.carried i q hq)
  · rw [hflight, hmessages, get?_insert]
    rw [hcarried] at he
    by_cases he1 : e.1 = id
    · rw [if_pos he1]
      exact .inl (by simp)
    · rw [if_neg he1]
      rcases mem_snoc.1 he with he | rfl
      · exact h.used e he
      · exact absurd rfl he1
  · rw [hmessages]
    rw [hflight, get?_insert] at hq
    split at hq
    next hi =>
      -- Where the id was used before, it was answered.
      rw [hi]
      by_cases hbefore : ∃ e ∈ d.carried, e.1 = id
      · obtain ⟨e, he, he1⟩ := hbefore
        rcases h.used e he with hin | hin
        · rw [he1] at hin
          exact absurd hfree hin
        · exact .inr (he1 ▸ hin)
      refine .inl ?_
      have hnone : d.carried.find? (fun e => decide (e.1 = id)) = none := by
        rw [find?_eq_none]
        intro e he hin
        exact hbefore ⟨e, he, by simpa using hin⟩
      rw [firstUnder, hcarried, find?_append, hnone]
      simpa using Option.some.inj hq
    · rcases h.first i q hq with hfirst | hin
      · exact .inl (firstUnder_snoc hcarried hfirst)
      · exact .inr hin

/-! ### Hearing -/

/-- The stream has read data that was not handed on yet. -/
structure Loaded (credentials : Option (Text × Text)) (d : DnsUpstream) (data : Bytes) : Prop where
  shaking : ∀ h, d.upstream.handshake = some h →
    d.ready = false ∧ credentials = h.credentials ∧ h.command = .connect ∧
      h.target = ⟨d.resolver, dnsPort⟩ ∧
      h.Said d.upstream.given ∧ d.queued = frames d.carried ∧ d.received = [] ∧ d.messages = [] ∧
      ∃ heard, h.Heard heard ∧ d.upstream.stream.read = heard ++ h.input ++ data
  opened : d.upstream.handshake = none → d.ready = true ∧ ∃ said heard,
    Dialogue credentials .connect ⟨d.resolver, dnsPort⟩ said ∧ Answers heard ∧
      d.upstream.given = said ++ frames d.carried ∧
      d.upstream.stream.read = heard ++ ((d.messages.map framed).flatten ++ (d.received ++ data))

theorem Tidy.loaded (h : d.Tidy credentials) {u : Upstream} {data : Bytes}
    (hdrained : Drained d.upstream u data) :
    ({ d with upstream := u } : DnsUpstream).Loaded credentials data := by
  refine ⟨fun hs hshake => ?_, fun hnone => ?_⟩
  · obtain ⟨hready, hcred, hcommand, htarget, hsaid, hqueued, hreceived, hmessages, heard, hheard,
      hread⟩ :=
      h.shaking hs (hdrained.handshake.symm.trans hshake)
    refine ⟨hready, hcred, hcommand, htarget, ?_, hqueued, hreceived, hmessages, heard, hheard, ?_⟩
    · rw [show ({ d with upstream := u } : DnsUpstream).upstream.given =
        d.upstream.given from hdrained.given]
      exact hsaid
    · exact hdrained.read.trans (by rw [hread])
  · obtain ⟨hready, said, heard, hdialogue, hanswers, hgiven, hread⟩ :=
      h.opened (hdrained.handshake.symm.trans hnone)
    refine ⟨hready, said, heard, hdialogue, hanswers, hdrained.given.trans hgiven, ?_⟩
    refine hdrained.read.trans ?_
    rw [hread, append_assoc, append_assoc]

theorem takeIn_same (d : DnsUpstream) (data : Bytes) (o : Outside) :
    SameQueries d (d.takeIn data o).1 := by
  rw [takeIn]
  split
  · split <;> exact ⟨rfl, rfl, rfl, rfl⟩
  · exact ⟨rfl, rfl, rfl, rfl⟩

theorem takeIn_tidy {data : Bytes} (h : d.Loaded credentials data) (o : Outside)
    (hok : (d.takeIn data o).2 = false) :
    (d.takeIn data o).1.Tidy credentials := by
  cases hshake : d.upstream.handshake with
  | none =>
    obtain ⟨hready, said, heard, hdialogue, hanswers, hgiven, hread⟩ := h.opened hshake
    rw [takeIn, if_neg (by simp [hshake])]
    exact ⟨fun hs hs' => absurd (hshake.symm.trans hs') (by simp),
      fun _ => ⟨hready, said, heard, hdialogue, hanswers, hgiven, hread⟩⟩
  | some hs =>
    obtain ⟨hready, hcred, hcommand, htarget, hsaid, hqueued, hreceived, hmessages, heard, hheard,
      hread⟩ :=
      h.shaking hs hshake
    have hsome : d.upstream.handshake ≠ none := by simp [hshake]
    rw [takeIn, if_pos (by simp [hshake])] at hok ⊢
    split
    next bound leftover upstream o' hresult =>
      have hadv := advance_advanced hsome (congrArg Prod.fst hresult)
      rw [hresult] at hadv
      cases hadv with
      | done h₀ h' _ _ _ hshake₀ hreceive hshake' hgiven' hread' hconn =>
        cases hshake.symm.trans hshake₀
        obtain ⟨hdone, -⟩ := receive_received hsaid hheard hreceive
        cases hdone with
        | done _ _ heard' _ hdialogue hanswers hinput' =>
          have hflushed := flush_flushed { upstream with outgoing := upstream.outgoing ++
            d.queued } o'
          rw [hcommand, htarget, ← hcred] at hdialogue
          refine ⟨fun hs' hs'' => ?_, fun _ => ⟨rfl, d.upstream.given, heard', hdialogue,
            hanswers, ?_, ?_⟩⟩
          · cases (hflushed.handshake.trans hshake').symm.trans hs''
          · refine hflushed.sent.trans ?_
            dsimp only
            rw [← append_assoc, ← given, hgiven', hqueued]
          · refine hflushed.read.trans ?_
            rw [hread', hread, hinput', hmessages, hreceived]
            rfl
    next upstream o' hresult =>
      have hadv := advance_advanced hsome (congrArg Prod.fst hresult)
      rw [hresult] at hadv
      cases hadv with
      | said h₀ h' bytes _ hshake₀ hreceive hshake' hgiven' hread' hconn =>
        cases hshake.symm.trans hshake₀
        obtain ⟨hsent, hsame⟩ := receive_received hsaid hheard hreceive
        cases hsent with
        | send _ heard' _ hsaid' hheard' hinput' =>
          refine ⟨fun hs' hs'' => ?_, fun hnone => by cases hshake'.symm.trans hnone⟩
          cases hshake'.symm.trans hs''
          refine ⟨hready, hcred.trans hsame.credentials.symm, hsame.command.trans hcommand,
            hsame.target.trans htarget, ?_, hqueued, hreceived, hmessages, heard', hheard', ?_⟩
          · show Said _ upstream.given
            rw [hgiven']
            exact hsaid'
          · exact hread'.trans (hread.trans hinput')
      | waits h₀ h' _ hshake₀ hreceive hshake' hgiven' hread' hconn =>
        cases hshake.symm.trans hshake₀
        obtain ⟨hwait, hsame⟩ := receive_received hsaid hheard hreceive
        cases hwait with
        | wait _ hsaid' hheard' hinput' =>
          refine ⟨fun hs' hs'' => ?_, fun hnone => by cases hshake'.symm.trans hnone⟩
          cases hshake'.symm.trans hs''
          refine ⟨hready, hcred.trans hsame.credentials.symm, hsame.command.trans hcommand,
            hsame.target.trans htarget, ?_, hqueued, hreceived, hmessages, heard, hheard', ?_⟩
          · rw [hgiven']
            exact hsaid'
          · exact hread'.trans (hread.trans hinput')
    next hresult =>
      rw [hresult] at hok
      cases hok

theorem takeIn_failed {data : Bytes} (h : d.Loaded credentials data) (o : Outside)
    (hbad : (d.takeIn data o).2 = true) :
    (d.takeIn data o).1.received = [] ∧ (d.takeIn data o).1.messages = [] := by
  rw [takeIn] at hbad ⊢
  split at hbad
  next hshake =>
    rw [if_pos hshake]
    obtain ⟨hs, hs'⟩ := Option.isSome_iff_exists.1 hshake
    obtain ⟨-, -, -, -, -, -, hreceived, hmessages, -⟩ := h.shaking hs hs'
    split at hbad
    · cases hbad
    · cases hbad
    · exact ⟨hreceived, hmessages⟩
  · cases hbad

theorem Cuts.of_nil (h : Cuts client stream d d' settled) (hreceived : d.received = []) :
    d'.messages = d.messages ∧ d'.received = [] := by
  obtain ⟨more, hmore, hbytes⟩ := h.cut
  rw [hreceived] at hbytes
  obtain ⟨hframes, hrest⟩ := append_eq_nil_iff.1 hbytes.symm
  cases more with
  | nil => exact ⟨hmore.trans (append_nil _), hrest⟩
  | cons message more => simp [framed, beU16] at hframes

theorem Cuts.tidy (h : Cuts client stream d d' settled) (hd : d.Tidy credentials) :
    d'.Tidy credentials := by
  refine ⟨fun hs hshake => ?_, fun hnone => ?_⟩
  · rw [h.upstream] at hshake
    obtain ⟨hready, hcred, hcommand, htarget, hsaid, hqueued, hreceived, hmessages, heard, hheard,
      hread⟩ :=
      hd.shaking hs hshake
    obtain ⟨hsame, hnil⟩ := h.of_nil hreceived
    rw [h.upstream, h.ready, h.queued, h.carried, h.resolver, hsame, hnil]
    exact ⟨hready, hcred, hcommand, htarget, hsaid, hqueued, rfl, hmessages, heard, hheard, hread⟩
  rw [h.upstream] at hnone
  obtain ⟨hready, said, heard, hdialogue, hanswers, hgiven, hread⟩ := hd.opened hnone
  obtain ⟨more, hmore, hbytes⟩ := h.cut
  rw [h.upstream, h.ready, h.carried, h.resolver, hmore]
  refine ⟨hready, said, heard, hdialogue, hanswers, hgiven, ?_⟩
  rw [hread, hbytes, map_append, flatten_append, append_assoc]

theorem Settles.filed (h : Settles client stream d d' settled) (hd : d.Filed) : d'.Filed := by
  have hfirst : ∀ i, d'.firstUnder i = d.firstUnder i := fun i => by rw [firstUnder, firstUnder,
    h.carried]
  refine ⟨fun i q hq => ?_, fun e he => ?_, fun i q hq => ?_⟩
  · rw [h.carried]
    exact hd.carried i q (h.kept i q hq)
  · rw [h.carried] at he
    rcases hd.used e he with hin | hin
    · obtain ⟨q, hq⟩ := Option.ne_none_iff_exists'.1 hin
      rcases h.left e.1 q hq with hstill | ⟨hanswered, -⟩
      · exact .inl (by simp [hstill])
      · exact .inr hanswered
    · exact .inr (h.answerIds_subset hin)
  · rw [hfirst]
    rcases hd.first i q (h.kept i q hq) with hf | hin
    · exact .inl hf
    · exact .inr (h.answerIds_subset hin)

/-- What `dns_ready` hears on a stream. -/
structure Hears (credentials : Option (Text × Text)) (client : Octets) (stream : Nat)
    (d d' : DnsUpstream) (settled : List Settled) (gone : Bool) : Prop where
  settles : Settles client stream d d' settled
  framed : d'.Framed
  cut : gone = false → d'.Cut credentials

theorem hear_hears (h : d.Cut credentials) (client : Octets) (stream : Nat)
    (arrivals : List ReadAnswer) (now : Instant) (o : Outside) :
    Hears credentials client stream d (d.hear client stream arrivals now o).1
      (d.hear client stream arrivals now o).2.1
      (d.hear client stream arrivals now o).2.2 := by
  rw [hear]
  generalize hu : d.upstream.flush { o with reads := fun n => arrivals.getD n .wouldBlock } =
    flushed
  have hflushed := flush_flushed d.upstream { o with reads := fun n => arrivals.getD n .wouldBlock }
  rw [hu] at hflushed
  have hdrained := drain_drained (arrivals.length + 1) flushed.1 flushed.2
  generalize flushed.1.drain (arrivals.length + 1) flushed.2 = drained at hdrained ⊢
  have hall : Drained d.upstream drained.2.2.1 drained.1 :=
    ⟨hdrained.handshake.trans hflushed.handshake, hdrained.given.trans hflushed.sent,
      by rw [hdrained.read, hflushed.read]⟩
  have hloaded := h.loaded hall
  have hupstream : SameQueries d { d with upstream := drained.2.2.1 } := ⟨rfl, rfl, rfl, rfl⟩
  have hsame := takeIn_same { d with upstream := drained.2.2.1 } drained.1 drained.2.2.2
  have htidy := takeIn_tidy hloaded drained.2.2.2
  have hfailed := takeIn_failed hloaded drained.2.2.2
  generalize takeIn { d with upstream := drained.2.2.1 } drained.1 drained.2.2.2 =
      taken at hsame htidy hfailed ⊢
  have hcuts := answerAll_cuts client stream taken.1.received.length taken.1
  have hpart := answerAll_unfinished client stream taken.1.received.length taken.1 (Nat.le_refl _)
  generalize answerAll client stream taken.1.received.length taken.1 = answered at hcuts hpart ⊢
  have hsettles : Settles client stream d answered.1 answered.2 :=
    ((hupstream.settles client stream).trans (hsame.settles client stream)).trans hcuts.toSettles
  have hframed : answered.1.Framed := by
    cases hok : taken.2 with
    | false => exact (hcuts.tidy (htidy hok)).framed
    | true =>
      obtain ⟨hreceived, hmessages⟩ := hfailed hok
      exact .inl ((hcuts.of_nil hreceived).1.trans hmessages)
  have hlast : SameQueries answered.1
      (if (!answered.2.isEmpty && answered.1.inFlight.entries.isEmpty) = true then
      { answered.1 with idleSince := now } else answered.1) := by
    split <;> exact ⟨rfl, rfl, rfl, rfl⟩
  refine ⟨?_, ?_, fun hgone => ?_⟩
  · have := hsettles.trans (hlast.settles client stream)
    rw [append_nil] at this
    exact this
  · split <;> exact hframed
  · simp only [Bool.or_eq_false_iff] at hgone
    have htidy' := hcuts.tidy (htidy hgone.2)
    split
    · exact ⟨⟨htidy'.shaking, htidy'.opened⟩, hpart⟩
    · exact ⟨htidy', hpart⟩

end DnsUpstream

end GamePath.Engine.Tun2socks
