import GamePath.Engine.Tun2socks.LookupAccounts

/-!
# Every lookup is accounted for

In a run of lookups, arriving bytes, ends of streams and expiry, every lookup is in flight on one
stream or was settled, once and with a reply that suits it. The one thing that breaks this is a
lookup for a resolver whose eight streams have all their ids in flight: looking for a free id never
ends then, and the lookup is neither. Where each lookup finds room, the calls return and no lookup
is forgotten.
-/

namespace GamePath.Engine.Tun2socks

open Lib List KeyedMap Lookups DnsUpstream DnsQuery LookupEvent Lib.Run
open Direct (Text)

namespace Lookups

variable {s s' : Lookups} {resolver : Octets} {t : Nat} {d d' : DnsUpstream} {g : Sending}
  {settled : List Settled}

/-! ## `dns_ready` -/

theorem suits_of_answersIn {r : Settled} (hs : s.Sound) (hget : s.dns.get? t = some d)
    (hext : s.Extends s')
    (hsettles : Settles s.client t d d' settled) (hstream : (t, d') ∈ s'.streams)
    (hr : AnswersIn s.client t d d' r) : r.Suits s' := by
  obtain ⟨hresolver, message, hanswer, hmem, hlen, hq, hpacket, hfirst⟩ := hr
  have hfiled := hs.filed t d hget
  refine ⟨?_, ?_⟩
  · rw [hresolver]
    exact (hs.asks t d _ r.query hget hq).extends hext
  rw [hanswer]
  rw [hpacket, hext.client, hresolver]
  refine ⟨rfl, rfl, hlen, d', hstream, hsettles.resolver, hmem, ?_, fun hnodup => ?_⟩
  · rw [hsettles.carried]
    exact hfiled.carried _ _ hq
  · rw [firstUnder, hsettles.carried]
    rcases hfiled.first _ _ hq with hf | hin
    · exact hf
    · exact absurd hin (hfirst hnodup)

theorem put_moves (hs : s.Sound) (hget : s.dns.get? t = some d)
    (hsettles : Settles s.client t d d' settled) (htidy : d'.Cut s.credentials) :
    Moves s (s.put t d') settled := by
  have hext := put_extends hget hsettles.grows
  refine ⟨⟨?_, hext, rfl, ?_, fun r hr => ?_⟩, fun t' i q hq => ?_⟩
  · apply hs.put hget hsettles.resolver htidy (hsettles.filed (hs.filed t d hget))
    intro i q hq
    rw [hsettles.resolver]
    exact hs.asks t d i q hget (hsettles.kept i q hq)
  · rw [flying_put, append_nil, map_append]
    have hflying := (flying_perm hget).map number
    have hwaiting := hsettles.waiting.map number
    rw [map_append] at hflying hwaiting
    rw [map_map] at hwaiting
    refine List.Perm.symm (hflying.trans ((hwaiting.append_right _).trans ?_))
    rw [append_assoc]
    exact perm_append_comm
  · refine suits_of_answersIn hs hget hext hsettles ?_ (hsettles.answers r hr)
    exact mem_append_left _ (mem_insert.2 (.inl rfl))
  · obtain ⟨f, hf, hfq⟩ := hq
    by_cases ht : t' = t
    · subst ht
      cases hget.symm.trans hf
      rcases hsettles.left i q hfq with hstill | ⟨-, r, hr, hrq⟩
      · exact .inl ⟨d', get?_insert_self _ _ _, hstill⟩
      · exact .inr (.inl ⟨r, hr, by rw [hrq]⟩)
    · exact .inl ⟨f, (get?_insert _ _ _ _).trans ((if_neg ht).trans hf), hfq⟩

theorem close_moves {order : List UInt16} {more : List Settled} (hs : s.Sound)
    (hget : s.dns.get? t = some d) (hsettles : Settles s.client t d d' settled)
    (hresends : Resends (s.close t d') (queriesIn d'.inFlight order) s' more) :
    Moves s s' (settled ++ more) := by
  have hclose := close_extends hget hsettles.grows
  have hext := hclose.trans hresends.places.extended
  refine ⟨⟨hresends.places.sound, hext, hresends.places.asked, ?_, fun r hr => ?_⟩,
    fun t' i q hq => ?_⟩
  · -- What was in flight is what was answered, what is sent again, and what is in flight elsewhere.
    have hflying := (flying_perm hget).map number
    have hwaiting := hsettles.waiting.map number
    have hagain := (queriesIn_perm d' order).map number
    have hplaced := hresends.places.placed
    rw [map_append] at hflying hwaiting
    rw [map_map] at hwaiting
    rw [append_nil, map_append]
    have helsewhere : (s.close t d').flying = s.elsewhere t := rfl
    have hswap : ∀ a b c : List Nat, (a ++ (b ++ c)).Perm (b ++ (a ++ c)) := by
      intro a b c
      rw [← append_assoc, ← append_assoc]
      exact perm_append_comm.append_right c
    refine (hswap _ _ _).trans ((hplaced.append_left _).trans ?_)
    refine List.Perm.symm (hflying.trans ((hwaiting.append_right _).trans ?_))
    rw [append_assoc]
    refine List.Perm.append_left _ ?_
    exact (hagain.symm.append_right _).trans perm_append_comm
  · rcases mem_append.1 hr with hr | hr
    · have hstream : (t, d') ∈ (s.close t d').streams :=
        mem_append_right _ (mem_append_right _ mem_cons_self)
      exact (suits_of_answersIn hs hget hclose hsettles hstream
        (hsettles.answers r hr)).extends hresends.places.extended
    · exact hresends.places.suits r hr
  · obtain ⟨f, hf, hfq⟩ := hq
    by_cases ht : t' = t
    · subst ht
      cases hget.symm.trans hf
      rcases hsettles.left i q hfq with hstill | ⟨-, r, hr, hrq⟩
      · rcases hresends.lands q (mem_queriesIn.2 ⟨i, hstill⟩) with ⟨r, hr, hrq⟩ | hresent
        · exact .inr (.inl ⟨r, mem_append_right _ hr, hrq⟩)
        · exact .inr (.inr hresent)
      · exact .inr (.inl ⟨r, mem_append_left _ hr, by rw [hrq]⟩)
    · refine .inl (hresends.holds t' i q ⟨f, ?_, hfq⟩)
      exact (get?_erase _ _ _).trans ((if_neg ht).trans hf)

theorem dnsReady_moves {arrivals : List ReadAnswer} {now : Instant} {o : Outside}
    {order : List UInt16}
    {sends : Nat → Sending} (hs : s.Sound) (hret : s.dnsReady t arrivals now o order sends =
      some (s', settled)) :
    Moves s s' settled := by
  rw [dnsReady] at hret
  split at hret
  · cases hret
    exact Moves.refl hs
  next d hget =>
    have hhears := hear_hears (hs.tidy t d hget) s.client t arrivals now o
    generalize d.hear s.client t arrivals now o = heard at hhears hret
    dsimp only at hret
    split at hret
    · obtain ⟨⟨s₁, more⟩, hresend, hresult⟩ := Option.map_eq_some_iff.1 hret
      cases hresult
      have hclosed := hs.close hget hhears.framed
      refine close_moves hs hget hhears.settles (resendAll_resends sends _ hclosed
        (fun q hq => ?_) hresend)
      obtain ⟨i, hi⟩ := mem_queriesIn.1 hq
      have hknows := hs.asks t d i q hget (hhears.settles.kept i q hi)
      rw [hhears.settles.resolver]
      exact hknows.extends (close_extends hget hhears.settles.grows)
    next hgone =>
      cases hret
      exact put_moves hs hget hhears.settles (hhears.cut (by simpa using hgone))

/-! ## `expire` -/

theorem closeAll_moves (queries : Nat → List UInt16) (streams : List Nat) :
    ∀ {s : Lookups}, s.Sound →
    Moves s (closeAll queries streams s).1 (closeAll queries streams s).2 := by
  induction streams with
  | nil => exact fun hs => Moves.refl hs
  | cons t streams ih =>
    intro s hs
    rw [closeAll]
    split
    · exact ih hs
    next d hget =>
      have hclosed := hs.close hget (hs.tidy t d hget).framed
      have hknows : ∀ q ∈ queriesIn d.inFlight (queries t), s.Knows d.resolver q := by
        intro q hq
        obtain ⟨i, hi⟩ := mem_queriesIn.1 hq
        exact hs.asks t d i q hget hi
      have hext := close_extends hget (Grows.refl d)
      -- Closing the stream and failing what it had is like sending it again in vain.
      have hfails : Resends (s.close t d) (queriesIn d.inFlight (queries t)) (s.close t d)
          ((queriesIn d.inFlight (queries t)).map (s.failLookup d.resolver)) := by
        refine ⟨⟨hclosed, Extends.refl _, rfl, ?_, fun r hr => ?_⟩, fun _ _ _ => id, fun q hq => ?_⟩
        · rw [map_map]
          exact List.Perm.refl _
        · obtain ⟨q, hq, rfl⟩ := mem_map.1 hr
          exact (failLookup_suits (hknows q hq)).extends hext
        · exact .inl ⟨_, mem_map_of_mem hq, rfl⟩
      have hone := close_moves hs hget (Settles.refl s.client t d) hfails
      exact hone.trans (ih hclosed)

/-! ## `lookup` -/

/-- What an event does: what was asked is in flight or over, like what was in flight before. -/
structure Asks (s : Lookups) (new : List Ask) (s' : Lookups) (settled : List Settled) : Prop where
  sound : s'.Sound
  extended : s.Extends s'
  asked : s'.asked = s.asked ++ new
  placed : (s'.flying.map number ++ settled.map fun r => r.query.number).Perm
    (s.flying.map number ++ List.range' s.asked.length new.length)
  suits : ∀ r ∈ settled, r.Suits s'
  leaves : ∀ t i q, s.Holds t i q → s'.Leaves settled t i q

theorem Moves.asks (h : Moves s s' settled) : Asks s [] s' settled :=
  ⟨h.places.sound, h.places.extended, h.places.asked.trans (append_nil _).symm, h.places.placed,
    h.places.suits, h.leaves⟩

theorem lookup_asks {localPort : UInt16} {query : Bytes} (hs : s.Sound)
    (hret : s.lookup localPort resolver query g = some (s', settled)) :
    Asks s (if Sendable query then [⟨localPort, resolver, query⟩] else []) s' settled := by
  rw [lookup] at hret
  by_cases hsend : Sendable query
  · rw [if_pos hsend] at hret ⊢
    have hext : s.Extends { s with asked := s.asked ++ [⟨localPort, resolver, query⟩] } :=
      ⟨rfl, rfl, prefix_append _ _, (Extends.refl s).streams⟩
    have hsound : ({ s with asked := s.asked ++ [⟨localPort, resolver, query⟩] } : Lookups).Sound :=
      ⟨hs.fresh, hs.tidy, hs.filed, hs.limit, fun t d i q hd hq =>
        (hs.asks t d i q hd hq).extends hext, hs.framed⟩
    have hknown : (s.asked ++ [(⟨localPort, resolver, query⟩ : Ask)])[s.asked.length]? =
        some ⟨localPort, resolver, query⟩ := by
      rw [getElem?_append_right (Nat.le_refl _), Nat.sub_self]
      rfl
    have hsent := sendLookup_sends hsound hknown hsend hret
    exact ⟨hsent.places.sound, hext.trans hsent.places.extended, hsent.places.asked,
      hsent.places.placed, hsent.places.suits, fun t i q hq => .inl (hsent.holds t i q hq)⟩
  · rw [if_neg hsend, sendLookup, if_neg hsend] at hret
    cases hret
    rw [if_neg hsend]
    exact ⟨hs, Extends.refl s, (append_nil _).symm, List.Perm.refl _, by simp,
      fun _ _ _ hq => .inl hq⟩

/-! ## Calls that return -/

/-- There is room for lookups to a resolver: a stream can be dialled, or one has so many ids left.
-/
def RoomFor (s : Lookups) (resolver : Octets) (count : Nat) : Prop :=
  s.openTo resolver < dnsStreamsPerResolver ∨
    ∃ t d, s.dns.get? t = some d ∧ d.resolver = resolver ∧ d.inFlight.size + count ≤ 65536

theorem RoomFor.mono {m n : Nat} (h : s.RoomFor resolver n) (hle : m ≤ n) :
    s.RoomFor resolver m := by
  rcases h with hfew | ⟨t, d, hget, hresolver, hsize⟩
  · exact .inl hfew
  · exact .inr ⟨t, d, hget, hresolver, Nat.le_trans (Nat.add_le_add_left hle _) hsize⟩

theorem size_insert_free {inFlight : KeyedMap UInt16 DnsQuery} {id : UInt16}
    (hfree : inFlight.get? id = none)
    (q : DnsQuery) : (inFlight.insert id q).size = inFlight.size + 1 := by
  rw [size_insert, KeyedMap.size, entries_erase_of_get?_none hfree]
  rfl

theorem sendLookup_of_chosen (number : Nat) (localPort : UInt16) {query : Bytes} (retried : Bool)
    (hsend : Sendable query) (hchoice : s.dnsStreamFor resolver g = (some t, s'))
    (hget : s'.dns.get? t = some d) (hsize : d.inFlight.size < 65536) :
    ∃ id q, d.inFlight.get? id = none ∧
      s.sendLookup number localPort resolver query retried g =
        some (s'.put t (d.send id q g.outside), []) := by
  obtain ⟨id, hid⟩ := freeId_isSome hsize g.random
  refine ⟨id, ⟨localPort, messageId query, g.now, query, retried, number⟩, freeId_free 65536 hid,
    ?_⟩
  rw [sendLookup, if_pos hsend]
  rw [hchoice]
  dsimp only
  rw [hget, Option.bind_some, hid]
  rfl

theorem sendLookup_returns (number : Nat) (localPort : UInt16) {query : Bytes} (retried : Bool)
    (g : Sending) {count : Nat}
    (hsend : Sendable query) (hcount : count < 65536) (hroom : s.RoomFor resolver (count + 1)) :
    ∃ s' settled, s.sendLookup number localPort resolver query retried g = some (s', settled) ∧
      s'.RoomFor resolver count := by
  have hchooses := dnsStreamFor_chooses s resolver g
  generalize hresult : s.dnsStreamFor resolver g = result at hchooses
  cases hchooses with
  | reuses t d hget hresolver hleast =>
    have hsize : d.inFlight.size < 65536 := by
      rcases hleast with hidle | ⟨hmany, hleast⟩
      · rw [KeyedMap.size, hidle]
        decide
      · rcases hroom with hfew | ⟨t', d', hget', hres', hsize'⟩
        · exact absurd hfew (Nat.not_lt.2 hmany)
        · have := hleast t' d' hget' hres'
          omega
    obtain ⟨id, q, hfree, hret⟩ :=
      sendLookup_of_chosen number localPort retried hsend hresult hget hsize
    obtain ⟨hflight, -, -, hsame⟩ := d.send_inFlight id q g.outside
    refine ⟨_, _, hret, ?_⟩
    rcases hroom with hfew | ⟨t', d', hget', hres', hsize'⟩
    · refine .inl ?_
      rw [openTo_put hget hsame]
      exact hfew
    by_cases ht : t' = t
    · subst ht
      cases hget.symm.trans hget'
      refine .inr ⟨t', _, get?_insert_self _ _ _, hsame.trans hres', ?_⟩
      rw [hflight, size_insert_free hfree]
      omega
    · refine .inr ⟨t', d', (get?_insert _ _ _ _).trans ((if_neg ht).trans hget'), hres', ?_⟩
      omega
  | dials hfew =>
    rw [dialDnsStream_eq] at hresult
    cases hdialled : g.dialled with
    | false =>
      rw [hdialled] at hresult
      refine ⟨{ s with nextDnsStream := s.nextDnsStream + 1 },
        [s.failLookup resolver ⟨localPort, messageId query, g.now, query, retried, number⟩], ?_,
          .inl hfew⟩
      rw [sendLookup, if_pos hsend]
      rw [hresult]
      rfl
    | true =>
      rw [hdialled] at hresult
      have hnew : (s.dns.insert (s.nextDnsStream + 1) (s.fresh resolver g)).get?
          (s.nextDnsStream + 1) =
          some (s.fresh resolver g) := get?_insert_self _ _ _
      have hsize : (s.fresh resolver g).inFlight.size < 65536 := by
        show 0 < 65536
        decide
      obtain ⟨id, q, hfree, hret⟩ :=
        sendLookup_of_chosen number localPort retried hsend hresult hnew hsize
      obtain ⟨hflight, -, -, hsame⟩ := (s.fresh resolver g).send_inFlight id q g.outside
      refine ⟨_, _, hret, .inr ⟨_, _, get?_insert_self _ _ _, hsame, ?_⟩⟩
      show 0 + 1 + count ≤ 65536
      omega

theorem resendAll_returns (sends : Nat → Sending) (queries : List DnsQuery) :
    ∀ {n : Nat} {s : Lookups},
    (∀ q ∈ queries, Sendable q.message) → queries.length ≤ 65536 →
      s.RoomFor resolver queries.length →
    ∃ result, resendAll resolver sends n queries s = some result := by
  induction queries with
  | nil => exact fun _ _ _ => ⟨_, rfl⟩
  | cons query queries ih =>
    intro n s hsend hlen hroom
    rw [length_cons] at hlen hroom
    have hrest : ∀ q ∈ queries, Sendable q.message := fun q hq => hsend q (mem_cons_of_mem _ hq)
    rw [resendAll]
    split
    · obtain ⟨result, hresult⟩ := ih (n := n + 1) hrest (by omega) (hroom.mono (Nat.le_succ _))
      refine ⟨(result.1, s.failLookup resolver query :: result.2), ?_⟩
      rw [Option.bind_some, hresult]
      rfl
    obtain ⟨s', settled, hret, hroom'⟩ := sendLookup_returns query.number query.localPort true
      (sends n)
      (hsend query mem_cons_self) (by omega) hroom
    obtain ⟨result, hresult⟩ := ih (n := n + 1) hrest (by omega) hroom'
    refine ⟨(result.1, settled ++ result.2), ?_⟩
    rw [hret, Option.bind_some, hresult]
    rfl

theorem dnsReady_returns (hs : s.Sound) (t : Nat) (arrivals : List ReadAnswer) (now : Instant)
    (o : Outside) (order : List UInt16) (sends : Nat → Sending) :
    ∃ result, s.dnsReady t arrivals now o order sends = some result := by
  rw [dnsReady]
  cases hget : s.dns.get? t with
  | none => exact ⟨_, rfl⟩
  | some d =>
    have hhears := hear_hears (hs.tidy t d hget) s.client t arrivals now o
    dsimp only
    generalize d.hear s.client t arrivals now o = heard at hhears
    split
    · -- The stream that is gone has made room for the lookups it had.
      have hroom : (s.close t heard.1).RoomFor heard.1.resolver
          (queriesIn heard.1.inFlight order).length := by
        have hlimit := hs.limit heard.1.resolver
        rw [openTo_erase hget, if_pos hhears.settles.resolver.symm] at hlimit
        exact .inl hlimit
      have hsend : ∀ q ∈ queriesIn heard.1.inFlight order, Sendable q.message := by
        intro q hq
        obtain ⟨i, hi⟩ := mem_queriesIn.1 hq
        exact (hs.asks t d i q hget (hhears.settles.kept i q hi)).2.2
      have hlen : (queriesIn heard.1.inFlight order).length ≤ 65536 := by
        rw [(queriesIn_perm heard.1 order).length_eq, queries, length_map]
        exact size_le_ids heard.1.inFlight
      obtain ⟨result, hresult⟩ := resendAll_returns sends _ (n := 0) hsend hlen hroom
      rw [hresult]
      exact ⟨_, rfl⟩
    · exact ⟨_, rfl⟩

end Lookups

/-! ## Runs -/

/-- A run of lookups so far. -/
abbrev LookupRun := Config Lookups LookupEvent (Option (List Settled))

/-- The lookup an event asks. -/
def LookupEvent.asks : LookupEvent → Option Ask
  | .lookup localPort resolver query _ => if Sendable query then some ⟨localPort, resolver,
    query⟩ else none
  | _ => none

/-- A lookup is asked while fewer than eight streams to its resolver are open, or one of them has an
id left. -/
def LookupEvent.FindsRoom (c : LookupRun) : LookupEvent → Prop
  | .lookup _ resolver query _ => Sendable query → c.state.RoomFor resolver 1
  | _ => True

namespace Lookups

variable {s s' : Lookups} {e : LookupEvent} {settled : List Settled}

variable {result : Option (Lookups × List Settled)}

theorem after_some (h : (s.after result).2 = some settled) :
    result = some ((s.after result).1, settled) := by
  cases result with
  | none => simp [after] at h
  | some result =>
    cases h
    rfl

theorem after_none (h : (s.after result).2 = none) :
    (s.after result).1 = s := by
  cases result with
  | none => rfl
  | some result => simp [after] at h

theorem step_none (h : (s.step e).2 = none) : (s.step e).1 = s := by
  cases e with
  | lookup | ready | expire => exact after_none h

theorem step_asks (hs : s.Sound) (hret : (s.step e).2 = some settled) :
    Asks s e.asks.toList (s.step e).1 settled := by
  cases e with
  | lookup localPort resolver query g =>
    have hasks := lookup_asks hs (after_some hret)
    rw [asks]
    split
    next hsend =>
      rw [if_pos hsend] at hasks
      exact hasks
    next hsend =>
      rw [if_neg hsend] at hasks
      exact hasks
  | ready t arrivals now o order sends => exact (dnsReady_moves hs (after_some hret)).asks
  | expire now order queries =>
    cases hret
    exact (closeAll_moves queries _ hs).asks

theorem step_returns {c : LookupRun} (hs : c.state.Sound)
    (hroom : e.FindsRoom c) : ∃ settled, (c.state.step e).2 = some settled := by
  cases e with
  | lookup localPort resolver query g =>
    have hreturns : ∃ result, c.state.lookup localPort resolver query g = some result := by
      rw [lookup]
      by_cases hsend : Sendable query
      · rw [if_pos hsend]
        obtain ⟨s', settled, hret, -⟩ := sendLookup_returns
          (s := { c.state with asked := c.state.asked ++ [_] })
          c.state.asked.length localPort false g hsend (by decide) (hroom hsend)
        exact ⟨_, hret⟩
      · rw [sendLookup, if_neg hsend]
        exact ⟨_, rfl⟩
    obtain ⟨result, hresult⟩ := hreturns
    exact ⟨result.2, by rw [step, hresult]; rfl⟩
  | ready t arrivals now o order sends =>
    obtain ⟨result, hresult⟩ := dnsReady_returns hs t arrivals now o order sends
    exact ⟨result.2, by rw [step, hresult]; rfl⟩
  | expire now order queries => exact ⟨_, rfl⟩

/-- The lookups that were settled in a run. -/
def settledIn (log : List (LookupEvent × Option (List Settled))) :
    List Settled := log.flatMap fun e => e.2.getD []

end Lookups

/-- The number of questions of a message. -/
def questions : Bytes → UInt16
  | _ :: _ :: _ :: _ :: hi :: lo :: _ => u16OfBe hi lo
  | _ => 0

theorem messageId_servfail {message answer : Bytes} (h : servfail message = some answer) :
    messageId answer = messageId message := by
  rw [servfail.eq_def] at h
  split at h
  · split at h
    · cases h
    · rw [← Option.some.inj h]
      rfl
  · cases h

theorem servfail_ne_none {message : Bytes} (hlen : 12 ≤ message.length)
    (hone : questions message = 1) :
    servfail message ≠ none := by
  rw [servfail.eq_def]
  split
  next b4 b5 _ _ _ _ _ _ _ =>
    have hquestions : u16OfBe b4 b5 = 1 := hone
    rw [if_neg (not_not_intro hquestions)]
    simp
  next hshort =>
    -- A list that is not of the form of the pattern is too short.
    rcases message with _ | ⟨b0, _ | ⟨b1,
      _ | ⟨b2, _ | ⟨b3, _ | ⟨b4, _ | ⟨b5, _ | ⟨b6, _ | ⟨b7, _ | ⟨b8, _ | ⟨b9,
      _ | ⟨b10, _ | ⟨b11, rest⟩⟩⟩⟩⟩⟩⟩⟩⟩⟩⟩⟩
    case cons.cons.cons.cons.cons.cons.cons.cons.cons.cons.cons.cons =>
      exact absurd rfl (hshort _ _ _ _ _ _ _ _ _ _ _ _ _)
    all_goals exact nomatch hlen

/-- The packet for a lookup goes from its resolver to its asker and has the asker's id, and there is
one where the lookup has a single question. -/
structure Settled.Replies (client : Octets) (r : Settled) : Prop where
  addressed : ∀ packet, r.packet = some packet → ∃ payload, messageId payload =
    messageId r.query.message ∧
    packet = buildUdp ⟨r.resolver, dnsPort⟩ ⟨client, r.query.localPort⟩ payload
  replied : questions r.query.message = 1 → r.packet ≠ none

theorem Settled.Suits.replies {s : Lookups} {r : Settled} (h : r.Suits s) : r.Replies s.client := by
  obtain ⟨⟨-, hid, hsend⟩, hreply⟩ := h
  cases hanswer : r.answer with
  | none =>
    rw [hanswer] at hreply
    refine ⟨fun packet hpacket => ?_, fun hone => ?_⟩
    · rw [hreply] at hpacket
      obtain ⟨payload, hpayload, hbuilt⟩ := Option.map_eq_some_iff.1 hpacket
      exact ⟨payload, messageId_servfail hpayload, hbuilt.symm⟩
    · rw [hreply]
      intro hnone
      exact servfail_ne_none hsend.1 hone (Option.map_eq_none_iff.1 hnone)
  | some answer =>
    rw [hanswer] at hreply
    obtain ⟨hpacket, -⟩ := hreply
    refine ⟨fun packet hsome => ?_, fun _ => ?_⟩
    · rw [hpacket] at hsome
      exact ⟨_, (messageId_withId _ _).trans hid, (Option.some.inj hsome).symm⟩
    · rw [hpacket]
      simp

namespace Lookups

/-- Every call returned, and every lookup that was asked is in flight or over, once and with what
suits it. -/
structure Accounts (c : LookupRun) : Prop where
  returned : ∀ e ∈ c.log, e.2 ≠ none
  asked : c.state.asked = c.log.filterMap fun e => e.1.asks
  once : (c.state.flying.map number ++ (settledIn c.log).map fun r => r.query.number).Perm
    (List.range c.state.asked.length)
  suits : ∀ r ∈ settledIn c.log, r.Suits c.state

/-- What is in flight is what was asked, what is over was replied to, and what the streams brought
is cut into their messages as it was framed. -/
structure AccountedFor (c : LookupRun) : Prop extends Accounts c where
  known : ∀ t d i q, c.state.dns.get? t = some d → d.inFlight.get? i = some q →
    c.state.Knows d.resolver q
  replies : ∀ r ∈ settledIn c.log, r.Replies c.state.client
  framed : ∀ e ∈ c.state.streams, e.2.Framed

variable {c : LookupRun}

theorem Accounts.accountedFor (h : Accounts c) (hs : c.state.Sound) : AccountedFor c := by
  refine ⟨h, hs.asks, fun r hr => (h.suits r hr).replies, fun e he => ?_⟩
  rcases mem_append.1 he with hopen | hclosed
  · exact (hs.tidy e.1 e.2 (get?_eq_some_iff.2 hopen)).framed
  · exact hs.framed e hclosed

theorem new_sound (client : Octets) (credentials : Option (Text × Text)) :
    (new client credentials).Sound := by
  have hnone : ∀ t d, (new client credentials).dns.get? t ≠ some d := fun t d h =>
    absurd h (by simp [new])
  exact ⟨fun t d h => absurd h (hnone t d), fun t d h => absurd h (hnone t d),
    fun t d h => absurd h (hnone t d),
    fun r => Nat.zero_le _, fun t d i q h => absurd h (hnone t d), fun e he => by cases he⟩

theorem new_accounts (client : Octets) (credentials : Option (Text × Text)) :
    Accounts ⟨new client credentials, []⟩ :=
  ⟨nofun, rfl, List.Perm.refl _, nofun⟩

theorem Accounts.advance {e : LookupEvent} {settled : List Settled} (h : Accounts c)
    (hs : c.state.Sound) (hret : (c.state.step e).2 = some settled) :
    Accounts (Run.advance step c e) := by
  have hasks := step_asks hs hret
  have hlog : settledIn (Run.advance step c e).log = settledIn c.log ++ settled := by
    rw [advance_log, settledIn, hret]
    simp [settledIn]
  refine ⟨fun f hf => ?_, ?_, ?_, fun r hr => ?_⟩
  · rcases mem_snoc.1 hf with hf | rfl
    · exact h.returned f hf
    · rw [hret]
      simp
  · rw [advance_state, hasks.asked, h.asked, advance_log]
    cases hnew : e.asks with
    | none | some => simp [hnew]
  · -- The new lookups have the next numbers, and are in flight or over with the rest.
    rw [hlog, advance_state, hasks.asked, map_append, length_append, range_add]
    have hmove : ∀ a b d : List Nat, (a ++ (b ++ d)).Perm ((a ++ d) ++ b) := by
      intro a b d
      rw [append_assoc]
      exact perm_append_comm.append_left a
    refine (hmove _ _ _).trans ((hasks.placed.append_right _).trans ?_)
    rw [← range'_eq_map_range]
    refine List.Perm.trans ?_ (h.once.append_right _)
    rw [append_assoc, append_assoc]
    exact perm_append_comm.append_left _
  · rw [hlog] at hr
    rcases mem_append.1 hr with hr | hr
    · exact (h.suits r hr).extends hasks.extended
    · exact hasks.suits r hr

theorem step_sound {s : Lookups} {e : LookupEvent} (hs : s.Sound) : (s.step e).1.Sound := by
  cases hret : (s.step e).2 with
  | some settled => exact (step_asks hs hret).sound
  | none =>
    rw [step_none hret]
    exact hs

/-- In every run no resolver has more streams than it may have, and every open one carries in order
what it was given: behind the dialogue with the proxy the queries that were put on it, and behind
the proxy's answers the messages that were cut out and less than a message more. -/
theorem streams_stay_in_order (client : Octets) (credentials : Option (Text × Text))
    (events : List LookupEvent) :
    let s := (exec step (new client credentials) events).state
    (∀ resolver, s.openTo resolver ≤ dnsStreamsPerResolver) ∧
      ∀ t d, s.dns.get? t = some d → d.upstream.handshake = none → ∃ said heard,
        Handshake.Dialogue s.credentials .connect ⟨d.resolver, dnsPort⟩ said ∧
          Handshake.Answers heard ∧
          d.upstream.given = said ++ frames d.carried ∧
          d.upstream.stream.read = heard ++ ((d.messages.map framed).flatten ++ d.received) ∧
          ∀ message rest, message.length < 2 ^ 16 → d.received ≠ framed message ++ rest := by
  intro s
  have hsound : s.Sound :=
    exec_invariant (I := fun c => Sound c.state) (new_sound client credentials)
      (fun _ _ => step_sound) events
  refine ⟨hsound.limit, fun t d hget hopen => ?_⟩
  obtain ⟨-, said, heard, hdialogue, hanswers, hgiven, hread⟩ := (hsound.tidy t d hget).opened hopen
  exact ⟨said, heard, hdialogue, hanswers, hgiven, hread, (hsound.tidy t d hget).unfinished⟩

/-- In every run in which each lookup finds room, every lookup is accounted for, and whatever comes
next, a lookup only leaves its stream by being answered, failed, or sent once more. -/
theorem lookups_are_accounted_for (client : Octets) (credentials : Option (Text × Text))
    (events : List LookupEvent)
    (hmeets : Meets step FindsRoom ⟨new client credentials, []⟩ events) :
    AccountedFor (exec step (new client credentials) events) ∧
      ∀ e : LookupEvent, e.FindsRoom (exec step (new client credentials) events) →
        ∃ settled, ((exec step (new client credentials) events).state.step e).2 = some settled ∧
          ∀ t i q, (exec step (new client credentials) events).state.Holds t i q →
            ((exec step (new client credentials) events).state.step e).1.Leaves settled t i q := by
  obtain ⟨hsound, haccounts⟩ := execFrom_invariant_of_meets (I := fun c => c.state.Sound ∧
    Accounts c)
    (fun c e hroom hc => by
      obtain ⟨settled, hret⟩ := step_returns hc.1 hroom
      exact ⟨step_sound hc.1, hc.2.advance hc.1 hret⟩)
    events _ hmeets ⟨new_sound client credentials, new_accounts client credentials⟩
  refine ⟨haccounts.accountedFor hsound, fun e hroom => ?_⟩
  obtain ⟨settled, hret⟩ := step_returns hsound hroom
  exact ⟨settled, hret, (step_asks hsound hret).leaves⟩

end Lookups

/-! ## Runs that show it -/

/-- A lookup of the root, with one question. -/
def rootQuery : Bytes := [0x12, 0x34, 1, 0, 0, 1, 0, 0, 0, 0, 0, 0, 0, 0, 1, 0, 1]

/-- Sending with a dial that succeeds. -/
def Sending.plain : Sending := ⟨0, [], 1, true, 0, 7, Outside.idle⟩

/-- It is asked of one resolver. -/
def rootLookup : LookupEvent := .lookup 5353 (1, 1, 1, 1) rootQuery Sending.plain

/-- The proxy opens the stream. -/
def proxyOpens : List LookupEvent :=
  [.ready 1 [.data [5, 0]] 0 Outside.idle [] fun _ => Sending.plain,
    .ready 1 [.data [5, 0, 0, 1, 0, 0, 0, 0, 0, 0]] 0 Outside.idle [] fun _ => Sending.plain]

/-- An answer under the first id on the stream, in two pieces. -/
def rootAnswered : List LookupEvent :=
  [.ready 1 [.data [0, 12, 0, 7, 0x81]] 0 Outside.idle [] fun _ => Sending.plain,
    .ready 1 [.data [0x80, 0, 1, 0, 0, 0, 0, 0, 0]] 0 Outside.idle [] fun _ => Sending.plain]

/-- The stream ends. -/
def streamEnds (stream : Nat) : LookupEvent := .ready stream [.data []] 0 Outside.idle
    [] fun _ => Sending.plain

/-- Two lookups with the same id: the first is answered in two pieces, and the second is sent again
when the stream ends and failed when the next one does. -/
def sharedId : List LookupEvent :=
  rootLookup :: proxyOpens ++ rootAnswered ++ [rootLookup, streamEnds 1, streamEnds 2]

theorem lookups_are_accounted_for_shared :
    Meets step FindsRoom ⟨.new (10, 207, 0, 2) none, []⟩ sharedId ∧
      AccountedFor (exec step (.new (10, 207, 0, 2) none) sharedId) ∧
      ((settledIn (exec step (.new (10, 207, 0, 2) none) sharedId).log).map fun r =>
        (r.query.number, r.answer.isSome)) = [(0, true), (1, false)] := by
  have hmeets : Meets step FindsRoom ⟨.new (10, 207, 0, 2) none, []⟩ sharedId := by
    refine ⟨fun _ => .inl ?_, trivial, trivial, trivial, trivial, fun _ => .inl ?_, trivial,
      trivial, trivial⟩
    · decide +kernel
    · decide +kernel
  exact ⟨hmeets, (lookups_are_accounted_for _ _ _ hmeets).1, by decide +kernel⟩

/-! ### A flood -/

theorem length_flying_le {resolver : Octets} (l : List (Nat × DnsUpstream))
    (hall : ∀ e ∈ l, e.2.resolver = resolver ∨ e.2.queries = []) :
    (l.flatMap fun e => e.2.queries).length ≤
      65536 * (l.map fun e => e.2.resolver).count resolver := by
  induction l with
  | nil => exact Nat.le_refl _
  | cons e l ih =>
    have hrest := ih fun f hf => hall f (mem_cons_of_mem _ hf)
    rw [flatMap_cons, length_append, map_cons]
    rcases hall e mem_cons_self with hres | hidle
    · have hsize : e.2.queries.length ≤ 65536 := by
        rw [queries, length_map]
        exact size_le_ids e.2.inFlight
      rw [hres, count_cons_self]
      omega
    · rw [hidle, length_nil, Nat.zero_add]
      exact Nat.le_trans hrest (Nat.mul_le_mul_left _ count_le_count_cons)

theorem Lookups.lookup_settles_nothing {s s' : Lookups} {localPort : UInt16} {resolver : Octets}
    {query : Bytes} {g : Sending} {settled : List Settled} (hdialled : g.dialled = true)
    (hret : s.lookup localPort resolver query g = some (s', settled)) : settled = [] := by
  rw [lookup, sendLookup] at hret
  split at hret
  · generalize ({ s with asked := _ } : Lookups) = s₀ at hret
    have hchooses := dnsStreamFor_chooses s₀ resolver g
    generalize s₀.dnsStreamFor resolver g = choice at hchooses hret
    have hfound : ∃ t s₁, choice = (some t, s₁) := by
      cases hchooses with
      | reuses t d hget hresolver hleast => exact ⟨t, _, rfl⟩
      | dials hfew => exact ⟨_, _, by rw [dialDnsStream_eq, if_pos hdialled]⟩
    obtain ⟨t, s₁, rfl⟩ := hfound
    obtain ⟨d, -, hmap⟩ := Option.bind_eq_some_iff.1 hret
    obtain ⟨id, -, hresult⟩ := Option.map_eq_some_iff.1 hmap
    exact (Prod.mk.inj hresult).2.symm
  · exact (Prod.mk.inj (Option.some.inj hret)).2.symm

/-- What is so while one lookup is asked over and over. -/
structure Lookups.Flooded (c : LookupRun) : Prop where
  sound : c.state.Sound
  asked : ∀ a ∈ c.state.asked, a.resolver = (1, 1, 1, 1)
  settled : settledIn c.log = []

theorem Lookups.Flooded.flying_le {c : LookupRun} (h : Flooded c) :
    c.state.flying.length ≤ 524288 := by
  have hall : ∀ e ∈ c.state.dns.entries, e.2.resolver = (1, 1, 1, 1) ∨ e.2.queries = [] := by
    intro e he
    cases hqueries : e.2.queries with
    | nil => exact .inr rfl
    | cons q rest =>
      refine .inl ?_
      have hmem : q ∈ e.2.queries := by
        rw [hqueries]
        exact mem_cons_self
      obtain ⟨⟨i, q⟩, hentry, rfl⟩ := mem_map.1 hmem
      have hknows := h.sound.asks e.1 e.2 i q (get?_eq_some_iff.2 he) (get?_eq_some_iff.2 hentry)
      exact h.asked _ (mem_of_getElem? hknows.1)
  have hlen := length_flying_le c.state.dns.entries hall
  have hlimit : c.state.openTo (1, 1, 1, 1) ≤ 8 := h.sound.limit (1, 1, 1, 1)
  rw [openTo] at hlimit
  rw [flying]
  omega

theorem Lookups.Flooded.advance {c : LookupRun} (h : Flooded c) :
    Flooded (Run.advance step c rootLookup) := by
  refine ⟨step_sound h.sound, ?_, ?_⟩
  · cases hret : (c.state.step rootLookup).2 with
    | none =>
      rw [advance_state, step_none hret]
      exact h.asked
    | some settled =>
      rw [advance_state, (step_asks h.sound hret).asked]
      intro a ha
      rcases mem_append.1 ha with ha | ha
      · exact h.asked a ha
      · rw [Option.mem_toList] at ha
        rw [← Option.some.inj ha]
  · rw [advance_log, settledIn, flatMap_append, ← settledIn, h.settled]
    cases hret : (c.state.step rootLookup).2 with
    | none => rfl
    | some settled =>
      obtain rfl := lookup_settles_nothing rfl (after_some hret)
      rfl

/-- A lookup is asked while all ids of the eight streams to its resolver are in flight: it is
neither in flight nor over, for looking for a free id never ends. -/
theorem a_lookup_is_forgotten :
    (exec step (.new (10, 207, 0, 2) none) (List.replicate 524289 rootLookup)).state.flying.length +
        (settledIn (exec step (.new (10, 207, 0, 2) none)
          (List.replicate 524289 rootLookup)).log).length <
      ((List.replicate 524289 rootLookup).filterMap asks).length ∧
      questions rootQuery = 1 := by
  have hflooded : Flooded (exec step (.new (10, 207, 0, 2) none)
      (List.replicate 524289 rootLookup)) := by
    have hmeets : Meets step (fun _ e => e = rootLookup) ⟨.new (10, 207, 0, 2) none, []⟩
        (List.replicate 524289 rootLookup) := meets_of_forall
          (fun e he _ => List.eq_of_mem_replicate he) _
    refine execFrom_invariant_of_meets (fun c e he hc => ?_) _ _ hmeets ?_
    · rw [he]
      exact hc.advance
    · exact ⟨new_sound _ _, fun a ha => absurd ha List.not_mem_nil, rfl⟩
  have hasks : rootLookup.asks = some ⟨5353, (1, 1, 1, 1), rootQuery⟩ := rfl
  refine ⟨?_, rfl⟩
  rw [hflooded.settled, List.filterMap_replicate_of_some hasks, List.length_replicate,
    List.length_nil]
  have hle := hflooded.flying_le
  omega

end GamePath.Engine.Tun2socks
