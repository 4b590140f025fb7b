import GamePath.Relay.RejectedFrames

/-!
# The session replies are sent by

`forward_reply` takes the session of the client that was heard from last. A frame the replay window
rejects was heard all the same, so it makes its session the latest one. `Latest` follows which
sessions were heard from last while rejected frames arrive, and `rejected_frames_keep_session` says
exactly when the choice is what it was before them.
-/

namespace GamePath.Relay

open Lib List KeyedMap Run Engine Engine.Protocol

/-- A session `forward_reply` chooses for a client, in some order of the map. -/
def RelayClient.RepliesBy (client : RelayClient) (id : UInt64) : Prop :=
  ∃ pick session, client.sessions.maxBy SessionState.lastSeen pick = some (id, session)

/-- The session a datagram names in its header. -/
def Datagram.sessionId (d : Datagram) : Option UInt64 :=
  match FrameHeader.decode d.bytes with
  | .ok header => some header.sessionId
  | .error _ => none

/-- The session has a frame that was observed at `t`. -/
def HeardAt (datagrams : List Datagram) (t : Instant) (id : UInt64) : Prop :=
  ∃ d ∈ datagrams, d.sessionId = some id ∧ d.observedAt = t

/-- The datagram is rejected by the session of the client that it names. -/
def RejectedByClient (crypto : SessionCrypto) (clientId : ClientId)
    (cfg : Config Clients Datagram Outcome) (d : Datagram) : Prop :=
  ∃ id ∈ d.sessionId, rejects crypto cfg.state clientId id d = true

variable {client : RelayClient}

theorem repliesBy_iff {id : UInt64} :
    client.RepliesBy id ↔ ∃ session, client.sessions.get? id = some session ∧
      ∀ other session', client.sessions.get? other = some session' →
        session'.lastSeen ≤ session.lastSeen := by
  unfold RelayClient.RepliesBy
  rw [exists_comm]
  refine exists_congr fun session => ?_
  rw [exists_maxBy_iff, get?_eq_some_iff]
  refine and_congr_right fun _ => ?_
  constructor
  · intro h other session' hget
    exact h (other, session') (get?_eq_some_iff.1 hget)
  · intro h e he
    exact h e.1 e.2 (get?_eq_some_iff.2 he)

instance (client : RelayClient) (id : UInt64) : Decidable (client.RepliesBy id) :=
  decidable_of_iff (∃ e ∈ client.sessions.entries, e.1 = id ∧
      ∀ e' ∈ client.sessions.entries, e'.2.lastSeen ≤ e.2.lastSeen) (by
    unfold RelayClient.RepliesBy
    rw [exists_comm]
    constructor
    · rintro ⟨e, he, rfl, hmax⟩
      exact ⟨e.2, exists_maxBy_iff.2 ⟨he, hmax⟩⟩
    · rintro ⟨session, h⟩
      obtain ⟨he, hmax⟩ := exists_maxBy_iff.1 h
      exact ⟨(id, session), he, rfl, hmax⟩)

theorem repliesBy_iff_lastSeen {t : Instant}
    (hle : ∀ id session, client.sessions.get? id = some session → session.lastSeen ≤ t)
    (hattained : ∃ id session, client.sessions.get? id = some session ∧ session.lastSeen = t)
    (id : UInt64) :
    client.RepliesBy id ↔
      ∃ session, client.sessions.get? id = some session ∧ session.lastSeen = t := by
  rw [repliesBy_iff]
  constructor
  · rintro ⟨session, hget, hmax⟩
    obtain ⟨other, session', hget', rfl⟩ := hattained
    exact ⟨session, hget, le_antisymm (hle id session hget) (hmax other session' hget')⟩
  · rintro ⟨session, hget, rfl⟩
    exact ⟨session, hget, hle⟩

theorem exists_lastHeard (h : client.sessions.entries ≠ []) :
    ∃ t, (∀ id session, client.sessions.get? id = some session → session.lastSeen ≤ t) ∧
      ∃ id session, client.sessions.get? id = some session ∧ session.lastSeen = t := by
  cases hmax : client.sessions.entries.argmax fun e => e.2.lastSeen with
  | none => exact absurd (argmax_eq_none.1 hmax) h
  | some e =>
    refine ⟨e.2.lastSeen, ?_, e.1, e.2, get?_eq_some_iff.2 (argmax_mem hmax), rfl⟩
    intro id session hget
    exact le_of_mem_argmax (f := fun e : UInt64 × SessionState => e.2.lastSeen)
      (get?_eq_some_iff.1 hget) hmax

/-! ## Rejected frames -/

/-- `client` is the client before the rejected frames `done`, `now` after them, and `t` the instant
it was heard from last. The sessions heard from at `t` are those with a frame at `t`, and those that
were heard from last before if that was at `t` too. -/
structure Latest (client : RelayClient) (done : List Datagram) (t : Instant) (now : RelayClient) :
    Prop where
  le : ∀ id session, now.sessions.get? id = some session → session.lastSeen ≤ t
  attained : ∃ id session, now.sessions.get? id = some session ∧ session.lastSeen = t
  heard : ∀ id, (∃ session, now.sessions.get? id = some session ∧ session.lastSeen = t) ↔
    HeardAt done t id ∨ ∃ session, client.sessions.get? id = some session ∧ session.lastSeen = t
  past : ∀ d ∈ done, d.observedAt ≤ t
  before : ∀ id session, client.sessions.get? id = some session → session.lastSeen ≤ t

theorem heardAt_concat {done : List Datagram} {d : Datagram} {t : Instant} {id : UInt64} :
    HeardAt (done ++ [d]) t id ↔ HeardAt done t id ∨
      (d.sessionId = some id ∧ d.observedAt = t) := by
  constructor
  · rintro ⟨d', hd', h⟩
    rcases mem_snoc.1 hd' with hin | rfl
    · exact .inl ⟨d', hin, h⟩
    · exact .inr h
  · rintro (⟨d', hd', h⟩ | h)
    · exact ⟨d', mem_append_left _ hd', h⟩
    · exact ⟨d, mem_append_right _ (mem_singleton_self d), h⟩

section Step

variable {client now : RelayClient} {done : List Datagram} {d : Datagram} {t : Instant}
variable {sessionId : UInt64} (session : SessionState)

theorem get?_rejected (id : UInt64) :
    ((now.fresh d.admittedAt).insert sessionId (session.reject d)).get? id =
      if id = sessionId then some (session.reject d)
      else (now.sessions.get? id).filter fun other =>
        decide (d.admittedAt - other.lastSeen ≤ sessionTtl) := by
  rw [get?_insert, RelayClient.fresh, get?_retain]

theorem Latest.reject (h : Latest client done t now) (hid : d.sessionId = some sessionId)
    (hadmitted : t ≤ d.admittedAt) (hobserved : d.admittedAt ≤ d.observedAt) :
    Latest client (done ++ [d]) d.observedAt { now with
      sessions := (now.fresh d.admittedAt).insert sessionId (session.reject d) } where
  le := by
    intro id other hget
    rw [get?_rejected session] at hget
    split at hget
    · rw [← Option.some.inj hget]
      exact le_refl d.observedAt
    · have hold := h.le id other (Option.filter_eq_some_iff.1 hget).1
      exact le_trans hold (le_trans hadmitted hobserved)
  attained := ⟨sessionId, session.reject d, get?_insert_self _ _ _, rfl⟩
  heard := by
    intro id
    rw [heardAt_concat, get?_rejected session, hid]
    by_cases hsame : id = sessionId
    · rw [if_pos hsame, hsame]
      exact ⟨fun _ => .inl (.inr ⟨rfl, rfl⟩), fun _ => ⟨session.reject d, rfl, rfl⟩⟩
    rw [if_neg hsame]
    constructor
    · -- Another session heard from at this instant was heard from at it before.
      rintro ⟨other, hget, hseen⟩
      have hold := (Option.filter_eq_some_iff.1 hget).1
      have ht : t = d.observedAt := by
        refine le_antisymm (le_trans hadmitted hobserved) ?_
        rw [← hseen]
        exact h.le id other hold
      rw [← ht] at hseen ⊢
      rcases (h.heard id).1 ⟨other, hold, hseen⟩ with hheard | hbefore
      · exact .inl (.inl hheard)
      · exact .inr hbefore
    · intro hheard
      have ht : t = d.observedAt ∧ (HeardAt done t id ∨
          ∃ session, client.sessions.get? id = some session ∧ session.lastSeen = t) := by
        rcases hheard with (⟨d', hd', hd'id, hd't⟩ | ⟨heq, -⟩) | ⟨other, hget, hseen⟩
        · have ht : t = d.observedAt := by
            refine le_antisymm (le_trans hadmitted hobserved) ?_
            rw [← hd't]
            exact h.past d' hd'
          exact ⟨ht, .inl ⟨d', hd', hd'id, hd't.trans ht.symm⟩⟩
        · exact absurd (Option.some.inj heq).symm hsame
        · have ht : t = d.observedAt := by
            refine le_antisymm (le_trans hadmitted hobserved) ?_
            rw [← hseen]
            exact h.before id other hget
          exact ⟨ht, .inr ⟨other, hget, hseen.trans ht.symm⟩⟩
      obtain ⟨other, hget, hseen⟩ := (h.heard id).2 ht.2
      refine ⟨other, Option.filter_eq_some_iff.2 ⟨hget, decide_eq_true ?_⟩, hseen.trans ht.1⟩
      -- It was heard from just now, so it has not gone quiet.
      rw [hseen, Nat.sub_eq_zero_of_le (hobserved.trans_eq ht.1.symm)]
      exact Nat.zero_le _
  past := by
    intro d' hd'
    rcases mem_snoc.1 hd' with hin | hlast
    · exact le_trans (h.past d' hin) (le_trans hadmitted hobserved)
    · rw [hlast]
  before := fun id other hget =>
    le_trans (h.before id other hget) (le_trans hadmitted hobserved)

end Step

/-- The clock of the receive loop does not go back, within a turn and from turn to turn. -/
def Clocked (datagrams : List Datagram) : Prop :=
  (∀ d ∈ datagrams, d.admittedAt ≤ d.observedAt) ∧
    datagrams.Pairwise fun d d' => d.observedAt ≤ d'.admittedAt

instance (datagrams : List Datagram) : Decidable (Clocked datagrams) :=
  inferInstanceAs (Decidable (_ ∧ _))

/-- The instant of the last frame, or `t` if there is none. -/
def lastInstant (t : Instant) (datagrams : List Datagram) : Instant :=
  (datagrams.getLast?.map Datagram.observedAt).getD t

theorem lastInstant_cons (t : Instant) (d : Datagram) (datagrams : List Datagram) :
    lastInstant t (d :: datagrams) = lastInstant d.observedAt datagrams := by
  unfold lastInstant
  rw [getLast?_cons]
  cases datagrams.getLast? with
  | none | some => rfl

theorem latest_run (crypto : SessionCrypto) (clientId : ClientId) (datagrams : List Datagram) :
    ∀ (cfg : Config Clients Datagram Outcome) (done : List Datagram) (t : Instant)
      (now : RelayClient), cfg.state.get? clientId = some now → Latest client done t now →
      (∀ d ∈ datagrams, t ≤ d.admittedAt) → Clocked datagrams →
      Meets (receiveStep crypto) (RejectedByClient crypto clientId) cfg datagrams →
      ∃ after, (execFrom (receiveStep crypto) cfg datagrams).state.get? clientId = some after ∧
        Latest client (done ++ datagrams) (lastInstant t datagrams) after := by
  induction datagrams with
  | nil =>
    intro cfg done t now hnow hlatest _ _ _
    rw [append_nil]
    exact ⟨now, hnow, hlatest⟩
  | cons d datagrams ih =>
    intro cfg done t now hnow hlatest hpast hclock hmeets
    obtain ⟨⟨id, hid, hrejected⟩, hrest⟩ := hmeets
    obtain ⟨now', session, hnow', -, hstep⟩ := receive_rejected hrejected
    obtain rfl : now' = now := Option.some.inj (hnow'.symm.trans hnow)
    have hobserved := hclock.1 d mem_cons_self
    have hnext := hlatest.reject session hid (hpast d mem_cons_self) hobserved
    have hclock' := pairwise_cons.1 hclock.2
    obtain ⟨after, hafter, hlatest'⟩ := ih (advance (receiveStep crypto) cfg d) (done ++ [d])
      d.observedAt _ (by rw [advance_state, hstep, get?_insert_self]) hnext hclock'.1
      ⟨fun d' hd' => hclock.1 d' (mem_cons_of_mem _ hd'), hclock'.2⟩ hrest
    refine ⟨after, hafter, ?_⟩
    rw [lastInstant_cons]
    rw [append_assoc] at hlatest'
    exact hlatest'

/-- Rejected frames leave the session that replies are sent by exactly when those of the last
instant are all of sessions that were heard from last before, and either one was heard from at that
instant already or all of them have a frame at it. -/
theorem rejected_frames_keep_session (crypto : SessionCrypto) (clients : Clients)
    (clientId : ClientId) (client : RelayClient) (hclient : clients.get? clientId = some client)
    (hsessions : client.sessions.entries ≠ []) (datagrams : List Datagram)
    (hseen : ∀ d ∈ datagrams, ∀ e ∈ client.sessions.entries, e.2.lastSeen ≤ d.admittedAt)
    (hclock : Clocked datagrams)
    (hmeets : Meets (receiveStep crypto) (RejectedByClient crypto clientId) ⟨clients, []⟩
      datagrams) :
    ∃ after,
      (exec (receiveStep crypto) clients datagrams).state.get? clientId = some after ∧
      ((∀ id, after.RepliesBy id ↔ client.RepliesBy id) ↔
        ∀ last ∈ datagrams.getLast?,
          (∀ id, HeardAt datagrams last.observedAt id → client.RepliesBy id) ∧
          ((∃ e ∈ client.sessions.entries, e.2.lastSeen = last.observedAt) ∨
            ∀ id, client.RepliesBy id → HeardAt datagrams last.observedAt id)) := by
  obtain ⟨t, hle, hattained⟩ := exists_lastHeard hsessions
  have hnone : ∀ id, ¬ HeardAt [] t id := by
    rintro id ⟨d, hd, -⟩
    exact absurd hd List.not_mem_nil
  have hstart : Latest client [] t client :=
    ⟨hle, hattained, fun id => ⟨.inr, fun h => h.resolve_left (hnone id)⟩,
      nofun, hle⟩
  have hpast : ∀ d ∈ datagrams, t ≤ d.admittedAt := by
    obtain ⟨id, session, hget, rfl⟩ := hattained
    intro d hd
    exact hseen d hd (id, session) (KeyedMap.get?_eq_some_iff.1 hget)
  obtain ⟨after, hafter, hlatest⟩ :=
    latest_run crypto clientId datagrams ⟨clients, []⟩
      [] t client hclient hstart hpast hclock hmeets
  refine ⟨after, hafter, ?_⟩
  have hbefore := repliesBy_iff_lastSeen hle hattained
  have hnow : ∀ id, after.RepliesBy id ↔ HeardAt datagrams (lastInstant t datagrams) id ∨
      ∃ session, client.sessions.get? id = some session ∧
        session.lastSeen = lastInstant t datagrams := fun id =>
    (repliesBy_iff_lastSeen hlatest.le hlatest.attained id).trans (hlatest.heard id)
  cases hlast : datagrams.getLast? with
  | none =>
    rw [List.getLast?_eq_none_iff] at hlast
    subst hlast
    constructor
    · intro _ last hmem
      cases hmem
    · intro _ id
      rw [hnow, hbefore]
      exact ⟨fun h => h.resolve_left (hnone id), .inr⟩
  | some last =>
    have hinstant : lastInstant t datagrams = last.observedAt := by
      rw [lastInstant, hlast]
      rfl
    rw [hinstant] at hnow
    have hsingle : ∀ P : Datagram → Prop, (∀ last' ∈ some last, P last') ↔ P last := by
      intro P
      simp
    rw [hsingle]
    by_cases ht : t = last.observedAt
    · -- The frames and the sessions heard from last before share the instant.
      have hmeet : ∃ e ∈ client.sessions.entries, e.2.lastSeen = last.observedAt := by
        obtain ⟨id, session, hget, hseen⟩ := hattained
        exact ⟨(id, session), KeyedMap.get?_eq_some_iff.1 hget, hseen.trans ht⟩
      rw [← ht] at hnow hmeet ⊢
      constructor
      · intro hsame
        refine ⟨fun id hheard => (hsame id).1 ((hnow id).2 (.inl hheard)), .inl hmeet⟩
      · rintro ⟨hheard, -⟩ id
        rw [hnow, ← hbefore]
        exact ⟨fun h => h.elim (hheard id) (fun h => h), .inr⟩
    · -- Only sessions with a frame were heard from at the last instant.
      have hmeet : ∀ id session, client.sessions.get? id = some session →
          session.lastSeen ≠ last.observedAt := by
        intro id session hget heq
        refine ht (le_antisymm ?_ ?_)
        · have hd := List.mem_of_getLast? hlast
          exact le_trans (hpast last hd) (hclock.1 last hd)
        · rw [← heq]
          exact hle id session hget
      have hnow' : ∀ id, after.RepliesBy id ↔ HeardAt datagrams last.observedAt id := by
        intro id
        rw [hnow]
        refine ⟨fun h => h.resolve_right ?_, .inl⟩
        rintro ⟨session, hget, heq⟩
        exact hmeet id session hget heq
      constructor
      · intro hsame
        exact ⟨fun id hheard => (hsame id).1 ((hnow' id).2 hheard),
          .inr fun id hreplies => (hnow' id).1 ((hsame id).2 hreplies)⟩
      · rintro ⟨hheard, hall⟩ id
        rw [hnow']
        refine ⟨hheard id, hall.resolve_left ?_ id⟩
        rintro ⟨e, he, heq⟩
        exact hmeet e.1 e.2 (KeyedMap.get?_eq_some_iff.2 he) heq

/-! ### A frame of an older session -/

/-- A data frame of a session of the sample client. -/
def frameOf (session sequence : UInt8) (now : Instant) : Datagram where
  endpoint := .v4 (127, 0, 0, 1) 5000
  bytes := [0x47, 0x50, 0x54, 0x48, 1, 0, 0, 40] ++ List.replicate 16 0 ++
    [0, 0, 0, 0, 0, 0, 0, session] ++ [0, 0, 0, 0, 0, 0, 0, sequence] ++ List.replicate 36 0
  env := ⟨fun _ => now, 0, fun _ => 0⟩

/-- A relay whose client went from session 7 to session 8. -/
def twoSessions : Clients :=
  (exec (receiveStep nullCrypto) (loadClients sampleRecords)
    [frameOf 7 1 0, frameOf 8 1 (secs 1)]).state

/-- The sample client with its two sessions. -/
def twoSessionClient : RelayClient :=
  (twoSessions.get? sampleClient).getD (.enrolled ⟨(10, 203, 0, 2), []⟩)

/-- A frame of the newer session, sent again. -/
theorem rejected_frames_keep_session_newer :
    ∃ after, (exec (receiveStep nullCrypto) twoSessions [frameOf 8 1 (secs 2)]).state.get?
        sampleClient = some after ∧
      ((∀ id, after.RepliesBy id ↔ twoSessionClient.RepliesBy id) ↔
        ∀ last ∈ [frameOf 8 1 (secs 2)].getLast?,
          (∀ id, HeardAt [frameOf 8 1 (secs 2)] last.observedAt id →
            twoSessionClient.RepliesBy id) ∧
          ((∃ e ∈ twoSessionClient.sessions.entries, e.2.lastSeen = last.observedAt) ∨
            ∀ id, twoSessionClient.RepliesBy id →
              HeardAt [frameOf 8 1 (secs 2)] last.observedAt id)) := by
  have hclient : twoSessions.get? sampleClient = some twoSessionClient := by
    have hsome : (twoSessions.get? sampleClient).isSome = true := by decide +kernel
    obtain ⟨client, hget⟩ := Option.isSome_iff_exists.1 hsome
    rfl
  have hmeets : Meets (receiveStep nullCrypto) (RejectedByClient nullCrypto sampleClient)
      ⟨twoSessions, []⟩ [frameOf 8 1 (secs 2)] := ⟨⟨8, by decide +kernel, by decide +kernel⟩,
        trivial⟩
  exact rejected_frames_keep_session nullCrypto twoSessions sampleClient twoSessionClient hclient
    (by decide +kernel) [frameOf 8 1 (secs 2)] (by decide +kernel) (by decide +kernel) hmeets

/-- A frame of the older session, sent again: the window rejects it, and replies go by the older
session from then on. -/
theorem rejected_frame_takes_replies :
    Meets (receiveStep nullCrypto)
        (fun cfg d => rejects nullCrypto cfg.state sampleClient 7 d = true) ⟨twoSessions, []⟩
        [frameOf 7 1 (secs 2)] ∧
      twoSessionClient.RepliesBy 8 ∧ ¬ twoSessionClient.RepliesBy 7 ∧
      ∃ after ∈ (exec (receiveStep nullCrypto) twoSessions [frameOf 7 1 (secs 2)]).state.get?
        sampleClient, after.RepliesBy 7 ∧ ¬ after.RepliesBy 8 := by
  decide +kernel

end GamePath.Relay
