import GamePath.Relay.EndpointTable
import GamePath.Relay.ReplayProtection

/-!
# Frames the replay window rejects

The receive loop records where a frame came from before it asks the replay window, so a frame that
is sent again moves the table of endpoints and the time the session was last heard from, and nothing
else (`receive_rejected`).

`Spares` says when recording an address leaves the endpoints alone that replies go to; a run of
rejected frames that all do so does not move replies (`rejected_frames_keep_targets`), and one that
does not can (`rejected_frames_redirect`).
-/

namespace GamePath.Relay

open Lib List KeyedMap Endpoints Engine Engine.Protocol Engine.Replay

/-! ## The endpoints replies go to -/

/-- Replies go to the endpoint at `now`: its path is selected and it is live. -/
def Endpoint.Returns (now : Instant) (entry : Endpoint) : Prop :=
  entry.selected = true ∧ now - entry.seen ≤ ttl

instance (now : Instant) (entry : Endpoint) : Decidable (entry.Returns now) :=
  inferInstanceAs (Decidable (_ ∧ _))

namespace Endpoints

/-- The entry that leaves a full table. -/
def stalest (entries : List Endpoint) : Option Endpoint :=
  (entries.insertionSort fun a b => a.seen ≤ b.seen).head?

/-- Observing `address` at `t` neither drops an endpoint that replies go to at `now` nor keeps one
from expiring until then. -/
structure Spares (e : Endpoints) (address : SocketAddr) (t now : Instant) : Prop where
  room : (∀ entry ∈ (e.prune t).entries, entry.address ≠ address) →
    capacity ≤ (e.prune t).entries.length →
      ∀ entry ∈ stalest (e.prune t).entries, ¬ entry.Returns now
  expiry : ∀ entry ∈ (e.prune t).entries, entry.address = address → entry.selected = true →
    ttl < now - entry.seen → ttl < now - t

instance (e : Endpoints) (address : SocketAddr) (t now : Instant) :
    Decidable (e.Spares address t now) :=
  decidable_of_iff
    (((∀ entry ∈ (e.prune t).entries, entry.address ≠ address) →
      capacity ≤ (e.prune t).entries.length →
        ∀ entry ∈ stalest (e.prune t).entries, ¬ entry.Returns now) ∧
      ∀ entry ∈ (e.prune t).entries, entry.address = address → entry.selected = true →
        ttl < now - entry.seen → ttl < now - t)
    ⟨fun h => ⟨h.1, h.2⟩, fun h => ⟨h.1, h.2⟩⟩

section Returns

variable {e : Endpoints} {address : SocketAddr} {t now : Instant}

theorem mem_targets_iff (hselective : e.selective = true)
    (hlive : ∃ entry ∈ e.entries, entry.Returns now) {a : SocketAddr} :
    a ∈ (e.prune now).targets ↔ ∃ entry ∈ e.entries, entry.Returns now ∧ entry.address = a := by
  have hany : ((e.prune now).entries.any fun entry =>
      !(e.prune now).selective || entry.selected) = true := by
    obtain ⟨entry, hentry, hselected, hfresh⟩ := hlive
    refine any_eq_true.2 ⟨entry, mem_filter.2 ⟨hentry, decide_eq_true hfresh⟩, ?_⟩
    rw [hselected, Bool.or_true]
  unfold targets
  rw [if_pos hany, mem_map]
  constructor
  · rintro ⟨entry, hentry, rfl⟩
    obtain ⟨hpruned, hchosen⟩ := mem_filter.1 hentry
    obtain ⟨hin, hfresh⟩ := mem_filter.1 hpruned
    have hselected : entry.selected = true := by
      have hpruned : (e.prune now).selective = true := hselective
      rw [hpruned] at hchosen
      exact hchosen
    exact ⟨entry, hin, ⟨hselected, of_decide_eq_true hfresh⟩, rfl⟩
  · rintro ⟨entry, hin, ⟨hselected, hfresh⟩, rfl⟩
    refine ⟨entry, mem_filter.2 ⟨mem_filter.2 ⟨hin, decide_eq_true hfresh⟩, ?_⟩, rfl⟩
    rw [hselected, Bool.or_true]

variable {entries : List Endpoint}

theorem exists_mem_update_iff {P : Endpoint → Prop} {f : Endpoint → Endpoint}
    (h : ∀ entry ∈ entries, entry.address = address → (P (f entry) ↔ P entry)) :
    (∃ entry ∈ update address f entries, P entry) ↔ ∃ entry ∈ entries, P entry := by
  induction entries with
  | nil => exact Iff.rfl
  | cons first entries ih =>
    have ih := ih fun entry hentry => h entry (mem_cons_of_mem _ hentry)
    rw [update]
    split
    next hfirst => simp [h first mem_cons_self hfirst]
    next hfirst => simp [ih]

theorem perm_stalest_cons {entry : Endpoint} (h : stalest entries = some entry) :
    entries.Perm (entry :: dropOldest entries) := by
  unfold dropOldest
  have hperm := perm_insertionSort (fun a b : Endpoint => a.seen ≤ b.seen) entries
  obtain ⟨rest, hrest⟩ := head?_eq_some_iff.1 h
  rw [hrest] at hperm ⊢
  exact hperm.symm

theorem stalest_isSome (h : capacity ≤ entries.length) :
    ∃ entry, stalest entries = some entry := by
  have hlength : (entries.insertionSort fun a b : Endpoint => a.seen ≤ b.seen).length =
      entries.length := length_insertionSort _ _
  unfold stalest
  cases hsorted : entries.insertionSort fun a b : Endpoint => a.seen ≤ b.seen with
  | nil =>
    rw [hsorted, length_nil] at hlength
    have hpos : 0 < capacity := by decide
    omega
  | cons entry rest => exact ⟨entry, rfl⟩

theorem exists_mem_prune_iff (ht : t ≤ now) {P : Endpoint → Prop}
    (hP : ∀ entry, P entry → now - entry.seen ≤ ttl) :
    (∃ entry ∈ (e.prune t).entries, P entry) ↔ ∃ entry ∈ e.entries, P entry := by
  constructor
  · rintro ⟨entry, hentry, hp⟩
    exact ⟨entry, mem_of_mem_filter hentry, hp⟩
  · rintro ⟨entry, hentry, hp⟩
    have hlive := hP entry hp
    have hkept : t - entry.seen ≤ ttl := le_trans (Nat.sub_le_sub_right ht entry.seen) hlive
    exact ⟨entry, mem_filter.2 ⟨hentry, decide_eq_true hkept⟩, hp⟩

theorem returns_observe_iff (hseen : ∀ entry ∈ e.entries, entry.seen ≤ t) (ht : t ≤ now)
    (hspares : e.Spares address t now) (a : SocketAddr) :
    (∃ entry ∈ (e.observe address t).entries, entry.Returns now ∧ entry.address = a) ↔
      ∃ entry ∈ e.entries, entry.Returns now ∧ entry.address = a := by
  have hprune := exists_mem_prune_iff (e := e) ht
    (P := fun entry => entry.Returns now ∧ entry.address = a) fun entry hp => hp.1.2
  refine Iff.trans ?_ hprune
  rcases observe_cases e address t with ⟨-, heq⟩ | ⟨hnew, heq⟩
  · rw [heq]
    apply exists_mem_update_iff
    intro entry hentry haddress
    have hle := hseen entry (mem_of_mem_filter hentry)
    have hexpiry := hspares.expiry entry hentry haddress
    constructor
    · rintro ⟨⟨hselected, hfresh⟩, hwhere⟩
      refine ⟨⟨hselected, ?_⟩, hwhere⟩
      by_contra hold
      exact absurd hfresh (Nat.not_le.2 (hexpiry hselected (Nat.not_le.1 hold)))
    · rintro ⟨⟨hselected, hfresh⟩, hwhere⟩
      refine ⟨⟨hselected, ?_⟩, hwhere⟩
      exact le_trans (Nat.sub_le_sub_left hle now) hfresh
  · rw [heq]
    have hroom : (∃ entry ∈ makeRoom (e.prune t).entries, entry.Returns now ∧ entry.address = a) ↔
        ∃ entry ∈ (e.prune t).entries, entry.Returns now ∧ entry.address = a := by
      unfold makeRoom
      split
      next hfull =>
        obtain ⟨dropped, hdropped⟩ := stalest_isSome hfull
        have hperm := perm_stalest_cons hdropped
        constructor
        · rintro ⟨entry, hentry, hp⟩
          exact ⟨entry, mem_of_mem_dropOldest hentry, hp⟩
        · rintro ⟨entry, hentry, hp⟩
          rcases mem_cons.1 (hperm.mem_iff.1 hentry) with rfl | hkept
          · exact absurd hp.1 (hspares.room hnew hfull entry hdropped)
          · exact ⟨entry, hkept, hp⟩
      next => exact Iff.rfl
    refine Iff.trans ?_ hroom
    constructor
    · rintro ⟨entry, hentry, hp⟩
      rcases mem_snoc.1 hentry with hkept | rfl
      · exact ⟨entry, hkept, hp⟩
      · -- A newcomer announces nothing.
        exact absurd hp.1.1 Bool.false_ne_true
    · rintro ⟨entry, hentry, hp⟩
      exact ⟨entry, mem_append_left _ hentry, hp⟩

theorem seen_observe {entry : Endpoint} (h : entry ∈ (e.observe address t).entries) :
    (∃ old ∈ e.entries, old.seen = entry.seen) ∨ entry.seen = t := by
  rcases observe_cases e address t with ⟨-, heq⟩ | ⟨-, heq⟩
  · rw [heq] at h
    rcases mem_or_of_mem_update h with hold | ⟨old, -, rfl⟩
    · exact .inl ⟨entry, mem_of_mem_filter hold, rfl⟩
    · exact .inr rfl
  · rw [heq] at h
    rcases mem_snoc.1 h with hkept | rfl
    · exact .inl ⟨entry, mem_of_mem_filter (mem_of_mem_makeRoom hkept), rfl⟩
    · exact .inr rfl

theorem targets_observe (hselective : e.selective = true)
    (hlive : ∃ entry ∈ e.entries, entry.Returns now)
    (hseen : ∀ entry ∈ e.entries, entry.seen ≤ t) (ht : t ≤ now)
    (hspares : e.Spares address t now) (a : SocketAddr) :
    a ∈ ((e.observe address t).prune now).targets ↔ a ∈ (e.prune now).targets := by
  have hlive' : ∃ entry ∈ (e.observe address t).entries, entry.Returns now := by
    obtain ⟨entry, hentry, hreturns⟩ := hlive
    obtain ⟨entry', hentry', hreturns', -⟩ :=
      (returns_observe_iff hseen ht hspares entry.address).2 ⟨entry, hentry, hreturns, rfl⟩
    exact ⟨entry', hentry', hreturns'⟩
  rw [mem_targets_iff ((observe_selective _ _ _).trans hselective) hlive',
    mem_targets_iff hselective hlive]
  exact returns_observe_iff hseen ht hspares a

theorem spares_of_targets_observe (hnodup : (e.entries.map Endpoint.address).Nodup)
    (hselective : e.selective = true) (hlive : ∃ entry ∈ e.entries, entry.Returns now)
    (h : ∀ a, a ∈ ((e.observe address t).prune now).targets ↔ a ∈ (e.prune now).targets) :
    e.Spares address t now := by
  have hpruned : ((e.prune t).entries.map Endpoint.address).Nodup :=
    (filter_sublist.map Endpoint.address).nodup hnodup
  constructor
  · intro hnew hfull entry hstalest hreturns
    have hperm := perm_stalest_cons hstalest
    have hin : entry ∈ (e.prune t).entries := hperm.mem_iff.2 mem_cons_self
    -- Replies went to the entry that is dropped, and nothing has its address any more.
    have hbefore : entry.address ∈ (e.prune now).targets :=
      (mem_targets_iff hselective hlive).2 ⟨entry, mem_of_mem_filter hin, hreturns, rfl⟩
    obtain ⟨after, hafter, haddress⟩ := exists_mem_of_mem_targets ((h entry.address).2 hbefore)
    have hobserved := mem_of_mem_filter hafter
    rcases observe_cases e address t with ⟨⟨old, hold, hsame⟩, -⟩ | ⟨-, heq⟩
    · exact hnew old hold hsame
    rw [heq, makeRoom, if_pos hfull] at hobserved
    rcases mem_snoc.1 hobserved with hkept | rfl
    · have hnodup' := (hperm.map Endpoint.address).nodup_iff.1 hpruned
      refine (nodup_cons.1 hnodup').1 ?_
      rw [← haddress]
      exact mem_map_of_mem hkept
    · exact hnew entry hin haddress.symm
  · intro entry hin hsame hselected hexpired
    by_contra hlate
    have hfresh : now - t ≤ ttl := Nat.not_lt.1 hlate
    rcases observe_cases e address t with ⟨-, heq⟩ | ⟨hnew, -⟩
    · have hobserved : refresh t entry ∈ (e.observe address t).entries := by
        rw [heq]
        exact (mem_update hpruned).2 (.inr ⟨entry, hin, hsame, rfl⟩)
      have hreturns : (refresh t entry).Returns now := ⟨hselected, hfresh⟩
      have hafter : entry.address ∈ ((e.observe address t).prune now).targets :=
        (mem_targets_iff ((observe_selective _ _ _).trans hselective) ⟨_, hobserved, hreturns⟩).2
          ⟨_, hobserved, hreturns, rfl⟩
      obtain ⟨other, hother, hlives, haddress⟩ :=
        (mem_targets_iff hselective hlive).1 ((h entry.address).1 hafter)
      have heq : other = entry :=
        inj_on_of_nodup_map hnodup hother (mem_of_mem_filter hin) haddress
      rw [heq] at hlives
      exact absurd hlives.2 (Nat.not_le.2 hexpired)
    · exact absurd hsame (hnew entry hin)

end Returns

end Endpoints

/-! ## Datagrams the window rejects -/

/-- A datagram and what the outside answers while it is handled. -/
structure Datagram where
  endpoint : SocketAddr
  bytes : Bytes
  env : Environment

namespace Datagram

/-- The instant `admit_session` is called with. -/
def admittedAt (d : Datagram) : Instant := d.env.clock 0

/-- The instant `observe_endpoint` reads. -/
def observedAt (d : Datagram) : Instant := d.env.clock 2

end Datagram

/-- The receive loop as a machine that takes datagrams. -/
def receiveStep (crypto : SessionCrypto) (clients : Clients) (d : Datagram) : Clients × Outcome :=
  receive crypto clients d.endpoint d.bytes d.env

/-- The datagram is a frame of the session that authenticates, the session is still there, and its
replay window rejects the frame. -/
def rejects (crypto : SessionCrypto) (clients : Clients) (clientId : ClientId) (sessionId : UInt64)
    (d : Datagram) : Bool :=
  (authenticate crypto clients d.bytes).any fun (header, client, _) =>
    decide (header.clientId = clientId) && decide (header.sessionId = sessionId) &&
      ((client.fresh d.admittedAt).get? sessionId).any fun session =>
        !(session.replay.accept header.sequence).2

/-- The session after a frame that its window rejects. -/
def SessionState.reject (s : SessionState) (d : Datagram) : SessionState :=
  { s.observeEndpoint d.endpoint d.observedAt with rejectedFrames := s.rejectedFrames + 1 }

section Rejected

variable {crypto : SessionCrypto} {clients : Clients} {clientId : ClientId} {sessionId : UInt64}
variable {d : Datagram}

theorem rejects_iff : rejects crypto clients clientId sessionId d = true ↔
    ∃ header client plaintext session,
      authenticate crypto clients d.bytes = some (header, client, plaintext) ∧
      header.clientId = clientId ∧ header.sessionId = sessionId ∧
      (client.fresh d.admittedAt).get? sessionId = some session ∧
      (session.replay.accept header.sequence).2 = false := by
  unfold rejects
  rw [Option.any_eq_true]
  constructor
  · rintro ⟨⟨header, client, plaintext⟩, hauth, h⟩
    rw [Bool.and_eq_true, Bool.and_eq_true, decide_eq_true_iff, decide_eq_true_iff,
      Option.any_eq_true] at h
    obtain ⟨⟨hclient, hid⟩, session, hsession, hrejected⟩ := h
    exact ⟨header, client, plaintext, session, hauth, hclient, hid, hsession,
      by simpa using hrejected⟩
  · rintro ⟨header, client, plaintext, session, hauth, hclient, hid, hsession, hrejected⟩
    refine ⟨(header, client, plaintext), hauth, ?_⟩
    rw [Bool.and_eq_true, Bool.and_eq_true, decide_eq_true_iff, decide_eq_true_iff,
      Option.any_eq_true]
    exact ⟨⟨hclient, hid⟩, session, hsession, by simpa using hrejected⟩

/-- All that a rejected frame does: the sessions that went quiet go, and its own has heard from the
endpoint. -/
theorem receive_rejected (h : rejects crypto clients clientId sessionId d = true) :
    ∃ client session, clients.get? clientId = some client ∧
      (client.fresh d.admittedAt).get? sessionId = some session ∧
      (receiveStep crypto clients d).1 = clients.insert clientId { client with
        sessions := (client.fresh d.admittedAt).insert sessionId (session.reject d) } := by
  obtain ⟨header, client, plaintext, session, hauth, rfl, rfl, hsession, hrejected⟩ :=
    rejects_iff.1 h
  refine ⟨client, session, authenticate_client hauth, hsession, ?_⟩
  have hin : client.sessions.get? header.sessionId = some session := by
    have hretain : ((client.sessions.get? header.sessionId).filter _) = some session :=
      (get?_retain client.sessions _ header.sessionId).symm.trans hsession
    exact (Option.filter_eq_some_iff.1 hretain).1
  have hprobe : statelessProbeReply crypto client header plaintext d.env.micros = none := by
    unfold statelessProbeReply
    rw [hin, Option.isSome_some, Bool.or_true, if_pos rfl]
  have hadmitted : client.admitSession header.sessionId d.env =
      (client.fresh d.admittedAt, session) := by
    unfold RelayClient.admitSession
    dsimp only
    rw [show client.fresh (d.env.clock 0) = client.fresh d.admittedAt from rfl, hsession]
  have hhandle : (Progress.handle crypto d.env
      ⟨header.clientId, header.sessionId, client.enrolment.key⟩ client.enrolment.virtualIpv4
      ⟨session.observeEndpoint d.endpoint d.observedAt, 3, maxSessionsPerClient, []⟩ header
      plaintext d.endpoint).session = session.reject d := by
    unfold Progress.handle
    dsimp only
    rw [show (session.observeEndpoint d.endpoint d.observedAt).replay = session.replay from rfl,
      hrejected, ReplayWindow.accept_fst_of_refused hrejected]
    rfl
  unfold receiveStep receive
  rw [hauth]
  dsimp only
  rw [hprobe]
  unfold serveFrame
  dsimp only
  rw [hadmitted]
  rw [show d.env.clock 2 = d.observedAt from rfl, hhandle]

/-! ## Where replies go -/

theorem session?_rejected (h : rejects crypto clients clientId sessionId d = true) :
    ∃ session, session? clients (clientId, sessionId) = some session ∧
      session? (receiveStep crypto clients d).1 (clientId, sessionId) =
        some (session.reject d) := by
  obtain ⟨client, session, hclient, hfresh, heq⟩ := receive_rejected h
  refine ⟨session, ?_, ?_⟩
  · have hretain : ((client.sessions.get? sessionId).filter _) = some session :=
      (get?_retain client.sessions _ sessionId).symm.trans hfresh
    rw [session?, hclient]
    exact (Option.filter_eq_some_iff.1 hretain).1
  · rw [heq, session?, get?_insert_self]
    exact get?_insert_self _ _ _

/-- The datagram is rejected by the session, and recording its source spares the endpoints replies
go to at `now`. -/
def RejectedSparing (crypto : SessionCrypto) (clientId : ClientId) (sessionId : UInt64)
    (now : Instant) (cfg : Run.Config Clients Datagram Outcome) (d : Datagram) : Prop :=
  rejects crypto cfg.state clientId sessionId d = true ∧
    ∀ session ∈ session? cfg.state (clientId, sessionId),
      session.endpoints.Spares d.endpoint d.observedAt now

/-- The table a run of sparing frames leaves sends replies where the table it started with does. -/
theorem keep_targets (crypto : SessionCrypto) (clientId : ClientId) (sessionId : UInt64)
    (now : Instant) (datagrams : List Datagram) :
    ∀ (cfg : Run.Config Clients Datagram Outcome) (session : SessionState),
      session? cfg.state (clientId, sessionId) = some session →
      session.endpoints.selective = true →
      (∃ entry ∈ session.endpoints.entries, entry.Returns now) →
      (∀ d ∈ datagrams, ∀ entry ∈ session.endpoints.entries, entry.seen ≤ d.observedAt) →
      (datagrams.map Datagram.observedAt ++ [now]).Pairwise (· ≤ ·) →
      Run.Meets (receiveStep crypto) (RejectedSparing crypto clientId sessionId now) cfg datagrams →
      ∃ after, session? (Run.execFrom (receiveStep crypto) cfg datagrams).state
          (clientId, sessionId) = some after ∧
        ∀ a, a ∈ (after.endpoints.prune now).targets ↔
          a ∈ (session.endpoints.prune now).targets := by
  induction datagrams with
  | nil =>
    intro cfg session hsession _ _ _ _ _
    exact ⟨session, hsession, fun a => Iff.rfl⟩
  | cons d datagrams ih =>
    intro cfg session hsession hselective hlive hseen hclock hmeets
    obtain ⟨⟨hrejected, hspares⟩, hrest⟩ := hmeets
    obtain ⟨session', hsession', hafter⟩ := session?_rejected hrejected
    obtain rfl : session' = session := Option.some.inj (hsession'.symm.trans hsession)
    have hspares := hspares session' hsession
    rw [map_cons, cons_append, pairwise_cons] at hclock
    have hd : d.observedAt ≤ now := hclock.1 now (by simp)
    have hseen_d := hseen d mem_cons_self
    have hlive' : ∃ entry ∈ (session'.reject d).endpoints.entries, entry.Returns now := by
      obtain ⟨entry, hentry, hreturn⟩ := hlive
      obtain ⟨entry', hentry', hreturn', -⟩ :=
        (returns_observe_iff hseen_d hd hspares entry.address).2
          ⟨entry, hentry, hreturn, rfl⟩
      exact ⟨entry', hentry', hreturn'⟩
    have hseen' : ∀ d' ∈ datagrams, ∀ entry ∈ (session'.reject d).endpoints.entries,
        entry.seen ≤ d'.observedAt := by
      -- What the table holds now was there before, or was seen at this frame.
      intro d' hd' entry hentry
      have hle : d.observedAt ≤ d'.observedAt :=
        hclock.1 _ (mem_append_left _ (mem_map_of_mem hd'))
      rcases seen_observe hentry with hold | hnow
      · obtain ⟨old, hold, heq⟩ := hold
        rw [← heq]
        exact hseen d' (mem_cons_of_mem _ hd') old hold
      · rw [hnow]
        exact hle
    obtain ⟨after, hafter', hsame⟩ := ih (Run.advance (receiveStep crypto) cfg d)
      (session'.reject d) hafter ((observe_selective _ _ _).trans hselective) hlive' hseen'
      hclock.2 hrest
    refine ⟨after, hafter', fun a => (hsame a).trans ?_⟩
    exact targets_observe hselective hlive hseen_d hd hspares a

/-- Rejected frames that all spare the endpoints replies go to do not move replies, and for one
frame that is the exact condition. -/
theorem rejected_frames_keep_targets (crypto : SessionCrypto) (clients : Clients)
    (clientId : ClientId) (sessionId : UInt64) (session : SessionState)
    (hsession : session? clients (clientId, sessionId) = some session)
    (hselective : session.endpoints.selective = true) (now : Instant)
    (hlive : ∃ entry ∈ session.endpoints.entries, entry.Returns now) :
    (∀ datagrams : List Datagram,
      (∀ d ∈ datagrams, ∀ entry ∈ session.endpoints.entries, entry.seen ≤ d.observedAt) →
      (datagrams.map Datagram.observedAt ++ [now]).Pairwise (· ≤ ·) →
      Run.Meets (receiveStep crypto) (RejectedSparing crypto clientId sessionId now) ⟨clients, []⟩
        datagrams →
      ∃ after, session? (Run.exec (receiveStep crypto) clients datagrams).state
          (clientId, sessionId) = some after ∧
        ∀ a, a ∈ (after.endpoints.prune now).targets ↔
          a ∈ (session.endpoints.prune now).targets) ∧
    ∀ d : Datagram, session.endpoints.WellFormed →
      (∀ entry ∈ session.endpoints.entries, entry.seen ≤ d.observedAt) → d.observedAt ≤ now →
      rejects crypto clients clientId sessionId d = true →
      ∃ after, session? (receiveStep crypto clients d).1 (clientId, sessionId) = some after ∧
        ((∀ a, a ∈ (after.endpoints.prune now).targets ↔
          a ∈ (session.endpoints.prune now).targets) ↔
          session.endpoints.Spares d.endpoint d.observedAt now) := by
  constructor
  · intro datagrams hseen hclock hmeets
    exact keep_targets crypto clientId sessionId now datagrams ⟨clients, []⟩ session hsession
      hselective hlive hseen hclock hmeets
  intro d hwell hseen hd hrejected
  obtain ⟨session', hsession', hafter⟩ := session?_rejected hrejected
  obtain rfl : session' = session := Option.some.inj (hsession'.symm.trans hsession)
  refine ⟨session'.reject d, hafter, ?_, ?_⟩
  · intro hsame
    exact spares_of_targets_observe hwell.addresses hselective hlive hsame
  · intro hspares a
    exact targets_observe hselective hlive hseen hd hspares a

end Rejected

/-! ### A selected endpoint that is pushed out -/

/-- A control frame of the client's session that selects path 0. -/
def samplePolicy : Bytes :=
  [0x47, 0x50, 0x54, 0x48, 1, 1, 0, 40] ++ List.replicate 16 0 ++ [0, 0, 0, 0, 0, 0, 0, 7] ++
    [0, 0, 0, 0, 0, 0, 0, 1] ++ pathRequest ++ [0, 1] ++ List.replicate 16 0

/-- The policy frame from a port of the client, or of whoever recorded it. -/
def policyFrom (port : UInt16) (now : Instant) : Datagram :=
  ⟨.v4 (127, 0, 0, 1) port, samplePolicy, ⟨fun _ => now, 0, fun _ => 0⟩⟩

/-- A relay that heard the policy from port 5000. -/
def sampleSelective : Clients :=
  (receiveStep nullCrypto (loadClients sampleRecords) (policyFrom 5000 0)).1

/-- Where a session's replies go. -/
def replyTargets (clients : Clients) (now : Instant) : Option (List SocketAddr) :=
  (session? clients (sampleClient, 7)).map fun session => (session.endpoints.prune now).targets

/-- The session of the samples. -/
def sampleSession : SessionState :=
  (session? sampleSelective (sampleClient, 7)).getD (SessionState.new 0 0)

/-- A copy of the policy that took another path does not move replies. -/
theorem rejected_frames_keep_targets_duplicate :
    ∃ after, session? (Run.exec (receiveStep nullCrypto) sampleSelective
        [policyFrom 5001 (secs 1)]).state (sampleClient, 7) = some after ∧
      ∀ a, a ∈ (after.endpoints.prune (secs 2)).targets ↔
        a ∈ (sampleSession.endpoints.prune (secs 2)).targets := by
  have hsession : session? sampleSelective (sampleClient, 7) = some sampleSession := by
    have hsome : (session? sampleSelective (sampleClient, 7)).isSome = true := by decide +kernel
    obtain ⟨session, hsession⟩ := Option.isSome_iff_exists.1 hsome
    rfl
  apply (rejected_frames_keep_targets nullCrypto sampleSelective sampleClient 7 sampleSession
    hsession (by decide +kernel) (secs 2) (by decide +kernel)).1
  · decide +kernel
  · decide +kernel
  · exact ⟨⟨by decide +kernel, by decide +kernel⟩, trivial⟩

/-- The policy played back from eight other ports: its window rejects every copy, and yet replies go
to the last of these ports and no more to the endpoint that is selected and live. -/
theorem rejected_frames_redirect :
    let copies := (List.range 8).map fun i =>
      policyFrom (6000 + UInt16.ofNat i) (secs (i + 1))
    Run.Meets (receiveStep nullCrypto)
        (fun cfg d => rejects nullCrypto cfg.state sampleClient 7 d = true) ⟨sampleSelective, []⟩
        copies ∧
      sampleSession.endpoints.selective = true ∧
      replyTargets sampleSelective (secs 8) = some [.v4 (127, 0, 0, 1) 5000] ∧
      replyTargets (Run.exec (receiveStep nullCrypto) sampleSelective copies).state (secs 8) =
        some [.v4 (127, 0, 0, 1) 6007] := by
  decide +kernel

end GamePath.Relay
