import GamePath.Lib.RestartedCounter
import GamePath.Relay.Isolation

/-!
# Nonces of the frames to the clients

A frame to a client is sealed under the client's key, a session id and a sequence, and the sequence
is the nonce. Five places advance a session's sequence and a probe without a session is sealed under
a reading of the wall clock; a session that is created again starts from such a reading. For one key
and session id that is a counter restarted from a clock, so under the pace of `RestartedCounter` its
sequences only increase: `nonces_increase`, for a relay on which no two clients share a key.
-/

namespace GamePath.Relay

open List Lib Lib.RestartedCounter Engine Engine.Protocol
open KeyedMap (get?_eq_some_iff get?_insert get?_mapValues)

/-! ## What is sealed -/

/-- The sequence of a frame sealed under a key and session id. -/
def Output.sealedUnder (key : Bytes) (sessionId : UInt64) : Output → Option UInt64
  | .sealed key' sessionId' sequence =>
    if key' = key ∧ sessionId' = sessionId then some sequence else none
  | .tun _ _ => none
  | .udp _ _ => none

/-- The sequences of the frames sealed under a key and session id, in order. -/
def sealedUnder (key : Bytes) (sessionId : UInt64) (outputs : List Output) : List UInt64 :=
  outputs.filterMap (Output.sealedUnder key sessionId)

/-- The sequences after `start`. -/
def sequencesAfter (start : UInt64) : Nat → List UInt64
  | 0 => []
  | n + 1 => sequencesAfter start n ++ [start + UInt64.ofNat (n + 1)]

/-- A turn that found the sequence at `start` has sealed the next ones for its peer and nothing for
others, and has moved the sequence on to the last of them. -/
structure Counting (peer : Peer) (start : UInt64) (p : Progress) : Prop where
  counted : ∃ n, p.session.outboundSequence = start + UInt64.ofNat n ∧
    sealedUnder peer.key peer.sessionId p.sent = sequencesAfter start n
  others : ∀ key sessionId, ¬ (peer.key = key ∧ peer.sessionId = sessionId) →
    sealedUnder key sessionId p.sent = []

section Counting

variable {crypto : SessionCrypto} {env : Environment} {peer : Peer} {address : Octets}
variable {source : Option SocketAddr} {start : UInt64} (key : Bytes) (sessionId : UInt64)

theorem sealedUnder_append (outputs outputs' : List Output) :
    sealedUnder key sessionId (outputs ++ outputs') =
      sealedUnder key sessionId outputs ++ sealedUnder key sessionId outputs' :=
  filterMap_append

theorem sealedUnder_udp (endpoints : List SocketAddr) (frame : Bytes) :
    sealedUnder key sessionId (endpoints.map fun endpoint => .udp endpoint frame) = [] := by
  induction endpoints with
  | nil => rfl
  | cons endpoint endpoints ih => exact ih

theorem sealedUnder_emit (p : Progress) (endpoints : List SocketAddr) (frame : Bytes) :
    sealedUnder key sessionId (p.emit peer endpoints frame).sent =
      sealedUnder key sessionId p.sent ++
        if peer.key = key ∧ peer.sessionId = sessionId then
          [p.session.outboundSequence] else [] := by
  show sealedUnder key sessionId (p.sent ++ (_ :: _)) = _
  rw [sealedUnder_append]
  congr 1
  show List.filterMap _ (_ :: _) = _
  rw [filterMap_cons]
  have hudp := sealedUnder_udp key sessionId endpoints frame
  unfold sealedUnder at hudp
  rw [hudp, Output.sealedUnder]
  split
  · next h =>
    split at h
    · cases h
    next hne => rw [if_neg hne]
  · next sequence h =>
    split at h
    next hsame =>
      rw [if_pos hsame, Option.some.inj h]
    next => cases h

theorem sealedUnder_writeToTun (env : Environment) (p : Progress)
    (sequence : UInt64) (packet : Bytes) :
    sealedUnder key sessionId (p.writeToTun env sequence packet).sent =
        sealedUnder key sessionId p.sent ∧
      (p.writeToTun env sequence packet).session.outboundSequence = p.session.outboundSequence := by
  have htun : ∀ (sent : List Output) (sequences : List UInt64) (datagram : Bytes),
      sealedUnder key sessionId (sent ++ [.tun sequences datagram]) =
        sealedUnder key sessionId sent := by
    intro sent sequences datagram
    rw [sealedUnder_append]
    exact append_nil _
  unfold Progress.writeToTun
  split
  · dsimp only
    split
    · exact ⟨htun _ _ _, rfl⟩
    · exact ⟨rfl, rfl⟩
  · exact ⟨htun _ _ _, rfl⟩

theorem Counting.move
    (hseals : ∀ key sessionId header payload,
      (crypto.sealServer key sessionId header payload).isSome = true)
    {p q : Progress} (hmove : Move crypto env peer address source p q)
    (h : Counting peer start p) : Counting peer start q := by
  obtain ⟨⟨n, hsequence, hsealed⟩, hothers⟩ := h
  cases hmove with
  | keep session readings picks hendpoints hkept hfragments =>
    exact ⟨⟨n, hkept.trans hsequence, hsealed⟩, hothers⟩
  | prune | apply => exact ⟨⟨n, hsequence, hsealed⟩, hothers⟩
  | fail flags payload hfailed =>
    have hsome := hseals peer.key peer.sessionId
      ⟨flags, peer.clientId, peer.sessionId, p.nextSequence.session.outboundSequence⟩ payload
    rw [Progress.sealFrame] at hfailed
    rw [hfailed] at hsome
    cases hsome
  | emit flags payload frame endpoints hframe hendpoints =>
    have hnext : p.nextSequence.session.outboundSequence = start + UInt64.ofNat (n + 1) := by
      show p.session.outboundSequence + 1 = _
      rw [hsequence, UInt64.ofNat_add, ← UInt64.add_assoc]
      rfl
    refine ⟨⟨n + 1, hnext, ?_⟩, ?_⟩
    · rw [sealedUnder_emit, if_pos ⟨rfl, rfl⟩, hnext]
      exact congrArg (· ++ [_]) hsealed
    · intro key sessionId hother
      rw [sealedUnder_emit, if_neg hother, append_nil]
      exact hothers key sessionId hother
  | write sequence packet hsource hframe =>
    refine ⟨⟨n, ?_, ?_⟩, ?_⟩
    · rw [(sealedUnder_writeToTun peer.key peer.sessionId env p sequence packet).2]
      exact hsequence
    · rw [(sealedUnder_writeToTun peer.key peer.sessionId env p sequence packet).1]
      exact hsealed
    · intro key sessionId hother
      rw [(sealedUnder_writeToTun key sessionId env p sequence packet).1]
      exact hothers key sessionId hother

theorem counting_start {p : Progress} (hsent : p.sent = [])
    (hsequence : p.session.outboundSequence = start) : Counting peer start p := by
  refine ⟨⟨0, ?_, ?_⟩, ?_⟩
  · rw [hsequence]
    exact (UInt64.add_zero start).symm
  · rw [hsent]
    rfl
  · intro key sessionId _
    rw [hsent]
    rfl

theorem Turn.counting
    (hseals : ∀ key sessionId header payload,
      (crypto.sealServer key sessionId header payload).isSome = true)
    {event : Event} {session : SessionState} {p : Progress}
    (hturn : Turn crypto peer address event session p) :
    Counting peer session.outboundSequence p := by
  have hmove : ∀ (env : Environment) (source : Option SocketAddr) (p q : Progress),
      Move crypto env peer address source p q → Counting peer session.outboundSequence p →
        Counting peer session.outboundSequence q := fun _ _ _ _ => Counting.move hseals
  cases hturn with
  | frame endpoint bytes env hopens =>
    exact Moves.invariant (hmove env (some endpoint)) (Progress.moves_handle _ _ _ _)
      (counting_start rfl rfl)
  | reply packet env hdestination =>
    exact Moves.invariant (hmove env none) (Progress.moves_sendReplies _ _) (counting_start rfl rfl)
  | flush now env =>
    exact Moves.invariant (hmove (env peer.clientId peer.sessionId) none)
      (moves_flushSession now session) (counting_start rfl rfl)

end Counting

/-! ## The history of a key and session id -/

variable (crypto : SessionCrypto)

/-- The reading of the wall clock a datagram takes for a key and session id: for a probe that is
answered without a session, or for a session that is created. -/
def readingAt (key : Bytes) (sessionId : UInt64) (clients : Clients)
    (bytes : Bytes) (env : Environment) : List Mark :=
  match authenticate crypto clients bytes with
  | none => []
  | some (header, client, plaintext) =>
    if client.enrolment.key = key ∧ header.sessionId = sessionId ∧
        ((statelessProbeReply crypto client header plaintext env.micros).isSome = true ∨
          client.creates header.sessionId (env.clock 0) = true) then
      [.reading env.micros.toNat]
    else []

/-- The reading an event takes. -/
def readingFor (key : Bytes) (sessionId : UInt64) (clients : Clients) :
    Event → List Mark
  | .frame _ bytes env => readingAt crypto key sessionId clients bytes env
  | _ => []

/-- A sealed frame as a mark. -/
def Mark.ofSequence (sequence : UInt64) : Mark := .issue sequence.toNat

/-- The readings an event takes and the frames it seals. -/
def marksOf (key : Bytes) (sessionId : UInt64) (clients : Clients) (event : Event) : List Mark :=
  readingFor crypto key sessionId clients event ++
    (sealedUnder key sessionId (step crypto clients event).2.sent).map Mark.ofSequence

/-- The readings a run takes for a key and session id, and the frames it seals under them. -/
def history (crypto : SessionCrypto) (key : Bytes) (sessionId : UInt64) :
    Clients → List Event → List Mark
  | _, [] => []
  | clients, event :: events =>
    marksOf crypto key sessionId clients event ++
      history crypto key sessionId (step crypto clients event).1 events

/-- No two clients that are enrolled together share a key. -/
def KeysDistinct (registry : KeyedMap ClientId Enrolment) : Prop :=
  ∀ id id' enrolment enrolment', registry.get? id = some enrolment →
    registry.get? id' = some enrolment' → enrolment.key = enrolment'.key → id = id'

/-- So it is for the clients of a state. -/
def OneOwner (clients : Clients) : Prop :=
  ∀ id id' client client', clients.get? id = some client → clients.get? id' = some client' →
    client.enrolment.key = client'.enrolment.key → id = id'

theorem oneOwner_of_registry {clients : Clients} {registry : KeyedMap ClientId Enrolment}
    (h : KeysDistinct registry)
    (heq : ∀ id, (clients.get? id).map RelayClient.enrolment = registry.get? id) :
    OneOwner clients := by
  intro id id' client client' hclient hclient' hsame
  have hid := heq id
  have hid' := heq id'
  rw [hclient] at hid
  rw [hclient'] at hid'
  exact h id id' _ _ hid.symm hid'.symm hsame

theorem OneOwner.step {crypto : SessionCrypto} {clients : Clients} (h : OneOwner clients)
    (event : Event) (hkeys : ∀ next, event = .reload next → KeysDistinct next) :
    OneOwner (step crypto clients event).1 := by
  have henrolment := step_enrolment crypto clients event
  have hsame : (∀ id, ((Relay.step crypto clients event).1.get? id).map RelayClient.enrolment =
      (clients.get? id).map RelayClient.enrolment) →
        OneOwner (Relay.step crypto clients event).1 := by
    intro heq id id' client client' hclient hclient' hkey
    have hid := heq id
    have hid' := heq id'
    rw [hclient, eq_comm, Option.map_some, Option.map_eq_some_iff] at hid
    rw [hclient', eq_comm, Option.map_some, Option.map_eq_some_iff] at hid'
    obtain ⟨old, hold, heq⟩ := hid
    obtain ⟨old', hold', heq'⟩ := hid'
    refine h id id' old old' hold hold' ?_
    rw [heq, heq', hkey]
  cases event with
  | frame | reply | flush => exact hsame henrolment
  | reload next => exact oneOwner_of_registry (hkeys next rfl) henrolment

/-- The numbers of a history increase, and a session that is there stands where its counter does. -/
structure Current (key : Bytes) (sessionId : UInt64) (clients : Clients) (marks : List Mark) :
    Prop where
  numbered : Numbered marks
  live : ∀ clientId client session, clients.get? clientId = some client →
    client.enrolment.key = key → client.sessions.get? sessionId = some session →
    top marks = some session.outboundSequence.toNat

theorem toNat_sequencesAfter {start : UInt64} {n : Nat} (h : start.toNat + n < 2 ^ 64) :
    (sequencesAfter start n).map Mark.ofSequence = (following start.toNat n).map .issue := by
  induction n with
  | zero => rfl
  | succ n ih =>
    have hlast : (start + UInt64.ofNat (n + 1)).toNat = start.toNat + n + 1 := by
      rw [UInt64.toNat_add, UInt64.toNat_ofNat']
      omega
    rw [sequencesAfter, following, map_append, map_append, ih (by omega)]
    simp only [map_cons, map_nil, Mark.ofSequence, hlast]

theorem length_sequencesAfter (start : UInt64) (n : Nat) : (sequencesAfter start n).length = n := by
  induction n with
  | zero => rfl
  | succ n ih =>
    rw [sequencesAfter, length_append, ih]
    rfl

theorem length_issued_ofSequence (sequences : List UInt64) :
    (issued (sequences.map Mark.ofSequence)).length = sequences.length := by
  induction sequences with
  | nil => rfl
  | cons sequence sequences ih => exact congrArg (· + 1) ih

/-- A turn goes on with the numbers of its session. -/
theorem numbered_turn {marks rest : List Mark} {peer : Peer} {start : UInt64} {p : Progress}
    (hnumbered : Numbered marks) (htop : top marks = some start.toNat)
    (hcounting : Counting peer start p) (hbounded : Bounded (2 ^ 64) (marks ++
      ((sealedUnder peer.key peer.sessionId p.sent).map Mark.ofSequence ++ rest))) :
    Numbered (marks ++ (sealedUnder peer.key peer.sessionId p.sent).map Mark.ofSequence) ∧
      top (marks ++ (sealedUnder peer.key peer.sessionId p.sent).map Mark.ofSequence) =
        some p.session.outboundSequence.toNat := by
  obtain ⟨⟨n, hsequence, hsealed⟩, -⟩ := hcounting
  have hlimit := hbounded.top_lt htop
  rw [issued_append, length_append, length_issued_ofSequence, hsealed,
    length_sequencesAfter] at hlimit
  have hfit : start.toNat + n < 2 ^ 64 := by omega
  have hlast : (start + UInt64.ofNat n).toNat = start.toNat + n := by
    rw [UInt64.toNat_add, UInt64.toNat_ofNat']
    omega
  rw [hsealed, toNat_sequencesAfter hfit, hsequence, hlast]
  exact hnumbered.following htop n

/-! ## One event -/

section Step

variable {crypto : SessionCrypto} {key : Bytes} {sessionId : UInt64} {clients : Clients}
variable {marks rest : List Mark} {client : RelayClient}

/-- A turn for the key and session id adds its marks, and a turn for others adds none. -/
theorem Current.insert (h : Current key sessionId clients marks) (howner : OneOwner clients)
    {turnId : ClientId} {turnSession : UInt64} {sessions : KeyedMap UInt64 SessionState}
    {session' : SessionState} {marks' : List Mark} (hclient : clients.get? turnId = some client)
    (hsessions : ∀ other found, sessions.get? other = some found →
      client.sessions.get? other = some found)
    (hown : client.enrolment.key = key → turnSession = sessionId →
      Numbered marks' ∧ top marks' = some session'.outboundSequence.toNat)
    (hother : ¬ (client.enrolment.key = key ∧ turnSession = sessionId) → marks' = marks) :
    Current key sessionId (clients.insert turnId
      { client with sessions := sessions.insert turnSession session' }) marks' := by
  by_cases hmine : client.enrolment.key = key ∧ turnSession = sessionId
  · obtain ⟨hnumbered, htop⟩ := hown hmine.1 hmine.2
    refine ⟨hnumbered, ?_⟩
    intro clientId found session hfound hkey hsession
    rw [get?_insert] at hfound
    split at hfound
    next =>
      cases hfound
      rw [get?_insert, if_pos hmine.2.symm] at hsession
      rw [← Option.some.inj hsession]
      exact htop
    next hid =>
      -- Another client does not have the key.
      exact absurd (howner _ _ _ _ hfound hclient (hkey.trans hmine.1.symm)) hid
  · rw [hother hmine]
    refine ⟨h.numbered, ?_⟩
    intro clientId found session hfound hkey hsession
    rw [get?_insert] at hfound
    split at hfound
    next =>
      cases hfound
      rw [get?_insert, if_neg fun heq => hmine ⟨hkey, heq.symm⟩] at hsession
      exact h.live turnId client session hclient hkey (hsessions _ _ hsession)
    next => exact h.live clientId found session hfound hkey hsession

theorem sealedUnder_of_ne {peer : Peer} {start : UInt64} {p : Progress}
    (h : Counting peer start p) (hne : ¬ (peer.key = key ∧ peer.sessionId = sessionId)) :
    (sealedUnder key sessionId p.sent).map Mark.ofSequence = [] := by
  rw [h.others key sessionId hne]
  rfl

variable {endpoint : SocketAddr} {header : FrameHeader} {env : Environment} {bytes : Bytes}

/-- A probe without a session is sealed under the reading itself. -/
theorem marksOf_probe {plaintext reply : Bytes}
    (hauth : authenticate crypto clients bytes = some (header, client, plaintext))
    (hprobe : statelessProbeReply crypto client header plaintext env.micros = some reply) :
    marksOf crypto key sessionId clients (.frame endpoint bytes env) =
      if client.enrolment.key = key ∧ header.sessionId = sessionId then
        [.reading env.micros.toNat, .issue env.micros.toNat]
      else [] := by
  show readingAt crypto key sessionId clients bytes env ++ (sealedUnder key sessionId
    (receive crypto clients endpoint bytes env).2.sent).map Mark.ofSequence = _
  unfold readingAt receive
  rw [hauth]
  dsimp only
  rw [hprobe]
  by_cases hmine : client.enrolment.key = key ∧ header.sessionId = sessionId
  · simp [sealedUnder, Output.sealedUnder, hmine, Mark.ofSequence]
  · simp [sealedUnder, Output.sealedUnder, hmine]

/-- A frame that is served takes a reading if it creates its session. -/
theorem marksOf_served {plaintext : Bytes}
    (hauth : authenticate crypto clients bytes = some (header, client, plaintext))
    (hprobe : statelessProbeReply crypto client header plaintext env.micros = none) :
    marksOf crypto key sessionId clients (.frame endpoint bytes env) =
      (if client.enrolment.key = key ∧ header.sessionId = sessionId ∧
          client.creates header.sessionId (env.clock 0) = true then [.reading env.micros.toNat]
        else []) ++
      (sealedUnder key sessionId
        (serveFrame crypto env clients client header plaintext endpoint).2.sent).map
          Mark.ofSequence := by
  show readingAt crypto key sessionId clients bytes env ++ (sealedUnder key sessionId
    (receive crypto clients endpoint bytes env).2.sent).map Mark.ofSequence = _
  unfold readingAt receive
  rw [hauth]
  dsimp only
  rw [hprobe]
  simp

theorem Current.probe (h : Current key sessionId clients marks) (howner : OneOwner clients)
    {plaintext reply : Bytes}
    (hauth : authenticate crypto clients bytes = some (header, client, plaintext))
    (hprobe : statelessProbeReply crypto client header plaintext env.micros = some reply)
    (hpaced : Paced (marks ++ (marksOf crypto key sessionId clients (.frame endpoint bytes env) ++
      rest))) :
    Current key sessionId clients
      (marks ++ marksOf crypto key sessionId clients (.frame endpoint bytes env)) := by
  have hnone : client.sessions.get? header.sessionId = none := by
    unfold statelessProbeReply at hprobe
    split at hprobe
    · cases hprobe
    next hcondition =>
      rw [Bool.or_eq_true, not_or] at hcondition
      exact Option.not_isSome_iff_eq_none.1 hcondition.2
  rw [marksOf_probe hauth hprobe] at hpaced ⊢
  by_cases hmine : client.enrolment.key = key ∧ header.sessionId = sessionId
  · rw [if_pos hmine] at hpaced ⊢
    refine ⟨h.numbered.issueReading fun t ht => hpaced.top_lt ht, ?_⟩
    -- The session the probe names is not there.
    intro clientId found session hfound hkey hsession
    have hclient := authenticate_client hauth
    obtain rfl := howner _ _ _ _ hfound hclient (hkey.trans hmine.1.symm)
    rw [hclient] at hfound
    cases hfound
    rw [← hmine.2, hnone] at hsession
    cases hsession
  · rw [if_neg hmine, append_nil]
    exact h

section

variable
  (hseals : ∀ key sessionId header payload,
    (crypto.sealServer key sessionId header payload).isSome = true)
  (h : Current key sessionId clients marks) (howner : OneOwner clients)
include hseals h howner

theorem Current.served {plaintext : Bytes}
    (hauth : authenticate crypto clients bytes = some (header, client, plaintext))
    (hprobe : statelessProbeReply crypto client header plaintext env.micros = none)
    (hpaced : Paced (marks ++ (marksOf crypto key sessionId clients (.frame endpoint bytes env) ++
      rest))) (hbounded : Bounded (2 ^ 64)
      (marks ++ (marksOf crypto key sessionId clients (.frame endpoint bytes env) ++ rest))) :
    Current key sessionId (serveFrame crypto env clients client header plaintext endpoint).1
      (marks ++ marksOf crypto key sessionId clients (.frame endpoint bytes env)) := by
  obtain ⟨p, hturn, hserve⟩ := serveFrame_turn hauth endpoint env
  have hcounting := hturn.turn.counting hseals
  rw [marksOf_served hauth hprobe, hserve] at hpaced hbounded ⊢
  refine h.insert howner hturn.enrolled (fun other found => get?_admitSession) ?_ ?_
  · rintro rfl rfl
    rcases admitSession_cases client header.sessionId env with ⟨hcreates, hnew⟩ | ⟨hcreates, hkept⟩
    · -- A new session starts from the reading.
      rw [if_pos ⟨rfl, rfl, hcreates⟩] at hpaced hbounded ⊢
      have hnumbered := h.numbered.reading fun t ht => hpaced.top_lt ht
      have htop : top (marks ++ [.reading env.micros.toNat]) =
          some (client.admitSession header.sessionId env).2.outboundSequence.toNat := by
        rw [top_append, hnew]
        rfl
      rw [append_assoc, ← append_assoc] at hbounded
      rw [← append_assoc]
      exact numbered_turn hnumbered htop hcounting hbounded
    · rw [if_neg fun hall =>
          absurd hall.2.2 (by rw [hcreates]; exact Bool.false_ne_true)] at hbounded ⊢
      have htop := h.live _ client _ hturn.enrolled rfl hkept
      exact numbered_turn h.numbered htop hcounting hbounded
  · intro hne
    rw [if_neg fun hall => hne ⟨hall.1, hall.2.1⟩, sealedUnder_of_ne hcounting hne]
    exact append_nil marks

theorem Current.reply (packet : Bytes) (env : Environment) (hbounded : Bounded (2 ^ 64)
      (marks ++ (marksOf crypto key sessionId clients (.reply packet env) ++ rest))) :
    Current key sessionId (forwardReply crypto clients packet env).1
      (marks ++ marksOf crypto key sessionId clients (.reply packet env)) := by
  change Bounded _ (marks ++ ((sealedUnder key sessionId
    (forwardReply crypto clients packet env).2.sent).map Mark.ofSequence ++ rest)) at hbounded
  change Current key sessionId _ (marks ++ (sealedUnder key sessionId
    (forwardReply crypto clients packet env).2.sent).map Mark.ofSequence)
  rcases forwardReply_cases crypto clients packet env with
    heq | ⟨clientId, client, turnSession, session, p, hturn, heq⟩
  · rw [heq]
    exact (append_nil marks).symm ▸ h
  have hcounting := hturn.turn.counting hseals
  rw [heq] at hbounded ⊢
  refine h.insert howner hturn.enrolled (fun _ _ => id) ?_ ?_
  · rintro rfl rfl
    have hkept : client.sessions.get? turnSession = some session := by
      cases hturn.finds with
      | kept _ hkept =>
        rw [session?, hturn.enrolled] at hkept
        exact hkept
    exact numbered_turn h.numbered (h.live _ client _ hturn.enrolled rfl hkept) hcounting hbounded
  · intro hne
    rw [sealedUnder_of_ne hcounting hne]
    exact append_nil marks

omit hseals h howner in
theorem sealedUnder_flatMap {α : Type} (items : List α) (f : α → List Output) :
    sealedUnder key sessionId (items.flatMap f) =
      items.flatMap fun item => sealedUnder key sessionId (f item) :=
  filterMap_flatMap

omit hseals h howner in
/-- What a wakeup of the flusher seals under a key and session id: for the session they belong to,
if there is one. -/
theorem sealedUnder_flushRepairs (key : Bytes) (sessionId : UInt64)
    (hseals : ∀ key sessionId header payload,
      (crypto.sealServer key sessionId header payload).isSome = true)
    (howner : OneOwner clients) (now : Instant) (env : ClientId → UInt64 → Environment) :
    (∀ clientId client session, clients.get? clientId = some client →
      client.enrolment.key = key → client.sessions.get? sessionId = some session →
      sealedUnder key sessionId (flushRepairs crypto clients now env).2.sent =
        sealedUnder key sessionId (flushSession crypto now (env clientId sessionId)
          (client.peer clientId sessionId) session).sent) ∧
    ((∀ clientId client, clients.get? clientId = some client → client.enrolment.key = key →
      client.sessions.get? sessionId = none) →
      sealedUnder key sessionId (flushRepairs crypto clients now env).2.sent = []) := by
  -- Other sessions seal under their own keys and ids.
  have hothers : ∀ (clientId : ClientId) (client : RelayClient) (id : UInt64)
      (session : SessionState), ¬ (client.enrolment.key = key ∧ id = sessionId) →
      sealedUnder key sessionId (flushSession crypto now (env clientId id)
        (client.peer clientId id) session).sent = [] := by
    intro clientId client id session hne
    have hturn : Turn crypto (client.peer clientId id) client.enrolment.virtualIpv4
        (.flush now env) session _ := Turn.flush now env session
    exact (hturn.counting hseals).others key sessionId hne
  unfold flushRepairs
  simp only [sealedUnder_flatMap]
  constructor
  · rintro clientId client session hclient rfl hsession
    refine (KeyedMap.flatMap_entries_eq hclient ?_).trans
      (KeyedMap.flatMap_entries_eq hsession ?_)
    · intro e he hid
      rw [flatMap_eq_nil_iff]
      intro found _
      refine hothers e.1 e.2 found.1 found.2 fun hall => hid ?_
      exact howner _ _ _ _ (get?_eq_some_iff.2 he) hclient hall.1
    · intro found _ hid
      exact hothers clientId client found.1 found.2 fun hall => hid hall.2
  intro hnone
  rw [flatMap_eq_nil_iff]
  intro e he
  rw [flatMap_eq_nil_iff]
  intro found hfound
  refine hothers e.1 e.2 found.1 found.2 ?_
  rintro ⟨hkey, rfl⟩
  have habsent := hnone e.1 e.2 (get?_eq_some_iff.2 he) hkey
  rw [get?_eq_some_iff.2 hfound] at habsent
  cases habsent

theorem Current.flush (now : Instant) (env : ClientId → UInt64 → Environment)
    (hbounded : Bounded (2 ^ 64)
      (marks ++ (marksOf crypto key sessionId clients (.flush now env) ++ rest))) :
    Current key sessionId (flushRepairs crypto clients now env).1
      (marks ++ marksOf crypto key sessionId clients (.flush now env)) := by
  change Bounded _ (marks ++ ((sealedUnder key sessionId
    (flushRepairs crypto clients now env).2.sent).map Mark.ofSequence ++ rest)) at hbounded
  change Current key sessionId _ (marks ++ (sealedUnder key sessionId
    (flushRepairs crypto clients now env).2.sent).map Mark.ofSequence)
  obtain ⟨hsome, hnone⟩ := sealedUnder_flushRepairs key sessionId hseals howner now env
  -- The session after the wakeup is what the wakeup made of the one before.
  have hafter : ∀ clientId client' session',
      (flushRepairs crypto clients now env).1.get? clientId = some client' →
      client'.enrolment.key = key → client'.sessions.get? sessionId = some session' →
      ∃ client session, clients.get? clientId = some client ∧ client.enrolment.key = key ∧
        client.sessions.get? sessionId = some session ∧
        session' = (flushSession crypto now (env clientId sessionId)
          (client.peer clientId sessionId) session).session := by
    intro clientId client' session' hclient' hkey hsession'
    unfold flushRepairs at hclient'
    rw [get?_mapValues, Option.map_eq_some_iff] at hclient'
    obtain ⟨client, hclient, rfl⟩ := hclient'
    rw [get?_mapValues, Option.map_eq_some_iff] at hsession'
    obtain ⟨session, hsession, rfl⟩ := hsession'
    exact ⟨client, session, hclient, hkey, hsession, rfl⟩
  by_cases hthere : ∃ clientId client session, clients.get? clientId = some client ∧
      client.enrolment.key = key ∧ client.sessions.get? sessionId = some session
  · obtain ⟨clientId, client, session, hclient, hkey, hsession⟩ := hthere
    have hturn : Turn crypto (client.peer clientId sessionId) client.enrolment.virtualIpv4
        (.flush now env) session _ := Turn.flush now env session
    have hcounting := hturn.counting hseals
    rw [hsome clientId client session hclient hkey hsession] at hbounded ⊢
    subst hkey
    obtain ⟨hnumbered, htop⟩ := numbered_turn h.numbered
      (h.live clientId client session hclient rfl hsession) hcounting hbounded
    refine ⟨hnumbered, ?_⟩
    intro otherId client' session' hclient' hkey' hsession'
    obtain ⟨other, found, hother, hsame, hfound, rfl⟩ := hafter _ _ _ hclient' hkey' hsession'
    obtain rfl := howner _ _ _ _ hother hclient hsame
    rw [hclient] at hother
    cases hother
    rw [hsession] at hfound
    cases hfound
    exact htop
  · rw [hnone fun clientId client hclient hkey => by
      cases hsession : client.sessions.get? sessionId with
      | none => rfl
      | some session => exact absurd ⟨clientId, client, session, hclient, hkey, hsession⟩ hthere]
    refine ⟨(append_nil marks).symm ▸ h.numbered, ?_⟩
    intro clientId client' session' hclient' hkey' hsession'
    obtain ⟨client, session, hclient, hkey, hsession, -⟩ := hafter _ _ _ hclient' hkey' hsession'
    exact absurd ⟨clientId, client, session, hclient, hkey, hsession⟩ hthere

omit hseals h howner in
theorem Current.reload (h : Current key sessionId clients marks)
    (next : KeyedMap ClientId Enrolment) :
    Current key sessionId (reconcileClients clients next)
      (marks ++ marksOf crypto key sessionId clients (.reload next)) := by
  have hnone : marksOf crypto key sessionId clients (.reload next) = [] := rfl
  rw [hnone, append_nil]
  refine ⟨h.numbered, ?_⟩
  intro clientId client' session' hclient' hkey hsession'
  obtain ⟨client, hclient, henrolment, hwhence⟩ :=
    step_session crypto clients (.reload next) hclient' hsession'
  rw [henrolment] at hkey
  rcases hwhence with hsame | ⟨session, p, hturn, -⟩
  · exact h.live clientId client session' hclient hkey hsame
  · cases hturn.turn

theorem Current.step (event : Event)
    (hpaced : Paced (marks ++ (marksOf crypto key sessionId clients event ++ rest)))
    (hbounded : Bounded (2 ^ 64) (marks ++ (marksOf crypto key sessionId clients event ++ rest))) :
    Current key sessionId (step crypto clients event).1
      (marks ++ marksOf crypto key sessionId clients event) := by
  cases event with
  | frame endpoint bytes env =>
    show Current key sessionId (receive crypto clients endpoint bytes env).1 _
    rcases receive_cases crypto clients endpoint bytes env with
      ⟨hauth, heq⟩ | ⟨header, client, plaintext, reply, hauth, hprobe, heq⟩ |
        ⟨header, client, plaintext, hauth, hprobe, heq⟩
    · have hnone : marksOf crypto key sessionId clients (.frame endpoint bytes env) = [] := by
        show readingAt crypto key sessionId clients bytes env ++ (sealedUnder key sessionId
          (receive crypto clients endpoint bytes env).2.sent).map Mark.ofSequence = []
        rw [heq, readingAt, hauth]
        rfl
      rw [heq, hnone, append_nil]
      exact h
    · rw [heq]
      exact h.probe howner hauth hprobe hpaced
    · rw [heq]
      exact h.served hseals howner hauth hprobe hpaced hbounded
  | reply packet env => exact h.reply hseals howner packet env hbounded
  | flush now env => exact h.flush hseals howner now env hbounded
  | reload next => exact h.reload next

end

end Step

/-! ## Whole runs -/

/-- The sequences sealed under a key and session id in a run, in order. -/
def sealedIn (key : Bytes) (sessionId : UInt64) (log : List (Event × Outcome)) : List UInt64 :=
  log.flatMap fun e => sealedUnder key sessionId e.2.sent

theorem issued_ofSequence (sequences : List UInt64) :
    issued (sequences.map Mark.ofSequence) = sequences.map UInt64.toNat := by
  induction sequences with
  | nil => rfl
  | cons sequence sequences ih => exact congrArg (sequence.toNat :: ·) ih

theorem issued_readingFor (key : Bytes) (sessionId : UInt64) (clients : Clients) (event : Event) :
    issued (readingFor crypto key sessionId clients event) = [] := by
  cases event with
  | frame endpoint bytes env =>
    show issued (readingAt crypto key sessionId clients bytes env) = []
    unfold readingAt
    split
    · rfl
    · split <;> rfl
  | reply | flush | reload => rfl

theorem issued_history (key : Bytes) (sessionId : UInt64) (events : List Event) :
    ∀ cfg : Run.Config Clients Event Outcome,
      (sealedIn key sessionId (Run.execFrom (step crypto) cfg events).log).map UInt64.toNat =
        (sealedIn key sessionId cfg.log).map UInt64.toNat ++
          issued (history crypto key sessionId cfg.state events) := by
  induction events with
  | nil => exact fun cfg => (append_nil _).symm
  | cons event events ih =>
    intro cfg
    rw [Run.execFrom_cons, ih, history, issued_append, marksOf, issued_append, issued_readingFor,
      issued_ofSequence, nil_append, Run.advance_log, sealedIn, flatMap_append, map_append,
      flatMap_singleton, append_assoc]
    rfl

theorem numbered_history {crypto : SessionCrypto} {key : Bytes} {sessionId : UInt64}
    (hseals : ∀ key sessionId header payload,
      (crypto.sealServer key sessionId header payload).isSome = true) (events : List Event) :
    ∀ (clients : Clients) (marks : List Mark), Current key sessionId clients marks →
      OneOwner clients → (∀ next, Event.reload next ∈ events → KeysDistinct next) →
      Paced (marks ++ history crypto key sessionId clients events) →
      Bounded (2 ^ 64) (marks ++ history crypto key sessionId clients events) →
      Numbered (marks ++ history crypto key sessionId clients events) := by
  induction events with
  | nil =>
    intro clients marks h _ _ _ _
    exact (append_nil marks).symm ▸ h.numbered
  | cons event events ih =>
    intro clients marks h howner hkeys hpaced hbounded
    rw [history] at hpaced hbounded ⊢
    have hnext := h.step hseals howner event hpaced hbounded
    rw [← append_assoc] at hpaced hbounded ⊢
    refine ih _ _ hnext (howner.step event ?_) ?_ hpaced hbounded
    · rintro next rfl
      exact hkeys next mem_cons_self
    · intro next hnext
      exact hkeys next (mem_cons_of_mem _ hnext)

/-- If no two clients enrolled together share a key, and the wall clock keeps ahead of what is
sealed, the sequences sealed under a key and session id increase. -/
theorem nonces_increase (crypto : SessionCrypto) (hseals : ∀ key sessionId header payload,
      (crypto.sealServer key sessionId header payload).isSome = true)
    (registry : KeyedMap ClientId Enrolment) (hregistry : KeysDistinct registry)
    (events : List Event) (hkeys : ∀ next, Event.reload next ∈ events → KeysDistinct next)
    (key : Bytes) (sessionId : UInt64)
    (hpaced : Paced (history crypto key sessionId (loadClients registry) events))
    (hbounded : Bounded (2 ^ 64) (history crypto key sessionId (loadClients registry) events)) :
    (sealedIn key sessionId (serve crypto registry events).log).Pairwise (· < ·) := by
  have howner : OneOwner (loadClients registry) := by
    refine oneOwner_of_registry hregistry ?_
    intro id
    rw [loadClients, get?_mapValues, Option.map_map]
    exact Option.map_id'
  have hstart : Current key sessionId (loadClients registry) [] := by
    refine ⟨numbered_nil, ?_⟩
    intro clientId client session hclient _ hsession
    rw [loadClients, get?_mapValues, Option.map_eq_some_iff] at hclient
    obtain ⟨enrolment, -, rfl⟩ := hclient
    cases hsession
  have hnumbered := numbered_history hseals events _ [] hstart howner hkeys hpaced hbounded
  have hsorted := hnumbered.sorted
  have hissued := issued_history crypto key sessionId events ⟨loadClients registry, []⟩
  rw [List.nil_append] at hsorted
  have hlog : (sealedIn key sessionId (serve crypto registry events).log).map UInt64.toNat =
      issued (history crypto key sessionId (loadClients registry) events) := hissued
  rw [← hlog, List.pairwise_map] at hsorted
  exact hsorted.imp fun hlt => UInt64.lt_iff_toNat_lt.2 hlt

/-! ### Runs -/

/-- The key of the samples. -/
def sampleKey : Bytes := List.replicate 32 0

/-- A frame of session 7 of a client that selects a path, and is answered. -/
def policyEvent (client sequence : UInt8) (micros : UInt64) : Event :=
  .frame (.v4 (127, 0, 0, 1) 5000)
    ([0x47, 0x50, 0x54, 0x48, 1, 1, 0, 40] ++ List.replicate 16 client ++
      [0, 0, 0, 0, 0, 0, 0, 7] ++ [0, 0, 0, 0, 0, 0, 0, sequence] ++ pathRequest ++ [0, 1] ++
      List.replicate 16 0)
    ⟨fun _ => 0, micros, fun _ => 0⟩

/-- Two answers of one session. -/
theorem nonces_increase_answers :
    sealedIn sampleKey 7 (serve nullCrypto sampleRecords
        [policyEvent 0 1 100, policyEvent 0 2 0]).log = [101, 102] ∧
      (sealedIn sampleKey 7 (serve nullCrypto sampleRecords
        [policyEvent 0 1 100, policyEvent 0 2 0]).log).Pairwise (· < ·) := by
  refine ⟨by decide +kernel, nonces_increase nullCrypto (fun _ _ _ _ => rfl) sampleRecords ?_ _ ?_
    sampleKey 7 (by decide +kernel) (by decide +kernel)⟩
  · intro id id' enrolment enrolment' hid hid' _
    rw [sampleRecords, get?_insert] at hid hid'
    split at hid
    next heq =>
      split at hid'
      next heq' => rw [heq, heq']
      next => cases hid'
    next => cases hid
  · intro next hnext
    simp [policyEvent] at hnext

/-- Records of two clients that were given one key. -/
def sharedKeyRecords : List ClientRegistry.ClientRecord :=
  [sampleRecord "AAAAAAAAAAAAAAAAAAAAAA" (10, 203, 0, 2),
    sampleRecord "AQEBAQEBAQEBAQEBAQEBAQ" (10, 203, 0, 3)]

/-- The registry they make. -/
def sharedKey : KeyedMap ClientId Enrolment :=
  (KeyedMap.empty.insert (Vector.replicate 16 0) ⟨(10, 203, 0, 2), sampleKey⟩).insert
    (Vector.replicate 16 1) ⟨(10, 203, 0, 3), sampleKey⟩

/-- The clock keeps ahead of what is sealed and a sequence is sealed under twice: two clients with
one key use one session id, each with a counter of its own. And it goes from the last sequence to
the first in a session that starts just below the end of the numbers. -/
theorem nonces_repeat_with_shared_key :
    ((ClientRegistry.validateRecords sampleCodec sharedKeyRecords).map ClientRegistry.enrolments =
        .ok sharedKey ∧
      Paced (history nullCrypto sampleKey 7 (loadClients sharedKey)
        [policyEvent 0 1 100, policyEvent 1 1 102, policyEvent 0 2 0, policyEvent 0 3 0]) ∧
      sealedIn sampleKey 7 (serve nullCrypto sharedKey
        [policyEvent 0 1 100, policyEvent 1 1 102, policyEvent 0 2 0, policyEvent 0 3 0]).log =
          [101, 103, 102, 103]) ∧
    Paced (history nullCrypto sampleKey 7 (loadClients sampleRecords)
      [policyEvent 0 1 0xfffffffffffffffe, policyEvent 0 2 0]) ∧
    sealedIn sampleKey 7 (serve nullCrypto sampleRecords
      [policyEvent 0 1 0xfffffffffffffffe, policyEvent 0 2 0]).log = [0xffffffffffffffff, 0] := by
  refine ⟨⟨rfl, ?_, ?_⟩, ?_, ?_⟩
  all_goals decide +kernel

end GamePath.Relay
