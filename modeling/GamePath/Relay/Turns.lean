import GamePath.Relay.Moves
import GamePath.Relay.ReplayProtection

/-!
# Turns of the relay

An event is a turn for one session (a frame, a packet from the TUN), for every session (a wakeup of
the flusher) or for none. `Turn` says what a turn does to its session; `step_session` and
`step_sent` say that nothing else changes a session and that, probes answered without a session
apart, nothing else is sent.
-/

namespace GamePath.Relay

open List Option RelayClient Lib Engine Engine.Protocol Engine.Ipv4Fragments
open KeyedMap (get?_eq_some_iff get?_insert get?_mapValues size_insert)

/-- The far end of a client's session. -/
def RelayClient.peer (client : RelayClient) (clientId : ClientId) (sessionId : UInt64) : Peer :=
  ⟨clientId, sessionId, client.enrolment.key⟩

/-- The frame names the peer's client and session and opens under its key. -/
structure Opens (crypto : SessionCrypto) (peer : Peer) (bytes : Bytes) (header : FrameHeader)
    (plaintext : Bytes) : Prop where
  decoded : FrameHeader.decode bytes = .ok header
  ofClient : header.clientId = peer.clientId
  ofSession : header.sessionId = peer.sessionId
  opens : crypto.openClient peer.key peer.sessionId bytes = some plaintext

/-- The pieces a packet from the TUN is sent in. -/
def SessionState.pieces (session : SessionState) (packet : Bytes) : List Bytes :=
  (session.replyMtu.bind fun mtu => splitForTunnel packet mtu.toNat).getD [packet]

/-- A turn for a session of `peer`, whose virtual address is `address`: the event, the session it
finds and what it makes of it. -/
inductive Turn (crypto : SessionCrypto) (peer : Peer) (address : Octets) :
    Event → SessionState → Progress → Prop where
  | frame (endpoint : SocketAddr) (bytes : Bytes) (env : Environment) {header : FrameHeader}
      {plaintext : Bytes} (hopens : Opens crypto peer bytes header plaintext)
      (session : SessionState) :
      Turn crypto peer address (.frame endpoint bytes env) session
        (Progress.handle crypto env peer address
          ⟨session.observeEndpoint endpoint (env.clock 2), 3, maxSessionsPerClient, []⟩ header
          plaintext endpoint)
  | reply (packet : Bytes) (env : Environment) (hdestination : ipv4Destination packet =
    some address)
      (session : SessionState) :
      Turn crypto peer address (.reply packet env) session
        ((session.pieces packet).foldl (Progress.sendReply crypto env peer) ⟨session, 0, 2, []⟩)
  | flush (now : Instant) (env : ClientId → UInt64 → Environment) (session : SessionState) :
      Turn crypto peer address (.flush now env) session
        (flushSession crypto now (env peer.clientId peer.sessionId) peer session)

/-- The session a turn finds: one that is kept, or a new one for a frame. -/
inductive Finds (clients : Clients) (clientId : ClientId) (sessionId : UInt64) :
    Event → SessionState → Prop where
  | kept (event : Event) {session : SessionState}
      (h : session? clients (clientId, sessionId) = some session) :
      Finds clients clientId sessionId event session
  | created (endpoint : SocketAddr) (bytes : Bytes) (env : Environment) :
      Finds clients clientId sessionId (.frame endpoint bytes env)
        (SessionState.new (env.clock 1) env.micros)

/-- An event has a turn for a session of an enrolled client. -/
structure TakesTurn (crypto : SessionCrypto) (clients : Clients) (event : Event)
    (clientId : ClientId) (client : RelayClient) (sessionId : UInt64) (session : SessionState)
    (p : Progress) : Prop where
  enrolled : clients.get? clientId = some client
  finds : Finds clients clientId sessionId event session
  turn : Turn crypto (client.peer clientId sessionId) client.enrolment.virtualIpv4 event session p

/-! ## Frames -/

variable {client : RelayClient}

/-- A frame that is authenticated opens under the key of an enrolled client. -/
theorem opens_of_authenticate {crypto : SessionCrypto} {clients : Clients} {frame : Bytes}
    {header : FrameHeader} {plaintext : Bytes}
    (h : authenticate crypto clients frame = some (header, client, plaintext)) :
    Opens crypto (client.peer header.clientId header.sessionId) frame header plaintext := by
  unfold authenticate at h
  split at h
  · cases h
  split at h
  · cases h
  rename_i decoded hdecode
  split at h
  · cases h
  · split at h
    · cases h
    · obtain ⟨opened, hopened, heq⟩ := map_eq_some_iff.1 h
      cases heq
      exact ⟨hdecode, rfl, rfl, hopened⟩

/-- A session is admitted as a new one, or as the one that is kept. -/
theorem admitSession_cases (client : RelayClient) (sessionId : UInt64) (env : Environment) :
    (client.creates sessionId (env.clock 0) = true ∧
      (client.admitSession sessionId env).2 = SessionState.new (env.clock 1) env.micros) ∨
    (client.creates sessionId (env.clock 0) = false ∧
      client.sessions.get? sessionId = some (client.admitSession sessionId env).2) := by
  unfold admitSession creates
  dsimp only
  cases hfresh : (client.fresh (env.clock 0)).get? sessionId with
  | some session => exact .inr ⟨rfl, get?_fresh hfresh⟩
  | none => exact .inl ⟨rfl, rfl⟩

/-- A frame that is served has a turn for the session that is admitted. -/
theorem serveFrame_turn {crypto : SessionCrypto} {clients : Clients} {bytes : Bytes}
    {header : FrameHeader} {plaintext : Bytes}
    (hauth : authenticate crypto clients bytes = some (header, client, plaintext))
    (endpoint : SocketAddr) (env : Environment) :
    ∃ p, TakesTurn crypto clients (.frame endpoint bytes env) header.clientId client
        header.sessionId (client.admitSession header.sessionId env).2 p ∧
      serveFrame crypto env clients client header plaintext endpoint =
        (clients.insert header.clientId { client with
          sessions :=
              (client.admitSession header.sessionId env).1.insert header.sessionId p.session },
          ⟨some (header.clientId, header.sessionId),
            client.creates header.sessionId (env.clock 0), p.sent⟩) := by
  have hclient := authenticate_client hauth
  refine ⟨_, ⟨hclient, ?_, Turn.frame endpoint bytes env (opens_of_authenticate hauth) _⟩, rfl⟩
  rcases admitSession_cases client header.sessionId env with ⟨-, hnew⟩ | ⟨-, hkept⟩
  · rw [hnew]
    exact Finds.created endpoint bytes env
  · refine Finds.kept _ ?_
    rw [session?, hclient]
    exact hkept

section

variable (crypto : SessionCrypto) (clients : Clients)
include crypto clients

/-- A datagram is dropped, or it is a probe that is answered without a session, or it has a turn. -/
theorem receive_cases (endpoint : SocketAddr) (bytes : Bytes) (env : Environment) :
    (authenticate crypto clients bytes = none ∧
      receive crypto clients endpoint bytes env = (clients, Outcome.nothing)) ∨
    (∃ header client plaintext reply,
      authenticate crypto clients bytes = some (header, client, plaintext) ∧
      statelessProbeReply crypto client header plaintext env.micros = some reply ∧
      receive crypto clients endpoint bytes env = (clients, ⟨none, false,
        [.sealed client.enrolment.key header.sessionId env.micros, .udp endpoint reply]⟩)) ∨
    ∃ header client plaintext,
      authenticate crypto clients bytes = some (header, client, plaintext) ∧
      statelessProbeReply crypto client header plaintext env.micros = none ∧
      receive crypto clients endpoint bytes env =
        serveFrame crypto env clients client header plaintext endpoint := by
  unfold receive
  cases hauth : authenticate crypto clients bytes with
  | none => exact .inl ⟨rfl, rfl⟩
  | some authenticated =>
    obtain ⟨header, client, plaintext⟩ := authenticated
    dsimp only
    cases hprobe : statelessProbeReply crypto client header plaintext env.micros with
    | some reply => exact .inr (.inl ⟨header, client, plaintext, reply, rfl, hprobe, rfl⟩)
    | none => exact .inr (.inr ⟨header, client, plaintext, rfl, hprobe, rfl⟩)

/-! ## Packets from the TUN -/

/-- A packet from the TUN is dropped, or has a turn for a session of a client enrolled with its
destination. -/
theorem forwardReply_cases (packet : Bytes) (env : Environment) :
    forwardReply crypto clients packet env = (clients, Outcome.nothing) ∨
    ∃ clientId client sessionId session p,
      TakesTurn crypto clients (.reply packet env) clientId client sessionId session p ∧
      forwardReply crypto clients packet env =
        (clients.insert clientId
          { client with sessions := client.sessions.insert sessionId p.session },
          ⟨none, false, p.sent⟩) := by
  unfold forwardReply
  split
  · exact .inl rfl
  next destination hdestination =>
    dsimp only
    split
    · exact .inl rfl
    next clientId client howner =>
      obtain ⟨hmem, haddress⟩ := mem_filter.1 (mem_of_getElem? howner)
      have hclient := get?_eq_some_iff.2 hmem
      split
      · exact .inl rfl
      next sessionId session hnewest =>
        refine .inr ⟨clientId, client, sessionId, session, _, ⟨hclient, Finds.kept _ ?_, ?_⟩, rfl⟩
        · rw [session?, hclient]
          exact get?_eq_some_iff.2 (KeyedMap.mem_of_maxBy hnewest)
        · refine Turn.reply packet env ?_ session
          rw [hdestination, of_decide_eq_true haddress]

/-! ## Every event -/

/-- After an event a client's session is the one it was, or what a turn made of it, and the client
is enrolled as it was. -/
theorem step_session (event : Event) {clientId : ClientId} {client' : RelayClient}
    {sessionId : UInt64}
    {session' : SessionState} (hclient' : (step crypto clients event).1.get? clientId =
      some client')
    (hsession' : client'.sessions.get? sessionId = some session') :
    ∃ client, clients.get? clientId = some client ∧ client'.enrolment = client.enrolment ∧
      (client.sessions.get? sessionId = some session' ∨
        ∃ session p, TakesTurn crypto clients event clientId client sessionId session p ∧
          p.session = session') := by
  -- The client of a turn is replaced; the others are as they were.
  have hinsert : ∀ {turnId : ClientId} {client : RelayClient} {turnSession : UInt64}
      {session : SessionState} {p : Progress} {sessions : KeyedMap UInt64 SessionState},
      TakesTurn crypto clients event turnId client turnSession session p →
      (∀ other found, sessions.get? other = some found →
        client.sessions.get? other = some found) →
      (clients.insert turnId { client with
        sessions := sessions.insert turnSession p.session }).get? clientId = some client' →
      ∃ client, clients.get? clientId = some client ∧ client'.enrolment = client.enrolment ∧
        (client.sessions.get? sessionId = some session' ∨
          ∃ session p, TakesTurn crypto clients event clientId client sessionId session p ∧
            p.session = session') := by
    intro turnId client turnSession session p sessions hturn hsessions hget
    rw [get?_insert] at hget
    split at hget
    next hid =>
      subst hid
      rw [← some.inj hget] at hsession' ⊢
      refine ⟨client, hturn.enrolled, rfl, ?_⟩
      rw [get?_insert] at hsession'
      split at hsession'
      next hsame =>
        subst hsame
        exact .inr ⟨session, p, hturn, some.inj hsession'⟩
      next => exact .inl (hsessions _ _ hsession')
    next => exact ⟨client', hget, rfl, .inl hsession'⟩
  cases event with
  | frame endpoint bytes env =>
    change (receive crypto clients endpoint bytes env).1.get? clientId = some client' at hclient'
    rcases receive_cases crypto clients endpoint bytes env with
      ⟨-, heq⟩ | ⟨_, _, _, _, -, -, heq⟩ | ⟨header, client, plaintext, hauth, -, heq⟩
    · rw [heq] at hclient'
      exact ⟨client', hclient', rfl, .inl hsession'⟩
    · rw [heq] at hclient'
      exact ⟨client', hclient', rfl, .inl hsession'⟩
    · obtain ⟨p, hturn, hserve⟩ := serveFrame_turn hauth endpoint env
      rw [heq, hserve] at hclient'
      exact hinsert hturn (fun other found => get?_admitSession) hclient'
  | reply packet env =>
    change (forwardReply crypto clients packet env).1.get? clientId = some client' at hclient'
    rcases forwardReply_cases crypto clients packet env with
      heq | ⟨turnId, client, turnSession, session, p, hturn, heq⟩
    · rw [heq] at hclient'
      exact ⟨client', hclient', rfl, .inl hsession'⟩
    · rw [heq] at hclient'
      exact hinsert hturn (fun _ _ => id) hclient'
  | flush now env =>
    change (flushRepairs crypto clients now env).1.get? clientId = some client' at hclient'
    unfold flushRepairs at hclient'
    rw [get?_mapValues, map_eq_some_iff] at hclient'
    obtain ⟨client, hclient, rfl⟩ := hclient'
    refine ⟨client, hclient, rfl, .inr ?_⟩
    rw [get?_mapValues, map_eq_some_iff] at hsession'
    obtain ⟨session, hsession, rfl⟩ := hsession'
    refine ⟨session, _, ⟨hclient, Finds.kept _ ?_, Turn.flush now env session⟩, rfl⟩
    rw [session?, hclient]
    exact hsession
  | reload records =>
    change (reconcileClients clients records).get? clientId = some client' at hclient'
    unfold reconcileClients at hclient'
    rw [get?_mapValues, map_eq_some_iff] at hclient'
    obtain ⟨enrolment, -, rfl⟩ := hclient'
    have hnone : (enrolled enrolment).sessions.get? sessionId ≠ some session' := by
      show (none : Option SessionState) ≠ some session'
      simp
    cases hclient : clients.get? clientId with
    | none =>
      rw [hclient] at hsession'
      exact absurd hsession' hnone
    | some current =>
      rw [hclient] at hsession'
      dsimp only at hsession' ⊢
      split at hsession'
      next hsame => exact ⟨current, rfl, by rw [if_pos hsame], .inl hsession'⟩
      next => exact absurd hsession' hnone

/-- What an event sends is sent by a turn, or answers a probe without a session. -/
theorem step_sent (event : Event) {output : Output}
    (h : output ∈ (step crypto clients event).2.sent) :
    (∃ clientId client sessionId session p,
      TakesTurn crypto clients event clientId client sessionId session p ∧ output ∈ p.sent) ∨
    ∃ endpoint bytes env header client plaintext reply,
      event = .frame endpoint bytes env ∧
      authenticate crypto clients bytes = some (header, client, plaintext) ∧
      statelessProbeReply crypto client header plaintext env.micros = some reply ∧
      (output = .sealed client.enrolment.key header.sessionId env.micros ∨
        output = .udp endpoint reply) := by
  cases event with
  | frame endpoint bytes env =>
    change output ∈ (receive crypto clients endpoint bytes env).2.sent at h
    rcases receive_cases crypto clients endpoint bytes env with
      ⟨-, heq⟩ | ⟨header, client, plaintext, reply, hauth, hprobe, heq⟩ |
        ⟨header, client, plaintext, hauth, -, heq⟩
    · rw [heq] at h
      exact absurd h not_mem_nil
    · rw [heq] at h
      refine .inr ⟨endpoint, bytes, env, header, client, plaintext, reply, rfl, hauth, hprobe, ?_⟩
      simpa using h
    · obtain ⟨p, hturn, hserve⟩ := serveFrame_turn hauth endpoint env
      rw [heq, hserve] at h
      exact .inl ⟨_, client, _, _, p, hturn, h⟩
  | reply packet env =>
    change output ∈ (forwardReply crypto clients packet env).2.sent at h
    rcases forwardReply_cases crypto clients packet env with
      heq | ⟨clientId, client, sessionId, session, p, hturn, heq⟩
    · rw [heq] at h
      exact absurd h not_mem_nil
    · rw [heq] at h
      exact .inl ⟨clientId, client, sessionId, session, p, hturn, h⟩
  | flush now env =>
    obtain ⟨⟨clientId, client⟩, hclient, h⟩ := mem_flatMap.1 h
    obtain ⟨⟨sessionId, session⟩, hsession, h⟩ := mem_flatMap.1 h
    have hclient := get?_eq_some_iff.2 hclient
    refine .inl ⟨clientId, client, sessionId, session, _,
      ⟨hclient, Finds.kept _ ?_, Turn.flush now env session⟩, h⟩
    rw [session?, hclient]
    exact get?_eq_some_iff.2 hsession
  | reload records => exact absurd h not_mem_nil

/-- Only a reload changes who is enrolled, and how. -/
theorem step_enrolment (event : Event) (clientId : ClientId) :
    ((step crypto clients event).1.get? clientId).map enrolment =
      match event with
      | .reload records => records.get? clientId
      | _ => (clients.get? clientId).map enrolment := by
  have hinsert : ∀ {turnId : ClientId} {client : RelayClient}
      {sessions : KeyedMap UInt64 SessionState}, clients.get? turnId = some client →
      ((clients.insert turnId { client with sessions := sessions }).get? clientId).map
          enrolment =
        (clients.get? clientId).map enrolment := by
    intro turnId client sessions hclient
    rw [get?_insert]
    split
    next hid =>
      rw [hid, hclient]
      rfl
    next => rfl
  cases event with
  | frame endpoint bytes env =>
    show ((receive crypto clients endpoint bytes env).1.get? clientId).map _ = _
    rcases receive_cases crypto clients endpoint bytes env with
      ⟨-, heq⟩ | ⟨_, _, _, _, -, -, heq⟩ | ⟨header, client, plaintext, hauth, -, heq⟩
    · rw [heq]
    · rw [heq]
    · obtain ⟨p, hturn, hserve⟩ := serveFrame_turn hauth endpoint env
      rw [heq]
      exact hinsert hturn.enrolled
  | reply packet env =>
    show ((forwardReply crypto clients packet env).1.get? clientId).map _ = _
    rcases forwardReply_cases crypto clients packet env with heq | ⟨_, _, _, _, _, hturn, heq⟩
    · rw [heq]
    · rw [heq]
      exact hinsert hturn.enrolled
  | flush now env =>
    show ((flushRepairs crypto clients now env).1.get? clientId).map _ = _
    unfold flushRepairs
    rw [get?_mapValues, Option.map_map]
    rfl
  | reload records =>
    show ((reconcileClients clients records).get? clientId).map _ = records.get? clientId
    unfold reconcileClients
    rw [get?_mapValues, Option.map_map]
    cases records.get? clientId with
    | none => rfl
    | some enrolment =>
      rw [map_some, Function.comp_apply]
      cases clients.get? clientId with
      | none => rfl
      | some current =>
        dsimp only
        split
        next hsame => rw [hsame]
        next => rfl

end

/-! ## How many sessions there are -/

variable {crypto : SessionCrypto} {clients : Clients}

/-- No client has more sessions than it may have. -/
def InLimits (clients : Clients) : Prop :=
  ∀ clientId client, clients.get? clientId = some client →
    client.sessions.size ≤ maxSessionsPerClient

theorem size_admitSession_le (h : client.sessions.size ≤ maxSessionsPerClient)
    (sessionId : UInt64) (env : Environment) (session : SessionState) :
    ((client.admitSession sessionId env).1.insert sessionId session).size ≤
      maxSessionsPerClient := by
  rw [size_insert, admitSession]
  cases hfresh : (client.fresh (env.clock 0)).get? sessionId with
  | some kept =>
    rw [KeyedMap.size_erase_of_get?_some hfresh]
    exact (KeyedMap.size_retain_le _ _).trans h
  -- Room was made for the one that is added.
  | none => exact (KeyedMap.size_erase_le _ _).trans_lt (size_evict_lt _ _ _ le_rfl)

theorem InLimits.insert (h : InLimits clients) {turnId : ClientId}
    (hsize : client.sessions.size ≤ maxSessionsPerClient) :
    InLimits (clients.insert turnId client) := by
  intro clientId found hget
  rw [get?_insert] at hget
  split at hget
  · cases hget
    exact hsize
  · exact h clientId found hget

theorem InLimits.step (h : InLimits clients) (event : Event) :
    InLimits (step crypto clients event).1 := by
  cases event with
  | frame endpoint bytes env =>
    show InLimits (receive crypto clients endpoint bytes env).1
    rcases receive_cases crypto clients endpoint bytes env with
      ⟨-, heq⟩ | ⟨_, _, _, _, -, -, heq⟩ | ⟨header, client, plaintext, hauth, -, heq⟩
    · rwa [heq]
    · rwa [heq]
    · obtain ⟨p, hturn, hserve⟩ := serveFrame_turn hauth endpoint env
      rw [heq, hserve]
      exact h.insert (size_admitSession_le (h _ _ hturn.enrolled) _ env _)
  | reply packet env =>
    show InLimits (forwardReply crypto clients packet env).1
    -- A reply goes to a session that is there.
    rcases forwardReply_cases crypto clients packet env with heq | ⟨_, client, _, _, p, hturn, heq⟩
    · rwa [heq]
    · obtain ⟨-, hsession⟩ := hturn.finds
      rw [session?, hturn.enrolled] at hsession
      rw [heq]
      refine h.insert ?_
      rw [size_insert, KeyedMap.size_erase_of_get?_some hsession]
      exact h _ _ hturn.enrolled
  | flush now env =>
    intro clientId client' hclient'
    change (flushRepairs crypto clients now env).1.get? clientId = some client' at hclient'
    rw [flushRepairs, get?_mapValues, map_eq_some_iff] at hclient'
    obtain ⟨client, hclient, rfl⟩ := hclient'
    exact (length_map _).trans_le (h clientId client hclient)
  | reload records =>
    intro clientId client' hclient'
    change (reconcileClients clients records).get? clientId = some client' at hclient'
    rw [reconcileClients, get?_mapValues, map_eq_some_iff] at hclient'
    obtain ⟨enrolment, -, rfl⟩ := hclient'
    split
    · next current hcurrent =>
      split
      · exact h clientId current hcurrent
      · exact Nat.zero_le _
    · exact Nat.zero_le _

/-- In every run of the relay no client has more sessions than it may have, whatever was
authenticated or reloaded. -/
theorem sessions_bounded (crypto : SessionCrypto) (records : KeyedMap ClientId Enrolment)
    (events : List Event) :
    InLimits (serve crypto records events).state := by
  refine Run.exec_invariant (I := fun c => InLimits c.state) ?_
    (fun c event h => h.step event) events
  intro clientId client hclient
  change (loadClients records).get? clientId = some client at hclient
  rw [loadClients, get?_mapValues, map_eq_some_iff] at hclient
  obtain ⟨enrolment, -, rfl⟩ := hclient
  exact Nat.zero_le _

end GamePath.Relay
