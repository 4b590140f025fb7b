import GamePath.Relay.Session

/-!
# The relay

The threads of `serve` in `relay/src/main.rs` share the enrolled clients behind one lock, and each
holds it for a whole turn of its loop, so a run of the relay is a list of events: a datagram from
the socket (`receive`), a packet from the TUN (`forwardReply`), a wakeup of the repair flusher
(`flushRepairs`) and a reload of the registry (`reconcileClients` of
`relay/src/client_registry.rs`).

A client is kept under its id. Of an enrolment record only the key and the address are modelled.
-/

namespace GamePath.Relay

open Lib KeyedMap Engine Engine.Protocol Engine.Ipv4Fragments

def sessionTtl : Nat := secs 180

def maxSessionsPerClient : Nat := 8

/-- The length of the AEAD tag a frame ends with. -/
def tagLen : Nat := 16

/-- What a client's record enrols it with. -/
structure Enrolment where
  virtualIpv4 : Octets
  key : Bytes
  deriving DecidableEq

structure RelayClient where
  enrolment : Enrolment
  sessions : KeyedMap UInt64 SessionState

/-- The clients behind the lock. -/
abbrev Clients := KeyedMap ClientId RelayClient

/-- What a turn of a loop does: the session an authenticated frame was admitted to, whether the
frame created it, and what was sent. -/
structure Outcome where
  admitted : Option (ClientId × UInt64)
  created : Bool
  sent : List Output

/-- Nothing happens. -/
def Outcome.nothing : Outcome := ⟨none, false, []⟩

namespace RelayClient

/-- The loop of `admit_session` that makes room, for at most `fuel` turns. A turn drops a session,
so the number of sessions is fuel enough (`size_evict_lt`). -/
def evict (env : Environment) : Nat → KeyedMap UInt64 SessionState → KeyedMap UInt64 SessionState
  | 0, sessions => sessions
  | fuel + 1, sessions =>
    if maxSessionsPerClient ≤ sessions.size then
      match sessions.minBy SessionState.lastSeen (env.pick fuel) with
      | some (oldest, _) => evict env fuel (sessions.erase oldest)
      | none => sessions
    else sessions

/-- With a turn for every session the loop ends by its own condition: there is room for one more. -/
theorem size_evict_lt (env : Environment) (fuel : Nat) :
    ∀ sessions : KeyedMap UInt64 SessionState, sessions.size ≤ fuel →
      (evict env fuel sessions).size < maxSessionsPerClient := by
  induction fuel with
  | zero =>
    intro sessions hle
    rw [evict, Nat.le_zero.1 hle]
    decide
  | succ fuel ih =>
    intro sessions hle
    rw [evict]
    split
    · rename_i hfull
      have hne : sessions.entries ≠ [] := by
        intro hnil
        have hzero : sessions.size = 0 := by rw [KeyedMap.size, hnil, List.length_nil]
        rw [hzero] at hfull
        cases hfull
      obtain ⟨⟨oldest, session⟩, hmin⟩ := Option.isSome_iff_exists.1
        (minBy_isSome hne SessionState.lastSeen (env.pick fuel))
      rw [hmin]
      apply ih
      have hsize := size_erase_of_get?_some
        (get?_eq_some_iff.2 (mem_of_minBy hmin))
      omega
    · rename_i hroom
      exact Nat.lt_of_not_le hroom

/-- The sessions that have not gone quiet. -/
def fresh (client : RelayClient) (now : Instant) : KeyedMap UInt64 SessionState :=
  client.sessions.retain fun _ session => decide (now - session.lastSeen ≤ sessionTtl)

/-- Whether `admit_session` creates the session: it was never there, or it was dropped. -/
def creates (client : RelayClient) (sessionId : UInt64) (now : Instant) : Bool :=
  ((client.fresh now).get? sessionId).isNone

/-- `admit_session`: the sessions that stay, and the one that is asked for. -/
def admitSession (client : RelayClient) (sessionId : UInt64) (env : Environment) :
    KeyedMap UInt64 SessionState × SessionState :=
  let sessions := client.fresh (env.clock 0)
  match sessions.get? sessionId with
  | some session => (sessions, session)
  -- What the client had at this id before is gone with its replay window.
  | none => (evict env sessions.size sessions, SessionState.new (env.clock 1) env.micros)

end RelayClient

variable (crypto : SessionCrypto)

def statelessProbeReply (client : RelayClient) (header : FrameHeader)
    (plaintext : Bytes) (micros : UInt64) : Option Bytes :=
  if !header.has flagControl || (client.sessions.get? header.sessionId).isSome then none
  else
    (probeResponse plaintext).bind fun response =>
      crypto.sealServer client.enrolment.key header.sessionId
        ⟨flagControl ||| flagServerToClient, header.clientId, header.sessionId, micros⟩ response

/-- The checks of the receive loop: a frame from an enrolled client that opens under its key. -/
def authenticate (clients : Clients) (frame : Bytes) :
    Option (FrameHeader × RelayClient × Bytes) :=
  if frame.length < headerLen + tagLen then none
  else
    match FrameHeader.decode frame with
    | .error _ => none
    | .ok header =>
      -- A reply played back to the relay is not a client's frame.
      if header.has flagServerToClient then none
      else
        match clients.get? header.clientId with
        | none => none
        | some client =>
          (crypto.openClient client.enrolment.key header.sessionId frame).map fun plaintext =>
            (header, client, plaintext)

/-- The session of an authenticated frame is there; the frame is handled. The readings of the clock
before this are the two of `admit_session` and `SessionState::new`. -/
def serveFrame (env : Environment) (clients : Clients) (client : RelayClient)
    (header : FrameHeader) (plaintext : Bytes) (endpoint : SocketAddr) : Clients × Outcome :=
  let admitted := client.admitSession header.sessionId env
  let session := admitted.2.observeEndpoint endpoint (env.clock 2)
  let peer : Peer := ⟨header.clientId, header.sessionId, client.enrolment.key⟩
  let p := Progress.handle crypto env peer client.enrolment.virtualIpv4
    ⟨session, 3, maxSessionsPerClient, []⟩ header plaintext endpoint
  (clients.insert header.clientId
      { client with sessions := admitted.1.insert header.sessionId p.session },
    ⟨some (header.clientId, header.sessionId), client.creates header.sessionId (env.clock 0),
      p.sent⟩)

/-- A turn of the receive loop. -/
def receive (clients : Clients) (endpoint : SocketAddr) (frame : Bytes)
    (env : Environment) : Clients × Outcome :=
  match authenticate crypto clients frame with
  | none => (clients, Outcome.nothing)
  | some (header, client, plaintext) =>
    match statelessProbeReply crypto client header plaintext env.micros with
    | some reply =>
      (clients, ⟨none, false,
        [.sealed client.enrolment.key header.sessionId env.micros, .udp endpoint reply]⟩)
    | none => serveFrame crypto env clients client header plaintext endpoint

def forwardReply (clients : Clients) (packet : Bytes) (env : Environment) :
    Clients × Outcome :=
  match ipv4Destination packet with
  | none => (clients, Outcome.nothing)
  | some destination =>
    -- The map of clients is searched in its own order, which is left open.
    let owners := clients.entries.filter fun e => decide (e.2.enrolment.virtualIpv4 = destination)
    match owners[env.pick 0 % owners.length]? with
    | none => (clients, Outcome.nothing)
    | some (clientId, client) =>
      match client.sessions.maxBy SessionState.lastSeen (env.pick 1) with
      | none => (clients, Outcome.nothing)
      | some (sessionId, session) =>
        let pieces :=
          (session.replyMtu.bind fun mtu => splitForTunnel packet mtu.toNat).getD [packet]
        let peer : Peer := ⟨clientId, sessionId, client.enrolment.key⟩
        let p : Progress :=
          pieces.foldl (Progress.sendReply crypto env peer) ⟨session, 0, 2, []⟩
        (clients.insert clientId
            { client with sessions := client.sessions.insert sessionId p.session },
          ⟨none, false, p.sent⟩)

/-- One session in a wakeup of `flush_repairs`. -/
def flushSession (now : Instant) (env : Environment) (peer : Peer)
    (session : SessionState) : Progress :=
  let p : Progress := ⟨session, 0, 0, []⟩
  match session.repair with
  | none => p
  | some repair =>
    let result := repair.encoder.flushDue now
    let p := p.update fun s => { s with repair := some { repair with encoder := result.1 } }
    match result.2 with
    | some payload => (p.fanOut crypto env peer flagRepair payload).1
    | none => p

/-- A wakeup of `flush_repairs`: every session of every client in turn. -/
def flushRepairs (clients : Clients) (now : Instant)
    (env : ClientId → UInt64 → Environment) : Clients × Outcome :=
  let flushed (clientId : ClientId) (client : RelayClient) (sessionId : UInt64)
      (session : SessionState) : Progress :=
    flushSession crypto now (env clientId sessionId) ⟨clientId, sessionId, client.enrolment.key⟩
      session
  (clients.mapValues fun clientId client =>
      { client with sessions := client.sessions.mapValues fun sessionId session =>
          (flushed clientId client sessionId session).session },
    ⟨none, false, clients.entries.flatMap fun e => e.2.sessions.entries.flatMap fun s =>
      (flushed e.1 e.2 s.1 s.2).sent⟩)

/-- A client as `validate_records` makes it. -/
def RelayClient.enrolled (enrolment : Enrolment) : RelayClient := ⟨enrolment, KeyedMap.empty⟩

def loadClients (records : KeyedMap ClientId Enrolment) : Clients :=
  records.mapValues fun _ enrolment => .enrolled enrolment

/-- `reconcile_clients`: a client whose key and address stand keeps its sessions, the others start
over. -/
def reconcileClients (active : Clients) (next : KeyedMap ClientId Enrolment) : Clients :=
  next.mapValues fun clientId enrolment =>
    match active.get? clientId with
    | some current => if current.enrolment = enrolment then current else .enrolled enrolment
    | none => .enrolled enrolment

/-- What happens to a relay. -/
inductive Event where
  | frame (endpoint : SocketAddr) (bytes : Bytes) (env : Environment)
  | reply (packet : Bytes) (env : Environment)
  | flush (now : Instant) (env : ClientId → UInt64 → Environment)
  | reload (records : KeyedMap ClientId Enrolment)

/-- One event. -/
def step (clients : Clients) : Event → Clients × Outcome
  | .frame endpoint bytes env => receive crypto clients endpoint bytes env
  | .reply packet env => forwardReply crypto clients packet env
  | .flush now env => flushRepairs crypto clients now env
  | .reload records => (reconcileClients clients records, Outcome.nothing)

/-- A run of the relay from its start. -/
def serve (records : KeyedMap ClientId Enrolment) (events : List Event) :
    Run.Config Clients Event Outcome :=
  Run.exec (step crypto) (loadClients records) events

end GamePath.Relay
