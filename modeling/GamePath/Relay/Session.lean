import GamePath.Lib.Loop
import GamePath.Engine.Protocol
import GamePath.Engine.Replay
import GamePath.Engine.FecDecoder
import GamePath.Engine.Ipv4Fragments
import GamePath.Relay.Endpoints

/-!
# A session at the relay

`SessionState` of `relay/src/main.rs` and what the relay does to one session: sealing replies,
answering control frames, rebuilding packets from repairs and writing client packets to the TUN.

What the outside decides while a frame is handled is its `Environment`. A frame in progress is a
`Progress`: the session, how many readings of the clock and choices were used up, and what was sent.
A write to the TUN carries the sequences of the frames its bytes came from, and a frame that
`seal_server` sealed leaves a mark of the nonce it used; the source keeps neither. The AEAD is a
parameter; logging is left out, and the counters of the statistics do not wrap.
-/

namespace GamePath.Relay

open Lib Engine Engine.Protocol Engine.Fec Engine.Ipv4Fragments Engine.Replay

def minReplyMtu : UInt16 := 576

/-- `relay_tun_mtu(LINK_MTU)`: 1500 bytes less the 215 of the dearest transport. -/
def relayTunMtu : UInt16 := 1285

/-- `SessionCrypto`: opening a client's frame and sealing one to it, under the key and session id
the cipher is derived from. -/
structure SessionCrypto where
  openClient : Bytes → UInt64 → Bytes → Option Bytes
  sealServer : Bytes → UInt64 → FrameHeader → Bytes → Option Bytes

/-- What the outside answers during one event: the clock at its `n`-th reading, the wall clock in
microseconds, and the choices a hash map's order makes. -/
structure Environment where
  clock : Nat → Instant
  micros : UInt64
  pick : Nat → Nat

/-- The far end of a session: whose it is, and the key it is sealed with. -/
structure Peer where
  clientId : ClientId
  sessionId : UInt64
  key : Bytes

structure RepairState where
  encoder : Encoder
  decoder : Decoder
  offerSequence : UInt64
  recovered : Nat

structure SessionState where
  replay : ReplayWindow
  endpoints : Endpoints
  outboundSequence : UInt64
  repairTurn : UInt64
  lastSeen : Instant
  rejectedFrames : Nat
  repair : Option RepairState
  replyMtu : Option UInt16
  fragments : Reassembler UInt64

/-- What leaves the relay: a datagram to the TUN, with the sequences it came from, or a frame to a
client. `sealed` marks that `seal_server` sealed a frame under a key, session id and sequence. -/
inductive Output where
  | tun (sequences : List UInt64) (datagram : Bytes)
  | udp (endpoint : SocketAddr) (frame : Bytes)
  | sealed (key : Bytes) (sessionId sequence : UInt64)

/-- A frame being handled. -/
structure Progress where
  session : SessionState
  readings : Nat
  picks : Nat
  sent : List Output

def replyRepairLimit (offer : Offer) : Nat := (min offer.mtu relayTunMtu).toNat

def ipv4Source (packet : Bytes) : Option Octets :=
  if h : 20 ≤ packet.length then
    if packet.getD 0 0 >>> 4 = 4 then some (Ipv4Packet.source ⟨packet, h⟩) else none
  else none

def ipv4Destination (packet : Bytes) : Option Octets :=
  if h : 20 ≤ packet.length then
    if packet.getD 0 0 >>> 4 = 4 then some (Ipv4Packet.destination ⟨packet, h⟩) else none
  else none

namespace RepairState

def new (offer : Offer) : RepairState :=
  ⟨Encoder.new offer.groupSize (replyRepairLimit offer), Decoder.default, 0, 0⟩

end RepairState

namespace SessionState

/-- `SessionState::new`, with the wall clock `fresh_outbound_sequence` reads. -/
def new (now : Instant) (micros : UInt64) : SessionState where
  replay := ReplayWindow.default
  endpoints := Endpoints.default
  outboundSequence := micros
  repairTurn := 0
  lastSeen := now
  rejectedFrames := 0
  repair := none
  replyMtu := none
  fragments := Reassembler.default

def observeEndpoint (s : SessionState) (endpoint : SocketAddr) (now : Instant) : SessionState :=
  { s with endpoints := s.endpoints.observe endpoint now, lastSeen := now }

/-- `|sequence| !replay.would_accept(sequence)`. -/
def delivered (s : SessionState) (sequence : UInt64) : Bool := !s.replay.wouldAccept sequence

end SessionState

namespace Progress

variable (env : Environment)

/-- The next reading of the clock. -/
def now (p : Progress) : Instant := env.clock p.readings

/-- A reading of the clock is used up. -/
def tick (p : Progress) : Progress := { p with readings := p.readings + 1 }

/-- Changes the session. -/
def update (p : Progress) (f : SessionState → SessionState) : Progress :=
  { p with session := f p.session }

/-- Something leaves the relay. -/
def send (p : Progress) (outputs : List Output) : Progress := { p with sent := p.sent ++ outputs }

/-! ## Towards the client -/

/-- `self.outbound_sequence.wrapping_add(1)`. -/
def nextSequence (p : Progress) : Progress :=
  p.update fun s => { s with outboundSequence := s.outboundSequence + 1 }

/-- Seals a frame to the client under the session's sequence. -/
def sealFrame (crypto : SessionCrypto) (peer : Peer) (p : Progress) (flags : UInt8)
    (payload : Bytes) : Option Bytes :=
  crypto.sealServer peer.key peer.sessionId
    ⟨flags, peer.clientId, peer.sessionId, p.session.outboundSequence⟩ payload

/-- A frame sealed under the session's sequence is sent to endpoints. -/
def emit (peer : Peer) (p : Progress) (endpoints : List SocketAddr) (frame : Bytes) : Progress :=
  p.send (.sealed peer.key peer.sessionId p.session.outboundSequence ::
    endpoints.map fun endpoint => .udp endpoint frame)

def fanOut (crypto : SessionCrypto) (env : Environment) (peer : Peer) (p : Progress) (flags : UInt8)
    (payload : Bytes) : Progress × Option UInt64 :=
  let now := p.now env
  let p := p.tick.update fun s => { s with endpoints := s.endpoints.prune now }
  let isRepair := decide (flags &&& flagRepair ≠ 0)
  -- Once paths are selected a repair goes by one of them in turn, a packet by every target.
  let target :=
    if isRepair then p.session.endpoints.repairTarget now p.session.repairTurn else none
  let p := if isRepair then p.update fun s => { s with repairTurn := s.repairTurn + 1 } else p
  if p.session.endpoints.targets.isEmpty then (p, none)
  else
    let p := p.nextSequence
    match p.sealFrame crypto peer (flags ||| flagServerToClient) payload with
    | none => (p, none)
    | some frame =>
      let endpoints := match target with
        | some endpoint => [endpoint]
        | none => p.session.endpoints.targets
      (p.emit peer endpoints frame, some p.session.outboundSequence)

/-- The answer to a control frame, on the path it came by. -/
def answer (crypto : SessionCrypto) (peer : Peer) (p : Progress) (endpoint : SocketAddr)
    (payload : Bytes) : Progress :=
  let p := p.nextSequence
  match p.sealFrame crypto peer (flagControl ||| flagServerToClient) payload with
  | none => p
  | some frame => p.emit peer [endpoint] frame

/-- `apply_path_policy` for a payload that is a policy. -/
def applyPathPolicy (crypto : SessionCrypto) (env : Environment) (peer : Peer) (p : Progress)
    (header : FrameHeader) (policy : PathPolicy) (endpoint : SocketAddr) : Progress :=
  let now := p.now env
  let p := p.tick.update fun s =>
    { s with endpoints :=
        s.endpoints.apply endpoint policy (!header.has flagPathUnhealthy) header.sequence now }
  p.answer crypto peer endpoint pathAccept

/-- The first half of `apply_repair_offer`: the offer takes effect unless a newer one has, and a
group that no longer fits is closed. -/
def takeOffer (s : SessionState) (sequence : UInt64) (offer : Offer) :
    SessionState × RepairState × Option Bytes :=
  let repair := s.repair.getD (RepairState.new offer)
  if repair.offerSequence ≤ sequence then
    let result := (repair.encoder.setMaxPacket
      (replyRepairLimit offer)).setGroupSize offer.groupSize
    let repair := { repair with offerSequence := sequence, encoder := result.1 }
    ({ s with repair := some repair, replyMtu := some (max offer.mtu minReplyMtu) }, repair,
      result.2)
  else ({ s with repair := some repair }, repair, none)

def applyRepairOffer (crypto : SessionCrypto) (env : Environment) (peer : Peer) (p : Progress)
    (sequence : UInt64) (offer : Offer) (endpoint : SocketAddr) : Progress :=
  let (session, repair, closed) := takeOffer p.session sequence offer
  let p := { p with session := session }
  let p := match closed with
    | some payload => (p.fanOut crypto env peer flagRepair payload).1
    | none => p
  p.answer crypto peer endpoint (accept (UInt8.ofNat repair.encoder.groupSize))

def sendReply (crypto : SessionCrypto) (env : Environment) (peer : Peer) (p : Progress)
    (packet : Bytes) : Progress :=
  match p.fanOut crypto env peer 0 packet with
  | (p, none) => p
  | (p, some sequence) =>
    match p.session.repair with
    | none => p
    | some repair =>
      -- The repair of the group before this packet, if the packet closed it.
      let result := repair.encoder.push sequence packet (p.now env)
      let p := p.tick.update fun s =>
        { s with repair := some { repair with encoder := result.1 } }
      match result.2 with
      | some payload => (p.fanOut crypto env peer flagRepair payload).1
      | none => p

/-! ## Towards the TUN -/

def writeToTun (p : Progress) (sequence : UInt64) (packet : Bytes) : Progress :=
  if h : 20 ≤ packet.length ∧ isFragment packet = true then
    let result := p.session.fragments.push ⟨packet, h.1⟩ sequence (p.now env) (env.pick p.picks)
    let p := { p.tick with picks := p.picks + 1 }
    let p := p.update fun s => { s with fragments := result.1 }
    match result.2 with
    | some (datagram, sequences) => p.send [.tun sequences datagram]
    | none => p
  else p.send [.tun [sequence] packet]

/-- `repair.decoder.remember`, for a session that repairs. -/
def remember (p : Progress) (sequence : UInt64) (packet : Bytes) (recovered : Nat) : Progress :=
  p.update fun s =>
    { s with repair := s.repair.map fun repair =>
        { repair with
          decoder := repair.decoder.remember sequence packet
          recovered := repair.recovered + recovered } }

def admitRebuilt (virtualIpv4 : Octets) (p : Progress) (sequence : UInt64)
    (packet : Bytes) : Progress :=
  if ipv4Source packet ≠ some virtualIpv4 then p
  else
    let accepted := p.session.replay.accept sequence
    let p := p.update fun s => { s with replay := accepted.1 }
    if accepted.2 then (p.writeToTun env sequence packet).remember sequence packet 1 else p

/-- The repairs that wait. -/
def pending (p : Progress) : List Repair :=
  (p.session.repair.map fun repair => repair.decoder.pending).getD []

/-- One turn of the loop in `retry_pending_repairs`, with the packet the decoder rebuilt. -/
def retry (p : Progress) : Progress × Option (UInt64 × Bytes) :=
  match p.session.repair with
  | none => (p, none)
  | some repair =>
    if repair.decoder.hasPending then
      let result := repair.decoder.retryPending (p.now env) p.session.delivered
      (p.tick.update fun s => { s with repair := some { repair with decoder := result.1 } },
        result.2)
    else (p, none)

/-- The loop of `retry_pending_repairs`, for at most `fuel` turns. -/
def retryLoop (env : Environment) (virtualIpv4 : Octets) : Nat → Progress → Progress
  | 0, p => p
  | fuel + 1, p =>
    match p.retry env with
    | (p, none) => p
    | (p, some (sequence, packet)) =>
      retryLoop env virtualIpv4 fuel (p.admitRebuilt env virtualIpv4 sequence packet)

/-- `retry_pending_repairs`. Every turn that rebuilds a packet takes a repair off the list, so its
length is fuel enough (`retryPendingRepairs_eq`). -/
def retryPendingRepairs (virtualIpv4 : Octets) (p : Progress) : Progress :=
  retryLoop env virtualIpv4 p.pending.length p

/-! ## Frames -/

/-- The control branch of the receive loop. -/
def handleControl (crypto : SessionCrypto) (env : Environment) (peer : Peer) (p : Progress)
    (header : FrameHeader) (plaintext : Bytes) (endpoint : SocketAddr) : Progress :=
  match PathPolicy.parse plaintext with
  | some policy => p.applyPathPolicy crypto env peer header policy endpoint
  | none =>
    match parseOffer plaintext with
    | some offer => p.applyRepairOffer crypto env peer header.sequence offer endpoint
    | none =>
      match probeResponse plaintext with
      | some response => p.answer crypto peer endpoint response
      | none => p

/-- The repair branch of the receive loop. -/
def handleRepair (virtualIpv4 : Octets) (p : Progress) (plaintext : Bytes) :
    Progress :=
  match p.session.repair with
  | none => p
  | some repair =>
    let result := repair.decoder.acceptRepair plaintext (p.now env) p.session.delivered
    let p := p.tick.update fun s => { s with repair := some { repair with decoder := result.1 } }
    let p := match result.2 with
      | some (sequence, packet) => p.admitRebuilt env virtualIpv4 sequence packet
      | none => p
    p.retryPendingRepairs env virtualIpv4

/-- The data branch of the receive loop. -/
def handleData (virtualIpv4 : Octets) (p : Progress) (sequence : UInt64)
    (plaintext : Bytes) : Progress :=
  if ipv4Source plaintext ≠ some virtualIpv4 then p
  else
    let p := p.writeToTun env sequence plaintext
    match p.session.repair with
    | none => p
    | some _ => (p.remember sequence plaintext 0).retryPendingRepairs env virtualIpv4

/-- What the receive loop does with an authenticated frame once its session is there. -/
def handle (crypto : SessionCrypto) (env : Environment) (peer : Peer) (virtualIpv4 : Octets)
    (p : Progress) (header : FrameHeader) (plaintext : Bytes) (endpoint : SocketAddr) : Progress :=
  let accepted := p.session.replay.accept header.sequence
  let p := p.update fun s => { s with replay := accepted.1 }
  if !accepted.2 then p.update fun s => { s with rejectedFrames := s.rejectedFrames + 1 }
  else if header.has flagControl then p.handleControl crypto env peer header plaintext endpoint
  else if header.has flagRepair then p.handleRepair env virtualIpv4 plaintext
  else p.handleData env virtualIpv4 header.sequence plaintext

/-! ## The loop over waiting repairs ends -/

variable (virtualIpv4 : Octets) (p : Progress) (sequence : UInt64) (packet : Bytes)

theorem pending_writeToTun :
    (p.writeToTun env sequence packet).pending = p.pending := by
  unfold writeToTun
  split
  · dsimp only
    split <;> rfl
  · rfl

theorem pending_remember (recovered : Nat) :
    (p.remember sequence packet recovered).pending = p.pending := by
  unfold remember update pending
  dsimp only
  cases p.session.repair with
  | none => rfl
  | some repair => exact Fec.pending_remember repair.decoder sequence packet

theorem pending_admitRebuilt :
    (p.admitRebuilt env virtualIpv4 sequence packet).pending = p.pending := by
  unfold admitRebuilt
  split
  · rfl
  · dsimp only
    split
    · rw [pending_remember, pending_writeToTun]
      rfl
    · rfl

/-- One turn of the loop in `retry_pending_repairs`, with the admission that follows it. -/
def retryTurn (virtualIpv4 : Octets) (p : Progress) : Loop.Turn Progress :=
  match p.retry env with
  | (q, none) => .stop q
  | (q, some packet) => .again (q.admitRebuilt env virtualIpv4 packet.1 packet.2)

theorem isLoop_retryLoop :
    Loop.IsLoop (retryTurn env virtualIpv4) (retryLoop env virtualIpv4) := by
  refine ⟨fun p => rfl, fun fuel p => ?_⟩
  rw [retryLoop, retryTurn]
  cases p.retry env with
  | mk q rebuilt =>
    cases rebuilt with
    | none | some => rfl

theorem length_pending_retry {env : Environment} {p q : Progress} {packet : UInt64 × Bytes}
    (h : p.retry env = (q, some packet)) : q.pending.length < p.pending.length := by
  unfold retry at h
  cases hrepair : p.session.repair with
  | none =>
    rw [hrepair] at h
    cases congrArg Prod.snd h
  | some repair =>
    rw [hrepair] at h
    dsimp only at h
    split at h
    · have hshorter := length_pending_retryPending (congrArg Prod.snd h)
      obtain ⟨rfl, -⟩ := Prod.mk.inj h
      unfold pending
      rw [hrepair]
      exact hshorter
    · cases congrArg Prod.snd h

theorem retry_of_nil {env : Environment} {p : Progress} (h : p.pending = []) :
    p.retry env = (p, none) := by
  unfold retry
  unfold pending at h
  cases hrepair : p.session.repair with
  | none => rfl
  | some repair =>
    rw [hrepair] at h
    have hnil : repair.decoder.pending = [] := h
    dsimp only
    rw [Decoder.hasPending, hnil]
    rfl

theorem decreases_retryTurn :
    Loop.Decreases (retryTurn env virtualIpv4) fun p => p.pending.length := by
  refine ⟨fun p q hagain => ?_, fun p hnone => ?_⟩
  · unfold retryTurn at hagain
    cases hretry : p.retry env with
    | mk r rebuilt =>
      rw [hretry] at hagain
      cases rebuilt with
      | none => cases hagain
      | some packet =>
        rw [← Loop.Turn.again.inj hagain, pending_admitRebuilt]
        exact length_pending_retry hretry
  · rw [retryTurn, retry_of_nil (List.length_eq_zero_iff.1 hnone)]

/-- `retry_pending_repairs` is the loop of the source: it goes on as long as a repair is waiting and
the decoder rebuilds a packet. -/
theorem retryPendingRepairs_eq :
    p.retryPendingRepairs env virtualIpv4 =
      (p.retryTurn env virtualIpv4).andThen fun q => q.retryPendingRepairs env virtualIpv4 :=
  (isLoop_retryLoop env virtualIpv4).unroll (decreases_retryTurn env virtualIpv4) p

end Progress

end GamePath.Relay
