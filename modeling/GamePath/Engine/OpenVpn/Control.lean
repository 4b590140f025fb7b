import GamePath.Lib.Reorder
import GamePath.Lib.Tiles
import GamePath.Engine.Basic

/-!
# The OpenVPN control channel

`engine/src/openvpn/control.rs`: packet framing and the reliability layer that carries a TLS
handshake over an unreliable link, with the part of `engine/src/openvpn/session.rs` that drives it.

The keyed hash and the stream cipher of the wrappings are parameters (`Crypto`). A reading of the
clocks is an argument of every call that takes one. The counters are `u32` and wrap, as a release
build's do. The errors of `receive` come before anything is written, so a failed call returns the
channel it was given.
-/

namespace GamePath.Engine.OpenVpn

open Lib

/-! ## Packets -/

def pControlSoftResetV1 : UInt8 := 3

def pControlV1 : UInt8 := 4

def pAckV1 : UInt8 := 5

def pControlHardResetClientV2 : UInt8 := 7

def pControlHardResetServerV2 : UInt8 := 8

def maxControlPayload : Nat := 1000

def retransmitAfter : Nat := millis 1200

def maxAcks : Nat := 8

/-- `[u8; 8]`. -/
structure SessionId where
  bytes : Bytes
  eight : bytes.length = 8

/-- `u32::from_be_bytes`. -/
def u32OfBe (bytes : Bytes) : UInt32 := UInt32.ofNat (BigEndian.ofBytes bytes)

/-- `expected_packet_id += 1`. -/
def nextId (id : UInt32) : UInt32 := id + 1

/-! ## Wrappings -/

inductive Digest where
  | md5
  | sha1
  | sha256
  | sha512
  deriving DecidableEq

def Digest.outputLen : Digest → Nat
  | .md5 => 16
  | .sha1 => 20
  | .sha256 => 32
  | .sha512 => 64

structure TlsAuthKeys where
  send : Bytes
  receive : Bytes
  digest : Digest

structure TlsCryptKeys where
  sendCipher : Bytes
  sendHmac : Bytes
  receiveCipher : Bytes
  receiveHmac : Bytes

inductive Wrapping where
  | none
  | tlsAuth (keys : TlsAuthKeys)
  | tlsCrypt (keys : TlsCryptKeys)

/-- `hmac` and `tls_crypt_apply`. -/
structure Crypto where
  hmac : Digest → Bytes → List Bytes → Bytes
  tlsCryptApply : Bytes → Bytes → Bytes → Bytes

/-! ## The channel -/

structure Pending where
  packetId : UInt32
  packet : Bytes
  sentAt : Instant

inductive Received where
  | nothing
  | serverReset
  | softReset (keyId : UInt8)
  | payload (bytes : Bytes)

structure ControlChannel where
  wrapping : Wrapping
  sessionId : SessionId
  remoteSessionId : Option SessionId
  keyId : UInt8
  nextPacketId : UInt32
  nextReplayId : UInt32
  unacknowledged : List Pending
  pendingAcks : List UInt32
  expectedPacketId : UInt32
  reordered : KeyedMap UInt32 Bytes
  outgoing : List Bytes

/-- A reading of the clocks: `Instant::now` and the seconds of `SystemTime::now`. -/
structure Clock where
  now : Instant
  epoch : UInt32

/-- A control packet after its wrapping is off. -/
structure Packet where
  opcode : UInt8
  keyId : UInt8
  sessionId : SessionId
  acks : List UInt32
  packetId : Option UInt32
  payload : Bytes

namespace ControlChannel

/-- `ControlChannel::new`, with the wrapping of the configuration and the session id that was
drawn. -/
def new (wrapping : Wrapping) (sessionId : SessionId) : ControlChannel where
  wrapping := wrapping
  sessionId := sessionId
  remoteSessionId := none
  keyId := 0
  nextPacketId := 0
  nextReplayId := 1
  unacknowledged := []
  pendingAcks := []
  expectedPacketId := 0
  reordered := KeyedMap.empty
  outgoing := []

/-! ## Sending -/

def replayHeader (c : ControlChannel) (epoch : UInt32) : ControlChannel × Bytes :=
  ({ c with nextReplayId := c.nextReplayId + 1 }, beU32 c.nextReplayId ++ beU32 epoch)

/-- The acknowledgements `wrap` takes along. -/
def takeAcks (c : ControlChannel) (withAcks : Bool) : ControlChannel × List UInt32 :=
  -- An acknowledgement names the peer's session, so none goes out before that is known.
  if withAcks && c.remoteSessionId.isSome then
    ({ c with pendingAcks := c.pendingAcks.drop maxAcks }, c.pendingAcks.take maxAcks)
  else (c, [])

/-- The id `wrap` gives a packet: an acknowledgement has none. -/
def takePacketId (c : ControlChannel) (opcode : UInt8) : ControlChannel × Option UInt32 :=
  if opcode = pAckV1 then (c, none)
  else ({ c with nextPacketId := c.nextPacketId + 1 }, some c.nextPacketId)

/-- The body of a packet: acknowledgements, then its own id, then the payload. -/
def bodyOf (c : ControlChannel) (acks : List UInt32) (packetId : Option UInt32) (payload : Bytes) :
    Bytes :=
  UInt8.ofNat acks.length :: acks.flatMap beU32 ++
    (if acks.isEmpty then [] else (c.remoteSessionId.map SessionId.bytes).getD []) ++
    (packetId.map beU32).getD [] ++ payload

variable (crypto : Crypto)

/-- The end of `wrap`: what the wrapping puts around a body. -/
def sealBody (c : ControlChannel) (epoch : UInt32) (first : UInt8) (body : Bytes) :
    ControlChannel × Bytes :=
  match c.wrapping with
  | .none => (c, first :: c.sessionId.bytes ++ body)
  | .tlsAuth keys =>
    let (c, replay) := c.replayHeader epoch
    let mac := crypto.hmac keys.digest keys.send [replay, [first], c.sessionId.bytes, body]
    (c, first :: c.sessionId.bytes ++ mac ++ replay ++ body)
  | .tlsCrypt keys =>
    let (c, replay) := c.replayHeader epoch
    let header := first :: c.sessionId.bytes ++ replay
    let tag := crypto.hmac .sha256 keys.sendHmac [header, body]
    (c, header ++ tag ++ crypto.tlsCryptApply keys.sendCipher tag body)

def wrap (c : ControlChannel) (epoch : UInt32) (opcode : UInt8) (payload : Bytes)
    (withAcks : Bool) : ControlChannel × Bytes × Option UInt32 :=
  let (c, acks) := c.takeAcks withAcks
  let (c, packetId) := c.takePacketId opcode
  let (c, packet) := c.sealBody crypto epoch (opcode <<< 3 ||| c.keyId)
    (c.bodyOf acks packetId payload)
  (c, packet, packetId)

def send (c : ControlChannel) (clock : Clock) (opcode : UInt8) (payload : Bytes) :
    ControlChannel :=
  let (c, packet, packetId) := c.wrap crypto clock.epoch opcode payload true
  let waiting := match packetId with
    | some packetId => [⟨packetId, packet, clock.now⟩]
    | none => []
  { c with
    unacknowledged := c.unacknowledged ++ waiting
    outgoing := c.outgoing ++ [packet] }

def start (c : ControlChannel) (clock : Clock) : ControlChannel :=
  c.send crypto clock pControlHardResetClientV2 []

/-- `send_tls`: one packet for each chunk. -/
def sendTls (clock : Clock) (bytes : Bytes) (c : ControlChannel) :
    ControlChannel :=
  (List.range (Tiles.tileCount bytes.length maxControlPayload)).foldl
    (fun c i => c.send crypto clock pControlV1 (Tiles.tile bytes maxControlPayload i)) c

def takeOutgoing (c : ControlChannel) : ControlChannel × Option Bytes :=
  ({ c with outgoing := c.outgoing.tail }, c.outgoing.head?)

def resendStale (c : ControlChannel) (now : Instant) : ControlChannel :=
  let due (pending : Pending) : Bool := decide (retransmitAfter ≤ now - pending.sentAt)
  -- Only the time is renewed: the packet itself was sealed when it was first sent.
  { c with
    unacknowledged := c.unacknowledged.map fun pending =>
      if due pending then { pending with sentAt := now } else pending
    outgoing := c.outgoing ++ (c.unacknowledged.filter due).map Pending.packet }

def restart (c : ControlChannel) (clock : Clock) : ControlChannel :=
  c.send crypto clock pControlSoftResetV1 []

def rekey (c : ControlChannel) (keyId : UInt8) : ControlChannel :=
  -- The numbering starts over in both directions, the replay ids go on.
  { c with
    keyId := keyId
    nextPacketId := 0
    expectedPacketId := 0
    unacknowledged := []
    reordered := KeyedMap.empty
    pendingAcks := [] }

def flushAcks (c : ControlChannel) (epoch : UInt32) : ControlChannel :=
  if c.pendingAcks.isEmpty || c.remoteSessionId.isNone then c
  else
    let (c, packet, _) := c.wrap crypto epoch pAckV1 [] true
    { c with outgoing := c.outgoing ++ [packet] }

/-! ## Receiving -/

/-- Takes the wrapping off a packet of at least nine bytes. `constant_time_eq` is equality. -/
def openBody (wrapping : Wrapping) (first : UInt8) (sessionId : SessionId)
    (packet : Bytes) : Except String Bytes :=
  match wrapping with
  | .none => .ok (packet.drop 9)
  | .tlsAuth keys =>
    let size := keys.digest.outputLen
    if packet.length < 9 + size + 8 then .error "a tls-auth control packet was truncated"
    else
      let mac := (packet.drop 9).take size
      let replay := (packet.drop (9 + size)).take 8
      let body := packet.drop (9 + size + 8)
      if crypto.hmac keys.digest keys.receive [replay, [first], sessionId.bytes, body] = mac then
        .ok body
      else
        .error ("a control packet failed its tls-auth check, so the `<tls-auth>` key or " ++
          "its direction does not match the server's")
  | .tlsCrypt keys =>
    if packet.length < 49 then .error "a tls-crypt control packet was truncated"
    else
      let header := packet.take 17
      let tag := (packet.drop 17).take 32
      let body := crypto.tlsCryptApply keys.receiveCipher tag (packet.drop 49)
      if crypto.hmac .sha256 keys.receiveHmac [header, body] = tag then .ok body
      else
        .error ("a control packet failed its tls-crypt check, so the `<tls-crypt>` key " ++
          "does not match the server's")

/-- The acknowledged ids at the front of a body, and what follows them. -/
def readAcks : Nat → Bytes → Except String (List UInt32 × Bytes)
  | 0, rest => .ok ([], rest)
  | count + 1, rest =>
    if rest.length < 4 then
      .error "a control packet's acknowledgement list was truncated"
    else
      match readAcks count (rest.drop 4) with
      | .error e => .error e
      | .ok (acks, rest') => .ok (u32OfBe (rest.take 4) :: acks, rest')

/-- The packet id after the acknowledgements, and the payload. -/
def readPacketId (opcode : UInt8) (rest : Bytes) : Except String (Option UInt32 × Bytes) :=
  if opcode = pAckV1 then .ok (none, rest)
  else if rest.length < 4 then .error "a control packet had no packet id"
  else .ok (some (u32OfBe (rest.take 4)), rest.drop 4)

/-- The acknowledgements, the packet id and the payload of a body. -/
def readBody (opcode : UInt8) : Bytes → Except String (List UInt32 × Option UInt32 × Bytes)
  | [] => .error "a control packet had no body"
  | count :: rest =>
    match readAcks count.toNat rest with
    | .error e => .error e
    | .ok (acks, rest) =>
      if 0 < count.toNat ∧ rest.length < 8 then
        .error "a control packet's acknowledgement block was truncated"
      else
        -- The peer's session id follows the acknowledgements if there are any.
        match readPacketId opcode (if 0 < count.toNat then rest.drop 8 else rest) with
        | .error e => .error e
        | .ok (packetId, payload) => .ok (acks, packetId, payload)

/-- The first half of `receive`, which reads a packet and writes nothing. `none` is a packet of
another key generation. -/
def read (wrapping : Wrapping) (keyId : UInt8) (packet : Bytes) :
    Except String (Option Packet) :=
  match packet with
  | [] => .error "an OpenVPN control packet was empty"
  | first :: rest =>
    if h : rest.length < 8 then .error "an OpenVPN control packet was truncated"
    else
      let opcode := first >>> 3
      -- Otherwise a retransmission of the keys being replaced would be numbered with the new
      -- ones. A soft reset is how the new generation is announced, so it is let through.
      if first &&& 0x07 ≠ keyId ∧ opcode ≠ pControlSoftResetV1 then .ok none
      else
        let sessionId : SessionId := ⟨rest.take 8, by rw [List.length_take]; omega⟩
        match openBody crypto wrapping first sessionId packet with
        | .error e => .error e
        | .ok body =>
          match readBody opcode body with
          | .error e => .error e
          | .ok (acks, packetId, payload) =>
            .ok (some ⟨opcode, first &&& 0x07, sessionId, acks, packetId, payload⟩)

/-- A reset takes a slot in the numbering. -/
def stepPast (c : ControlChannel) (packetId : UInt32) : ControlChannel :=
  if packetId = c.expectedPacketId then
    { c with expectedPacketId := nextId c.expectedPacketId }
  else c

/-- The peer's session id is kept from its first packet; what it acknowledges is no longer waiting.
-/
def hear (c : ControlChannel) (p : Packet) : ControlChannel :=
  { c with
    remoteSessionId := some (c.remoteSessionId.getD p.sessionId)
    unacknowledged := c.unacknowledged.filter fun pending => decide (pending.packetId ∉ p.acks) }

/-- The end of `receive`: a payload waits for the ones before it. -/
def release (c : ControlChannel) (epoch : UInt32) (packetId : UInt32)
    (payload : Bytes) : ControlChannel × Received :=
  -- Every payload is acknowledged on arrival, whether or not it is its turn.
  let c := { c with reordered := c.reordered.insert packetId payload }
  let c := c.flushAcks crypto epoch
  let (reordered, expected, chunks) := Reorder.drain nextId c.reordered c.expectedPacketId
  ({ c with reordered := reordered, expectedPacketId := expected },
    if chunks.flatten = [] then .nothing else .payload chunks.flatten)

/-- The second half of `receive`. -/
def accept (c : ControlChannel) (epoch : UInt32) (p : Packet) :
    ControlChannel × Received :=
  let c := c.hear p
  match p.packetId with
  | none => (c, .nothing)
  | some packetId =>
    let c := { c with pendingAcks := c.pendingAcks ++ [packetId] }
    -- Both resets step past their own number and leave what waits behind them where it is.
    if p.opcode = pControlHardResetServerV2 then
      ((c.stepPast packetId).flushAcks crypto epoch, .serverReset)
    else if p.opcode = pControlSoftResetV1 then
      ((c.stepPast packetId).flushAcks crypto epoch, .softReset p.keyId)
    else c.release crypto epoch packetId p.payload

def receive (c : ControlChannel) (epoch : UInt32) (packet : Bytes) :
    ControlChannel × Except String Received :=
  match read crypto c.wrapping c.keyId packet with
  | .error e => (c, .error e)
  | .ok none => (c, .ok .nothing)
  | .ok (some p) =>
    let (c, received) := c.accept crypto epoch p
    (c, .ok received)

/-! ## The session's use of it -/

/-- `Session::renegotiate`, on the control channel. -/
def renegotiate (c : ControlChannel) (clock : Clock) (keyId : UInt8) :
    ControlChannel :=
  if keyId = c.keyId then c else (c.rekey keyId).restart crypto clock

/-- `Session::step` for a control packet, on the control channel. -/
def step (c : ControlChannel) (clock : Clock) (packet : Bytes) :
    ControlChannel × Except String Received :=
  match c.receive crypto clock.epoch packet with
  -- The soft reset is acknowledged by `receive` before the generation changes under it.
  | (c, .ok (.softReset keyId)) => (c.renegotiate crypto clock keyId, .ok (.softReset keyId))
  | result => result

end ControlChannel

/-- What a session does with its control channel. -/
inductive Call where
  | start
  | sendTls (bytes : Bytes)
  | takeOutgoing
  | resendStale
  | step (packet : Bytes)

/-- One call, with the clock readings it takes. -/
def ControlChannel.call (crypto : Crypto) (c : ControlChannel) (call : Clock × Call) :
    ControlChannel × Except String Received :=
  match call.2 with
  | .start => (c.start crypto call.1, .ok .nothing)
  | .sendTls bytes => (c.sendTls crypto call.1 bytes, .ok .nothing)
  | .takeOutgoing => (c.takeOutgoing.1, .ok .nothing)
  | .resendStale => (c.resendStale call.1.now, .ok .nothing)
  | .step packet => c.step crypto call.1 packet

end GamePath.Engine.OpenVpn
