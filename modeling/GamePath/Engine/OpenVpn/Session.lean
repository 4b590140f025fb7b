import GamePath.Lib.Actions
import GamePath.Engine.OpenVpn.Link
import GamePath.Engine.OpenVpn.Negotiation

/-!
# The OpenVPN session (`openvpn/session.rs`)

Setting a session up and moving packets through it, as functions of the session's state. What a
session runs on is `Outside`: the clocks, the randomness and the link, which are functions of a
state `W` of their own, and the TLS connection, a value of a type `T`. Nothing is assumed of any of
them, so a statement about all of them covers every packet the link can hand over and every failure
of it.

A function that returns early with an error leaves what it had changed before. A function has no
result where the source would end the program or a loop would not end.
-/

namespace GamePath.Engine.OpenVpn

open Lib
open Dns (utf8Bytes)
open Direct (Text fromUtf8Lossy trim)
open Socks (stripPrefix)

/-! ## State -/

def handshakeTimeout : Nat := secs 20

def pushInterval : Nat := millis 1500

def silenceLimit : Nat := secs 6

/-- `DRAIN`. -/
def drainTimeout : Nat := millis 1

/-- `FIXED`: what the server's key material has before its options string. -/
def fixedLen : Nat := 4 + 1 + 32 + 32 + 2

inductive Stage where
  | reset
  | tls
  | keyExchange
  | push
  deriving DecidableEq

/-- What a session runs on. `readTls` takes bytes of the peer and says how many it took; `writeTls`
is everything TLS wants to send. -/
structure Outside (W T : Type) where
  crypto : Crypto
  packetCrypto : PacketCrypto
  now : W → Clock × W
  randomKeySource : W → KeySource × W
  randomIv : W → Block × W
  send : W → Bytes → Urgency → Except String Unit × W
  flushOutbound : W → Except String Unit × W
  receive : W → Nat → Except String (Option Bytes) × W
  peerAddr : W → Option Text
  newTls : W → Except String T × W
  readTls : T → Bytes → Except String Nat × T
  processNewPackets : T → Except String Unit × T
  readToEnd : T → Bytes × T
  isHandshaking : T → Bool
  writeAll : T → Bytes → Except String Unit × T
  writeTls : T → Except String Bytes × T

structure Session (W T : Type) where
  config : OpenVpnConfig
  credentials : Credentials
  protocol : Protocol
  world : W
  control : ControlChannel
  tls : Option T
  stage : Stage
  keySource : KeySource
  material : Option KeyMaterial
  channels : List DataChannel
  pushed : Option Pushed
  controlMessages : Bytes
  serverMaterial : Bool
  serverCipher : Option Text
  serverDigest : Option Text
  lastPushRequest : Option Instant
  lastInbound : Instant
  lastKeepalive : Instant
  inbound : List Bytes

def opcodeOf (packet : Bytes) : Option UInt8 := packet.head?.map fun (byte : UInt8) => byte >>> 3

def isData (opcode : UInt8) : Bool := opcode == pDataV1 || opcode == pDataV2

/-- An error text with what the source puts in front of it. -/
def because {α : Type} (what : String) (result : Except String α) : Except String α :=
  result.mapError fun reason => what ++ reason

namespace Session

variable {W T α : Type}

/-- The session `connect` starts from. -/
def fresh (config : OpenVpnConfig) (credentials : Credentials) (protocol : Protocol)
    (sessionId : SessionId) (keySource : KeySource) (now : Instant) (world : W) : Session W T where
  config := config
  credentials := credentials
  protocol := protocol
  world := world
  control := .new config.controlAuth sessionId
  tls := none
  stage := .reset
  keySource := keySource
  material := none
  channels := []
  pushed := none
  controlMessages := []
  serverMaterial := false
  serverCipher := none
  serverDigest := none
  lastPushRequest := none
  lastInbound := now
  lastKeepalive := now
  inbound := []

/-! ## What a session acts on -/

/-- A change of the session. -/
def update (f : Session W T → Session W T) : Action (Session W T) Unit :=
  .ofTotal fun s => (.ok (), f s)

/-- A call outside the session, which may fail. -/
def calling (f : W → Except String α × W) : Action (Session W T) α :=
  .ofTotal fun s => ((f s.world).1, { s with world := (f s.world).2 })

/-- A reading of something outside the session. -/
def reading (f : W → α × W) : Action (Session W T) α := calling fun w => (.ok (f w).1, (f w).2)

/-- A change of the control channel. -/
def onControl (f : ControlChannel → ControlChannel) : Action (Session W T) Unit :=
  update fun s => { s with control := f s.control }

/-- A call of the TLS connection. The source takes it for granted that there is one. -/
def onTls (f : T → Option (Except String α × T)) : Action (Session W T) α :=
  .ofPartly fun s =>
    match s.tls with
    | none => none
    | some tls => (f tls).map fun r => (r.1, { s with tls := some r.2 })

/-- A call of the newest data channel. -/
def onNewest (f : DataChannel → Except String Bytes × DataChannel) : Action (Session W T) Bytes :=
  .ofTotal fun s =>
    match s.channels.getLast? with
    | none => (.error "the OpenVPN data channel is not up", s)
    | some channel =>
      ((f channel).1, { s with channels := s.channels.dropLast ++ [(f channel).2] })

variable (o : Outside W T)

/-! ## Data -/

/-- `send_inner_with_urgency`. Only a CBC packet uses the initialisation vector. -/
def sendInnerWithUrgency (packet : Bytes) (urgency : Urgency) : Action (Session W T) Unit := do
  let iv ← reading o.randomIv
  let sealed ← onNewest fun channel => channel.sealPacket o.packetCrypto packet iv
  let clock ← reading o.now
  update fun s => { s with lastKeepalive := clock.now }
  calling fun w => o.send w sealed urgency

def keepalive : Action (Session W T) Unit := do
  let s ← get
  match s.pushed.bind Pushed.keepalive with
  | none => pure ()
  | some interval => do
      let clock ← reading o.now
      if clock.now - s.lastKeepalive < interval then pure ()
      else do
        let iv ← reading o.randomIv
        let ping ← onNewest fun channel => channel.keepalive o.packetCrypto iv
        let clock ← reading o.now
        update fun s => { s with lastKeepalive := clock.now }
        calling fun w => o.send w ping .reliable

/-- Opens a packet with the first channel of a key id. -/
def openWith (crypto : PacketCrypto) (keyId : UInt8) (packet : Bytes) :
    List DataChannel → Option (Except String (Option Bytes) × List DataChannel)
  -- A packet of a generation that has been retired was in flight when the keys moved on.
  | [] => some (.ok none, [])
  | channel :: rest =>
    if channel.keyId = keyId then
      (channel.openPacket crypto packet).map fun r => (r.1, r.2 :: rest)
    else (openWith crypto keyId packet rest).map fun r => (r.1, channel :: r.2)

/-- `open_data`, of a packet that is not empty. -/
def openData (packet : Bytes) : Action (Session W T) (Option Bytes) :=
  .ofPartly fun s =>
    (openWith o.packetCrypto (packet.headD 0 &&& 0x07) packet s.channels).map fun r =>
      (r.1, { s with channels := r.2 })

/-! ## TLS -/

def installKeys : Action (Session W T) Unit :=
  .ofTotal fun s =>
    match s.material, s.pushed with
    | some material, some pushed =>
      let keyId := s.control.keyId
      if s.channels.any fun live => decide (live.keyId = keyId) then (.ok (), s)
      else
        match DataChannel.new material pushed.cipher pushed.digest pushed.peerId keyId with
        | .error reason => (.error reason, s)
        | .ok channel =>
          let channels := s.channels ++ [channel]
          -- Only the generation being replaced is kept.
          (.ok (), { s with channels := if 2 < channels.length then channels.tail else channels })
    | _, _ => (.ok (), s)

/-- The settings of a `PUSH_REPLY`. -/
def acceptPush (options : Text) : Action (Session W T) Unit := do
  let s ← get
  if s.pushed.isSome then pure ()
  else
    match readPush s.config s.serverCipher s.serverDigest options with
    | .error reason => throw reason
    | .ok pushed =>
      if s.material.isNone then
        throw "the OpenVPN server pushed its settings before its key material"
      else do
        update fun s => { s with pushed := some pushed }
        installKeys

def handleMessage (message : Text) : Action (Session W T) Unit :=
  match stripPrefix "PUSH_REPLY,".toList message with
  | some options => acceptPush options
  | none =>
    if "AUTH_FAILED".toList.isPrefixOf message || "RESTART".toList.isPrefixOf message ||
        "HALT".toList.isPrefixOf message then
      throw (describeRefusal message)
    else pure ()

/-- The text messages of the server. Each turn takes a byte at least. -/
def readTexts : Nat → Action (Session W T) Unit
  | 0 => pure ()
  | turns + 1 => do
      let s ← get
      match s.controlMessages.findIdx? fun byte => byte = 0 with
      | none => pure ()
      | some last => do
          update fun s => { s with controlMessages := s.controlMessages.drop (last + 1) }
          handleMessage (fromUtf8Lossy (s.controlMessages.take last))
          readTexts turns

/-- The server's random values and its options string, and the keys that follow from them. -/
def takeServerMaterial (optionsLen : Nat) : Action (Session W T) Unit :=
  .ofTotal fun s =>
    let options := fromUtf8Lossy ((s.controlMessages.drop fixedLen).take optionsLen)
    let s := { s with
      serverCipher := optionsValue options "cipher".toList
      serverDigest := optionsValue options "auth".toList }
    match s.control.remoteSessionId with
    | none => (.error "the OpenVPN server's session id is not known yet", s)
    | some serverSid =>
      (.ok (), { s with
        material := some (KeyMaterial.derive o.packetCrypto s.keySource
          ((s.controlMessages.drop 5).take 32) ((s.controlMessages.drop 37).take 32)
          s.control.sessionId serverSid)
        controlMessages := s.controlMessages.drop (fixedLen + optionsLen)
        serverMaterial := true
        stage := .push })

def readControlMessages : Action (Session W T) Unit := do
  let s ← get
  let messages := s.controlMessages
  if s.serverMaterial then readTexts messages.length
  else if messages.length < fixedLen then pure ()
  else if messages.take 4 ≠ [0, 0, 0, 0] ∨ messages.getD 4 0 ≠ 2 then
    throw (describeRefusal (trim ((fromUtf8Lossy messages).filter fun c => c ≠ '\x00')))
  else
    let optionsLen := (u16OfBe (messages.getD 69 0) (messages.getD 70 0)).toNat
    if messages.length < fixedLen + optionsLen then pure ()
    else do
      takeServerMaterial o optionsLen
      -- On a renegotiation the settings are known, and the new keys go into use at once.
      installKeys
      readTexts messages.length

def sendKeyMaterial : Action (Session W T) Unit := do
  let s ← get
  let source := s.keySource
  let blob := [0, 0, 0, 0, 2] ++ source.preMaster.toList ++ source.random1.toList ++
    source.random2.toList ++ writeString (some (s.config.optionsString s.protocol)) ++
    writeString s.credentials.username ++ writeString s.credentials.password ++
    writeString (some (s.config.peerInfo (s.config.remotes.head s.config.remotes_ne_nil)))
  onTls fun tls =>
    some (because "could not send the OpenVPN key material: " (o.writeAll tls blob).1,
      (o.writeAll tls blob).2)
  update fun s => { s with stage := .keyExchange }

/-- The loop of `feed_tls`. TLS takes a byte at least of what it is given. -/
def feedAll : Nat → Bytes → T → Option (Except String Unit × T)
  | _, [], tls => some (.ok (), tls)
  | 0, _ :: _, _ => none
  | turns + 1, byte :: rest, tls =>
    match o.readTls tls (byte :: rest) with
    | (.error reason, tls) =>
      some (.error ("could not read the OpenVPN TLS stream: " ++ reason), tls)
    | (.ok taken, tls) =>
      match o.processNewPackets tls with
      | (.error reason, tls) =>
        some (.error ("the OpenVPN TLS handshake failed: " ++ reason), tls)
      | (.ok (), tls) => feedAll turns ((byte :: rest).drop taken) tls

/-- What TLS unlocked is read as control messages. -/
def takeMessages (received : Bytes) : Action (Session W T) Unit :=
  if received = [] then pure ()
  else do
    update fun s => { s with controlMessages := s.controlMessages ++ received }
    readControlMessages o

/-- The end of `feed_tls`. -/
def finishHandshake (handshaking : Bool) : Action (Session W T) Unit := do
  let s ← get
  if !handshaking ∧ s.stage = .tls then sendKeyMaterial o else pure ()

def feedTls (payload : Bytes) : Action (Session W T) Unit := do
  let s ← get
  if s.tls.isNone then pure ()
  else do
    onTls (feedAll o payload.length payload)
    let received ← onTls fun tls => some (.ok (o.readToEnd tls).1, (o.readToEnd tls).2)
    let handshaking ← onTls fun tls => some (.ok (o.isHandshaking tls), tls)
    takeMessages o received
    finishHandshake o handshaking

def beginTls : Action (Session W T) Unit := do
  let s ← get
  if s.tls.isSome then pure ()
  else do
    let connection ← calling fun w =>
      (because "could not start the OpenVPN TLS handshake: " (o.newTls w).1, (o.newTls w).2)
    update fun s => { s with tls := some connection, stage := .tls }

def renegotiate (keyId : UInt8) : Action (Session W T) Unit := do
  let s ← get
  if keyId = s.control.keyId then pure ()
  else do
    let clock ← reading o.now
    update fun s => { s with
      control := (s.control.rekey keyId).restart o.crypto clock
      tls := none
      material := none
      serverMaterial := false
      controlMessages := [] }
    let keySource ← reading o.randomKeySource
    update fun s => { s with keySource := keySource }
    beginTls o

/-! ## Packets of the link -/

/-- What a session does about a control packet. -/
def followUp : Received → Action (Session W T) Unit
  | .serverReset => beginTls o
  | .payload payload => feedTls o payload
  | .softReset keyId => renegotiate o keyId
  | .nothing => pure ()

/-- The control channel receives a packet. -/
def receiveControl (clock : Clock) (packet : Bytes) : Action (Session W T) Received :=
  .ofTotal fun s =>
    ((s.control.receive o.crypto clock.epoch packet).2,
      { s with control := (s.control.receive o.crypto clock.epoch packet).1 })

/-- The end of `step`, for a packet that is not data. -/
def stepControl (packet : Bytes) : Action (Session W T) Unit := do
  let clock ← reading o.now
  let received ← receiveControl o clock packet
  followUp o received

/-- An inner packet that arrives during the setup is kept. -/
def keep (inner : Option Bytes) : Action (Session W T) Unit :=
  update fun s => { s with inbound := s.inbound ++ inner.toList }

def step (packet : Bytes) : Action (Session W T) Unit :=
  match opcodeOf packet with
  | none => throw "an OpenVPN packet was empty"
  | some opcode =>
    if isData opcode then do
      let inner ← openData o packet
      keep inner
    else stepControl o packet

/-- What TLS wants to send goes into control packets. -/
def flushTls : Action (Session W T) Unit := do
  let s ← get
  if s.tls.isNone then pure ()
  else do
    let outbound ← onTls fun tls =>
      some (because "could not write the OpenVPN TLS stream: " (o.writeTls tls).1,
        (o.writeTls tls).2)
    let clock ← reading o.now
    onControl (ControlChannel.sendTls o.crypto clock outbound)

/-- Puts the queued control packets on the link, one with each turn. -/
def sendOutgoing : Nat → Action (Session W T) Unit
  | 0 => pure ()
  | turns + 1 => do
      let s ← get
      match s.control.takeOutgoing.2 with
      | none => pure ()
      | some packet => do
          onControl fun control => control.takeOutgoing.1
          calling fun w => o.send w packet .reliable
          sendOutgoing turns

def flush : Action (Session W T) Unit := do
  flushTls o
  let s ← get
  sendOutgoing o s.control.outgoing.length
  calling o.flushOutbound

def absorb (packet : Bytes) : Action (Session W T) (Option Bytes) :=
  match opcodeOf packet with
  | none => throw "an OpenVPN packet was empty"
  | some opcode =>
    if isData opcode then openData o packet
    else do
      step o packet
      flush o
      pure none

/-! ## Setup -/

def requestPush : Action (Session W T) Unit := do
  let s ← get
  if !s.serverMaterial ∨ s.pushed.isSome then pure ()
  else do
    let clock ← reading o.now
    if s.lastPushRequest.any fun last => decide (clock.now - last < pushInterval) then pure ()
    else do
      update fun s => { s with lastPushRequest := some clock.now }
      onTls fun tls =>
        let written := o.writeAll tls (utf8Bytes "PUSH_REQUEST\x00".toList)
        some (because "could not ask the OpenVPN server for its settings: " written.1, written.2)

def checkSilence : Action (Session W T) Unit := do
  let s ← get
  let clock ← reading o.now
  if clock.now - s.lastInbound < silenceLimit then pure ()
  else if s.stage = .reset then
    throw ("the OpenVPN server at " ++
      ((o.peerAddr s.world).map String.ofList).getD "the configured address" ++
      " is not answering. Nothing has come back at all, so either the address and port are " ++
      "wrong or the connection is being blocked.")
  else
    throw ("the OpenVPN server stopped answering part-way through the handshake. " ++
      match s.protocol with
      | .udp => "Its handshake packets are probably too large for this connection; try the " ++
          "provider's tcp configuration."
      | .tcp => "The connection stayed open but the server went quiet.")

def timeoutReason (s : Session W T) : String :=
  "the OpenVPN session did not come up: " ++
    match s.stage with
    | .reset => "the server never answered the opening packet. Check the address, the port and " ++
        "whether this is a udp or tcp configuration."
    | .tls => "the TLS handshake did not finish. Over UDP this usually means the server's " ++
        "handshake packets are too large for the path and are being dropped; the same " ++
        "provider's tcp configuration will normally connect."
    | .keyExchange => "the server accepted the TLS handshake but never sent its key material."
    | .push => "the server never pushed the tunnel's settings, which usually means it is still " ++
        "deciding whether to accept the credentials."

/-- The start of `connect`, once the link is up. -/
def openSession : Action (Session W T) Instant := do
  let clock ← reading o.now
  onControl fun control => control.start o.crypto clock
  flush o
  pure clock.now

end Session

end GamePath.Engine.OpenVpn
