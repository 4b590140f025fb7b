import GamePath.Engine.OpenVpn.SessionFrame

/-!
# The runs of a session

`run_setup`, `send_inner` and `receive_inner` of `openvpn/session.rs`, one turn of their loops after
the other. A machine is a session and the place its thread has reached; a turn ends where a packet
has been taken from the link, so what becomes of every packet shows in the run. The thread that
calls is free to send or to receive while no call is under way.
-/

namespace GamePath.Engine.OpenVpn.Session

open Lib Lib.Action Within

variable {W T : Type}

/-- The place a session's thread has reached. -/
inductive Place where
  /-- `connect` has a link and has sent nothing. -/
  | opening
  /-- The top of the loop of `run_setup`. -/
  | settingUp (started : Instant)
  /-- A packet of the link goes to `step`. -/
  | stepping (started : Instant) (packet : Bytes)
  /-- The session is handed out and no call is under way. -/
  | idle
  /-- The top of the outer loop of `receive_inner`. -/
  | waiting (deadline : Instant) (packets : List Bytes)
  /-- The packet that was waited for goes to `absorb`. -/
  | absorbing (deadline : Instant) (packets : List Bytes) (packet : Bytes)
  /-- The top of the inner loop of `receive_inner`. -/
  | draining (packets : List Bytes)
  /-- A packet that had already arrived goes to `absorb`. -/
  | absorbingMore (packets : List Bytes) (packet : Bytes)
  /-- There is no session. -/
  | gone
  deriving DecidableEq

/-- What a caller asks for, or that the call under way goes on. -/
inductive Request where
  | proceed
  | sendInner (packet : Bytes) (urgency : Urgency)
  | receiveInner (timeout : Nat)

/-- Where a turn ends, with the packets of a call that has returned. -/
abbrev Next := Place × Option (List Bytes)

variable (o : Outside W T)

/-! ## Turns -/

/-- The end of a turn of `run_setup`. -/
def setupTail (started : Instant) : Action (Session W T) Next := do
  let clock ← reading o.now
  onControl fun control => control.resendStale clock.now
  requestPush o
  flush o
  checkSilence o
  pure (.settingUp started, none)

/-- A turn of `run_setup`, up to the packet it takes from the link. -/
def setupTurn (started : Instant) : Action (Session W T) Next := do
  let clock ← reading o.now
  let s ← get
  if started + handshakeTimeout ≤ clock.now then throw s.timeoutReason
  else if s.pushed.isSome then pure (.idle, some [])
  else do
    let arrived ← calling fun w => o.receive w (millis 100)
    match arrived with
    | none => setupTail o started
    | some packet => do
        let clock ← reading o.now
        update fun s => { s with lastInbound := clock.now }
        pure (.stepping started packet, none)

/-- The start of `receive_inner`. -/
def startReceiving (timeout : Nat) : Action (Session W T) Next := do
  let clock ← reading o.now
  let s ← get
  update fun s => { s with inbound := [] }
  pure (.waiting (clock.now + timeout) s.inbound, none)

/-- A turn of the outer loop of `receive_inner`, up to the packet it takes from the link. -/
def waitTurn (deadline : Instant) (packets : List Bytes) : Action (Session W T) Next := do
  keepalive o
  let clock ← reading o.now
  onControl fun control => control.resendStale clock.now
  flush o
  let clock ← reading o.now
  if deadline - clock.now = 0 then pure (.idle, some packets)
  else do
    let arrived ← calling fun w => o.receive w (min (deadline - clock.now) (millis 50))
    match arrived with
    | none =>
      if packets = [] then pure (.waiting deadline packets, none) else pure (.idle, some packets)
    | some packet => do
        let clock ← reading o.now
        update fun s => { s with lastInbound := clock.now }
        pure (.absorbing deadline packets packet, none)

/-- The packet that was waited for. -/
def absorbTurn (deadline : Instant) (packets : List Bytes) (packet : Bytes) :
    Action (Session W T) Next := do
  let inner ← absorb o packet
  match inner with
  | some inner => pure (.draining (packets ++ [inner]), none)
  | none => pure (.waiting deadline packets, none)

/-- A turn of the inner loop of `receive_inner`, up to the packet it takes from the link. -/
def drainTurn (packets : List Bytes) : Action (Session W T) Next := do
  let arrived ← calling fun w => o.receive w drainTimeout
  match arrived with
  | none => pure (.idle, some packets)
  | some packet => pure (.absorbingMore packets packet, none)

/-- A packet that had already arrived. -/
def absorbMoreTurn (packets : List Bytes) (packet : Bytes) : Action (Session W T) Next := do
  let inner ← absorb o packet
  pure (.draining (packets ++ inner.toList), none)

/-- The turn from a place on. -/
def turn : Place → Request → Action (Session W T) Next
  | .opening, _ => do
      let started ← openSession o
      pure (.settingUp started, none)
  | .settingUp started, _ => setupTurn o started
  | .stepping started packet, _ => do
      step o packet
      setupTail o started
  | .idle, .proceed => pure (.idle, none)
  | .idle, .sendInner packet urgency => do
      sendInnerWithUrgency o packet urgency
      pure (.idle, some [])
  | .idle, .receiveInner timeout => startReceiving o timeout
  | .waiting deadline packets, _ => waitTurn o deadline packets
  | .absorbing deadline packets packet, _ => absorbTurn o deadline packets packet
  | .draining packets, _ => drainTurn o packets
  | .absorbingMore packets packet, _ => absorbMoreTurn o packets packet
  | .gone, _ => pure (.gone, none)

/-- Where an error leads: a session that does not come up is dropped, one that is up stays. -/
def Place.failed : Place → Place
  | .opening | .settingUp _ | .stepping _ _ | .gone => .gone
  | .idle | .waiting _ _ | .absorbing _ _ _ | .draining _ | .absorbingMore _ _ => .idle

/-! ## Machines -/

/-- A session and the place of its thread. -/
structure Machine (W T : Type) where
  session : Session W T
  place : Place

/-- What a turn did: the packet of the link it handled, the inner packet that was opened, and what
the call came to that ended with it. -/
structure Answer where
  handled : Option Bytes
  opened : Option Bytes
  ended : Option (Except String (List Bytes))

/-- The inner packets a call returns. -/
def Answer.returned (answer : Answer) : List Bytes :=
  match answer.ended with
  | some (.ok packets) => packets
  | some (.error _) | none => []

/-- The packet of the link a turn handles. -/
def Place.packet : Place → Option Bytes
  | .stepping _ packet | .absorbing _ _ packet | .absorbingMore _ packet => some packet
  | .opening | .settingUp _ | .idle | .waiting _ _ | .draining _ | .gone => none

/-- The inner packets a call has collected. -/
def Place.collected : Place → List Bytes
  | .waiting _ packets | .absorbing _ packets _ | .draining packets | .absorbingMore packets _ =>
    packets
  | .opening | .settingUp _ | .stepping _ _ | .idle | .gone => []

/-- The channel that a data packet is for. -/
def channelFor (s : Session W T) (packet : Bytes) : Option DataChannel :=
  s.channels.find? fun channel => channel.keyId = packet.headD 0 &&& 0x07

/-- What `DataChannel::open` gives for a packet of the link, if it is given to it. -/
def opens (s : Session W T) (packet : Bytes) : Option Bytes :=
  match opcodeOf packet with
  | none => none
  | some opcode =>
    if isData opcode then
      (s.channelFor packet).bind fun channel =>
        match channel.openPacket o.packetCrypto packet with
        | some (.ok inner, _) => inner
        | _ => none
    else none

namespace Machine

/-- The machine of a `connect` whose link is up. -/
def connected (config : OpenVpnConfig) (credentials : Credentials) (protocol : Protocol)
    (sessionId : SessionId) (keySource : KeySource) (now : Instant) (world : W) : Machine W T :=
  ⟨fresh config credentials protocol sessionId keySource now world, .opening⟩

/-- One turn. Where it has no result, the thread gets no further. -/
def step (m : Machine W T) (request : Request) : Machine W T × Answer :=
  let opened := m.place.packet.bind (m.session.opens o)
  match (turn o m.place request).on m.session with
  | none => (⟨m.session, .gone⟩, ⟨m.place.packet, opened, none⟩)
  | some (.error reason, s) => (⟨s, m.place.failed⟩, ⟨m.place.packet, opened, some (.error reason)⟩)
  | some (.ok (place, packets), s) => (⟨s, place⟩, ⟨m.place.packet, opened, packets.map .ok⟩)

/-- The run of a session under the requests of its caller. -/
def run (m : Machine W T) (requests : List Request) :
    Run.Config (Machine W T) Request Answer :=
  Run.exec (Machine.step o) m requests

end Machine

/-- The inner packets that were opened in a run. -/
def openedIn (log : List (Request × Answer)) : List Bytes :=
  log.flatMap fun e => e.2.opened.toList

/-- The inner packets that were returned in a run. -/
def returnedIn (log : List (Request × Answer)) : List Bytes :=
  log.flatMap fun e => e.2.returned

/-- The control packets that were handled in a run. -/
def controlIn (log : List (Request × Answer)) : List Bytes :=
  log.flatMap fun e => e.2.handled.toList.filter fun packet => !(opcodeOf packet).any isData

/-! ## What a turn leaves alone -/

theorem steady_setupTail (started : Instant) : Within Steady (setupTail o started) := by
  refine bind steady (steady_reading _) fun clock => ?_
  refine bind steady (steady_resendStale _) fun _ => ?_
  refine bind steady (steady_requestPush o) fun _ => ?_
  refine bind steady (steady_flush o) fun _ => ?_
  exact bind steady (steady_checkSilence o) fun _ => within_pure steady _

theorem steady_setupTurn (started : Instant) : Within Steady (setupTurn o started) := by
  refine bind steady (steady_reading _) fun clock => ?_
  refine bind steady (within_get steady) fun s => ?_
  split
  · exact within_throw steady _
  split
  · exact within_pure steady _
  refine bind steady (steady_calling _) fun arrived => ?_
  split
  · exact steady_setupTail o started
  · refine bind steady (steady_reading _) fun clock => ?_
    refine bind steady (steady_update fun _ => ⟨⟨rfl, id⟩, rfl⟩) fun _ => ?_
    exact within_pure steady _

theorem steady_waitTurn (deadline : Instant) (packets : List Bytes) :
    Within Steady (waitTurn o deadline packets) := by
  refine bind steady (steady_keepalive o) fun _ => ?_
  refine bind steady (steady_reading _) fun clock => ?_
  refine bind steady (steady_resendStale _) fun _ => ?_
  refine bind steady (steady_flush o) fun _ => ?_
  refine bind steady (steady_reading _) fun clock => ?_
  split
  · exact within_pure steady _
  refine bind steady (steady_calling _) fun arrived => ?_
  split
  · split <;> exact within_pure steady _
  · refine bind steady (steady_reading _) fun clock => ?_
    refine bind steady (steady_update fun _ => ⟨⟨rfl, id⟩, rfl⟩) fun _ => ?_
    exact within_pure steady _

theorem steady_drainTurn (packets : List Bytes) : Within Steady (drainTurn o packets) := by
  refine bind steady (steady_calling _) fun arrived => ?_
  split <;> exact within_pure steady _

theorem calm_absorb (packet : Bytes) : Within Calm (absorb o packet) := by
  unfold absorb
  split
  · exact within_throw calm _
  next opcode hopcode =>
    split
    · exact Steady.within (steady_openData o packet)
    next hdata =>
      have hstep : Session.step o packet = stepControl o packet := by
        unfold Session.step
        rw [hopcode]
        exact if_neg hdata
      rw [hstep]
      refine bind calm (calm_stepControl o packet) fun _ => ?_
      exact bind calm (Steady.within (steady_flush o)) fun _ => within_pure calm _

end GamePath.Engine.OpenVpn.Session
