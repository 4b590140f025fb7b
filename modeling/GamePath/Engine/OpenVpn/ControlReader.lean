import GamePath.Lib.Run
import GamePath.Engine.OpenVpn.Control

/-!
# The in-order reader of the control channel

What decides the payloads a control channel delivers: its wrapping, its key id, the packet id it
waits for and the payloads it holds back (`Reader`). Sending and acknowledging leave all of it
alone, and a packet changes it in one of two ways: a reset steps past its own number, a payload is
put in and whatever is in order comes out (`step_reset`, `step_data`).
-/

namespace GamePath.Engine.OpenVpn

open Lib

/-- The part of a control channel that reads. -/
structure Reader where
  wrapping : Wrapping
  keyId : UInt8
  expected : UInt32
  reordered : KeyedMap UInt32 Bytes

namespace Reader

/-- A reset arrives. -/
def stepPast (r : Reader) (packetId : UInt32) : Reader :=
  if packetId = r.expected then { r with expected := nextId r.expected } else r

/-- What a payload brings out. -/
def drained (r : Reader) (packetId : UInt32) (payload : Bytes) :
    KeyedMap UInt32 Bytes × UInt32 × List Bytes :=
  Reorder.drain nextId (r.reordered.insert packetId payload) r.expected

/-- A payload arrives. -/
def release (r : Reader) (packetId : UInt32) (payload : Bytes) : Reader :=
  { r with
    expected := (r.drained packetId payload).2.1
    reordered := (r.drained packetId payload).1 }

end Reader

namespace ControlChannel

/-- The reading part. -/
def reader (c : ControlChannel) : Reader := ⟨c.wrapping, c.keyId, c.expectedPacketId, c.reordered⟩

/-! ## Sending leaves the reader alone -/

variable {crypto : Crypto}

section

variable (c : ControlChannel)
include c

@[simp] theorem reader_takeAcks (withAcks : Bool) :
    (c.takeAcks withAcks).1.reader = c.reader := by
  unfold takeAcks
  split <;> rfl

@[simp] theorem reader_takePacketId (opcode : UInt8) :
    (c.takePacketId opcode).1.reader = c.reader := by
  unfold takePacketId
  split <;> rfl

@[simp] theorem reader_sealBody (epoch : UInt32) (first : UInt8) (body : Bytes) :
    (c.sealBody crypto epoch first body).1.reader = c.reader := by
  unfold sealBody
  split <;> rfl

@[simp] theorem reader_wrap (epoch : UInt32) (opcode : UInt8) (payload : Bytes) (withAcks : Bool) :
    (c.wrap crypto epoch opcode payload withAcks).1.reader = c.reader := by
  show (((c.takeAcks withAcks).1.takePacketId opcode).1.sealBody crypto epoch _ _).1.reader = _
  rw [reader_sealBody, reader_takePacketId, reader_takeAcks]

@[simp] theorem reader_send (clock : Clock) (opcode : UInt8) (payload : Bytes) :
    (c.send crypto clock opcode payload).reader = c.reader :=
  reader_wrap c clock.epoch opcode payload true

@[simp] theorem reader_sendTls (clock : Clock) (bytes : Bytes) :
    (c.sendTls crypto clock bytes).reader = c.reader := by
  unfold sendTls
  induction List.range (Tiles.tileCount bytes.length maxControlPayload) generalizing c with
  | nil => rfl
  | cons i is ih => rw [List.foldl_cons, ih, reader_send]

@[simp] theorem reader_flushAcks (epoch : UInt32) :
    (c.flushAcks crypto epoch).reader = c.reader := by
  unfold flushAcks
  split
  · rfl
  · exact reader_wrap c epoch pAckV1 [] true

end

variable {c : ControlChannel}

theorem reader_renegotiate {keyId : UInt8} (h : keyId ≠ c.keyId) (clock : Clock) :
    (c.renegotiate crypto clock keyId).reader = ⟨c.wrapping, keyId, 0, KeyedMap.empty⟩ := by
  unfold renegotiate
  rw [if_neg h]
  exact reader_send (c.rekey keyId) clock pControlSoftResetV1 []

/-! ## What `receive` does with a packet

One equation for each kind of packet, and the four together (`accept_cases`): nothing below opens
`accept` again. -/

/-- The channel after it has heard a packet and put its number among those to acknowledge. -/
def noted (c : ControlChannel) (p : Packet) (packetId : UInt32) : ControlChannel :=
  { c.hear p with pendingAcks := (c.hear p).pendingAcks ++ [packetId] }

section Accept

variable {c : ControlChannel} {p : Packet} {packetId : UInt32} (epoch : UInt32)

theorem accept_hardReset (hid : p.packetId = some packetId)
    (hopcode : p.opcode = pControlHardResetServerV2) :
    c.accept crypto epoch p =
      (((c.noted p packetId).stepPast packetId).flushAcks crypto epoch, .serverReset) := by
  rw [accept, hid]
  exact if_pos hopcode

theorem accept_softReset (hid : p.packetId = some packetId)
    (hopcode : p.opcode = pControlSoftResetV1) :
    c.accept crypto epoch p =
      (((c.noted p packetId).stepPast packetId).flushAcks crypto epoch, .softReset p.keyId) := by
  have hhard : p.opcode ≠ pControlHardResetServerV2 := by
    rw [hopcode]
    decide
  rw [accept, hid]
  exact (if_neg hhard).trans (if_pos hopcode)

theorem accept_payload (hid : p.packetId = some packetId)
    (hhard : p.opcode ≠ pControlHardResetServerV2) (hsoft : p.opcode ≠ pControlSoftResetV1) :
    c.accept crypto epoch p = (c.noted p packetId).release crypto epoch packetId p.payload := by
  rw [accept, hid]
  exact (if_neg hhard).trans (if_neg hsoft)

theorem accept_cases (crypto : Crypto) (c : ControlChannel) (p : Packet) :
    c.accept crypto epoch p = (c.hear p, .nothing) ∨
      ∃ packetId,
        (p.opcode = pControlHardResetServerV2 ∧ c.accept crypto epoch p =
          (((c.noted p packetId).stepPast packetId).flushAcks crypto epoch, .serverReset)) ∨
        (p.opcode = pControlSoftResetV1 ∧ c.accept crypto epoch p =
          (((c.noted p packetId).stepPast packetId).flushAcks crypto epoch, .softReset p.keyId)) ∨
        c.accept crypto epoch p = (c.noted p packetId).release crypto epoch packetId p.payload := by
  cases hid : p.packetId with
  | none =>
    left
    rw [accept, hid]
  | some packetId =>
    refine .inr ⟨packetId, ?_⟩
    by_cases hhard : p.opcode = pControlHardResetServerV2
    · exact .inl ⟨hhard, accept_hardReset epoch hid hhard⟩
    · by_cases hsoft : p.opcode = pControlSoftResetV1
      · exact .inr (.inl ⟨hsoft, accept_softReset epoch hid hsoft⟩)
      · exact .inr (.inr (accept_payload epoch hid hhard hsoft))

end Accept

theorem release_ne_softReset (c : ControlChannel) (epoch : UInt32) (packetId : UInt32)
    (payload : Bytes) (keyId : UInt8) :
    (c.release crypto epoch packetId payload).2 ≠ .softReset keyId := by
  unfold release
  dsimp only
  split <;> exact Received.noConfusion

/-! ## What a packet does to the reader -/

/-- The payload of a result. -/
def payloadOf : Except String Received → Bytes
  | .ok (.payload bytes) => bytes
  | _ => []

@[simp] theorem reader_noted (c : ControlChannel) (p : Packet) (packetId : UInt32) :
    (c.noted p packetId).reader = c.reader := rfl

@[simp] theorem reader_stepPast (c : ControlChannel) (packetId : UInt32) :
    (c.stepPast packetId).reader = c.reader.stepPast packetId := by
  show reader (if packetId = c.expectedPacketId then _ else _) =
    if packetId = c.expectedPacketId then _ else _
  split <;> rfl

theorem reader_release (c : ControlChannel) (epoch : UInt32) (packetId : UInt32) (payload : Bytes) :
    (c.release crypto epoch packetId payload).1.reader = c.reader.release packetId payload ∧
      payloadOf (.ok (c.release crypto epoch packetId payload).2) =
        (c.reader.drained packetId payload).2.2.flatten := by
  unfold release
  dsimp only
  -- The acknowledgement in between does not touch the buffer.
  generalize hflushed : flushAcks crypto _ epoch = flushed
  have hreader : flushed.reader =
      { c.reader with reordered := c.reordered.insert packetId payload } := by
    rw [← hflushed, reader_flushAcks]
    rfl
  have hwrapping : flushed.wrapping = c.wrapping := congrArg Reader.wrapping hreader
  have hkeyId : flushed.keyId = c.keyId := congrArg Reader.keyId hreader
  have hexpected : flushed.expectedPacketId = c.expectedPacketId := congrArg Reader.expected hreader
  have hreordered : flushed.reordered = c.reordered.insert packetId payload :=
    congrArg Reader.reordered hreader
  rw [hexpected, hreordered]
  refine ⟨?_, ?_⟩
  · rw [hwrapping, hkeyId]
    rfl
  · split
    · rename_i hempty
      exact hempty.symm
    · rfl

variable {packet : Bytes} {p : Packet}

theorem receive_of_read {epoch : UInt32}
    (hread : read crypto c.wrapping c.keyId packet = .ok (some p)) :
    c.receive crypto epoch packet =
      ((c.accept crypto epoch p).1, .ok (c.accept crypto epoch p).2) := by
  rw [receive, hread]

theorem step_of_read {clock : Clock} (hread : read crypto c.wrapping c.keyId packet = .ok (some p))
    (hsoft : p.opcode ≠ pControlSoftResetV1) :
    c.step crypto clock packet =
      ((c.accept crypto clock.epoch p).1, .ok (c.accept crypto clock.epoch p).2) := by
  -- Only a soft reset is answered with one, so the session does not renegotiate.
  have hkind : ∀ keyId, (c.accept crypto clock.epoch p).2 ≠ .softReset keyId := by
    intro keyId
    rcases accept_cases clock.epoch crypto c p with
      heq | ⟨packetId, ⟨-, heq⟩ | ⟨hopcode, -⟩ | heq⟩
    · rw [heq]
      exact Received.noConfusion
    · rw [heq]
      exact Received.noConfusion
    · exact absurd hopcode hsoft
    · rw [heq]
      exact release_ne_softReset _ _ _ _ keyId
  unfold step
  rw [receive_of_read hread]
  cases hresult : (c.accept crypto clock.epoch p).2 with
  | softReset keyId => exact absurd hresult (hkind keyId)
  | nothing | serverReset | payload => rfl

/-- The server's reset steps past its own number and delivers nothing. -/
theorem step_reset (clock : Clock)
    {packetId : UInt32} (hread : read crypto c.wrapping c.keyId packet = .ok (some p))
    (hopcode : p.opcode = pControlHardResetServerV2) (hid : p.packetId = some packetId) :
    (c.step crypto clock packet).1.reader = c.reader.stepPast packetId ∧
      payloadOf (c.step crypto clock packet).2 = [] := by
  rw [step_of_read hread (by rw [hopcode]; decide), accept_hardReset clock.epoch hid hopcode]
  refine ⟨?_, rfl⟩
  rw [reader_flushAcks, reader_stepPast, reader_noted]

/-- A payload goes in and what is in order comes out. -/
theorem step_data (clock : Clock)
    {packetId : UInt32} (hread : read crypto c.wrapping c.keyId packet = .ok (some p))
    (hopcode : p.opcode = pControlV1) (hid : p.packetId = some packetId) :
    (c.step crypto clock packet).1.reader = c.reader.release packetId p.payload ∧
      payloadOf (c.step crypto clock packet).2 =
        (c.reader.drained packetId p.payload).2.2.flatten := by
  have hhard : p.opcode ≠ pControlHardResetServerV2 := by rw [hopcode]; decide
  have hsoft : p.opcode ≠ pControlSoftResetV1 := by rw [hopcode]; decide
  rw [step_of_read hread hsoft, accept_payload clock.epoch hid hhard hsoft]
  exact reader_release (c.noted p packetId) clock.epoch packetId p.payload

theorem call_quiet (crypto : Crypto) (c : ControlChannel) {call : Clock × Call}
    (h : ∀ packet, call.2 ≠ .step packet) :
    (c.call crypto call).1.reader = c.reader ∧ payloadOf (c.call crypto call).2 = [] := by
  obtain ⟨clock, call⟩ := call
  cases call with
  | start => exact ⟨reader_send c clock _ _, rfl⟩
  | sendTls bytes => exact ⟨reader_sendTls c clock bytes, rfl⟩
  | takeOutgoing | resendStale => exact ⟨rfl, rfl⟩
  | step packet => exact absurd rfl (h packet)

end ControlChannel

/-! ## Runs -/

/-- The payloads a run delivers, one after the other. -/
def delivered (log : List ((Clock × Call) × Except String Received)) : Bytes :=
  (log.map Prod.snd).flatMap ControlChannel.payloadOf

/-- The run of a session's calls. -/
def run (crypto : Crypto) (c : ControlChannel) (calls : List (Clock × Call)) :
    Run.Config ControlChannel (Clock × Call) (Except String Received) :=
  Run.exec (ControlChannel.call crypto) c calls

theorem delivered_append (log : List ((Clock × Call) × Except String Received))
    (e : (Clock × Call) × Except String Received) :
    delivered (log ++ [e]) = delivered log ++ ControlChannel.payloadOf e.2 := by
  simp [delivered]

end GamePath.Engine.OpenVpn
