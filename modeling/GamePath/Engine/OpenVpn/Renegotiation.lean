import GamePath.Engine.OpenVpn.ControlDelivery

/-!
# What the control channel delivers after a renegotiation

A server that wants new keys sends a soft reset, number 0 of a generation under a new key id. The
channel acknowledges it on arrival, still under its old key id, and only then does the session start
the new generation, which waits for number 0 again. That number has been used up and acknowledged,
so the chunks that follow are held back for good (`renegotiation_stalls`).
-/

namespace GamePath.Engine.OpenVpn

open Lib List

namespace ControlChannel

variable {crypto : Crypto}

/-! ## No acknowledgement waits between calls -/

@[simp] theorem pendingAcks_takePacketId (c : ControlChannel) (opcode : UInt8) :
    (c.takePacketId opcode).1.pendingAcks = c.pendingAcks := by
  unfold takePacketId
  split <;> rfl

@[simp] theorem pendingAcks_sealBody (c : ControlChannel) (epoch : UInt32) (first : UInt8)
    (body : Bytes) : (c.sealBody crypto epoch first body).1.pendingAcks = c.pendingAcks := by
  unfold sealBody
  split <;> rfl

variable {c : ControlChannel}

theorem pendingAcks_wrap (epoch : UInt32) (opcode : UInt8) (payload : Bytes)
    (h : c.pendingAcks = [] ∨ c.remoteSessionId.isSome = true ∧ c.pendingAcks.length ≤ maxAcks) :
    (c.wrap crypto epoch opcode payload true).1.pendingAcks = [] := by
  show (((c.takeAcks true).1.takePacketId opcode).1.sealBody crypto epoch _ _).1.pendingAcks = []
  rw [pendingAcks_sealBody, pendingAcks_takePacketId, takeAcks, Bool.true_and]
  rcases h with hnone | ⟨hremote, hfew⟩
  · split
    · rw [hnone]
      rfl
    · exact hnone
  · rw [if_pos hremote]
    exact drop_eq_nil_of_le hfew

theorem pendingAcks_send (h : c.pendingAcks = []) (clock : Clock) (opcode : UInt8)
    (payload : Bytes) :
    (c.send crypto clock opcode payload).pendingAcks = [] :=
  pendingAcks_wrap clock.epoch opcode payload (.inl h)

theorem pendingAcks_flushAcks (hremote : c.remoteSessionId.isSome = true)
    (hfew : c.pendingAcks.length ≤ maxAcks) (epoch : UInt32) :
    (c.flushAcks crypto epoch).pendingAcks = [] := by
  unfold flushAcks
  by_cases hempty : c.pendingAcks = []
  · rw [hempty]
    exact hempty
  · rw [if_neg]
    · exact pendingAcks_wrap epoch pAckV1 [] (.inr ⟨hremote, hfew⟩)
    · cases hid : c.remoteSessionId with
      | none => rw [hid] at hremote; exact absurd hremote Bool.false_ne_true
      | some id => simp [hempty]

/-- What holds of a channel between calls: nothing waits to be acknowledged, and the key id fits the
three bits a packet has for it. -/
structure Settled (c : ControlChannel) : Prop where
  acks : c.pendingAcks = []
  key : c.keyId &&& 0x07 = c.keyId

theorem settled_new (wrapping : Wrapping) (sessionId : SessionId) :
    (new wrapping sessionId).Settled := by
  refine ⟨rfl, ?_⟩
  show (0 : UInt8) &&& 0x07 = 0
  decide

theorem Settled.send (h : c.Settled) (clock : Clock) (opcode : UInt8) (payload : Bytes) :
    (c.send crypto clock opcode payload).Settled := by
  refine ⟨pendingAcks_send h.acks clock opcode payload, ?_⟩
  have hkey : (c.send crypto clock opcode payload).keyId = c.keyId :=
    congrArg Reader.keyId (reader_send c clock opcode payload)
  rw [hkey]
  exact h.key

theorem Settled.sendTls (h : c.Settled) (clock : Clock) (bytes : Bytes) :
    (c.sendTls crypto clock bytes).Settled := by
  unfold ControlChannel.sendTls
  induction List.range (Tiles.tileCount bytes.length maxControlPayload) generalizing c with
  | nil => exact h
  | cons i is ih => exact ih (h.send clock pControlV1 _)

theorem stepPast_eq (c : ControlChannel) (packetId : UInt32) :
    c.stepPast packetId =
      { c with expectedPacketId := (c.reader.stepPast packetId).expected } := by
  show (if packetId = c.expectedPacketId then _ else _) =
    ({ c with expectedPacketId := (if packetId = c.expectedPacketId then _ else _ :
      Reader).expected }
      : ControlChannel)
  split <;> rfl

theorem pendingAcks_accept (h : c.pendingAcks = []) (epoch : UInt32) (p : Packet) :
    (c.accept crypto epoch p).1.pendingAcks = [] := by
  -- One acknowledgement waits, and a packet takes up to eight along.
  have hfew : ∀ packetId, (c.noted p packetId).pendingAcks.length ≤ maxAcks := by
    intro packetId
    show (c.pendingAcks ++ [packetId]).length ≤ maxAcks
    rw [h]
    show 1 ≤ 8
    omega
  have hpast : ∀ packetId,
      (((c.noted p packetId).stepPast packetId).flushAcks crypto epoch).pendingAcks = [] := by
    intro packetId
    rw [stepPast_eq]
    refine pendingAcks_flushAcks ?_ ?_ epoch
    · rfl
    · exact hfew packetId
  rcases accept_cases epoch crypto c p with heq | ⟨packetId, ⟨-, heq⟩ | ⟨-, heq⟩ | heq⟩
  · rw [heq]
    exact h
  · rw [heq]
    exact hpast packetId
  · rw [heq]
    exact hpast packetId
  · rw [heq]
    refine pendingAcks_flushAcks ?_ ?_ epoch
    · rfl
    · exact hfew packetId

theorem read_keyId {wrapping : Wrapping} {keyId : UInt8} {packet : Bytes} {p : Packet}
    (h : read crypto wrapping keyId packet = .ok (some p)) : p.keyId &&& 0x07 = p.keyId := by
  have hthree : ∀ first : UInt8, first &&& 0x07 &&& 0x07 = first &&& 0x07 := by
    intro first
    rw [UInt8.and_assoc]
    rfl
  unfold read at h
  cases packet with
  | nil => cases h
  | cons first rest =>
    dsimp only at h
    split at h
    · cases h
    split at h
    · cases h
    split at h
    · cases h
    · split at h
      · cases h
      · rw [← Option.some.inj (Except.ok.inj h)]
        exact hthree first

theorem accept_keyId (crypto : Crypto) (c : ControlChannel) (epoch : UInt32) (p : Packet) :
    (c.accept crypto epoch p).1.keyId = c.keyId ∧
      ∀ keyId, (c.accept crypto epoch p).2 = .softReset keyId → keyId = p.keyId := by
  have hpast : ∀ packetId,
      (((c.noted p packetId).stepPast packetId).flushAcks crypto epoch).keyId = c.keyId := by
    intro packetId
    rw [stepPast_eq]
    exact congrArg Reader.keyId (reader_flushAcks _ epoch)
  rcases accept_cases epoch crypto c p with heq | ⟨packetId, ⟨-, heq⟩ | ⟨-, heq⟩ | heq⟩
  · rw [heq]
    exact ⟨rfl, fun keyId h => Received.noConfusion h⟩
  · rw [heq]
    exact ⟨hpast packetId, fun keyId h => Received.noConfusion h⟩
  · rw [heq]
    exact ⟨hpast packetId, fun keyId h => (Received.softReset.inj h).symm⟩
  · rw [heq]
    refine ⟨?_, fun keyId h => absurd h (release_ne_softReset _ _ _ _ keyId)⟩
    exact congrArg Reader.keyId (reader_release (c.noted p packetId) epoch packetId p.payload).1

theorem Settled.renegotiate (h : c.Settled) (clock : Clock) {keyId : UInt8}
    (hkey : keyId &&& 0x07 = keyId) : (c.renegotiate crypto clock keyId).Settled := by
  unfold ControlChannel.renegotiate
  split
  · exact h
  · have hrekeyed : (c.rekey keyId).Settled := ⟨rfl, hkey⟩
    exact hrekeyed.send clock pControlSoftResetV1 []

theorem Settled.step (h : c.Settled) (clock : Clock) (packet : Bytes) :
    (c.step crypto clock packet).1.Settled := by
  unfold ControlChannel.step receive
  cases hread : read crypto c.wrapping c.keyId packet with
  | error e => exact h
  | ok read =>
    cases read with
    | none => exact h
    | some p =>
      obtain ⟨hkey, hsoft⟩ := accept_keyId crypto c clock.epoch p
      have haccepted : (c.accept crypto clock.epoch p).1.Settled := by
        refine ⟨pendingAcks_accept h.acks clock.epoch p, ?_⟩
        rw [hkey]
        exact h.key
      dsimp only
      cases hresult : (c.accept crypto clock.epoch p).2 with
      | nothing | serverReset | payload => exact haccepted
      | softReset keyId =>
        rw [hsoft keyId hresult]
        exact haccepted.renegotiate clock (read_keyId hread)

theorem Settled.call (h : c.Settled) (call : Clock × Call) :
    (c.call crypto call).1.Settled := by
  obtain ⟨clock, call⟩ := call
  cases call with
  | start => exact h.send clock pControlHardResetClientV2 []
  | sendTls bytes => exact h.sendTls clock bytes
  | takeOutgoing | resendStale => exact ⟨h.acks, h.key⟩
  | step packet => exact h.step clock packet

end ControlChannel

/-- A channel a session can have: what some run from a new channel leaves. -/
def Reachable (crypto : Crypto) (c : ControlChannel) : Prop :=
  ∃ wrapping sessionId calls, (run crypto (.new wrapping sessionId) calls).state = c

theorem Reachable.settled {crypto : Crypto} {c : ControlChannel} (h : Reachable crypto c) :
    c.Settled := by
  obtain ⟨wrapping, sessionId, calls, rfl⟩ := h
  exact Run.exec_invariant (I := fun cfg => ControlChannel.Settled cfg.state)
    (ControlChannel.settled_new wrapping sessionId) (fun cfg call hcfg => hcfg.call call) calls

/-! ## The soft reset -/

/-- What `receive` queues for a packet: its acknowledgement. -/
def queued (crypto : Crypto) (c : ControlChannel) (epoch : UInt32) (packet : Bytes) : List Bytes :=
  (c.receive crypto epoch packet).1.outgoing.drop c.outgoing.length

/-- The key id a packet is sent under. -/
def keyIdOf (packet : Bytes) : UInt8 := packet.headD 0 &&& 0x07

/-- A packet that arrives in this call is acknowledged under the key id. -/
def AcksUnder (crypto : Crypto) (keyId : UInt8)
    (cfg : Run.Config ControlChannel (Clock × Call) (Except String Received))
    (call : Clock × Call) : Prop :=
  ∀ packet, call.2 = .step packet →
    ∀ ack ∈ queued crypto cfg.state call.1.epoch packet, keyIdOf ack = keyId

/-- The stream of a generation under `keyId` goes on: the chunks are delivered, and all its packets
are acknowledged under that key id. -/
def StaysUsable (crypto : Crypto) (c : ControlChannel) (keyId : UInt8) (chunk : Nat → Bytes)
    (n : Nat) (calls : List (Clock × Call)) : Prop :=
  delivered (run crypto c calls).log = (List.range' 1 n).flatMap chunk ∧
    Run.Meets (ControlChannel.call crypto) (AcksUnder crypto keyId) ⟨c, []⟩ calls

namespace ControlChannel

variable {crypto : Crypto}

theorem head_wrap (c : ControlChannel) (epoch : UInt32) (opcode : UInt8) (payload : Bytes)
    (withAcks : Bool) :
    (c.wrap crypto epoch opcode payload withAcks).2.1.headD 0 = opcode <<< 3 ||| c.keyId := by
  have hkey : ((c.takeAcks withAcks).1.takePacketId opcode).1.keyId = c.keyId := by
    show ((c.takeAcks withAcks).1.takePacketId opcode).1.reader.keyId = c.reader.keyId
    rw [reader_takePacketId, reader_takeAcks]
  have hhead : ∀ (c : ControlChannel) (first : UInt8) (body : Bytes),
      (c.sealBody crypto epoch first body).2.headD 0 = first := by
    intro c first body
    unfold sealBody
    split <;> rfl
  rw [← hkey]
  exact hhead _ _ _

theorem outgoing_takeAcks (c : ControlChannel) (withAcks : Bool) :
    (c.takeAcks withAcks).1.outgoing = c.outgoing := by
  unfold takeAcks
  split <;> rfl

theorem outgoing_wrap (c : ControlChannel) (epoch : UInt32) (opcode : UInt8) (payload : Bytes)
    (withAcks : Bool) : (c.wrap crypto epoch opcode payload withAcks).1.outgoing = c.outgoing := by
  have hseal : ∀ (c : ControlChannel) (first : UInt8) (body : Bytes),
      (c.sealBody crypto epoch first body).1.outgoing = c.outgoing := by
    intro c first body
    unfold sealBody
    split <;> rfl
  have hid : ∀ c : ControlChannel, (c.takePacketId opcode).1.outgoing = c.outgoing := by
    intro c
    unfold takePacketId
    split <;> rfl
  show (((c.takeAcks withAcks).1.takePacketId opcode).1.sealBody crypto epoch _ _).1.outgoing = _
  rw [hseal, hid, outgoing_takeAcks]

variable {c : ControlChannel}

theorem outgoing_flushAcks (crypto : Crypto) (hacks : c.pendingAcks ≠ [])
    (hremote : c.remoteSessionId.isSome = true) (epoch : UInt32) :
    ∃ ack, (c.flushAcks crypto epoch).outgoing = c.outgoing ++ [ack] ∧
      ack.headD 0 = pAckV1 <<< 3 ||| c.keyId := by
  have hnone : c.remoteSessionId.isNone = false := by
    rw [Option.isNone_eq_false_iff]
    exact hremote
  unfold flushAcks
  rw [hnone, if_neg (by simp [hacks])]
  dsimp only
  rw [outgoing_wrap]
  exact ⟨_, rfl, head_wrap c epoch pAckV1 [] true⟩

theorem queued_softReset {epoch : UInt32} {packet : Bytes} {p : Packet} {packetId : UInt32}
    (hread : read crypto c.wrapping c.keyId packet = .ok (some p))
    (hopcode : p.opcode = pControlSoftResetV1) (hid : p.packetId = some packetId) :
    ∃ ack, queued crypto c epoch packet = [ack] ∧ ack.headD 0 = pAckV1 <<< 3 ||| c.keyId := by
  unfold queued
  rw [receive_of_read hread, accept_softReset epoch hid hopcode, stepPast_eq]
  -- The acknowledgement is sealed before the session renegotiates, under the old key id.
  obtain ⟨ack, hqueued, hhead⟩ := outgoing_flushAcks crypto
    (c := { c.noted p packetId with
      expectedPacketId := ((c.noted p packetId).reader.stepPast packetId).expected })
    (concat_ne_nil _ _) rfl epoch
  refine ⟨ack, ?_, hhead⟩
  rw [hqueued]
  exact drop_left' rfl

theorem step_softReset (clock : Clock) {packet : Bytes} {p : Packet} {packetId : UInt32}
    (hread : read crypto c.wrapping c.keyId packet = .ok (some p))
    (hopcode : p.opcode = pControlSoftResetV1) (hid : p.packetId = some packetId)
    (hnew : p.keyId ≠ c.keyId) :
    (c.step crypto clock packet).1.reader = ⟨c.wrapping, p.keyId, 0, KeyedMap.empty⟩ ∧
      payloadOf (c.step crypto clock packet).2 = [] := by
  unfold step
  rw [receive_of_read hread, accept_softReset clock.epoch hid hopcode, stepPast_eq]
  refine ⟨?_, rfl⟩
  generalize hflushed : flushAcks crypto _ clock.epoch = flushed
  have hreader := @reader_flushAcks crypto
    { c.noted p packetId with
      expectedPacketId := ((c.noted p packetId).reader.stepPast packetId).expected } clock.epoch
  rw [hflushed] at hreader
  have hwrapping : flushed.wrapping = c.wrapping := congrArg Reader.wrapping hreader
  have hkeyId : flushed.keyId = c.keyId := congrArg Reader.keyId hreader
  rw [← hwrapping]
  exact reader_renegotiate (by rw [hkeyId]; exact hnew) clock

end ControlChannel

/-! ## The generation after it -/

theorem Reader.drained_of_waiting {r : Reader} (hexpected : r.expected = 0)
    (hzero : r.reordered.get? 0 = none) {i : Nat} (hi : i ≠ 0) (hi' : i < 2 ^ 32)
    (payload : Bytes) :
    r.drained (UInt32.ofNat i) payload =
      (r.reordered.insert (UInt32.ofNat i) payload, 0, []) := by
  have hne : (0 : UInt32) ≠ UInt32.ofNat i := fun heq =>
    hi (ofNat_inj (by decide) hi' heq).symm
  rw [Reader.drained, hexpected]
  apply Reorder.drain_of_missing
  rw [KeyedMap.get?_insert, if_neg hne]
  exact hzero

/-- A run whose reader waits for number 0 of a generation and has delivered nothing. -/
structure Stalled (wrapping : Wrapping) (keyId : UInt8)
    (cfg : Run.Config ControlChannel (Clock × Call) (Except String Received)) : Prop where
  wrapping_eq : cfg.state.reader.wrapping = wrapping
  keyId_eq : cfg.state.reader.keyId = keyId
  expected : cfg.state.reader.expected = 0
  zero : cfg.state.reader.reordered.get? 0 = none
  nothing : delivered cfg.log = []

section Stall

variable {crypto : Crypto} {wrapping : Wrapping} {keyId : UInt8} {chunk : Nat → Bytes} {n : Nat}

/-- A call after the soft reset: a chunk arrives, or the session does something else. -/
def Follows (crypto : Crypto) (wrapping : Wrapping) (keyId : UInt8) (chunk : Nat → Bytes) (n : Nat)
    (call : Clock × Call) : Prop :=
  (∀ packet, call.2 ≠ .step packet) ∨
    ∃ i, i ≠ 0 ∧ i ≤ n ∧ Brings crypto wrapping keyId chunk i call

theorem Stalled.advance (hn : n < 2 ^ 32)
    {cfg : Run.Config ControlChannel (Clock × Call) (Except String Received)}
    {call : Clock × Call} (hcall : Follows crypto wrapping keyId chunk n call)
    (h : Stalled wrapping keyId cfg) :
    Stalled wrapping keyId (Run.advance (ControlChannel.call crypto) cfg call) := by
  rcases hcall with hquiet | ⟨i, hi, hin, hcall⟩
  · -- A call that reads nothing.
    obtain ⟨hreader, hpayload⟩ := ControlChannel.call_quiet crypto cfg.state hquiet
    refine ⟨?_, ?_, ?_, ?_, ?_⟩
    · rw [Run.advance_state, hreader]
      exact h.wrapping_eq
    · rw [Run.advance_state, hreader]
      exact h.keyId_eq
    · rw [Run.advance_state, hreader]
      exact h.expected
    · rw [Run.advance_state, hreader]
      exact h.zero
    · rw [Run.advance_log, delivered_append, h.nothing, hpayload]
      rfl
  · -- A chunk: number 0 is awaited and is not this one, so it is put aside.
    obtain ⟨clock, call⟩ := call
    obtain ⟨packet, rfl, p, hread, hid, hp⟩ := hcall
    rw [if_neg hi] at hp
    rw [← show cfg.state.wrapping = wrapping from h.wrapping_eq,
      ← show cfg.state.keyId = keyId from h.keyId_eq] at hread
    obtain ⟨hreader, hpayload⟩ := ControlChannel.step_data clock hread hp.1 hid
    have hdrained := Reader.drained_of_waiting h.expected h.zero hi (Nat.lt_of_le_of_lt hin hn)
      p.payload
    have hstate : (Run.advance (ControlChannel.call crypto) cfg (clock,
        .step packet)).state.reader =
        cfg.state.reader.release (UInt32.ofNat i) p.payload := hreader
    have hne : (0 : UInt32) ≠ UInt32.ofNat i := fun heq =>
      hi (ofNat_inj (by decide) (Nat.lt_of_le_of_lt hin hn) heq).symm
    refine ⟨?_, ?_, ?_, ?_, ?_⟩
    · rw [hstate]
      exact h.wrapping_eq
    · rw [hstate]
      exact h.keyId_eq
    · rw [hstate, Reader.release, hdrained]
    · rw [hstate, Reader.release, hdrained]
      rw [KeyedMap.get?_insert, if_neg hne]
      exact h.zero
    · rw [hdrained] at hpayload
      rw [Run.advance_log, delivered_append, h.nothing]
      exact hpayload

/-- Nothing of the new generation is ever delivered. -/
theorem delivered_after_softReset {c : ControlChannel} {clock : Clock} {packet : Bytes} {p : Packet}
    (hread : ControlChannel.read crypto c.wrapping c.keyId packet = .ok (some p))
    (hopcode : p.opcode = pControlSoftResetV1) (hid : p.packetId = some 0)
    (hnew : p.keyId ≠ c.keyId) (hn : n < 2 ^ 32) {calls : List (Clock × Call)}
    (hcalls : ∀ call ∈ calls, Follows crypto c.wrapping p.keyId chunk n call) :
    delivered (run crypto c ((clock, .step packet) :: calls)).log = [] := by
  obtain ⟨hreader, hpayload⟩ := ControlChannel.step_softReset clock hread hopcode hid hnew
  have hstart : Stalled c.wrapping p.keyId
      (Run.advance (ControlChannel.call crypto) ⟨c, []⟩ (clock, .step packet)) := by
    have hstate : (Run.advance (ControlChannel.call crypto) ⟨c, []⟩
        (clock, .step packet)).state.reader = ⟨c.wrapping, p.keyId, 0, KeyedMap.empty⟩ := hreader
    refine ⟨?_, ?_, ?_, ?_, ?_⟩
    · rw [hstate]
    · rw [hstate]
    · rw [hstate]
    · rw [hstate]
      rfl
    · rw [Run.advance_log, delivered_append]
      exact hpayload
  have hmeets : Run.Meets (ControlChannel.call crypto) (fun _ call => call ∈ calls)
      (Run.advance (ControlChannel.call crypto) ⟨c, []⟩ (clock, .step packet)) calls :=
    Run.meets_of_forall (fun call hmem _ => hmem) _
  have hend := Run.execFrom_invariant_of_meets (I := Stalled c.wrapping p.keyId)
    (fun cfg call hcall hcfg => hcfg.advance hn (hcalls call hcall)) calls _ hmeets hstart
  exact hend.nothing

theorem ackHead_keyId {keyId : UInt8} (h : keyId &&& 0x07 = keyId) :
    (pAckV1 <<< 3 ||| keyId) &&& 0x07 = keyId := by
  have hsplit : ∀ a : UInt8, (a ||| keyId) &&& 0x07 = (a &&& 0x07) ||| (keyId &&& 0x07) := fun _ =>
    UInt8.toBitVec_inj.1 BitVec.and_or_distrib_right
  rw [hsplit, h, show pAckV1 <<< 3 &&& (0x07 : UInt8) = 0 by decide, UInt8.zero_or]

/-- The soft reset of a new generation is not acknowledged under its key id. -/
theorem not_acksUnder_softReset {c : ControlChannel} (hsettled : c.Settled) (clock : Clock)
    {packet : Bytes} {p : Packet}
    (hread : ControlChannel.read crypto c.wrapping c.keyId packet = .ok (some p))
    (hopcode : p.opcode = pControlSoftResetV1) (hid : p.packetId = some 0)
    (hnew : p.keyId ≠ c.keyId) (calls : List (Clock × Call)) :
    ¬ Run.Meets (ControlChannel.call crypto) (AcksUnder crypto p.keyId) ⟨c, []⟩
      ((clock, .step packet) :: calls) := by
  rintro ⟨hacks, -⟩
  obtain ⟨ack, hqueued, hhead⟩ := ControlChannel.queued_softReset hread hopcode hid
  have hold : keyIdOf ack = c.keyId := by
    rw [keyIdOf, hhead]
    exact ackHead_keyId hsettled.key
  have hack : ack ∈ queued crypto c clock.epoch packet := by
    rw [hqueued]
    exact mem_singleton.2 rfl
  exact hnew ((hacks packet rfl ack hack).symm.trans hold)

/-- Whatever channel a session has, the stream does not go on after the server's soft reset: no
chunk of the new generation is delivered, and the soft reset itself is acknowledged under the old
key id. -/
theorem renegotiation_stalls {c : ControlChannel} (hreach : Reachable crypto c) (clock : Clock)
    {packet : Bytes} {p : Packet}
    (hread : ControlChannel.read crypto c.wrapping c.keyId packet = .ok (some p))
    (hopcode : p.opcode = pControlSoftResetV1) (hid : p.packetId = some 0)
    (hnew : p.keyId ≠ c.keyId) (hn : n < 2 ^ 32) {calls : List (Clock × Call)}
    (hcalls : ∀ call ∈ calls, Follows crypto c.wrapping p.keyId chunk n call) :
    ¬ StaysUsable crypto c p.keyId chunk n ((clock, .step packet) :: calls) ∧
      delivered (run crypto c ((clock, .step packet) :: calls)).log = [] := by
  refine ⟨fun husable => ?_, delivered_after_softReset hread hopcode hid hnew hn hcalls⟩
  exact not_acksUnder_softReset hreach.settled clock hread hopcode hid hnew calls husable.2

end Stall

/-! ## One chunk -/

/-- A packet under key id 1. -/
def nextPacket (opcode id : UInt8) (payload : Bytes) : Bytes :=
  (opcode <<< 3 ||| 1) :: sampleSessionId.bytes ++ [0, 0, 0, 0, id] ++ payload

/-- The soft reset as an unwrapped channel reads it. -/
def softReset : Packet := ⟨pControlSoftResetV1, 1, sampleSessionId, [], some 0, []⟩

theorem read_softReset :
    ControlChannel.read noCrypto .none 0 (nextPacket pControlSoftResetV1 0 []) =
      .ok (some softReset) := rfl

theorem reachable_new : Reachable noCrypto (.new .none sampleSessionId) :=
  ⟨.none, sampleSessionId, [], rfl⟩

theorem sampleChunk_follows :
    ∀ call ∈ [((⟨0, 0⟩, .step (nextPacket pControlV1 1 [42])) : Clock × Call)],
      Follows noCrypto .none 1 (fun _ => [42]) 1 call := by
  intro call hcall
  rw [mem_singleton.1 hcall]
  exact .inr ⟨1, Nat.one_ne_zero, Nat.le_refl 1, _, rfl,
    ⟨pControlV1, 1, sampleSessionId, [], some 1, [42]⟩, rfl, rfl, rfl, rfl⟩

/-- A soft reset and one chunk of the new generation. -/
theorem renegotiation_stalls_on_one_chunk :
    ¬ StaysUsable noCrypto (.new .none sampleSessionId) 1 (fun _ => [42]) 1
      [(⟨0, 0⟩, .step (nextPacket pControlSoftResetV1 0 [])),
        (⟨0, 0⟩, .step (nextPacket pControlV1 1 [42]))] :=
  (renegotiation_stalls reachable_new ⟨0, 0⟩ read_softReset rfl rfl (by decide) (by decide)
    sampleChunk_follows).1

/-- The chunk that follows the soft reset is not delivered. -/
theorem chunk_after_soft_reset_is_lost :
    Reachable noCrypto (.new .none sampleSessionId) ∧
    delivered (run noCrypto (.new .none sampleSessionId)
      [(⟨0, 0⟩, .step (nextPacket pControlSoftResetV1 0 [])),
        (⟨0, 0⟩, .step (nextPacket pControlV1 1 [42]))]).log ≠ [42] ∧
    ¬ StaysUsable noCrypto (.new .none sampleSessionId) 1 (fun _ => [42]) 1
      [(⟨0, 0⟩, .step (nextPacket pControlSoftResetV1 0 [])),
        (⟨0, 0⟩, .step (nextPacket pControlV1 1 [42]))] := by
  have hlost : delivered (run noCrypto (.new .none sampleSessionId)
      [(⟨0, 0⟩, .step (nextPacket pControlSoftResetV1 0 [])),
        (⟨0, 0⟩, .step (nextPacket pControlV1 1 [42]))]).log ≠ [42] := by
    exact (List.cons_ne_nil 42 []).symm
  exact ⟨reachable_new, hlost, fun husable => hlost husable.1⟩

end GamePath.Engine.OpenVpn
