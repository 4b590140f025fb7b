import GamePath.Engine.OpenVpn.SessionDelivery

/-!
# Control packets that arrive again

What a session does with a control packet it has handled before. A repeat changes nothing only in
the cases of `Harmless` (`changesNothing_iff`): the announcement of an earlier generation goes back
to it, and a payload that has been delivered is put into the reorder buffer again and stays there,
behind the number the buffer waits for (`ahead_run`).
-/

namespace GamePath.Engine.OpenVpn.Session

open Lib Lib.Action KeyedMap Option Reorder ControlChannel
open ControlChannel (read payloadOf)
open ControlChannel (reader_flushAcks reader_noted reader_stepPast receive)
open UInt32 (le_iff_toNat_le le_refl toNat_add toNat_inj)

variable {W T : Type}

/-- The key id, the numbering, the buffer, the TLS state, the key material and the data channels. -/
structure Unmoved (s s' : Session W T) : Prop where
  keyId : s'.control.keyId = s.control.keyId
  expected : s'.control.expectedPacketId = s.control.expectedPacketId
  reordered : ∀ id, s'.control.reordered.get? id = s.control.reordered.get? id
  tls : s'.tls = s.tls
  material : s'.material = s.material
  channels : s'.channels = s.channels

theorem Unmoved.of_reader {s s' : Session W T} (hreader : s'.control.reader = s.control.reader)
    (htls : s'.tls = s.tls) (hmaterial : s'.material = s.material)
    (hchannels : s'.channels = s.channels) : Unmoved s s' where
  keyId := congrArg Reader.keyId hreader
  expected := congrArg Reader.expected hreader
  reordered := fun id => congrArg (fun r : Reader => r.reordered.get? id) hreader
  tls := htls
  material := hmaterial
  channels := hchannels

variable (o : Outside W T) (s : Session W T)

/-- What `receive` comes to for a packet, at the reading of the clock it takes. -/
def received (packet : Bytes) : ControlChannel × Except String Received :=
  s.control.receive o.crypto (o.now s.world).1.epoch packet

/-- Handling a packet leaves a session as it is and delivers nothing. -/
def ChangesNothing (packet : Bytes) : Prop :=
  ∃ result s', (step o packet).on s = some (result, s') ∧ Unmoved s s' ∧
    payloadOf (s.received o packet).2 = []

/-- A control packet that changes nothing: it cannot be read, is of another generation, or only
acknowledges; or it is a reset with a number that is not the expected one, the server's reset while
TLS runs and a soft reset of the generation that runs; or it is a payload that waits in the buffer
already, behind a gap. -/
def Harmless (packet : Bytes) : Prop :=
  match read o.crypto s.control.wrapping s.control.keyId packet with
  | .error _ | .ok none => True
  | .ok (some p) =>
    match p.packetId with
    | none => True
    | some packetId =>
      if p.opcode = pControlHardResetServerV2 then
        packetId ≠ s.control.expectedPacketId ∧
          (s.tls.isSome ∨ ∀ tls, (o.newTls (o.now s.world).2).1 ≠ .ok tls)
      else if p.opcode = pControlSoftResetV1 then
        p.keyId = s.control.keyId ∧ packetId ≠ s.control.expectedPacketId
      else
        s.control.reordered.get? packetId = some p.payload ∧
          s.control.reordered.get? s.control.expectedPacketId = none

/-! ## One control packet -/

/-- The session after `receive`. -/
def heard (packet : Bytes) : Session W T :=
  { s with world := (o.now s.world).2, control := (s.received o packet).1 }

theorem update_bind {α : Type} (f : Session W T → Session W T) (k : Unit → Action (Session W T) α)
    (s : Session W T) : (update f >>= k).on s = (k ()).on (f s) :=
  on_bind_ok rfl k

section Step

variable {s : Session W T} {packet : Bytes}

theorem readClock_on (s : Session W T) : (reading o.now : Action (Session W T) Clock).on s =
    some (.ok (o.now s.world).1, { s with world := (o.now s.world).2 }) := rfl

theorem stepControl_of_error {reason : String} (h : (s.received o packet).2 = .error reason) :
    (stepControl o packet).on s = some (.error reason, s.heard o packet) := by
  have hreceive : (receiveControl o (o.now s.world).1 packet).on
      { s with world := (o.now s.world).2 } = some (.error reason, s.heard o packet) := by
    rw [← h]
    rfl
  exact on_bind_error hreceive _

theorem stepControl_of_ok {result : Received} (h : (s.received o packet).2 = .ok result) :
    (stepControl o packet).on s = (followUp o result).on (s.heard o packet) := by
  have hreceive : (receiveControl o (o.now s.world).1 packet).on
      { s with world := (o.now s.world).2 } = some (.ok result, s.heard o packet) := by
    rw [← h]
    rfl
  exact on_bind_ok hreceive _

theorem step_eq_stepControl {opcode : UInt8} (hopcode : opcodeOf packet = some opcode)
    (hcontrol : isData opcode = false) : step o packet = stepControl o packet := by
  unfold step
  rw [hopcode]
  exact if_neg (by rw [hcontrol]; exact Bool.false_ne_true)

theorem beginTls_of_isSome (h : s.tls.isSome = true) : (beginTls o).on s = some (.ok (), s) := by
  show (if s.tls.isSome = true then (pure () : Action (Session W T) Unit) else _).on s = _
  rw [if_pos h]
  rfl

theorem beginTls_of_error (h : ¬ s.tls.isSome = true) {reason : String}
    (hnew : (o.newTls s.world).1 = .error reason) :
    ∃ reason', (beginTls o).on s =
      some (.error reason', { s with world := (o.newTls s.world).2 }) := by
  refine ⟨"could not start the OpenVPN TLS handshake: " ++ reason, ?_⟩
  show (if s.tls.isSome = true then (pure () : Action (Session W T) Unit) else _).on s = _
  rw [if_neg h]
  refine on_bind_error ?_ _
  show some (because _ (o.newTls s.world).1, _) = _
  rw [hnew]
  rfl

theorem beginTls_of_ok (h : ¬ s.tls.isSome = true) {tls : T}
    (hnew : (o.newTls s.world).1 = .ok tls) :
    (beginTls o).on s =
      some (.ok (), { s with world := (o.newTls s.world).2, tls := some tls, stage := .tls }) := by
  show (if s.tls.isSome = true then (pure () : Action (Session W T) Unit) else _).on s = _
  rw [if_neg h]
  have hcall : (calling fun w =>
      (because "could not start the OpenVPN TLS handshake: " (o.newTls w).1, (o.newTls w).2) :
        Action (Session W T) T).on s = some (.ok tls,
          { s with world := (o.newTls s.world).2 }) := by
    show some (because _ (o.newTls s.world).1, _) = _
    rw [hnew]
    rfl
  exact on_bind_ok hcall _

theorem renegotiate_of_eq {keyId : UInt8} (h : keyId = s.control.keyId) :
    (renegotiate o keyId).on s = some (.ok (), s) := by
  show (if keyId = s.control.keyId then (pure () : Action (Session W T) Unit) else _).on s = _
  rw [if_pos h]
  rfl

theorem renegotiate_of_ne {keyId : UInt8} (h : keyId ≠ s.control.keyId)
    {result : Except String Unit} {s' : Session W T}
    (hon : (renegotiate o keyId).on s = some (result, s')) :
    s'.control.reader = ⟨s.control.wrapping, keyId, 0, KeyedMap.empty⟩ := by
  change (if keyId = s.control.keyId then (pure () : Action (Session W T) Unit) else _).on s =
    some (result, s') at hon
  rw [if_neg h] at hon
  rw [on_bind_ok (readClock_on o s), update_bind] at hon
  have hrest : Within Steady (do
      let keySource ← reading o.randomKeySource
      update fun s => { s with keySource := keySource }
      beginTls o : Action (Session W T) Unit) := by
    refine Within.bind steady (steady_reading _) fun keySource => ?_
    exact Within.bind steady (steady_update fun _ => ⟨⟨rfl, id⟩, rfl⟩) fun _ => steady_beginTls o
  have hreader := (hrest _ result s' hon).reader
  exact hreader.trans (reader_send (s.control.rekey keyId) (o.now s.world).1 _ _)

/-! ## What a packet that is read comes to -/

theorem nextId_ne (id : UInt32) : nextId id ≠ id := by
  intro h
  have hnat := congrArg UInt32.toNat h
  unfold nextId at hnat
  rw [toNat_add] at hnat
  have hone : (1 : UInt32).toNat = 1 := rfl
  omega

variable {p : Packet} {packetId : UInt32}

section

variable (hread : read o.crypto s.control.wrapping s.control.keyId packet = .ok (some p))
include hread

theorem received_of_read :
    s.received o packet = ((s.control.accept o.crypto (o.now s.world).1.epoch p).1,
      .ok (s.control.accept o.crypto (o.now s.world).1.epoch p).2) :=
  receive_of_read hread

theorem received_of_ack (hid : p.packetId = none) :
    s.received o packet = (s.control.hear p, .ok .nothing) := by
  rw [received_of_read o hread, accept, hid]

theorem received_of_hardReset (hid : p.packetId = some packetId)
    (hopcode : p.opcode = pControlHardResetServerV2) :
    (s.received o packet).1.reader = s.control.reader.stepPast packetId ∧
      (s.received o packet).2 = .ok .serverReset := by
  rw [received_of_read o hread, accept_hardReset _ hid hopcode]
  refine ⟨?_, rfl⟩
  rw [reader_flushAcks, reader_stepPast, reader_noted]

theorem received_of_softReset (hid : p.packetId = some packetId)
    (hopcode : p.opcode = pControlSoftResetV1) :
    (s.received o packet).1.reader = s.control.reader.stepPast packetId ∧
      (s.received o packet).2 = .ok (.softReset p.keyId) := by
  rw [received_of_read o hread, accept_softReset _ hid hopcode]
  refine ⟨?_, rfl⟩
  rw [reader_flushAcks, reader_stepPast, reader_noted]

/-- A payload goes into the buffer, and what is in order comes out. -/
theorem received_of_payload (hid : p.packetId = some packetId)
    (hhard : p.opcode ≠ pControlHardResetServerV2) (hsoft : p.opcode ≠ pControlSoftResetV1) :
    (s.received o packet).1.reader = s.control.reader.release packetId p.payload ∧
      ((s.received o packet).2 = .ok .nothing ∨
        ∃ bytes, bytes ≠ [] ∧ (s.received o packet).2 = .ok (.payload bytes)) ∧
      payloadOf (s.received o packet).2 =
        (s.control.reader.drained packetId p.payload).2.2.flatten := by
  rw [received_of_read o hread, accept_payload _ hid hhard hsoft]
  obtain ⟨hreader, hpayload⟩ := @ControlChannel.reader_release o.crypto
    (s.control.noted p packetId) (o.now s.world).1.epoch packetId p.payload
  refine ⟨hreader, ?_, hpayload⟩
  unfold release
  dsimp only
  split
  · exact .inl rfl
  next hne => exact .inr ⟨_, hne, rfl⟩

end

theorem stepPast_expected_iff (r : Reader) (packetId : UInt32) :
    (r.stepPast packetId).expected = r.expected ↔ packetId ≠ r.expected := by
  unfold Reader.stepPast
  split
  next heq => exact iff_of_false (nextId_ne r.expected) fun hne => hne heq
  next hne => exact iff_of_true rfl hne

theorem stepPast_of_ne {r : Reader} (h : packetId ≠ r.expected) : r.stepPast packetId = r :=
  if_neg h

theorem release_unmoved_iff (r : Reader) (packetId : UInt32) (payload : Bytes) :
    ((r.release packetId payload).expected = r.expected ∧
        (∀ id, (r.release packetId payload).reordered.get? id = r.reordered.get? id)) ↔
      r.reordered.get? packetId = some payload ∧ r.reordered.get? r.expected = none := by
  have hput : ∀ id, (r.reordered.insert packetId payload).get? id =
      if id = packetId then some payload else r.reordered.get? id :=
    fun id => get?_insert r.reordered packetId id payload
  constructor
  · rintro ⟨hexpected, hreordered⟩
    cases hget : (r.reordered.insert packetId payload).get? r.expected with
    | none =>
      -- Nothing comes out, so the payload was there before.
      have hdrain : r.drained packetId payload =
          (r.reordered.insert packetId payload, r.expected, []) := drain_of_missing hget
      rw [hput] at hget
      split at hget
      · cases hget
      refine ⟨?_, hget⟩
      have hsame := hreordered packetId
      unfold Reader.release at hsame
      rw [hdrain] at hsame
      rw [← hsame]
      exact (hput packetId).trans (if_pos rfl)
    | some chunk =>
      -- What comes out is gone, so the payload itself was expected; then the number moves on, or
      -- the payload after it, which was there, is gone too.
      have hgone : r.reordered.get? r.expected = none :=
        (hreordered r.expected).symm.trans (get?_drain_of_there hget)
      have hown : r.expected = packetId := by
        by_contra hne
        rw [hput, if_neg hne, hgone] at hget
        cases hget
      rcases drain_moves hget (nextId_ne r.expected) with hmoved | ⟨hthere, hnone⟩
      · exact absurd hexpected hmoved
      · rw [hput, if_neg (by rw [← hown]; exact nextId_ne r.expected)] at hthere
        exact absurd ((hreordered (nextId r.expected)).symm.trans hnone) hthere
  · rintro ⟨hwaits, hgap⟩
    have hne : r.expected ≠ packetId := by
      rintro heq
      rw [heq, hwaits] at hgap
      cases hgap
    have hget : (r.reordered.insert packetId payload).get? r.expected = none := by
      rw [hput, if_neg hne]
      exact hgap
    have hdrain : r.drained packetId payload =
        (r.reordered.insert packetId payload, r.expected, []) := drain_of_missing hget
    unfold Reader.release
    rw [hdrain]
    refine ⟨rfl, fun id => (hput id).trans ?_⟩
    split
    next heq =>
      rw [heq]
      exact hwaits.symm
    · rfl

/-! ## What a repeat changes -/

theorem changesNothing_of_quiet (hstep : step o packet = stepControl o packet)
    (hreader : (s.received o packet).1.reader = s.control.reader)
    (hquiet : (∃ reason, (s.received o packet).2 = .error reason) ∨
      (s.received o packet).2 = .ok .nothing) : ChangesNothing o s packet := by
  rcases hquiet with ⟨reason, herror⟩ | hnothing
  · refine ⟨.error reason, s.heard o packet, ?_, .of_reader hreader rfl rfl rfl, ?_⟩
    · rw [hstep]
      exact stepControl_of_error o herror
    · rw [herror]
      rfl
  · refine ⟨.ok (), s.heard o packet, ?_, .of_reader hreader rfl rfl rfl, ?_⟩
    · rw [hstep, stepControl_of_ok o hnothing]
      rfl
    · rw [hnothing]
      rfl

section

variable (hstep : step o packet = stepControl o packet)
  (hread : read o.crypto s.control.wrapping s.control.keyId packet = .ok (some p))
  (hid : p.packetId = some packetId)
include hstep hread hid

theorem changesNothing_hardReset_iff (hopcode : p.opcode = pControlHardResetServerV2) :
    ChangesNothing o s packet ↔ packetId ≠ s.control.expectedPacketId ∧
      (s.tls.isSome ∨ ∀ tls, (o.newTls (o.now s.world).2).1 ≠ .ok tls) := by
  obtain ⟨hreader, hresult⟩ := received_of_hardReset o hread hid hopcode
  have hon : (step o packet).on s = (beginTls o).on (s.heard o packet) := by
    rw [hstep]
    exact stepControl_of_ok o hresult
  have hnone : payloadOf (s.received o packet).2 = [] := by
    rw [hresult]
    rfl
  constructor
  · rintro ⟨result, s', hon', hunmoved, -⟩
    rw [hon] at hon'
    refine ⟨?_, ?_⟩
    · have hafter := (steady_beginTls o _ result s' hon').reader
      refine (stepPast_expected_iff s.control.reader packetId).1 ?_
      rw [← hreader]
      exact (congrArg Reader.expected hafter).symm.trans hunmoved.expected
    by_contra hnot
    rw [not_or, not_forall] at hnot
    obtain ⟨htls, tls, hnew⟩ := hnot
    rw [beginTls_of_ok (s := s.heard o packet) o htls (not_not.1 hnew)] at hon'
    cases hon'
    -- The connection that was made is there now and was not before.
    have hsome : some tls = s.tls := hunmoved.tls
    rw [← hsome] at htls
    exact htls rfl
  · rintro ⟨hne, htls⟩
    have hsame : (s.received o packet).1.reader = s.control.reader :=
      hreader.trans (stepPast_of_ne hne)
    by_cases hsome : s.tls.isSome = true
    · refine ⟨.ok (), s.heard o packet, ?_, .of_reader hsame rfl rfl rfl, hnone⟩
      rw [hon]
      exact beginTls_of_isSome (s := s.heard o packet) o hsome
    have hnot := htls.resolve_left hsome
    cases hnew : (o.newTls (o.now s.world).2).1 with
    | ok tls => exact absurd hnew (hnot tls)
    | error reason =>
      obtain ⟨reason', hbegin⟩ := beginTls_of_error (s := s.heard o packet) o hsome hnew
      refine ⟨.error reason', _, hon.trans hbegin, ?_, hnone⟩
      exact .of_reader hsame rfl rfl rfl

theorem changesNothing_softReset_iff (hopcode : p.opcode = pControlSoftResetV1) :
    ChangesNothing o s packet ↔
      p.keyId = s.control.keyId ∧ packetId ≠ s.control.expectedPacketId := by
  obtain ⟨hreader, hresult⟩ := received_of_softReset o hread hid hopcode
  have hon : (step o packet).on s = (renegotiate o p.keyId).on (s.heard o packet) := by
    rw [hstep]
    exact stepControl_of_ok o hresult
  have hheard : (s.heard o packet).control.keyId = s.control.keyId := by
    have hpast : (s.control.reader.stepPast packetId).keyId = s.control.keyId := by
      unfold Reader.stepPast
      split <;> rfl
    exact (congrArg Reader.keyId hreader).trans hpast
  by_cases hkey : p.keyId = s.control.keyId
  · have hsame := renegotiate_of_eq (s := s.heard o packet) o (hkey.trans hheard.symm)
    constructor
    · rintro ⟨result, s', hon', hunmoved, -⟩
      rw [hon, hsame] at hon'
      cases hon'
      refine ⟨hkey, ?_⟩
      refine (stepPast_expected_iff s.control.reader packetId).1 ?_
      rw [← hreader]
      exact hunmoved.expected
    · rintro ⟨-, hne⟩
      refine ⟨.ok (), s.heard o packet, hon.trans hsame, ?_, ?_⟩
      · exact .of_reader (hreader.trans (stepPast_of_ne hne)) rfl rfl rfl
      · rw [hresult]
        rfl
  · -- Another generation: its key id is the channel's afterwards.
    refine iff_of_false ?_ fun h => hkey h.1
    rintro ⟨result, s', hon', hunmoved, -⟩
    rw [hon] at hon'
    have hmoved := renegotiate_of_ne o (fun heq => hkey (heq.trans hheard)) hon'
    exact hkey ((congrArg Reader.keyId hmoved).symm.trans hunmoved.keyId)

theorem changesNothing_payload_iff (hhard : p.opcode ≠ pControlHardResetServerV2)
    (hsoft : p.opcode ≠ pControlSoftResetV1) :
    ChangesNothing o s packet ↔ s.control.reordered.get? packetId = some p.payload ∧
      s.control.reordered.get? s.control.expectedPacketId = none := by
  obtain ⟨hreader, hresult, hpayload⟩ := received_of_payload o hread hid hhard hsoft
  have hiff := release_unmoved_iff s.control.reader packetId p.payload
  constructor
  · rintro ⟨result, s', hon, hunmoved, hempty⟩
    rcases hresult with hnothing | ⟨bytes, hne, hbytes⟩
    · rw [hstep, stepControl_of_ok o hnothing] at hon
      cases hon
      refine hiff.1 ?_
      rw [← hreader]
      exact ⟨hunmoved.expected, hunmoved.reordered⟩
    · rw [hbytes] at hempty
      exact absurd hempty hne
  intro hwaits
  obtain ⟨hexpected, hreordered⟩ := hiff.2 hwaits
  -- Nothing comes out of a buffer whose first number is missing.
  have hget : (s.control.reordered.insert packetId p.payload).get? s.control.expectedPacketId =
      none := by
    have hne : s.control.expectedPacketId ≠ packetId := by
      intro heq
      rw [heq, hwaits.1] at hwaits
      exact some_ne_none _ hwaits.2
    rw [get?_insert, if_neg hne]
    exact hwaits.2
  have hdrain : s.control.reader.drained packetId p.payload =
      (s.control.reordered.insert packetId p.payload, s.control.expectedPacketId, []) :=
    drain_of_missing hget
  rw [hdrain] at hpayload
  rcases hresult with hnothing | ⟨bytes, hne, hbytes⟩
  · refine ⟨.ok (), s.heard o packet, ?_, ?_, hpayload⟩
    · rw [hstep, stepControl_of_ok o hnothing]
      rfl
    · rw [← hreader] at hexpected hreordered
      exact ⟨congrArg Reader.keyId hreader, hexpected, hreordered, rfl, rfl, rfl⟩
  · rw [hbytes] at hpayload
    exact absurd hpayload hne

end

end Step

theorem changesNothing_iff {packet : Bytes} (hcontrol : (opcodeOf packet).any isData = false) :
    ChangesNothing o s packet ↔ Harmless o s packet := by
  cases packet with
  | nil =>
    refine iff_of_true ⟨_, s, rfl, .of_reader rfl rfl rfl rfl, rfl⟩ ?_
    exact trivial
  | cons first rest =>
    have hstep : step o (first :: rest) = stepControl o (first :: rest) :=
      step_eq_stepControl o rfl hcontrol
    unfold Harmless
    cases hread : read o.crypto s.control.wrapping s.control.keyId (first :: rest) with
    | error reason =>
      have hresult : s.received o (first :: rest) = (s.control, .error reason) := by
        unfold received receive
        rw [hread]
      refine iff_of_true (changesNothing_of_quiet o hstep ?_
        (.inl ⟨reason, ?_⟩)) trivial <;> rw [hresult]
    | ok read =>
      cases read with
      | none =>
        have hresult : s.received o (first :: rest) = (s.control, .ok .nothing) := by
          unfold received receive
          rw [hread]
        refine iff_of_true (changesNothing_of_quiet o hstep ?_ (.inr ?_)) trivial <;> rw [hresult]
      | some p =>
        dsimp only
        cases hid : p.packetId with
        | none =>
          have hresult := received_of_ack o hread hid
          refine iff_of_true (changesNothing_of_quiet o hstep ?_ (.inr ?_)) trivial
          · rw [hresult]
            rfl
          · rw [hresult]
        | some packetId =>
          dsimp only
          by_cases hhard : p.opcode = pControlHardResetServerV2
          · rw [if_pos hhard]
            exact changesNothing_hardReset_iff o hstep hread hid hhard
          rw [if_neg hhard]
          by_cases hsoft : p.opcode = pControlSoftResetV1
          · rw [if_pos hsoft]
            exact changesNothing_softReset_iff o hstep hread hid hsoft
          · rw [if_neg hsoft]
            exact changesNothing_payload_iff o hstep hread hid hhard hsoft

/-! ## The buffer and the expected number -/

/-- The buffer holds no number below the expected one. -/
def Ahead (r : Reader) : Prop := ∀ id, r.reordered.get? id ≠ none → r.expected ≤ id

theorem toNat_nextId {id : UInt32} (h : nextId id ≠ 0) : (nextId id).toNat = id.toNat + 1 := by
  unfold nextId at h ⊢
  have hne : (id + 1).toNat ≠ 0 := fun hzero => h (toNat_inj.1 hzero)
  rw [toNat_add] at hne ⊢
  have hlt := id.toNat_lt
  have hone : (1 : UInt32).toNat = 1 := rfl
  omega

theorem zero_le_id (id : UInt32) : 0 ≤ id := le_iff_toNat_le.2 (Nat.zero_le _)

theorem nextId_le {id next : UInt32} (hle : id ≤ next) (hne : next ≠ id) : nextId id ≤ next := by
  by_cases hzero : nextId id = 0
  · rw [hzero]
    exact zero_le_id next
  · rw [le_iff_toNat_le] at hle ⊢
    have hnat : next.toNat ≠ id.toNat := fun heq => hne (toNat_inj.1 heq)
    rw [toNat_nextId hzero]
    omega

theorem ahead_stepPast_iff {r : Reader} (h : Ahead r) (packetId : UInt32) :
    Ahead (r.stepPast packetId) ↔
      packetId ≠ r.expected ∨ nextId r.expected = 0 ∨ r.reordered.get? r.expected = none := by
  unfold Reader.stepPast
  split
  next heq =>
    constructor
    · intro hahead
      by_contra hnot
      rw [not_or, not_or] at hnot
      obtain ⟨-, hzero, hthere⟩ := hnot
      have hle := le_iff_toNat_le.1 (hahead r.expected hthere)
      rw [toNat_nextId hzero] at hle
      omega
    rintro (hne | hzero | hmissing)
    · exact absurd heq hne
    · intro id _
      rw [hzero]
      exact zero_le_id id
    · intro id hid
      refine nextId_le (h id hid) ?_
      rintro rfl
      exact hid hmissing
  next hne => exact iff_of_true h (.inl hne)

section Drain

variable {ν : Type} {m : KeyedMap UInt32 ν}

theorem drainFrom_ahead (fuel : Nat) {m : KeyedMap UInt32 ν} {k : UInt32}
    (h : ∀ id, m.get? id ≠ none → k ≤ id) (id : UInt32)
    (hid : (drainFrom nextId fuel m k).1.get? id ≠ none) :
    (drainFrom nextId fuel m k).2.1 ≤ id := by
  induction fuel generalizing m k with
  | zero => exact h id hid
  | succ fuel ih =>
    unfold drainFrom at hid ⊢
    cases hget : m.get? k with
    | none =>
      rw [hget] at hid
      exact h id hid
    | some v =>
      rw [hget] at hid
      refine ih (fun id' hid' => ?_) hid
      rw [get?_erase] at hid'
      split at hid'
      · exact absurd rfl hid'
      next hne => exact nextId_le (h id' hid') hne

theorem drainFrom_upTo (fuel : Nat) {m : KeyedMap UInt32 ν} {k last : UInt32} (hle : k ≤ last)
    (hmissing : m.get? last = none) :
    k ≤ (drainFrom nextId fuel m k).2.1 ∧
      ∀ id, id < k → (drainFrom nextId fuel m k).1.get? id = m.get? id := by
  induction fuel generalizing m k with
  | zero => exact ⟨le_refl k, fun _ _ => rfl⟩
  | succ fuel ih =>
    unfold drainFrom
    cases hget : m.get? k with
    | none => exact ⟨le_refl k, fun _ _ => rfl⟩
    | some v =>
      have hne : last ≠ k := by
        rintro rfl
        rw [hmissing] at hget
        cases hget
      have hzero : nextId k ≠ 0 := by
        intro hzero
        have hlt := last.toNat_lt
        have hlast := le_iff_toNat_le.1 hle
        have hnat : last.toNat ≠ k.toNat := fun heq => hne (toNat_inj.1 heq)
        have hwrap := congrArg UInt32.toNat hzero
        unfold nextId at hwrap
        rw [toNat_add] at hwrap
        have hone : (1 : UInt32).toNat = 1 := rfl
        have hnone : (0 : UInt32).toNat = 0 := rfl
        omega
      have hstep := toNat_nextId hzero
      have herase : (m.erase k).get? last = none := by
        rw [get?_erase, hmissing, ite_self]
      obtain ⟨hpast, hbefore⟩ := ih (nextId_le hle hne) herase
      refine ⟨?_, fun id hid => ?_⟩
      · rw [le_iff_toNat_le] at hpast ⊢
        dsimp only
        omega
      have hlt : id < nextId k := by
        rw [UInt32.lt_iff_toNat_lt] at hid ⊢
        omega
      refine (hbefore id hlt).trans ?_
      rw [get?_erase, if_neg]
      rintro rfl
      exact UInt32.lt_irrefl _ hid

theorem drainFrom_wraps (fuel : Nat) {m : KeyedMap UInt32 ν} {k : UInt32} (hfuel : m.size = fuel)
    (hthere : ∀ id, k ≤ id → m.get? id ≠ none) (id : UInt32)
    (hid : (drainFrom nextId fuel m k).1.get? id ≠ none) :
    (drainFrom nextId fuel m k).2.1 ≤ id := by
  induction fuel generalizing m k with
  | zero =>
    have hempty : m.entries = [] := List.eq_nil_of_length_eq_zero hfuel
    obtain ⟨v, hv⟩ := ne_none_iff_exists'.1 (hthere k (le_refl k))
    have hmem := get?_eq_some_iff.1 hv
    rw [hempty] at hmem
    exact absurd hmem List.not_mem_nil
  | succ fuel ih =>
    obtain ⟨v, hv⟩ := ne_none_iff_exists'.1 (hthere k (le_refl k))
    have hsize := size_erase_of_get?_some hv
    unfold drainFrom at hid ⊢
    rw [hv] at hid ⊢
    by_cases hzero : nextId k = 0
    · -- From number 0 on, every number is ahead.
      refine drainFrom_ahead fuel (fun id' _ => ?_) id hid
      rw [hzero]
      exact zero_le_id id'
    refine ih (by omega) (fun id' hid' => ?_) hid
    have hstep := toNat_nextId hzero
    rw [le_iff_toNat_le] at hid'
    have hne : id' ≠ k := by
      rintro rfl
      omega
    rw [get?_erase, if_neg hne]
    refine hthere id' (le_iff_toNat_le.2 ?_)
    omega

end Drain

/-- A payload below the expected number stays behind it, unless everything from there to the end of
the numbering waits. -/
theorem ahead_release_iff {r : Reader} (h : Ahead r) (packetId : UInt32) (payload : Bytes) :
    Ahead (r.release packetId payload) ↔
      r.expected ≤ packetId ∨ ∀ id, r.expected ≤ id → r.reordered.get? id ≠ none := by
  have hput : ∀ id, (r.reordered.insert packetId payload).get? id =
      if id = packetId then some payload else r.reordered.get? id :=
    fun id => get?_insert r.reordered packetId id payload
  constructor
  · intro hahead
    by_contra hnot
    rw [not_or, not_forall] at hnot
    obtain ⟨hlow, last, hlast⟩ := hnot
    rw [Classical.not_imp, not_not] at hlast
    obtain ⟨hle, hmissing⟩ := hlast
    have hbelow : packetId < r.expected := UInt32.not_le.1 hlow
    -- The payload is still there when the drain stops, and the drain stops above it.
    have hgap : (r.reordered.insert packetId payload).get? last = none := by
      rw [hput, if_neg]
      · exact hmissing
      · rintro rfl
        exact hlow hle
    obtain ⟨hpast, hbefore⟩ := drainFrom_upTo (r.reordered.insert packetId payload).size hle hgap
    have hstays := (hbefore packetId hbelow).trans (get?_insert_self r.reordered packetId payload)
    have hahead := hahead packetId (by
      show (drain nextId (r.reordered.insert packetId payload) r.expected).1.get? packetId ≠ none
      rw [drain, hstays]
      exact some_ne_none _)
    exact hlow (UInt32.le_trans hpast hahead)
  · rintro (hle | hthere) id hid
    · refine drainFrom_ahead _ (fun id' hid' => ?_) id hid
      rw [hput] at hid'
      split at hid'
      next heq =>
        rw [heq]
        exact hle
      · exact h id' hid'
    · refine drainFrom_wraps _ rfl (fun id' hid' => ?_) id hid
      rw [hput]
      split
      · exact some_ne_none _
      · exact hthere id' hid'

/-- A control packet that leaves no number behind: it is not read, only acknowledges or announces
another generation; or it is a reset with a number that is not the expected one, or with nothing
waiting under it, or the last number there is; or it is a payload that is not below the expected
number, or that everything up to the end of the numbering waits for. -/
def InOrder (packet : Bytes) : Prop :=
  match read o.crypto s.control.wrapping s.control.keyId packet with
  | .error _ | .ok none => True
  | .ok (some p) =>
    match p.packetId with
    | none => True
    | some packetId =>
      let expected := s.control.expectedPacketId
      if p.opcode = pControlHardResetServerV2 ∨ p.opcode = pControlSoftResetV1 then
        (p.opcode = pControlSoftResetV1 ∧ p.keyId ≠ s.control.keyId) ∨
          packetId ≠ expected ∨ nextId expected = 0 ∨ s.control.reordered.get? expected = none
      else
        expected ≤ packetId ∨ ∀ id, expected ≤ id → s.control.reordered.get? id ≠ none

section Buffer

variable {s s' : Session W T} {packet : Bytes} {result : Except String Unit}

/-- A control packet moves the reader of a session as `ControlChannel.step` says, whatever the clock
reads when the session renegotiates. -/
theorem reader_stepControl (hon : (stepControl o packet).on s = some (result, s')) :
    s'.control.reader = (s.control.step o.crypto (o.now s.world).1 packet).1.reader := by
  have hreceive : s.control.receive o.crypto (o.now s.world).1.epoch packet =
      ((s.received o packet).1, (s.received o packet).2) := rfl
  rw [ControlChannel.step, hreceive]
  cases hresult : (s.received o packet).2 with
  | error reason =>
    rw [stepControl_of_error o hresult] at hon
    cases hon
    rfl
  | ok received =>
    rw [stepControl_of_ok o hresult] at hon
    cases received with
    | nothing =>
      cases hon
      rfl
    | serverReset => exact (steady_beginTls o _ result s' hon).reader
    | payload bytes => exact (steady_feedTls o bytes _ result s' hon).reader
    | softReset keyId =>
      by_cases hsame : keyId = (s.heard o packet).control.keyId
      · cases (renegotiate_of_eq o hsame).symm.trans hon
        exact congrArg reader (if_pos hsame).symm
      · exact (renegotiate_of_ne o hsame hon).trans (reader_renegotiate hsame _).symm

theorem ahead_empty (wrapping : Wrapping) (keyId : UInt8) :
    Ahead ⟨wrapping, keyId, 0, KeyedMap.empty⟩ :=
  fun id _ => zero_le_id id

theorem ahead_stepControl (h : Ahead s.control.reader) (hinOrder : InOrder o s packet)
    (hon : (stepControl o packet).on s = some (result, s')) :
    Ahead s'.control.reader := by
  rw [reader_stepControl o hon]
  unfold InOrder at hinOrder
  cases hread : read o.crypto s.control.wrapping s.control.keyId packet with
  | error reason =>
    rw [ControlChannel.step, receive, hread]
    exact h
  | ok read =>
    rw [hread] at hinOrder
    cases read with
    | none =>
      rw [ControlChannel.step, receive, hread]
      exact h
    | some p =>
      dsimp only at hinOrder
      cases hid : p.packetId with
      | none =>
        rw [ControlChannel.step, receive_of_read hread, accept, hid]
        exact h
      | some packetId =>
        rw [hid] at hinOrder
        dsimp only at hinOrder
        by_cases hhard : p.opcode = pControlHardResetServerV2
        · rw [if_pos (.inl hhard)] at hinOrder
          rw [(step_reset _ hread hhard hid).1]
          refine (ahead_stepPast_iff h packetId).2 (hinOrder.resolve_left ?_)
          rintro ⟨hsoft, -⟩
          rw [hhard] at hsoft
          cases hsoft
        by_cases hsoft : p.opcode = pControlSoftResetV1
        · rw [if_pos (.inr hsoft)] at hinOrder
          obtain ⟨hpast, hresult⟩ := received_of_softReset o hread hid hsoft
          have hreceive : s.control.receive o.crypto (o.now s.world).1.epoch packet =
              ((s.received o packet).1, (s.received o packet).2) := rfl
          rw [ControlChannel.step, hreceive, hresult]
          dsimp only
          by_cases hkey : p.keyId = (s.received o packet).1.keyId
          · have hstays : (s.received o packet).1.renegotiate o.crypto (o.now s.world).1 p.keyId =
                (s.received o packet).1 := if_pos hkey
            rw [hstays, hpast]
            have hkept : (s.received o packet).1.keyId = s.control.keyId := by
              refine (congrArg Reader.keyId hpast).trans ?_
              unfold Reader.stepPast
              split <;> rfl
            refine (ahead_stepPast_iff h packetId).2 (hinOrder.resolve_left ?_)
            exact fun hother => hother.2 (hkey.trans hkept)
          · -- The announcement of another generation empties the buffer.
            rw [reader_renegotiate hkey]
            exact ahead_empty _ _
        · rw [if_neg (not_or.2 ⟨hhard, hsoft⟩)] at hinOrder
          rw [step_of_read hread hsoft, accept_payload _ hid hhard hsoft]
          rw [(reader_release (s.control.noted p packetId) _ packetId p.payload).1]
          exact (ahead_release_iff h packetId p.payload).2 hinOrder

/-- The packet a turn handles is in order, if it is a control packet. -/
def ArrivesInOrder (m : Machine W T) : Prop :=
  ∀ packet, m.place.packet = some packet → (opcodeOf packet).any isData = false →
    InOrder o m.session packet

theorem reader_step_data {opcode : UInt8} (hopcode : opcodeOf packet = some opcode)
    (hdata : isData opcode = true) (hon : (step o packet).on s = some (result, s')) :
    s'.control.reader = s.control.reader := by
  unfold step at hon
  rw [hopcode] at hon
  change (if isData opcode = true then _ else _ : Action (Session W T) Unit).on s = _ at hon
  rw [if_pos hdata] at hon
  have hsame : Composes fun s s' : Session W T => s'.control.reader = s.control.reader :=
    ⟨fun _ => rfl, fun h h' => h'.trans h⟩
  refine Within.bind hsame ((steady_openData o packet).imp fun _ _ h => h.reader) (fun inner => ?_)
    s result s' hon
  exact within_ofTotal fun _ => rfl

theorem ahead_step (h : Ahead s.control.reader)
    (hinOrder : (opcodeOf packet).any isData = false → InOrder o s packet)
    (hon : (step o packet).on s = some (result, s')) : Ahead s'.control.reader := by
  cases hopcode : opcodeOf packet with
  | none =>
    unfold step at hon
    rw [hopcode] at hon
    cases hon
    exact h
  | some opcode =>
    cases hdata : isData opcode with
    | true =>
      rw [reader_step_data o hopcode hdata hon]
      exact h
    | false =>
      rw [step_eq_stepControl o hopcode hdata] at hon
      exact ahead_stepControl o h (hinOrder (by rw [hopcode]; exact hdata)) hon

theorem ahead_absorb {result : Except String (Option Bytes)} (h : Ahead s.control.reader)
    (hinOrder : (opcodeOf packet).any isData = false → InOrder o s packet)
    (hon : (absorb o packet).on s = some (result, s')) : Ahead s'.control.reader := by
  unfold absorb at hon
  cases hopcode : opcodeOf packet with
  | none =>
    rw [hopcode] at hon
    cases hon
    exact h
  | some opcode =>
    rw [hopcode] at hon
    dsimp only at hon
    split at hon
    · rw [(steady_openData o packet s result s' hon).reader]
      exact h
    · obtain ⟨first, after, hstep, hrest⟩ := of_on_bind steady
        (fun _ => Within.bind steady (steady_flush o) fun _ => within_pure steady _) hon
      rw [hrest.reader]
      exact ahead_step o h hinOrder hstep

theorem ahead_turn {place : Place} {request : Request} {result : Except String Next}
    (h : Ahead s.control.reader) (hinOrder : ArrivesInOrder o ⟨s, place⟩)
    (hon : (turn o place request).on s = some (result, s')) : Ahead s'.control.reader := by
  -- Everything but the handling of a packet leaves the reader alone.
  have hsteady : ∀ {m : Action (Session W T) Next}, Within Steady m →
      m.on s = some (result, s') → Ahead s'.control.reader := by
    intro m hm hon
    rw [(hm s result s' hon).reader]
    exact h
  cases place with
  | opening =>
    exact hsteady (Within.bind steady (steady_openSession o) fun _ => within_pure steady _) hon
  | settingUp started => exact hsteady (steady_setupTurn o started) hon
  | stepping started packet =>
    obtain ⟨first, after, hstep, htail⟩ :=
      of_on_bind steady (fun _ => steady_setupTail o started) hon
    rw [htail.reader]
    exact ahead_step o h (hinOrder packet rfl) hstep
  | idle =>
    cases request with
    | proceed => exact hsteady (within_pure steady _) hon
    | sendInner packet urgency =>
      refine hsteady (Within.bind steady (steady_sendInner o packet urgency) fun _ => ?_) hon
      exact within_pure steady _
    | receiveInner timeout =>
      cases hon
      exact h
  | waiting deadline packets => exact hsteady (steady_waitTurn o deadline packets) hon
  | absorbing deadline packets packet =>
    obtain ⟨first, after, habsorb, hrest⟩ := of_on_bind steady (fun inner => by
      split
      · exact within_pure steady _
      · exact within_pure steady _) hon
    rw [hrest.reader]
    exact ahead_absorb o h (hinOrder packet rfl) habsorb
  | draining packets => exact hsteady (steady_drainTurn o packets) hon
  | absorbingMore packets packet =>
    obtain ⟨first, after, habsorb, hrest⟩ :=
      of_on_bind steady (fun _ => within_pure steady _) hon
    rw [hrest.reader]
    exact ahead_absorb o h (hinOrder packet rfl) habsorb
  | gone => exact hsteady (within_pure steady _) hon

end Buffer

theorem ahead_machine_step {m : Machine W T} (request : Request)
    (h : Ahead m.session.control.reader)
    (hinOrder : ArrivesInOrder o m) : Ahead (m.step o request).1.session.control.reader := by
  unfold Machine.step
  cases hturn : (turn o m.place request).on m.session with
  | none => exact h
  | some r =>
    obtain ⟨result, s'⟩ := r
    have hahead := ahead_turn o h hinOrder hturn
    cases result with
    | error | ok => exact hahead

theorem ahead_run {m : Machine W T} (h : Ahead m.session.control.reader) (requests : List Request)
    (hmeets : Run.Meets (Machine.step o) (fun c _ => ArrivesInOrder o c.state) ⟨m, []⟩ requests) :
    Ahead (m.run o requests).state.session.control.reader := by
  have hstep : ∀ (c : Run.Config (Machine W T) Request Answer) (request : Request),
      ArrivesInOrder o c.state → Ahead c.state.session.control.reader →
        Ahead (Run.advance (Machine.step o) c request).state.session.control.reader :=
    fun c request hok hahead => ahead_machine_step o request hahead hok
  exact Run.execFrom_invariant_of_meets hstep requests ⟨m, []⟩ hmeets h

/-- Control packets that arrive again, over any number of renegotiations: which of the packets that
have been handled change nothing when they are handled again, and that the buffer holds only numbers
from the expected one on as long as they arrive in order. -/
theorem repeats_exact (config : OpenVpnConfig) (credentials : Credentials) (protocol : Protocol)
    (sessionId : SessionId) (keySource : KeySource) (now : Instant) (world : W)
    (requests : List Request) :
    let m : Machine W T := .connected config credentials protocol sessionId keySource now world
    let c := m.run o requests
    let s := c.state.session
    (∀ packet ∈ controlIn c.log, ChangesNothing o s packet ↔ Harmless o s packet) ∧
      (Run.Meets (Machine.step o) (fun c _ => ArrivesInOrder o c.state) ⟨m, []⟩ requests →
        ∀ id, s.control.reordered.get? id ≠ none → s.control.expectedPacketId ≤ id) := by
  intro m c s
  refine ⟨fun packet hpacket => changesNothing_iff o s ?_, ahead_run o ?_ requests⟩
  · obtain ⟨e, -, hmem⟩ := List.mem_flatMap.1 hpacket
    have hcontrol := (List.mem_filter.1 hmem).2
    simpa using hcontrol
  · exact fun id hid => absurd rfl hid

/-- A payload that is not below the expected number, or a reset while nothing waits under it. -/
def inTurn (packet : Bytes) : Bool :=
  match read o.crypto s.control.wrapping s.control.keyId packet with
  | .error _ | .ok none => true
  | .ok (some p) => p.packetId.all fun packetId =>
    if p.opcode = pControlHardResetServerV2 ∨ p.opcode = pControlSoftResetV1 then
      (s.control.reordered.get? s.control.expectedPacketId).isNone
    else decide (s.control.expectedPacketId ≤ packetId)

theorem inOrder_of_inTurn {packet : Bytes} (h : inTurn o s packet = true) : InOrder o s packet := by
  unfold inTurn at h
  unfold InOrder
  split at h
  · trivial
  · trivial
  next p _ =>
    dsimp only
    cases hid : p.packetId with
    | none => trivial
    | some packetId =>
      rw [hid, all_some] at h
      dsimp only
      split at h
      · rw [if_pos ‹_›]
        exact .inr (.inr (.inr (isNone_iff_eq_none.1 h)))
      · rw [if_neg ‹_›]
        exact .inl (of_decide_eq_true h)

/-- The server's reset, and the payload with number 2 twice. -/
def reordered : List Bytes := serverSide.take 1 ++ List.replicate 2 (controlPacket pControlV1 2 [0])

/-- A run in which that payload arrives and is repeated while number 1 is expected. -/
def waitsTwice : Run.Config (Machine (List Bytes) Bytes) Request Answer :=
  (dialled reordered).run scripted (List.replicate 7 .proceed)

theorem repeats_exact_reordered :
    ((controlIn waitsTwice.log).count (controlPacket pControlV1 2 [0]) = 2 ∧
        ∃ id, waitsTwice.state.session.control.reordered.get? id ≠ none) ∧
      (∀ packet ∈ controlIn waitsTwice.log,
        ChangesNothing scripted waitsTwice.state.session packet ↔
        Harmless scripted waitsTwice.state.session packet) ∧
      ∀ id, waitsTwice.state.session.control.reordered.get? id ≠ none →
        waitsTwice.state.session.control.expectedPacketId ≤ id := by
  have hrun := repeats_exact scripted plainConfig ⟨none, none⟩ .udp ⟨List.replicate 8 1, rfl⟩
    ⟨.replicate 48 0, .replicate 32 0, .replicate 32 0⟩ 0 reordered (List.replicate 7 .proceed)
  have hwaits : (Machine.connected plainConfig ⟨none, none⟩ .udp ⟨List.replicate 8 1, rfl⟩
      ⟨.replicate 48 0, .replicate 32 0, .replicate 32 0⟩ 0 reordered).run scripted
        (List.replicate 7 .proceed) = waitsTwice := rfl
  dsimp only at hrun
  rw [hwaits] at hrun
  have hturn : Run.Meets (Machine.step scripted)
      (fun c _ => c.state.place.packet.all (inTurn scripted c.state.session) = true)
      ⟨dialled reordered, []⟩ (List.replicate 7 .proceed) := by
    decide +kernel
  refine ⟨⟨by decide +kernel, 2, by decide +kernel⟩, hrun.1,
    hrun.2 (hturn.imp fun c _ hall packet hpacket _ => ?_)⟩
  rw [hpacket] at hall
  exact inOrder_of_inTurn _ _ hall

/-! ## Repeats that change something -/

/-- A soft reset that announces a generation. -/
def softReset (keyId : UInt8) : Bytes :=
  ((pControlSoftResetV1 <<< 3) ||| keyId) :: List.replicate 8 7 ++ [0, 0, 0, 0, 0]

/-- A run in which the payload with number 1 arrives twice, the second time while number 2 is
expected. -/
def payloadTwice : Run.Config (Machine (List Bytes) Bytes) Request Answer :=
  (dialled (serverSide.take 1 ++ List.replicate 2 (controlPacket pControlV1 1 [0]))).run scripted
    (List.replicate 7 .proceed)

/-- A run in which the server announces generation 1 and then generation 2. -/
def twoGenerations : Run.Config (Machine (List Bytes) Bytes) Request Answer :=
  (dialled (serverSide.take 1 ++ [softReset 1, softReset 2])).run scripted
    (List.replicate 7 .proceed)

/-- The payload that arrived twice stays in the buffer, below the expected number; and the
announcement of generation 1 leads back to it from generation 2. -/
theorem repeats_change_something :
    payloadTwice.state.session.control.expectedPacketId = 2 ∧
      (payloadTwice.state.session.control.reordered.get? 1).isSome = true ∧
      softReset 1 ∈ controlIn twoGenerations.log ∧
      twoGenerations.state.session.control.keyId = 2 ∧
      ((step scripted (softReset 1)).on twoGenerations.state.session).map
        (fun r => r.2.control.keyId) = some 1 := by
  decide +kernel

end GamePath.Engine.OpenVpn.Session
