import GamePath.Engine.OpenVpn.DataReplay
import GamePath.Engine.OpenVpn.SealedPackets
import GamePath.Lib.Run
import Mathlib.Logic.Equiv.Basic

/-!
# A data channel from end to end

One `DataChannel` of `engine/src/openvpn/crypto.rs` seals a sequence of packets, and one with the
mirrored keys opens what arrives of them, in any order and any number of times. The packet at
position `i` has the packet id `i + 1`, until the ids are used up; and each arrival gives exactly
what `data_round_trip` says, from whether its position came before and how far it is behind the
others.
-/

namespace GamePath.Engine.OpenVpn

open Lib List Protection Run
open BigEndian (toBytes)

/-! ## Mirrored keys -/

variable (material : KeyMaterial)

/-- The two halves of the material the other way round. -/
def KeyMaterial.mirror : KeyMaterial :=
  ⟨(material.toList.drop 128 ++ material.toList.take 128).toArray, by simp⟩

theorem KeyMaterial.toList_mirror :
    material.mirror.toList = material.toList.drop 128 ++ material.toList.take 128 := rfl

theorem DataCipher.keyLen_le (cipher : DataCipher) : cipher.keyLen ≤ 64 := by
  cases cipher with
  | aes256Gcm | aes128Gcm | chaCha20Poly1305 | aes256Cbc | aes192Cbc | aes128Cbc => decide

theorem Digest.outputLen_le (digest : Digest) : digest.outputLen ≤ 64 := by
  cases digest with
  | md5 | sha1 | sha256 | sha512 => decide

theorem KeyMaterial.slice_mirror (start length : Nat) (h : start + length ≤ 128) :
    (material.mirror.toList.drop (128 + start)).take length =
      (material.toList.drop start).take length := by
  have hlength : (material.toList.drop 128).length = 128 := by
    rw [length_drop, Vector.length_toList]
  rw [KeyMaterial.toList_mirror, ← drop_drop, drop_left' hlength, drop_take,
    take_take, Nat.min_eq_left (by omega)]

theorem Protection.new_mirror (cipher : DataCipher) (digest : Digest) :
    new material.mirror 1 cipher digest = new material 0 cipher digest := by
  have hkey : material.mirror.cipherKey 1 cipher.keyLen = material.cipherKey 0 cipher.keyLen := by
    have hle := cipher.keyLen_le
    exact material.slice_mirror 0 cipher.keyLen (by omega)
  have hmac : material.mirror.hmacKey 1 digest.outputLen = material.hmacKey 0 digest.outputLen := by
    have hle := digest.outputLen_le
    exact material.slice_mirror 64 digest.outputLen (by omega)
  have hiv : material.mirror.implicitIv 1 = material.implicitIv 0 :=
    material.slice_mirror 64 8 (by decide)
  rw [new, new, hkey, hmac, hiv]

theorem Sealer.new_ok {cipher : DataCipher} (h : cipher.isAead = true) {key : Bytes}
    (hkey : key.length = cipher.keyLen) : ∃ sealer, Sealer.new cipher key = .ok sealer := by
  cases cipher with
  | aes256Gcm => exact ⟨.aes256 key, if_pos hkey⟩
  | aes128Gcm => exact ⟨.aes128 key, if_pos hkey⟩
  | chaCha20Poly1305 => exact ⟨.chaCha20 key, if_pos hkey⟩
  | aes256Cbc | aes192Cbc | aes128Cbc => cases h

theorem CbcCipher.new_ok {cipher : DataCipher} (h : cipher.isAead = false) {key : Bytes}
    (hkey : key.length = cipher.keyLen) : ∃ sealed, CbcCipher.new cipher key = .ok sealed := by
  cases cipher with
  | aes256Cbc => exact ⟨.aes256 key, if_pos hkey⟩
  | aes192Cbc => exact ⟨.aes192 key, if_pos hkey⟩
  | aes128Cbc => exact ⟨.aes128 key, if_pos hkey⟩
  | aes256Gcm | aes128Gcm | chaCha20Poly1305 => cases h

/-- The implicit half of an AEAD's nonce has eight bytes. -/
def Protection.Sized : Protection → Prop
  | .aead _ implicitIv => implicitIv.length = 8
  | .cbc _ _ => True

theorem Protection.new_ok {index : Nat} (hindex : index ≤ 1)
    (cipher : DataCipher) (digest : Digest) :
    ∃ protection, new material index cipher digest = .ok protection ∧ protection.Sized := by
  have hkey : (material.cipherKey index cipher.keyLen).length = cipher.keyLen := by
    have hle := cipher.keyLen_le
    rw [KeyMaterial.cipherKey, length_take, length_drop, Vector.length_toList]
    omega
  rw [new]
  cases haead : cipher.isAead with
  | true =>
    obtain ⟨sealer, hsealer⟩ := Sealer.new_ok haead hkey
    rw [hsealer]
    refine ⟨_, rfl, ?_⟩
    rw [Sized, KeyMaterial.implicitIv, length_take, length_drop, Vector.length_toList]
    omega
  | false =>
    obtain ⟨sealed, hsealed⟩ := CbcCipher.new_ok haead hkey
    rw [hsealed]
    exact ⟨_, rfl, trivial⟩

/-- What the crates promise of sealing: an AEAD seals every buffer up to the limit of AES-GCM, the
lower of the two. -/
def PacketCrypto.Seals (crypto : PacketCrypto) : Prop :=
  ∀ sealer nonce associated buffer, nonce.length = 12 → associated.length ≤ 2 ^ 36 →
    buffer.length ≤ 2 ^ 36 →
    (crypto.encryptDetached sealer nonce associated buffer).isSome = true

namespace DataChannel

/-- Two channels over mirrored material: what the one seals with, the other opens with. -/
theorem new_mirrored (material : KeyMaterial) (cipher : DataCipher) (digest : Digest)
    (peerId peerId' : Option UInt32) (keyId keyId' : UInt8) :
    ∃ sender receiver, new material cipher digest peerId keyId = .ok sender ∧
      new material.mirror cipher digest peerId' keyId' = .ok receiver ∧
      receiver.opening = sender.sealing ∧ sender.keyId = keyId ∧ sender.nextPacketId = 1 ∧
      receiver.replay = .new ∧ sender.sealing.Sized := by
  obtain ⟨sealing, hsealing, hsized⟩ := new_ok material (Nat.zero_le 1) cipher digest
  obtain ⟨opening, hopening, -⟩ := new_ok material (Nat.le_refl 1) cipher digest
  obtain ⟨sealing', hsealing', -⟩ := new_ok material.mirror (Nat.zero_le 1) cipher digest
  have hmirror := (new_mirror material cipher digest).trans hsealing
  refine ⟨⟨sealing, opening, peerId, keyId, 1, .new⟩, ⟨sealing', sealing, peerId', keyId', 1, .new⟩,
    ?_, ?_, rfl, rfl, rfl, rfl, hsized⟩
  · rw [new, hsealing, hopening]
    rfl
  · rw [new, hsealing', hmirror]
    rfl

/-! ## Sealing a sequence -/

/-- A packet to seal, with the initialisation vector a CBC packet draws. -/
abbrev Send := Bytes × Block

/-- One call of `seal`. -/
def sealStep (crypto : PacketCrypto) (channel : DataChannel) (send : Send) :
    DataChannel × Except String Bytes :=
  ((channel.sealPacket crypto send.1 send.2).2, (channel.sealPacket crypto send.1 send.2).1)

/-- A sequence of calls of `seal`. -/
def sealRun (crypto : PacketCrypto) (sender : DataChannel) (sends : List Send) :
    Config DataChannel Send (Except String Bytes) :=
  exec (sealStep crypto) sender sends

/-- The channel once it has sealed `count` packets. -/
def numbered (sender : DataChannel) (count : Nat) : DataChannel :=
  { sender with nextPacketId := UInt32.ofNat (min (count + 1) 4294967295) }

theorem toNat_numbered (sender : DataChannel) (count : Nat) :
    (sender.numbered count).nextPacketId.toNat = min (count + 1) 4294967295 := by
  show (UInt32.ofNat (min (count + 1) 4294967295)).toNat = _
  rw [UInt32.toNat_ofNat']
  omega

variable {crypto : PacketCrypto} {sender receiver : DataChannel}

theorem sealPacket_exhausted {channel : DataChannel} (h : channel.nextPacketId = 0xffffffff)
    (packet : Bytes) (iv : Block) :
    ∃ reason, channel.sealPacket crypto packet iv = (.error reason, channel) :=
  ⟨_, if_pos h⟩

theorem sealPacket_ok (hseals : crypto.Seals) {channel : DataChannel}
    (hsized : channel.sealing.Sized)
    (hnext : channel.nextPacketId ≠ 0xffffffff) {packet : Bytes} (hfits : packet.length ≤ 2 ^ 36)
    (iv : Block) :
    ∃ framed, (channel.sealPacket crypto packet iv).1 = .ok framed := by
  rw [sealPacket, if_neg hnext]
  cases hsealing : channel.sealing with
  | cbc cipher mac => exact ⟨_, rfl⟩
  | aead sealer implicitIv =>
    rw [hsealing] at hsized
    have hnonce : (nonce implicitIv channel.nextPacketId).length = 12 := by
      rw [nonce, length_append, length_beU32, hsized]
    have hframed : (channel.header ++ beU32 channel.nextPacketId).length ≤ 2 ^ 36 := by
      rw [length_append, length_beU32, header]
      split
      · rw [length_beU32]
        decide
      · rw [length_singleton]
        decide
    obtain ⟨⟨body, tag⟩, hsealed⟩ := Option.isSome_iff_exists.1
      (hseals sealer _ _ packet hnonce hframed hfits)
    dsimp only
    rw [hsealed]
    exact ⟨_, rfl⟩

theorem sealPacket_snd (channel : DataChannel) (packet : Bytes) (iv : Block) :
    (channel.sealPacket crypto packet iv).2 =
      if channel.nextPacketId = 0xffffffff then channel
      else { channel with nextPacketId := channel.nextPacketId + 1 } := by
  rw [sealPacket]
  dsimp only
  split
  · rfl
  · split
    · split <;> rfl
    · rfl

theorem numbered_exhausted_iff (sender : DataChannel) (count : Nat) :
    (sender.numbered count).nextPacketId = 0xffffffff ↔ 4294967294 ≤ count := by
  rw [← UInt32.toNat_inj, toNat_numbered, show (0xffffffff : UInt32).toNat = 4294967295 from rfl]
  omega

theorem sealPacket_numbered (sender : DataChannel) (count : Nat) (packet : Bytes) (iv : Block) :
    ((sender.numbered count).sealPacket crypto packet iv).2 = sender.numbered (count + 1) := by
  rw [sealPacket_snd]
  have hnext : ∀ id : UInt32, id.toNat = min (count + 1 + 1) 4294967295 →
      { sender with nextPacketId := id } = sender.numbered (count + 1) := by
    intro id hid
    have heq : id = UInt32.ofNat (min (count + 1 + 1) 4294967295) := by
      rw [← hid, UInt32.ofNat_toNat]
    rw [heq]
    rfl
  have hid := toNat_numbered sender count
  by_cases hend : (sender.numbered count).nextPacketId = 0xffffffff
  · rw [if_pos hend]
    have hcount := (numbered_exhausted_iff sender count).1 hend
    exact hnext _ (hid.trans (by omega))
  · rw [if_neg hend]
    have hcount := mt (numbered_exhausted_iff sender count).2 hend
    refine hnext _ ?_
    rw [UInt32.toNat_add, show (1 : UInt32).toNat = 1 from rfl]
    omega

theorem numbered_zero (h : sender.nextPacketId = 1) : sender.numbered 0 = sender := by
  have hone : UInt32.ofNat (min (0 + 1) 4294967295) = sender.nextPacketId := by
    rw [h]
    rfl
  rw [numbered, hone]

theorem sealRun_spec (h : sender.nextPacketId = 1) (sends : List Send) :
    (sealRun crypto sender sends).state = sender.numbered sends.length ∧
      (sealRun crypto sender sends).log.length = sends.length ∧
      ∀ i send result, (sealRun crypto sender sends).log[i]? = some (send, result) →
        result = ((sender.numbered i).sealPacket crypto send.1 send.2).1 := by
  induction sends using List.reverseRecOn with
  | nil => exact ⟨(numbered_zero h).symm, rfl, fun i send result hget => by cases hget⟩
  | append_singleton sends send ih =>
    obtain ⟨hstate, hlength, hlog⟩ := ih
    have hrun : sealRun crypto sender (sends ++ [send]) =
        advance (sealStep crypto) (sealRun crypto sender sends) send := by
      rw [sealRun, exec, execFrom_append]
      rfl
    rw [hrun, advance_state, advance_log, hstate, sealStep]
    refine ⟨?_, ?_, ?_⟩
    · rw [sealPacket_numbered, length_append, length_singleton]
    · rw [length_append, length_append, hlength, length_singleton,
        length_singleton]
    intro i send' result hget
    rw [getElem?_append] at hget
    split at hget
    · exact hlog i send' result hget
    next hlast =>
      rw [getElem?_singleton] at hget
      split at hget
      next hzero =>
        have hi : i = sends.length := by omega
        cases hget
        rw [hi]
      · cases hget

/-- The packet that was sealed at a position, and the bytes it was sealed to. -/
def Carried (crypto : PacketCrypto) (sender : DataChannel) (sends : List Send) (i : Nat)
    (framed packet : Bytes) : Prop :=
  ∃ iv, (sealRun crypto sender sends).log[i]? = some ((packet, iv), .ok framed)

/-- Before the ids are used up, every packet of the sequence is sealed. -/
theorem exists_carried (hseals : crypto.Seals) (hnext : sender.nextPacketId = 1)
    (hsized : sender.sealing.Sized) {sends : List Send} {i : Nat} {packet : Bytes} {iv : Block}
    (hget : sends[i]? = some (packet, iv))
    (hfits : packet.length ≤ 2 ^ 36) (hi : i + 1 < 4294967295) :
    ∃ framed, Carried crypto sender sends i framed packet := by
  have hinputs : (sealRun crypto sender sends).log.map Prod.fst = sends := execFrom_inputs _ sends
  rw [← hinputs, getElem?_map] at hget
  obtain ⟨⟨send, result⟩, hentry, rfl⟩ := Option.map_eq_some_iff.1 hget
  obtain ⟨framed, hframed⟩ := @sealPacket_ok crypto hseals (sender.numbered i) hsized
    (mt (numbered_exhausted_iff sender i).1 (by omega)) packet hfits iv
  rw [(sealRun_spec hnext sends).2.2 i _ result hentry, hframed] at hentry
  exact ⟨framed, iv, hentry⟩

theorem Carried.unwrap {sends : List Send} {i : Nat} {framed packet : Bytes}
    (hcarried : Carried crypto sender sends i framed packet) (h : crypto.Correct)
    (hkey : sender.keyId ≤ 7) (hnext : sender.nextPacketId = 1) {opener : DataChannel}
    (hmirror : opener.opening = sender.sealing) :
    i + 1 < 4294967295 ∧
      unwrap crypto opener framed = some (.ok (UInt32.ofNat (i + 1), packet)) := by
  obtain ⟨iv, hget⟩ := hcarried
  have hresult := (sealRun_spec hnext sends).2.2 i _ _ hget
  have hroom : i + 1 < 4294967295 := by
    by_contra hfull
    have hend : (sender.numbered i).nextPacketId = 0xffffffff :=
      (numbered_exhausted_iff sender i).2 (by omega)
    obtain ⟨reason, hreason⟩ := @sealPacket_exhausted crypto _ hend packet iv
    rw [hreason] at hresult
    cases hresult
  refine ⟨hroom, ?_⟩
  have hopened := @unwrap_sealed crypto h (sender.numbered i) opener hkey hmirror packet framed iv
    hresult.symm
  have hid : (sender.numbered i).nextPacketId = UInt32.ofNat (i + 1) := by
    show UInt32.ofNat (min (i + 1) 4294967295) = _
    rw [Nat.min_eq_left (by omega)]
  rw [hopened, hid]

/-! ## Opening what arrives -/

/-- The position of a sealed packet in the sequence, and its bytes. -/
abbrev Arrived := Nat × Bytes

/-- One call of `open`; there is no result where an access is out of range. -/
def openStep (crypto : PacketCrypto) (channel : DataChannel) (arrived : Arrived) :
    DataChannel × Option (Except String (Option Bytes)) :=
  match channel.openPacket crypto arrived.2 with
  | some (result, after) => (after, some result)
  | none => (channel, none)

/-- A sequence of calls of `open`. -/
def openRun (crypto : PacketCrypto) (receiver : DataChannel) (arrivals : List Arrived) :
    Config DataChannel Arrived (Option (Except String (Option Bytes))) :=
  exec (openStep crypto) receiver arrivals

/-- What arrives at position `i` after `before` is new and in reach. -/
def Due (before : List Arrived) (i : Nat) : Prop :=
  (∀ a ∈ before, a.1 ≠ i) ∧ ∀ a ∈ before, a.1 < i + 64

instance (before : List Arrived) (i : Nat) : Decidable (Due before i) :=
  inferInstanceAs (Decidable (_ ∧ _))

/-- What `open` gives for the packet of position `i` when it arrives after `before`. -/
def bodyDue (before : List Arrived) (i : Nat) (packet : Bytes) : Option Bytes :=
  if Due before i ∧ packet ≠ ping then some packet else none

/-- The ids of what has arrived. -/
def idsOf (arrivals : List Arrived) : List UInt32 := arrivals.map fun a => UInt32.ofNat (a.1 + 1)

theorem toNat_id {i : Nat} (h : i + 1 < 4294967295) : (UInt32.ofNat (i + 1)).toNat = i + 1 := by
  rw [UInt32.toNat_ofNat']
  omega

theorem fresh_iff_due {before : List Arrived} {i : Nat}
    (hbefore : ∀ a ∈ before, a.1 + 1 < 4294967295) (hi : i + 1 < 4294967295) :
    ReplayWindow.Fresh (idsOf before) (UInt32.ofNat (i + 1)) ↔ Due before i := by
  refine and_congr ?_ ?_
  · rw [idsOf, mem_map]
    constructor
    · intro hnot a ha heq
      exact hnot ⟨a, ha, by rw [heq]⟩
    · rintro hne ⟨a, ha, heq⟩
      have hnat := congrArg UInt32.toNat heq
      rw [toNat_id (hbefore a ha), toNat_id hi] at hnat
      exact hne a ha (by omega)
  constructor
  · intro hall a ha
    have hlt := hall _ (mem_map_of_mem ha)
    rw [toNat_id (hbefore a ha), toNat_id hi] at hlt
    omega
  · intro hall id hid
    obtain ⟨a, ha, rfl⟩ := mem_map.1 hid
    have hlt := hall a ha
    rw [toNat_id (hbefore a ha), toNat_id hi]
    omega

/-- Everything that arrives was sealed by the sender. -/
def Genuine (crypto : PacketCrypto) (sender : DataChannel) (sends : List Send)
    (arrivals : List Arrived) : Prop :=
  ∀ a ∈ arrivals, ∃ packet, Carried crypto sender sends a.1 a.2 packet

section Opening

variable {sends : List Send}

/-- One arrival at a channel that has opened `before`. -/
theorem openStep_spec (h : crypto.Correct) (hkey : sender.keyId ≤ 7)
    (hnext : sender.nextPacketId = 1)
    {channel : DataChannel} (hmirror : channel.opening = sender.sealing) {before : List Arrived}
    (hbefore : Genuine crypto sender sends before)
    (hwindow : channel.replay.Represents (idsOf before)) {a : Arrived} {packet : Bytes}
    (hcarried : Carried crypto sender sends a.1 a.2 packet) :
    (openStep crypto channel a).2 = some (.ok (bodyDue before a.1 packet)) ∧
      (openStep crypto channel a).1.opening = sender.sealing ∧
      (openStep crypto channel a).1.replay.Represents (idsOf (before ++ [a])) := by
  have hrooms : ∀ b ∈ before, b.1 + 1 < 4294967295 := by
    intro b hb
    obtain ⟨other, hother⟩ := hbefore b hb
    exact (hother.unwrap h hkey hnext hmirror).1
  obtain ⟨hroom, hunwrap⟩ := hcarried.unwrap h hkey hnext hmirror
  have hpositive : 0 < (UInt32.ofNat (a.1 + 1)).toNat := by
    rw [toNat_id hroom]
    omega
  obtain ⟨haccepted, hafter⟩ := ReplayWindow.accept_represents hwindow hpositive
  have hids : idsOf (before ++ [a]) = idsOf before ++ [UInt32.ofNat (a.1 + 1)] := by
    rw [idsOf, map_append]
    rfl
  rw [← hids] at hafter
  have hdue : ReplayWindow.Fresh (idsOf before) (UInt32.ofNat (a.1 + 1)) ↔ Due before a.1 :=
    fresh_iff_due hrooms hroom
  rw [openStep, openPacket, hunwrap]
  dsimp only
  rw [haccepted]
  by_cases hnew : Due before a.1
  · rw [decide_eq_true (hdue.2 hnew), Bool.not_true]
    by_cases hping : packet = ping
    · have hbody : bodyDue before a.1 packet = none := if_neg fun hboth => hboth.2 hping
      rw [if_pos hping, hbody]
      exact ⟨rfl, hmirror, hafter⟩
    · have hbody : bodyDue before a.1 packet = some packet := if_pos ⟨hnew, hping⟩
      rw [if_neg hping, hbody]
      exact ⟨rfl, hmirror, hafter⟩
  · have hbody : bodyDue before a.1 packet = none := if_neg fun hboth => hnew hboth.1
    rw [decide_eq_false (mt hdue.1 hnew), Bool.not_false, hbody]
    exact ⟨rfl, hmirror, hafter⟩

theorem openRun_state (h : crypto.Correct) (hkey : sender.keyId ≤ 7)
    (hnext : sender.nextPacketId = 1)
    (hmirror : receiver.opening = sender.sealing) (hnew : receiver.replay = .new)
    (arrivals : List Arrived) :
    Genuine crypto sender sends arrivals →
      (openRun crypto receiver arrivals).state.opening = sender.sealing ∧
        (openRun crypto receiver arrivals).state.replay.Represents (idsOf arrivals) := by
  induction arrivals using List.reverseRecOn with
  | nil =>
    intro _
    refine ⟨hmirror, ?_⟩
    show receiver.replay.Represents []
    rw [hnew]
    exact ReplayWindow.represents_new
  | append_singleton before a ih =>
    intro hgenuine
    have hbefore : Genuine crypto sender sends before :=
      fun b hb => hgenuine b (mem_append_left _ hb)
    obtain ⟨packet, hcarried⟩ := hgenuine a (mem_append_right _ (mem_singleton_self _))
    obtain ⟨hopening, hwindow⟩ := ih hbefore
    have hrun : openRun crypto receiver (before ++ [a]) =
        advance (openStep crypto) (openRun crypto receiver before) a := by
      rw [openRun, exec, execFrom_append]
      rfl
    rw [hrun]
    exact (openStep_spec h hkey hnext hopening hbefore hwindow hcarried).2

/-- The bodies that were returned for a position. -/
def returned (log : List (Arrived × Option (Except String (Option Bytes)))) (i : Nat) :
    List Bytes :=
  log.filterMap fun e =>
    match e.2 with
    | some (.ok body) => if e.1.1 = i then body else none
    | _ => none

/-- The packet of a position is returned at most once. -/
theorem returned_run (h : crypto.Correct) (hkey : sender.keyId ≤ 7)
    (hnext : sender.nextPacketId = 1)
    (hmirror : receiver.opening = sender.sealing) (hnew : receiver.replay = .new) {i : Nat}
    {framed packet : Bytes} (hcarried : Carried crypto sender sends i framed packet)
    (arrivals : List Arrived) :
    Genuine crypto sender sends arrivals →
      (returned (openRun crypto receiver arrivals).log i = [] ∨
        returned (openRun crypto receiver arrivals).log i = [packet]) ∧
      ((∀ a ∈ arrivals, a.1 ≠ i) → returned (openRun crypto receiver arrivals).log i = []) := by
  induction arrivals using List.reverseRecOn with
  | nil => exact fun _ => ⟨.inl rfl, fun _ => rfl⟩
  | append_singleton before a ih =>
    intro hgenuine
    have hbefore : Genuine crypto sender sends before :=
      fun b hb => hgenuine b (mem_append_left _ hb)
    obtain ⟨other, hother⟩ := hgenuine a (mem_append_right _ (mem_singleton_self _))
    obtain ⟨honce, hnone⟩ := ih hbefore
    obtain ⟨hopening, hwindow⟩ := openRun_state h hkey hnext hmirror hnew before hbefore
    have hrun : openRun crypto receiver (before ++ [a]) =
        advance (openStep crypto) (openRun crypto receiver before) a := by
      rw [openRun, exec, execFrom_append]
      rfl
    have hresult := (openStep_spec h hkey hnext hopening hbefore hwindow hother).1
    rw [hrun, advance_log, hresult]
    have hsplit : ∀ tail, returned ((openRun crypto receiver before).log ++ tail) i =
        returned (openRun crypto receiver before).log i ++ returned tail i :=
      fun tail => filterMap_append
    rw [hsplit]
    by_cases hi : a.1 = i
    · -- The position itself arrives; what is returned for it was returned for no earlier arrival.
      have hlast : returned [(a, some (.ok (bodyDue before a.1 other)))] i =
          (bodyDue before a.1 other).toList := by
        rw [returned, filterMap_cons]
        simp only [if_pos hi, filterMap_nil]
        cases bodyDue before a.1 other with
        | none | some => rfl
      have hsame : other = packet := by
        obtain ⟨iv, hget⟩ := hother
        obtain ⟨iv', hget'⟩ := hcarried
        rw [hi, hget'] at hget
        exact (Prod.mk.inj (Prod.mk.inj (Option.some.inj hget)).1).1.symm
      rw [hlast]
      refine ⟨?_, fun hall => absurd hi (hall a (by simp))⟩
      rw [bodyDue]
      split
      next hdue =>
        rw [hnone (by rw [← hi]; exact hdue.1.1), hsame]
        exact .inr rfl
      · rw [Option.toList_none, append_nil]
        exact honce
    · have hlast : returned [(a, some (.ok (bodyDue before a.1 other)))] i = [] := by
        rw [returned, filterMap_cons]
        simp only [if_neg hi, filterMap_nil]
      rw [hlast, append_nil]
      exact ⟨honce, fun hall => hnone fun b hb => hall b (mem_append_left _ hb)⟩

end Opening

/-- The data channel from end to end, for every cipher and digest, with and without a peer id, for
the key ids 0 to 7. The packet ids of a sequence count up from 1, and once they are used up a call
of `seal` is an error that changes nothing; before, it seals. What arrives, in any order and any
number of times, is opened to the packet that was sealed, when it is new and less than 64 ids behind
and no keepalive, and to nothing otherwise; so no packet is returned twice. -/
theorem data_round_trip (crypto : PacketCrypto) (h : crypto.Correct) (material : KeyMaterial)
    (cipher : DataCipher) (digest : Digest) (peerId peerId' : Option UInt32) (keyId keyId' : UInt8)
    (hkey : keyId ≤ 7) :
    ∃ sender receiver, new material cipher digest peerId keyId = .ok sender ∧
      new material.mirror cipher digest peerId' keyId' = .ok receiver ∧
      ∀ sends : List Send,
        ((sealRun crypto sender sends).state.nextPacketId.toNat =
            min (sends.length + 1) 4294967295 ∧
          (4294967294 ≤ sends.length → ∀ packet iv, ∃ reason,
            (sealRun crypto sender sends).state.sealPacket crypto packet iv =
              (.error reason, (sealRun crypto sender sends).state)) ∧
          (crypto.Seals → ∀ (i : Nat) packet iv, sends[i]? = some (packet, iv) →
            packet.length ≤ 2 ^ 36 →
            i + 1 < 4294967295 → ∃ framed, Carried crypto sender sends i framed packet) ∧
          ∀ i framed packet, Carried crypto sender sends i framed packet →
            i + 1 < 4294967295 ∧
              unwrap crypto receiver framed = some (.ok (UInt32.ofNat (i + 1), packet))) ∧
        (∀ before a packet, Genuine crypto sender sends before →
          Carried crypto sender sends a.1 a.2 packet →
            (openStep crypto (openRun crypto receiver before).state a).2 =
              some (.ok (bodyDue before a.1 packet))) ∧
        ∀ arrivals i framed packet, Genuine crypto sender sends arrivals →
          Carried crypto sender sends i framed packet →
            returned (openRun crypto receiver arrivals).log i = [] ∨
              returned (openRun crypto receiver arrivals).log i = [packet] := by
  obtain ⟨sender, receiver, hsender, hreceiver, hmirror, hid, hnext, hnew, hsized⟩ :=
    new_mirrored material cipher digest peerId peerId' keyId keyId'
  have hkey : sender.keyId ≤ 7 := by
    rw [hid]
    exact hkey
  refine ⟨sender, receiver, hsender, hreceiver, fun sends => ⟨⟨?_, ?_, ?_, ?_⟩, ?_, ?_⟩⟩
  · rw [(sealRun_spec hnext sends).1, toNat_numbered]
  · intro hend packet iv
    apply sealPacket_exhausted
    rw [(sealRun_spec hnext sends).1]
    exact (numbered_exhausted_iff sender _).2 hend
  · exact fun hseals i packet iv hget => exists_carried hseals hnext hsized hget
  · exact fun i framed packet hcarried => hcarried.unwrap h hkey hnext hmirror
  · intro before a packet hbefore hcarried
    obtain ⟨hopening, hwindow⟩ := openRun_state h hkey hnext hmirror hnew before hbefore
    exact (openStep_spec h hkey hnext hopening hbefore hwindow hcarried).1
  · intro arrivals i framed packet hgenuine hcarried
    exact (returned_run h hkey hnext hmirror hnew hcarried arrivals hgenuine).1

/-- What AES-128-GCM comes to under a key of zeros on the first and the second packet that are
sealed: the nonce, the associated data, the buffer, what it becomes and the tag. -/
def sealedGcm : List ((Bytes × Bytes × Bytes) × Bytes × Bytes) :=
  [(([0, 0, 0, 1] ++ replicate 8 0, [0x30, 0, 0, 0, 1], [0x45, 0]), [0xf7, 0x94],
      toBytes 16 0xf0c34d1c769ecac31e11d0ee78c9522a),
    (([0, 0, 0, 2] ++ replicate 8 0, [0x30, 0, 0, 0, 2], [0x45, 0, 1]), [0x68, 0x2c, 0x6e],
      toBytes 16 0x1aae9513750e76410138eb98e10b9d31)]

/-- The block that AES-128 makes, under a key of zeros, of what CBC gives it for the same two
packets. -/
def sealedBlock : Block ≃ Block :=
  (Equiv.swap (block 0x0000000145000a0a0a0a0a0a0a0a0a0a)
    (block 0xcc0c63d47467bcf557c759b6f88b9062)).trans
    (Equiv.swap (block 0x00000002450001090909090909090909)
      (block 0x28f418597ad7b41d927a8a08bcddc3f4))
where
  block (n : Nat) : Block := ⟨(toBytes 16 n).toArray, BigEndian.length_toBytes 16 n⟩

/-- The HMAC-SHA256 of the two blocks, behind an initialisation vector of zeros. -/
def signedBlocks : List (List Bytes × Bytes) :=
  [([replicate 16 0, toBytes 16 0xcc0c63d47467bcf557c759b6f88b9062],
      toBytes 32 0xa902e6021ccc280ba667bf60a29cc26574a031ecd714fdbe3feb49cfa0a5c9df),
    ([replicate 16 0, toBytes 16 0x28f418597ad7b41d927a8a08bcddc3f4],
      toBytes 32 0xa48b9ec0f22cd570949011e7fb8e64bda277243924cb2413d4443d0fbd5debb7)]

/-- The ciphers as they are on two packets under keys of zeros, and plain text elsewhere. -/
def zeroKeyCrypto : PacketCrypto where
  encryptDetached := fun _ nonce associated buffer =>
    some (((sealedGcm.find? fun e => e.1 = (nonce, associated, buffer)).map Prod.snd).getD (buffer,
      replicate 16 0))
  decryptDetached := fun _ _ _ buffer tag =>
    some (((sealedGcm.find? fun e => e.2.2 = tag).map fun e => e.1.2.2).getD buffer)
  encryptBlock := fun _ => sealedBlock
  decryptBlock := fun _ => sealedBlock.symm
  hmac := fun digest _ parts =>
    if digest = .sha256 then ((signedBlocks.find? fun e => e.1 = parts).map Prod.snd).getD
      (replicate 32 0)
    else replicate digest.outputLen 0

theorem zeroKeyCrypto_correct : zeroKeyCrypto.Correct where
  aead := by
    intro sealer nonce associated buffer body tag h
    obtain ⟨rfl, rfl⟩ := Prod.mk.inj (Option.some.inj h)
    cases hfind : sealedGcm.find? fun e => e.1 = (nonce, associated, buffer) with
    | none => exact ⟨length_replicate, rfl⟩
    | some e =>
      -- The two tags are different, so each is traced back to its packet.
      have hall : ∀ e ∈ sealedGcm, e.2.2.length = tagLen ∧
          sealedGcm.find? (fun e' => e'.2.2 = e.2.2) = some e := by
        decide +kernel
      obtain ⟨hlength, htraced⟩ := hall e (mem_of_find?_eq_some hfind)
      have hinput : e.1 = (nonce, associated, buffer) := by simpa using find?_some hfind
      refine ⟨hlength, ?_⟩
      show some (((sealedGcm.find? fun e' => e'.2.2 = e.2.2).map _).getD _) = _
      rw [htraced, Option.map_some, Option.getD_some, hinput]
  block := fun _ _ => sealedBlock.symm_apply_apply _
  hmac := by
    intro digest key parts
    dsimp only [zeroKeyCrypto]
    split
    next hdigest =>
      subst hdigest
      cases hfind : signedBlocks.find? fun e => e.1 = parts with
      | none => exact length_replicate
      | some e =>
        have hall : ∀ e ∈ signedBlocks, e.2.length = 32 := by decide +kernel
        exact hall e (mem_of_find?_eq_some hfind)
    · exact length_replicate

/-- Two packets, with initialisation vectors of zeros. -/
def twoPackets : List Send :=
  [([0x45, 0], Vector.replicate 16 0), ([0x45, 0, 1], Vector.replicate 16 0)]

/-- The second packet arrives first and is returned, the first after it, and the second again comes
to nothing. -/
def ReorderedAndRepeated (cipher : DataCipher) : Prop :=
  ∃ sender receiver first second,
    new (Vector.replicate 256 0) cipher .sha256 none 0 = .ok sender ∧
    new (KeyMaterial.mirror (Vector.replicate 256 0)) cipher .sha256 none 0 = .ok receiver ∧
    Carried zeroKeyCrypto sender twoPackets 0 first [0x45, 0] ∧
    Carried zeroKeyCrypto sender twoPackets 1 second [0x45, 0, 1] ∧
    (openStep zeroKeyCrypto receiver (1, second)).2 = some (.ok (some [0x45, 0, 1])) ∧
    (openStep zeroKeyCrypto (openRun zeroKeyCrypto receiver [(1, second)]).state (0, first)).2 =
      some (.ok (some [0x45, 0])) ∧
    (openStep zeroKeyCrypto (openRun zeroKeyCrypto receiver [(1, second), (0, first)]).state
      (1, second)).2 =
      some (.ok none)

theorem data_round_trip_zero_key :
    ReorderedAndRepeated .aes128Gcm ∧ ReorderedAndRepeated .aes128Cbc := by
  have hall : ∀ cipher, ReorderedAndRepeated cipher := by
    intro cipher
    obtain ⟨sender, receiver, hsender, hreceiver, hrun⟩ :=
      data_round_trip zeroKeyCrypto zeroKeyCrypto_correct
      (Vector.replicate 256 0) cipher .sha256 none none 0 0 (by decide)
    obtain ⟨⟨-, -, hseals, -⟩, hopens, -⟩ := hrun twoPackets
    have hsealed : zeroKeyCrypto.Seals := fun _ _ _ _ _ _ _ => rfl
    obtain ⟨first, hfirst⟩ := hseals hsealed 0 _ _ rfl (by decide) (by decide)
    obtain ⟨second, hsecond⟩ := hseals hsealed 1 _ _ rfl (by decide) (by decide)
    have hone : Genuine zeroKeyCrypto sender twoPackets [(1, second)] := by
      simpa [Genuine] using ⟨_, hsecond⟩
    have htwo : Genuine zeroKeyCrypto sender twoPackets [(1, second), (0, first)] := by
      simpa [Genuine] using ⟨⟨_, hsecond⟩, _, hfirst⟩
    refine ⟨sender, receiver, first, second, hsender, hreceiver, hfirst, hsecond, ?_, ?_, ?_⟩
    · exact hopens [] (1, second) _ nofun hsecond
    · exact hopens [(1, second)] (0, first) _ hone hfirst
    · exact hopens [(1, second), (0, first)] (1, second) _ htwo hsecond
  exact ⟨hall _, hall _⟩

end DataChannel

end GamePath.Engine.OpenVpn
