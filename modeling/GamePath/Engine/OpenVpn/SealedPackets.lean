import GamePath.Engine.OpenVpn.DataChannel

/-!
# Opening what was sealed

`DataChannel::seal` and `DataChannel::open` of `engine/src/openvpn/crypto.rs` are written apart from
each other, each with both layouts. What one direction of keys seals, the same direction opens to
the same packet id and the same packet (`unwrap_sealed`), whatever the crates compute, as long as
that can be undone (`PacketCrypto.Correct`).
-/

namespace GamePath.Engine.OpenVpn

open Lib List

/-- What the crates promise: an AEAD of a 16-byte tag opens what it sealed, a block decrypts to what
was encrypted, and an HMAC is as long as its digest. -/
structure PacketCrypto.Correct (crypto : PacketCrypto) : Prop where
  aead : ∀ sealer nonce associated buffer body tag,
    crypto.encryptDetached sealer nonce associated buffer = some (body, tag) →
      tag.length = tagLen ∧ crypto.decryptDetached sealer nonce associated body tag = some buffer
  block : ∀ cipher block, crypto.decryptBlock cipher (crypto.encryptBlock cipher block) = block
  hmac : ∀ digest key parts, (crypto.hmac digest key parts).length = digest.outputLen

/-! ## Numbers -/

theorem length_beU32 (v : UInt32) : (beU32 v).length = 4 := BigEndian.length_toBytes 4 _

theorem u32OfBe_beU32 (v : UInt32) : u32OfBe (beU32 v) = v := by
  have hlt : v.toNat < 256 ^ 4 := v.toNat_lt
  rw [u32OfBe, beU32, BigEndian.ofBytes_toBytes, Nat.mod_eq_of_lt hlt]
  exact UInt32.ofNat_toNat

theorem head?_beU32 {word low : UInt32} {high : UInt8} (hlow : low.toNat < 2 ^ 24)
    (hword : word.toNat = high.toNat * 2 ^ 24 + low.toNat) : (beU32 word).head? = some high := by
  have hhigh := high.toNat_lt
  rw [beU32, BigEndian.toBytes, head?_cons]
  congr 1
  rw [← UInt8.toNat_inj, UInt8.toNat_ofNat']
  omega

theorem toNat_and_mask (low : UInt32) : (low &&& 0xffffff).toNat < 2 ^ 24 := by
  rw [UInt32.toNat_and]
  refine Nat.and_lt_two_pow _ ?_
  decide

theorem toNat_shift_or (high : UInt8) {low : UInt32} (hlow : low.toNat < 2 ^ 24) :
    (high.toUInt32 <<< 24 ||| low).toNat = high.toNat * 2 ^ 24 + low.toNat := by
  have hhigh := high.toNat_lt
  have hshift : (high.toUInt32 <<< 24).toNat = high.toNat <<< 24 := by
    rw [UInt32.toNat_shiftLeft, UInt8.toNat_toUInt32, show (24 : UInt32).toNat % 32 = 24 from rfl]
    omega
  rw [UInt32.toNat_or, hshift, ← Nat.shiftLeft_add_eq_or_of_lt hlow, Nat.shiftLeft_eq]

/-! ## Blocks -/

theorem xorBlock_xorBlock (block previous : Block) :
    xorBlock (xorBlock block previous) previous = block := by
  apply Vector.ext
  intro i hi
  simp only [xorBlock, Vector.getElem_ofFn, Fin.getElem_fin]
  rw [UInt8.xor_assoc, UInt8.xor_self, UInt8.xor_zero]

/-- Decrypting a chain undoes encrypting it. -/
theorem decryptChain_encryptChain {encryptBlock decryptBlock : Block → Block}
    (h : ∀ block, decryptBlock (encryptBlock block) = block) (blocks : List Block) :
    ∀ previous, decryptChain decryptBlock previous (encryptChain encryptBlock previous blocks) =
      blocks := by
  induction blocks with
  | nil => exact fun _ => rfl
  | cons block blocks ih =>
    intro previous
    rw [encryptChain, decryptChain, h, xorBlock_xorBlock, ih]

theorem length_encryptChain (encryptBlock : Block → Block) (blocks : List Block) :
    ∀ previous, (encryptChain encryptBlock previous blocks).length = blocks.length := by
  induction blocks with
  | nil => exact fun _ => rfl
  | cons block blocks ih =>
    intro previous
    rw [encryptChain, length_cons, ih, length_cons]

/-- The blocks of a buffer are the buffer, as far as they go. -/
theorem flatMap_chunksExact (n : Nat) :
    ∀ bytes : Bytes, n * cbcBlock ≤ bytes.length →
      (chunksExact n bytes).flatMap Vector.toList = bytes.take (n * cbcBlock) := by
  induction n with
  | zero => exact fun bytes _ => by rw [Nat.zero_mul]; rfl
  | succ n ih =>
    intro bytes hlong
    rw [Nat.succ_mul] at hlong
    have hblock : cbcBlock = 16 := rfl
    have hfirst : (Vector.ofFn fun i : Fin 16 => bytes.getD i.val 0).toList =
        bytes.take cbcBlock := by
      apply ext_getElem
      · rw [Vector.length_toList, length_take]
        omega
      · intro i h1 h2
        rw [length_take] at h2
        have hi : i < bytes.length := by omega
        simp [hi]
    rw [chunksExact, flatMap_cons, hfirst, ih _ (by rw [length_drop]; omega),
      Nat.succ_mul, Nat.add_comm, take_add]

theorem chunksExact_flatMap (blocks : List Block) (rest : Bytes) :
    chunksExact blocks.length (blocks.flatMap Vector.toList ++ rest) = blocks := by
  induction blocks with
  | nil => rfl
  | cons block blocks ih =>
    have hlength : block.toList.length = cbcBlock := Vector.length_toList
    rw [length_cons, chunksExact, flatMap_cons, append_assoc, drop_left' hlength]
    congr 1
    apply Vector.ext
    intro i hi
    have hin : i < block.toList.length := by
      rw [Vector.length_toList]
      exact hi
    simp only [Vector.getElem_ofFn]
    rw [getD_eq_getElem?_getD, getElem?_append_left hin, getElem?_eq_getElem hin]
    rfl

/-- What is done to the blocks of a buffer and undone leaves the buffer. -/
theorem mapBlocks_mapBlocks {f g : List Block → List Block}
    (hlength : ∀ blocks, (f blocks).length = blocks.length) (h : ∀ blocks, g (f blocks) = blocks)
    (buffer : Bytes) : mapBlocks g (mapBlocks f buffer) = buffer := by
  have hsame := length_mapBlocks hlength buffer
  have hle : buffer.length / cbcBlock * cbcBlock ≤ buffer.length := Nat.div_mul_le_self _ _
  rw [mapBlocks, hsame]
  have hcount : (f (chunksExact (buffer.length / cbcBlock) buffer)).length =
      buffer.length / cbcBlock := by
    rw [hlength, length_chunksExact]
  have hblocks : chunksExact (buffer.length / cbcBlock) (mapBlocks f buffer) =
      f (chunksExact (buffer.length / cbcBlock) buffer) := by
    have hread := chunksExact_flatMap (f (chunksExact (buffer.length / cbcBlock) buffer))
      (buffer.drop (buffer.length / cbcBlock * cbcBlock))
    rw [hcount] at hread
    exact hread
  have hrest : (mapBlocks f buffer).drop (buffer.length / cbcBlock * cbcBlock) =
      buffer.drop (buffer.length / cbcBlock * cbcBlock) := by
    apply drop_left'
    rw [length_flatMap_blocks, hcount]
  rw [hblocks, h, hrest, flatMap_chunksExact _ _ hle, take_append_drop]

theorem CbcCipher.decrypt_encrypt {crypto : PacketCrypto} (h : crypto.Correct) (cipher : CbcCipher)
    (iv : Block) (buffer : Bytes) :
    cipher.decrypt crypto iv (cipher.encrypt crypto iv buffer) = buffer :=
  mapBlocks_mapBlocks (fun blocks => length_encryptChain _ blocks iv)
    (fun blocks => decryptChain_encryptChain (h.block cipher) blocks iv) buffer

theorem CbcCipher.length_encrypt (crypto : PacketCrypto) (cipher : CbcCipher) (iv : Block)
    (buffer : Bytes) : (cipher.encrypt crypto iv buffer).length = buffer.length :=
  length_mapBlocks (fun blocks => length_encryptChain _ blocks iv) buffer

namespace DataChannel

/-! ## Headers -/

theorem opcode_shift {keyId : UInt8} (h : keyId ≤ 7) (opcode : UInt8)
    (hopcode : opcode = pDataV1 ∨ opcode = pDataV2) :
    ((opcode <<< 3) ||| keyId) >>> 3 = opcode := by
  have hcases : keyId = 0 ∨ keyId = 1 ∨ keyId = 2 ∨ keyId = 3 ∨ keyId = 4 ∨ keyId = 5 ∨ keyId = 6 ∨
      keyId = 7 := by
    have hle := UInt8.le_iff_toNat_le.1 h
    have h7 : (7 : UInt8).toNat = 7 := rfl
    simp only [← UInt8.toNat_inj]
    show keyId.toNat = 0 ∨ keyId.toNat = 1 ∨ keyId.toNat = 2 ∨ keyId.toNat = 3 ∨ keyId.toNat = 4 ∨
      keyId.toNat = 5 ∨ keyId.toNat = 6 ∨ keyId.toNat = 7
    omega
  rcases hopcode with rfl | rfl
  · rcases hcases with rfl | rfl | rfl | rfl | rfl | rfl | rfl | rfl
    all_goals decide
  · rcases hcases with rfl | rfl | rfl | rfl | rfl | rfl | rfl | rfl
    all_goals decide

/-- The opcode of a sealed packet announces the header it has. -/
theorem opcodeLen_header {channel : DataChannel} (h : channel.keyId ≤ 7) (rest : Bytes) :
    opcodeLen (channel.header ++ rest) = some (.ok channel.header.length) := by
  rw [header]
  cases channel.peerId with
  | none =>
    show opcodeLen (((pDataV1 <<< 3) ||| channel.keyId) :: rest) = _
    rw [opcodeLen, opcode_shift h pDataV1 (.inl rfl), if_pos rfl]
    rfl
  | some peerId =>
    dsimp only
    have hlow := toNat_and_mask peerId
    have hhead := head?_beU32 hlow (toNat_shift_or ((pDataV2 <<< 3) ||| channel.keyId) hlow)
    have hlength := length_beU32
      (((pDataV2 <<< 3) ||| channel.keyId).toUInt32 <<< 24 ||| (peerId &&& 0xffffff))
    generalize beU32 (((pDataV2 <<< 3) ||| channel.keyId).toUInt32 <<< 24 |||
      (peerId &&& 0xffffff)) =
      bytes at hhead hlength ⊢
    cases bytes with
    | nil => cases hhead
    | cons first bytes =>
      cases hhead
      rw [cons_append, opcodeLen, opcode_shift h pDataV2 (.inr rfl), if_pos rfl, hlength]

/-! ## The two layouts -/

variable {crypto : PacketCrypto}

/-- The AEAD layout: header, packet id, tag, ciphertext. -/
theorem openAead_sealed (h : crypto.Correct) {sealer : Sealer}
    {implicitIv front packet body tag : Bytes} {packetId : UInt32}
    (hsealed : crypto.encryptDetached sealer (nonce implicitIv packetId) (front ++ beU32 packetId)
      packet = some (body, tag)) :
    openAead crypto sealer implicitIv (front ++ beU32 packetId ++ tag ++ body) front.length =
      some (.ok (packetId, packet)) := by
  obtain ⟨htag, hopens⟩ := h.aead _ _ _ _ _ _ hsealed
  have hid := length_beU32 packetId
  have hframed : (front ++ beU32 packetId).length = front.length + 4 := by
    rw [length_append, hid]
  have hlong : front.length + 4 + tagLen ≤ (front ++ beU32 packetId ++ tag ++ body).length := by
    rw [length_append, length_append, htag]
    omega
  have htake : (front ++ beU32 packetId ++ tag ++ body).take (front.length + 4) =
      front ++ beU32 packetId := by
    rw [append_assoc]
    exact take_left' hframed
  have hdrop : (front ++ beU32 packetId ++ tag ++ body).drop (front.length + 4) = tag ++ body := by
    rw [append_assoc (front ++ beU32 packetId)]
    exact drop_left' hframed
  have hpacketId : (sliceTo (front ++ beU32 packetId ++ tag ++ body) (front.length + 4)).bind
      (fun bytes => (sliceFrom bytes front.length).bind readU32) = some packetId := by
    rw [sliceTo_eq (by omega), Option.bind_some, htake, sliceFrom_eq (by omega), Option.bind_some,
      drop_left, readU32_eq (by omega), take_of_length_le (by omega), u32OfBe_beU32]
  unfold openAead
  simp only [if_neg (Nat.not_lt.2 hlong)]
  rw [within_bind hpacketId, within_bind (splitAt_eq (by omega))]
  rw [hdrop, htake, within_bind (splitAt_eq (by rw [length_append]; omega))]
  rw [take_left' htag, drop_left' htag, hopens]
  rfl

/-- A body with its padding comes out without it. -/
theorem unpad_padded (packetId : UInt32) (packet : Bytes) {padding : Nat} (hpos : 0 < padding)
    (hblock : padding ≤ cbcBlock) :
    unpad (beU32 packetId ++ packet ++ List.replicate padding (UInt8.ofNat padding)) =
      some (.ok (packetId, packet)) := by
  have hid := length_beU32 packetId
  have hbyte : (UInt8.ofNat padding).toNat = padding := by
    rw [UInt8.toNat_ofNat']
    have : cbcBlock = 16 := rfl
    omega
  have hlast : (beU32 packetId ++ packet ++ List.replicate padding (UInt8.ofNat padding)).getLast? =
      some (UInt8.ofNat padding) := by
    rw [getLast?_append, getLast?_replicate, if_neg (by omega)]
    rfl
  have hlength : (beU32 packetId ++ packet ++ List.replicate padding (UInt8.ofNat padding)).length =
      4 + packet.length + padding := by
    rw [length_append, length_append, hid, length_replicate]
  have hfront : (beU32 packetId ++ packet).length = 4 + packet.length := by
    rw [length_append, hid]
  unfold unpad
  rw [within_bind hlast]
  simp only [hbyte, hlength]
  rw [if_neg (by omega), Nat.add_sub_cancel, within_bind (sliceFrom_eq (by omega)),
    drop_left' hfront]
  rw [if_neg]
  · rw [take_left' hfront, within_bind (readU32_eq (by omega)),
      within_bind (sliceFrom_eq (by omega)), take_left' hid, drop_left' hid, u32OfBe_beU32]
    rfl
  · rw [any_eq_true]
    rintro ⟨byte, hmem, hne⟩
    rw [(mem_replicate.1 hmem).2] at hne
    simp [hbyte] at hne

theorem oneBlock_toList (iv : Block) : oneBlock iv.toList = some iv := by
  have hlength : iv.toList.length = 16 := Vector.length_toList
  rw [oneBlock, if_pos hlength]
  congr 1
  apply Vector.ext
  intro i hi
  have hin : i < iv.toList.length := by omega
  simp only [Vector.getElem_ofFn]
  rw [getD_eq_getElem?_getD, getElem?_eq_getElem hin]
  rfl

/-- The CBC layout: header, MAC, initialisation vector, and the padded body with the packet id in
front. -/
theorem openCbc_sealed (h : crypto.Correct) (cipher : CbcCipher) (mac : PacketMac)
    (front packet : Bytes) (packetId : UInt32) (iv : Block) {padding : Nat}
    (hpadding : padding = cbcBlock - (4 + packet.length) % cbcBlock) {body : Bytes}
    (hbody : body = cipher.encrypt crypto iv
      (beU32 packetId ++ packet ++ List.replicate padding (UInt8.ofNat padding))) :
    openCbc crypto cipher mac (front ++ mac.sign crypto [iv.toList, body] ++ iv.toList ++ body)
        front.length = some (.ok (packetId, packet)) := by
  have hblock : cbcBlock = 16 := rfl
  have hfull : 0 < padding ∧ padding ≤ 16 ∧ (4 + packet.length + padding) % 16 = 0 := by
    rw [hpadding, hblock]
    omega
  have hid := length_beU32 packetId
  have hmac : (mac.sign crypto [iv.toList, body]).length = mac.len := h.hmac _ _ _
  have hiv : iv.toList.length = cbcBlock := Vector.length_toList
  have hlength : body.length = 4 + packet.length + padding := by
    rw [hbody, CbcCipher.length_encrypt, length_append, length_append, hid,
      length_replicate]
  have hdrop : (front ++ mac.sign crypto [iv.toList, body] ++ iv.toList ++ body).drop front.length =
      mac.sign crypto [iv.toList, body] ++ (iv.toList ++ body) := by
    rw [append_assoc, append_assoc, drop_left]
  have hrest : (mac.sign crypto [iv.toList, body] ++ (iv.toList ++ body)).length =
      mac.len + cbcBlock + body.length := by
    rw [length_append, length_append, hiv]
    omega
  have hbytes : (front ++ mac.sign crypto [iv.toList, body] ++ iv.toList ++ body).length =
      front.length + (mac.len + cbcBlock + body.length) := by
    rw [append_assoc, append_assoc, length_append, hrest]
  unfold openCbc
  rw [within_bind (sliceFrom_eq (by omega)), hdrop]
  simp only [hrest, Nat.add_sub_cancel_left]
  rw [if_neg (by rw [hblock]; omega), within_bind (splitAt_eq (by omega))]
  rw [take_left' hmac, drop_left' hmac,
    within_bind (splitAt_eq (by rw [length_append]; omega))]
  rw [take_left' hiv, drop_left' hiv, oneBlock_toList]
  have hverify : mac.verify crypto [iv.toList, body] (mac.sign crypto [iv.toList, body]) = true :=
    decide_eq_true rfl
  rw [hverify]
  rw [within_bind rfl, hbody, CbcCipher.decrypt_encrypt h]
  exact unpad_padded packetId packet (by omega) (by omega)

/-- What one direction seals, the same direction opens. -/
theorem unwrap_sealed (h : crypto.Correct) {sender receiver : DataChannel} (hkey : sender.keyId ≤ 7)
    (hmirror : receiver.opening = sender.sealing) {packet framed : Bytes} {iv : Block}
    (hsealed : (sender.sealPacket crypto packet iv).1 = .ok framed) :
    unwrap crypto receiver framed = some (.ok (sender.nextPacketId, packet)) := by
  rw [sealPacket] at hsealed
  split at hsealed
  · cases hsealed
  rw [unwrap, hmirror]
  cases hprotection : sender.sealing with
  | aead sealer implicitIv =>
    rw [hprotection] at hsealed
    dsimp only at hsealed
    cases hencrypted : crypto.encryptDetached sealer (nonce implicitIv sender.nextPacketId)
        (sender.header ++ beU32 sender.nextPacketId) packet with
    | none =>
      rw [hencrypted] at hsealed
      cases hsealed
    | some result =>
      obtain ⟨body, tag⟩ := result
      rw [hencrypted] at hsealed
      cases hsealed
      have hopcode := opcodeLen_header hkey (beU32 sender.nextPacketId ++ tag ++ body)
      rw [← append_assoc, ← append_assoc] at hopcode
      rw [hopcode]
      exact openAead_sealed h hencrypted
  | cbc cipher mac =>
    rw [hprotection] at hsealed
    cases hsealed
    rw [append_assoc, append_assoc, opcodeLen_header hkey, ← append_assoc,
      ← append_assoc]
    exact openCbc_sealed h cipher mac _ packet _ iv rfl rfl

end DataChannel

end GamePath.Engine.OpenVpn
