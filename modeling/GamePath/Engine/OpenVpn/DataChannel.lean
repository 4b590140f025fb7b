import GamePath.Engine.OpenVpn.Control

/-!
# The OpenVPN data channel

`DataChannel` of `engine/src/openvpn/crypto.rs`: the keys of one generation, the packet ids and the
replay window. The ciphers of the crates (one block of AES, the three AEADs) and the keyed hash are
parameters (`PacketCrypto`); the chaining of the blocks and the layouts of a packet are the
source's.

An access that is out of range ends the program in the source; `Checked` has no result there.
`openPacket_eq_none_iff` says when that happens, and `openPacket_eq_of_error` that an error leaves
the channel as it was.
-/

namespace GamePath.Engine.OpenVpn

open Option

/-! ## Slices -/

/-- A result or an error text, or nothing where an access is out of range. -/
abbrev Checked (α : Type) : Type := ExceptT String Option α

/-- `Err`. -/
def fail {α : Type} (reason : String) : Checked α := some (.error reason)

/-- A value that is there unless an access is out of range. -/
def within {α : Type} (value : Option α) : Checked α := value.map .ok

/-- `&bytes[start..]`. -/
def sliceFrom (bytes : Bytes) (start : Nat) : Option Bytes :=
  if start ≤ bytes.length then some (bytes.drop start) else none

/-- `&bytes[..last]`. -/
def sliceTo (bytes : Bytes) (last : Nat) : Option Bytes :=
  if last ≤ bytes.length then some (bytes.take last) else none

def splitAt (bytes : Bytes) (mid : Nat) : Option (Bytes × Bytes) :=
  if mid ≤ bytes.length then some (bytes.take mid, bytes.drop mid) else none

def readU32 (bytes : Bytes) : Option UInt32 := (sliceTo bytes 4).map u32OfBe

/-! ## Ciphers -/

inductive DataCipher where
  | aes256Gcm
  | aes128Gcm
  | chaCha20Poly1305
  | aes256Cbc
  | aes192Cbc
  | aes128Cbc
  deriving DecidableEq

def DataCipher.asStr : DataCipher → String
  | .aes256Gcm => "AES-256-GCM"
  | .aes128Gcm => "AES-128-GCM"
  | .chaCha20Poly1305 => "CHACHA20-POLY1305"
  | .aes256Cbc => "AES-256-CBC"
  | .aes192Cbc => "AES-192-CBC"
  | .aes128Cbc => "AES-128-CBC"

def DataCipher.keyLen : DataCipher → Nat
  | .aes256Gcm | .chaCha20Poly1305 | .aes256Cbc => 32
  | .aes192Cbc => 24
  | .aes128Gcm | .aes128Cbc => 16

def DataCipher.isAead : DataCipher → Bool
  | .aes256Gcm | .aes128Gcm | .chaCha20Poly1305 => true
  | .aes256Cbc | .aes192Cbc | .aes128Cbc => false

def cbcBlock : Nat := 16

def tagLen : Nat := 16

/-- One block. -/
abbrev Block := Vector UInt8 16

/-- `Sealer`: one direction of an AEAD data channel, with its key. -/
inductive Sealer where
  | aes128 (key : Bytes)
  | aes256 (key : Bytes)
  | chaCha20 (key : Bytes)
  deriving DecidableEq

/-- `CbcCipher`: the AES block cipher under a CBC data channel, with its key. -/
inductive CbcCipher where
  | aes128 (key : Bytes)
  | aes192 (key : Bytes)
  | aes256 (key : Bytes)
  deriving DecidableEq

/-- `PacketMac`: the `--auth` HMAC with its key. -/
structure PacketMac where
  digest : Digest
  key : Bytes
  deriving DecidableEq

/-- What the crates compute: `encrypt_in_place_detached` and `decrypt_in_place_detached` of the
AEADs (of a nonce, the associated data, the buffer and, to open it, the tag), a block of AES either
way, and an HMAC over several parts. -/
structure PacketCrypto where
  encryptDetached : Sealer → Bytes → Bytes → Bytes → Option (Bytes × Bytes)
  decryptDetached : Sealer → Bytes → Bytes → Bytes → Bytes → Option Bytes
  encryptBlock : CbcCipher → Block → Block
  decryptBlock : CbcCipher → Block → Block
  hmac : Digest → Bytes → List Bytes → Bytes

/-- `the derived data-channel key is the wrong length`. -/
def wrongKey : String := "the derived data-channel key is the wrong length"

def Sealer.new (cipher : DataCipher) (key : Bytes) : Except String Sealer :=
  match cipher with
  | .aes128Gcm => if key.length = 16 then .ok (.aes128 key) else .error wrongKey
  | .aes256Gcm => if key.length = 32 then .ok (.aes256 key) else .error wrongKey
  | .chaCha20Poly1305 => if key.length = 32 then .ok (.chaCha20 key) else .error wrongKey
  | .aes256Cbc | .aes192Cbc | .aes128Cbc => .error (cipher.asStr ++ " is not an AEAD cipher")

def CbcCipher.new (cipher : DataCipher) (key : Bytes) : Except String CbcCipher :=
  match cipher with
  | .aes128Cbc => if key.length = 16 then .ok (.aes128 key) else .error wrongKey
  | .aes192Cbc => if key.length = 24 then .ok (.aes192 key) else .error wrongKey
  | .aes256Cbc => if key.length = 32 then .ok (.aes256 key) else .error wrongKey
  | .aes256Gcm | .aes128Gcm | .chaCha20Poly1305 =>
    .error (cipher.asStr ++ " is not a CBC cipher")

/-- The blocks `chunks_exact_mut(CBC_BLOCK)` goes through. -/
def chunksExact : Nat → Bytes → List Block
  | 0, _ => []
  | n + 1, bytes => Vector.ofFn (fun i => bytes.getD i.val 0) :: chunksExact n (bytes.drop cbcBlock)

/-- A block `^=` the one before it in the chain. -/
def xorBlock (block previous : Block) : Block := Vector.ofFn fun i => block[i] ^^^ previous[i]

/-- The loop of `cbc_encrypt`. -/
def encryptChain (encryptBlock : Block → Block) : Block → List Block → List Block
  | _, [] => []
  | previous, block :: blocks =>
    let block := encryptBlock (xorBlock block previous)
    block :: encryptChain encryptBlock block blocks

/-- The loop of `cbc_decrypt`. -/
def decryptChain (decryptBlock : Block → Block) : Block → List Block → List Block
  | _, [] => []
  | previous, block :: blocks =>
    xorBlock (decryptBlock block) previous :: decryptChain decryptBlock block blocks

/-- Changes the whole blocks of a buffer; a rest shorter than a block stays. -/
def mapBlocks (f : List Block → List Block) (buffer : Bytes) : Bytes :=
  let count := buffer.length / cbcBlock
  (f (chunksExact count buffer)).flatMap Vector.toList ++ buffer.drop (count * cbcBlock)

variable (crypto : PacketCrypto)

def CbcCipher.encrypt (cipher : CbcCipher) (iv : Block) (buffer : Bytes) :
    Bytes :=
  mapBlocks (encryptChain (crypto.encryptBlock cipher) iv) buffer

def CbcCipher.decrypt (cipher : CbcCipher) (iv : Block) (buffer : Bytes) :
    Bytes :=
  mapBlocks (decryptChain (crypto.decryptBlock cipher) iv) buffer

def PacketMac.len (mac : PacketMac) : Nat := mac.digest.outputLen

def PacketMac.sign (mac : PacketMac) (parts : List Bytes) : Bytes :=
  crypto.hmac mac.digest mac.key parts

def PacketMac.verify (mac : PacketMac) (parts : List Bytes) (tag : Bytes) :
    Bool :=
  decide (mac.sign crypto parts = tag)

/-- `Protection`: how one direction of one key generation protects its packets. -/
inductive Protection where
  | aead (sealer : Sealer) (implicitIv : Bytes)
  | cbc (cipher : CbcCipher) (mac : PacketMac)
  deriving DecidableEq

/-- `KeyMaterial`: 256 bytes of expanded key material. -/
abbrev KeyMaterial := Vector UInt8 256

namespace KeyMaterial

def cipherKey (material : KeyMaterial) (index length : Nat) : Bytes :=
  (material.toList.drop (index * 128)).take length

def hmacKey (material : KeyMaterial) (index length : Nat) : Bytes :=
  (material.toList.drop (index * 128 + 64)).take length

/-- `implicit_iv`: the front of the key's HMAC material. -/
def implicitIv (material : KeyMaterial) (index : Nat) : Bytes :=
  (material.toList.drop (index * 128 + 64)).take 8

end KeyMaterial

def Protection.new (material : KeyMaterial) (index : Nat) (cipher : DataCipher) (digest : Digest) :
    Except String Protection :=
  let key := material.cipherKey index cipher.keyLen
  if cipher.isAead then
    (Sealer.new cipher key).map fun sealer => .aead sealer (material.implicitIv index)
  else
    (CbcCipher.new cipher key).map fun sealed =>
      .cbc sealed ⟨digest, material.hmacKey index digest.outputLen⟩

/-! ## The replay window -/

/-- `ReplayWindow`: the highest packet id accepted, and which of the 64 up to it have been. -/
structure ReplayWindow where
  highest : UInt32
  seen : UInt64
  deriving DecidableEq

def ReplayWindow.new : ReplayWindow := ⟨0, 0⟩

def ReplayWindow.accept (window : ReplayWindow) (packetId : UInt32) : Bool × ReplayWindow :=
  if packetId = 0 then (false, window)
  else if window.highest < packetId then
    let shift := packetId - window.highest
    let seen := if 64 ≤ shift then 0 else window.seen <<< shift.toUInt64
    (true, ⟨packetId, seen ||| 1⟩)
  else
    let behind := window.highest - packetId
    if 64 ≤ behind then (false, window)
    else
      let mask : UInt64 := 1 <<< behind.toUInt64
      if window.seen &&& mask ≠ 0 then (false, window)
      else (true, { window with seen := window.seen ||| mask })

/-! ## The channel -/

structure DataChannel where
  sealing : Protection
  opening : Protection
  peerId : Option UInt32
  keyId : UInt8
  nextPacketId : UInt32
  replay : ReplayWindow
  deriving DecidableEq

def pDataV1 : UInt8 := 6

def pDataV2 : UInt8 := 9

def ping : Bytes :=
  [0x2a, 0x18, 0x7b, 0xf3, 0x64, 0x1e, 0xb4, 0xcb, 0x07, 0xed, 0x2d, 0x0a, 0x98, 0x1f, 0xc7, 0x48]

namespace DataChannel

/-- `DataChannel::new`: the client sends with key 0 and receives with key 1. -/
def new (material : KeyMaterial) (cipher : DataCipher) (digest : Digest) (peerId : Option UInt32)
    (keyId : UInt8) : Except String DataChannel := do
  let sealing ← Protection.new material 0 cipher digest
  let opening ← Protection.new material 1 cipher digest
  return ⟨sealing, opening, peerId, keyId, 1, .new⟩

def nonce (implicit : Bytes) (packetId : UInt32) : Bytes := beU32 packetId ++ implicit

/-- The opcode, the key id and the peer id in front of a packet that is sealed. -/
def header (channel : DataChannel) : Bytes :=
  match channel.peerId with
  | some peerId =>
    beU32 (((pDataV2 <<< 3) ||| channel.keyId).toUInt32 <<< 24 ||| (peerId &&& 0xffffff))
  | none => [(pDataV1 <<< 3) ||| channel.keyId]

variable (crypto : PacketCrypto)

/-- `seal`, with the initialisation vector a CBC packet draws. -/
def sealPacket (channel : DataChannel) (packet : Bytes) (iv : Block) :
    Except String Bytes × DataChannel :=
  let packetId := channel.nextPacketId
  if packetId = 0xffffffff then
    (.error ("this OpenVPN session has sent as many packets as its keys allow and has to be " ++
      "renegotiated"), channel)
  else
    let after := { channel with nextPacketId := packetId + 1 }
    match channel.sealing with
    | .aead sealer implicitIv =>
      let framed := channel.header ++ beU32 packetId
      match crypto.encryptDetached sealer (nonce implicitIv packetId) framed packet with
      | some (body, tag) => (.ok (framed ++ tag ++ body), after)
      | none => (.error "could not encrypt an OpenVPN data packet", after)
    | .cbc cipher mac =>
      let padding := cbcBlock - (4 + packet.length) % cbcBlock
      let body := beU32 packetId ++ packet ++ List.replicate padding (UInt8.ofNat padding)
      let body := cipher.encrypt crypto iv body
      (.ok (channel.header ++ mac.sign crypto [iv.toList, body] ++ iv.toList ++ body), after)

/-- `an OpenVPN data packet was truncated`. -/
def truncated : String := "an OpenVPN data packet was truncated"

/-- `an OpenVPN data packet did not authenticate`. -/
def notAuthentic : String := "an OpenVPN data packet did not authenticate"

/-- The branch of `open` for an AEAD: the packet id and the body. -/
def openAead (sealer : Sealer) (implicitIv packet : Bytes)
    (opcodeLen : Nat) : Checked (UInt32 × Bytes) := do
  let headerLen := opcodeLen + 4
  if packet.length < headerLen + tagLen then
    fail truncated
  let packetId ← within ((sliceTo packet headerLen).bind fun front =>
    (sliceFrom front opcodeLen).bind readU32)
  let (front, rest) ← within (splitAt packet headerLen)
  let (tag, ciphertext) ← within (splitAt rest tagLen)
  match crypto.decryptDetached sealer (nonce implicitIv packetId) front ciphertext tag with
  | some body => return (packetId, body)
  | none => fail notAuthentic

/-- `iv.try_into().expect("one block")`. -/
def oneBlock (bytes : Bytes) : Option Block :=
  if bytes.length = 16 then some (Vector.ofFn fun i => bytes.getD i.val 0) else none

/-- The padding of a decrypted body is taken off, and the packet id in front of it. -/
def unpad (body : Bytes) : Checked (UInt32 × Bytes) := do
  let padding := (← within body.getLast?).toNat
  if padding = 0 ∨ cbcBlock < padding ∨ body.length < 4 + padding then
    fail "an OpenVPN data packet had invalid padding"
  let behind ← within (sliceFrom body (body.length - padding))
  if behind.any fun byte => decide (byte.toNat ≠ padding) then
    fail "an OpenVPN data packet had invalid padding"
  let body := body.take (body.length - padding)
  let packetId ← within (readU32 body)
  let rest ← within (sliceFrom body 4)
  return (packetId, rest)

/-- The branch of `open` for CBC. -/
def openCbc (cipher : CbcCipher) (mac : PacketMac) (packet : Bytes)
    (opcodeLen : Nat) : Checked (UInt32 × Bytes) := do
  let rest ← within (sliceFrom packet opcodeLen)
  let ciphertextLen := rest.length - (mac.len + cbcBlock)
  if ciphertextLen < cbcBlock ∨ ciphertextLen % cbcBlock ≠ 0 then
    fail truncated
  let (tag, rest) ← within (splitAt rest mac.len)
  let (iv, ciphertext) ← within (splitAt rest cbcBlock)
  if ¬ mac.verify crypto [iv, ciphertext] tag then
    fail notAuthentic
  unpad (cipher.decrypt crypto (← within (oneBlock iv)) ciphertext)

/-- How long the header is that a packet's opcode announces. -/
def opcodeLen (packet : Bytes) : Checked Nat :=
  match packet with
  | [] => fail "an OpenVPN data packet was empty"
  | first :: _ =>
    if first >>> 3 = pDataV2 then some (.ok 4)
    else if first >>> 3 = pDataV1 then some (.ok 1)
    else fail ("opcode " ++ toString (first >>> 3).toNat ++ " is not an OpenVPN data packet")

/-- The packet id and the body of a packet that authenticates. -/
def unwrap (channel : DataChannel) (packet : Bytes) :
    Checked (UInt32 × Bytes) := do
  let opcodeLen ← opcodeLen packet
  match channel.opening with
  | .aead sealer implicitIv => openAead crypto sealer implicitIv packet opcodeLen
  | .cbc cipher mac => openCbc crypto cipher mac packet opcodeLen

/-- `open`: nothing where an access is out of range. The replay check runs after authentication, so
that an unauthenticated packet cannot advance the window. -/
def openPacket (channel : DataChannel) (packet : Bytes) :
    Option (Except String (Option Bytes) × DataChannel) :=
  match unwrap crypto channel packet with
  | none => none
  | some (.error reason) => some (.error reason, channel)
  | some (.ok (packetId, body)) =>
    let (accepted, replay) := channel.replay.accept packetId
    let channel := { channel with replay := replay }
    if !accepted then some (.ok none, channel)
    else if body = ping then some (.ok none, channel)
    else some (.ok (some body), channel)

def keepalive (channel : DataChannel) (iv : Block) :
    Except String Bytes × DataChannel :=
  channel.sealPacket crypto ping iv

end DataChannel

/-! ## Accesses within bounds -/

section Within

variable {α β : Type}

theorem within_bind {value : Option α} {a : α} (h : value = some a) (f : α → Checked β) :
    (within value >>= f) = f a := by
  rw [h]
  rfl

theorem fail_ne_none (reason : String) : (fail reason : Checked α) ≠ none := some_ne_none _

variable {bytes : Bytes}

theorem sliceFrom_eq {start : Nat} (h : start ≤ bytes.length) :
    sliceFrom bytes start = some (bytes.drop start) := if_pos h

theorem sliceTo_eq {last : Nat} (h : last ≤ bytes.length) :
    sliceTo bytes last = some (bytes.take last) := if_pos h

theorem splitAt_eq {mid : Nat} (h : mid ≤ bytes.length) :
    splitAt bytes mid = some (bytes.take mid, bytes.drop mid) := if_pos h

theorem readU32_eq (h : 4 ≤ bytes.length) :
    readU32 bytes = some (u32OfBe (bytes.take 4)) := by
  unfold readU32
  rw [sliceTo_eq h]
  rfl

end Within

/-! ## Lengths -/

theorem length_chunksExact (n : Nat) (bytes : Bytes) : (chunksExact n bytes).length = n := by
  induction n generalizing bytes with
  | zero => rfl
  | succ n ih => rw [chunksExact, List.length_cons, ih]

theorem length_flatMap_blocks (blocks : List Block) :
    (blocks.flatMap Vector.toList).length = blocks.length * cbcBlock := by
  induction blocks with
  | nil => rfl
  | cons block blocks ih =>
    rw [List.flatMap_cons, List.length_append, ih, Vector.length_toList, List.length_cons,
      Nat.succ_mul, Nat.add_comm]
    rfl

theorem length_mapBlocks {f : List Block → List Block}
    (hf : ∀ blocks, (f blocks).length = blocks.length) (buffer : Bytes) :
    (mapBlocks f buffer).length = buffer.length := by
  have hle : buffer.length / cbcBlock * cbcBlock ≤ buffer.length := Nat.div_mul_le_self _ _
  unfold mapBlocks
  rw [List.length_append, length_flatMap_blocks, hf, length_chunksExact, List.length_drop]
  exact Nat.add_sub_cancel' hle

theorem length_decryptChain (decryptBlock : Block → Block) (previous : Block)
    (blocks : List Block) :
    (decryptChain decryptBlock previous blocks).length = blocks.length := by
  induction blocks generalizing previous with
  | nil => rfl
  | cons block blocks ih => rw [decryptChain, List.length_cons, List.length_cons, ih]

theorem CbcCipher.length_decrypt (cipher : CbcCipher) (iv : Block)
    (buffer : Bytes) : (cipher.decrypt crypto iv buffer).length = buffer.length :=
  length_mapBlocks (length_decryptChain _ _) buffer

/-! ## What a packet can bring about -/

namespace DataChannel

variable {crypto : PacketCrypto}

/-- The length check in front of an AEAD packet covers every slice behind it. -/
theorem openAead_ne_none (sealer : Sealer) (implicitIv packet : Bytes) (opcodeLen : Nat) :
    openAead crypto sealer implicitIv packet opcodeLen ≠ none := by
  unfold openAead
  by_cases hshort : packet.length < opcodeLen + 4 + tagLen
  · simp only [if_pos hshort]
    exact fail_ne_none truncated
  have hheader : opcodeLen + 4 ≤ packet.length := by omega
  have hlength : (packet.take (opcodeLen + 4)).length = opcodeLen + 4 := by
    rw [List.length_take, min_eq_left hheader]
  have hpacketId : (sliceTo packet (opcodeLen + 4)).bind (fun front =>
      (sliceFrom front opcodeLen).bind readU32) =
        some (u32OfBe (((packet.take (opcodeLen + 4)).drop opcodeLen).take 4)) := by
    rw [sliceTo_eq hheader, bind_some, sliceFrom_eq (by omega), bind_some,
      readU32_eq (by rw [List.length_drop]; omega)]
  have hrest : tagLen ≤ (packet.drop (opcodeLen + 4)).length := by
    rw [List.length_drop]
    omega
  simp only [if_neg hshort]
  rw [within_bind hpacketId, within_bind (splitAt_eq hheader), within_bind (splitAt_eq hrest)]
  split
  · exact some_ne_none _
  · exact fail_ne_none notAuthentic

/-- A body with a byte in it can be searched for its padding and its packet id. -/
theorem unpad_ne_none {body : Bytes} (h : body ≠ []) : unpad body ≠ none := by
  unfold unpad
  rw [within_bind (List.getLast?_eq_some_getLast h)]
  generalize (body.getLast h).toNat = padding
  by_cases hpadding : padding = 0 ∨ cbcBlock < padding ∨ body.length < 4 + padding
  · simp only [if_pos hpadding]
    exact fail_ne_none _
  simp only [if_neg hpadding]
  rw [within_bind (sliceFrom_eq (Nat.sub_le _ _))]
  by_cases hfilled : (body.drop (body.length - padding)).any (fun byte =>
      decide (byte.toNat ≠ padding)) = true
  · simp only [if_pos hfilled]
    exact fail_ne_none _
  have hlength : 4 ≤ (body.take (body.length - padding)).length := by
    rw [List.length_take]
    omega
  simp only [if_neg hfilled]
  rw [within_bind (readU32_eq hlength), within_bind (sliceFrom_eq hlength)]
  exact some_ne_none _

/-- Only the header of a CBC packet is cut off before any length is checked. -/
theorem openCbc_eq_none_iff (cipher : CbcCipher) (mac : PacketMac) (packet : Bytes)
    (opcodeLen : Nat) :
    openCbc crypto cipher mac packet opcodeLen = none ↔ packet.length < opcodeLen := by
  unfold openCbc
  by_cases hheader : packet.length < opcodeLen
  · have hnone : sliceFrom packet opcodeLen = none := if_neg (not_le.2 hheader)
    rw [hnone]
    exact iff_of_true rfl hheader
  refine iff_of_false ?_ hheader
  rw [within_bind (sliceFrom_eq (not_lt.1 hheader))]
  generalize packet.drop opcodeLen = rest
  have hblock : cbcBlock = 16 := rfl
  by_cases hshort : rest.length - (mac.len + cbcBlock) < cbcBlock ∨
      (rest.length - (mac.len + cbcBlock)) % cbcBlock ≠ 0
  · simp only [if_pos hshort]
    exact fail_ne_none truncated
  have hiv : cbcBlock ≤ (rest.drop mac.len).length := by
    rw [List.length_drop]
    omega
  simp only [if_neg hshort]
  rw [within_bind (splitAt_eq (by omega)), within_bind (splitAt_eq hiv)]
  split
  · exact fail_ne_none notAuthentic
  have hone : ((rest.drop mac.len).take cbcBlock).length = 16 := by
    rw [List.length_take, min_eq_left hiv]
    rfl
  have hblockIv : oneBlock ((rest.drop mac.len).take cbcBlock) = some _ := if_pos hone
  rw [within_bind hblockIv]
  apply unpad_ne_none
  apply List.ne_nil_of_length_pos
  rw [CbcCipher.length_decrypt, List.length_drop, List.length_drop]
  omega

/-- The channel is a CBC one, and the packet is shorter than the header its opcode announces. -/
def CutShort (channel : DataChannel) (packet : Bytes) : Prop :=
  (∃ cipher mac, channel.opening = .cbc cipher mac) ∧
    (packet.head?.map fun first : UInt8 => first >>> 3) = some pDataV2 ∧ packet.length < 4

theorem unwrap_eq_none_iff (channel : DataChannel) (packet : Bytes) :
    unwrap crypto channel packet = none ↔ CutShort channel packet := by
  unfold unwrap CutShort
  cases packet with
  | nil =>
    refine iff_of_false (fail_ne_none _) fun h => ?_
    cases h.2.1
  | cons first rest =>
    simp only [opcodeLen, List.head?_cons, map_some, Option.some.injEq]
    by_cases hv2 : first >>> 3 = pDataV2
    · rw [if_pos hv2]
      cases hopening : channel.opening with
      | aead sealer implicitIv =>
        exact iff_of_false (openAead_ne_none sealer implicitIv _ 4) fun h => by simp at h
      | cbc cipher mac =>
        refine Iff.trans (openCbc_eq_none_iff cipher mac _ 4) ?_
        exact ⟨fun h => ⟨⟨cipher, mac, rfl⟩, hv2, h⟩, fun h => h.2.2⟩
    rw [if_neg hv2]
    refine iff_of_false ?_ fun h => hv2 h.2.1
    by_cases hv1 : first >>> 3 = pDataV1
    · rw [if_pos hv1]
      cases hopening : channel.opening with
      | aead sealer implicitIv => exact openAead_ne_none sealer implicitIv _ 1
      | cbc cipher mac =>
        -- one byte of header is there, since the opcode was read from it
        intro hnone
        have hshort := (openCbc_eq_none_iff cipher mac (first :: rest) 1).1 hnone
        rw [List.length_cons] at hshort
        omega
    · rw [if_neg hv1]
      exact fail_ne_none _

theorem openPacket_eq_none_iff (channel : DataChannel) (packet : Bytes) :
    channel.openPacket crypto packet = none ↔ CutShort channel packet := by
  refine Iff.trans ?_ (@unwrap_eq_none_iff crypto channel packet)
  unfold openPacket
  cases unwrap crypto channel packet with
  | none => exact iff_of_true rfl rfl
  | some result =>
    refine iff_of_false ?_ (some_ne_none _)
    cases result with
    | error reason => exact some_ne_none _
    | ok opened =>
      dsimp only
      split
      · exact some_ne_none _
      · split <;> exact some_ne_none _

/-- An error comes before the replay check, and before anything is written. -/
theorem openPacket_eq_of_error {channel after : DataChannel} {packet : Bytes} {reason : String}
    (h : channel.openPacket crypto packet = some (.error reason, after)) : after = channel := by
  unfold openPacket at h
  cases hunwrap : unwrap crypto channel packet with
  | none =>
    rw [hunwrap] at h
    cases h
  | some result =>
    rw [hunwrap] at h
    cases result with
    | error reason' =>
      obtain ⟨-, hafter⟩ := Prod.mk.inj (some.inj h)
      exact hafter.symm
    | ok opened =>
      dsimp only at h
      split at h
      · cases (Prod.mk.inj (some.inj h)).1
      · split at h
        · cases (Prod.mk.inj (some.inj h)).1
        · cases (Prod.mk.inj (some.inj h)).1

/-- `open` returns, and an error of it leaves the whole channel as it was, exactly when the packet
is not shorter than its header on a CBC channel. -/
theorem open_total_iff (crypto : PacketCrypto) (channel : DataChannel) (packet : Bytes) :
    (∃ result after, channel.openPacket crypto packet = some (result, after) ∧
      ∀ reason, result = .error reason → after = channel) ↔ ¬ CutShort channel packet := by
  rw [← @openPacket_eq_none_iff crypto, ← ne_eq, Option.ne_none_iff_exists]
  constructor
  · rintro ⟨result, after, hopen, -⟩
    exact ⟨(result, after), hopen.symm⟩
  · rintro ⟨⟨result, after⟩, hopen⟩
    refine ⟨result, after, hopen.symm, ?_⟩
    rintro reason rfl
    exact openPacket_eq_of_error hopen.symm

/-- Ciphers that leave every byte alone. -/
def plainCrypto : PacketCrypto where
  encryptDetached := fun _ _ _ buffer => some (buffer, List.replicate tagLen 0)
  decryptDetached := fun _ _ _ buffer _ => some buffer
  encryptBlock := fun _ => id
  decryptBlock := fun _ => id
  hmac := fun digest _ _ => List.replicate digest.outputLen 0

/-- One byte, the opcode of a packet with a peer id, is out of range for a CBC channel. -/
theorem short_header_is_out_of_range :
    ((DataChannel.new (Vector.replicate 256 0) .aes256Cbc .sha1 (some 17) 0).map fun channel =>
      channel.openPacket plainCrypto [0x48]) = .ok none := by
  decide +kernel

end DataChannel

end GamePath.Engine.OpenVpn
