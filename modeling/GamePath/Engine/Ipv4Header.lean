import GamePath.Engine.Checksum

/-!
# IPv4 headers as records

The fixed part of an IPv4 header, field by field. `Header.of` reads it off a packet and
`Header.bytes` writes it; overwriting a 16-bit field of a packet is then an update of the record,
and the checksum of a header is determined by its other fields.
-/

namespace GamePath.Engine

open Lib OnesComplement

/-- The fixed part of an IPv4 header. `version` is the byte of version and header length, `flags`
the word of flags and fragment offset. -/
structure Header where
  version : UInt8
  service : UInt8
  length : UInt16
  identification : UInt16
  flags : UInt16
  ttl : UInt8
  protocol : UInt8
  checksum : UInt16
  source : Octets
  destination : Octets

namespace Header

variable (h : Header)

/-- The twenty bytes of a header. -/
def bytes : Bytes :=
  [h.version, h.service, hiByte h.length, loByte h.length, hiByte h.identification,
    loByte h.identification, hiByte h.flags, loByte h.flags, h.ttl, h.protocol, hiByte h.checksum,
    loByte h.checksum, h.source.1, h.source.2.1, h.source.2.2.1, h.source.2.2.2, h.destination.1,
    h.destination.2.1, h.destination.2.2.1, h.destination.2.2.2]

/-- The header of a packet. -/
def of (p : Ipv4Packet) : Header where
  version := p.byte 0
  service := p.byte 1
  length := u16OfBe (p.byte 2) (p.byte 3)
  identification := p.identification
  flags := u16OfBe (p.byte 6) (p.byte 7)
  ttl := p.byte 8
  protocol := p.protocol
  checksum := u16OfBe (p.byte 10) (p.byte 11)
  source := p.source
  destination := p.destination

@[simp] theorem length_bytes : h.bytes.length = 20 := rfl

variable (data : Bytes)

/-- The header is read back from in front of any data. -/
theorem of_append (hlong : 20 ≤ (h.bytes ++ data).length) :
    of ⟨h.bytes ++ data, hlong⟩ = h := by
  show (⟨h.version, h.service, u16OfBe (hiByte h.length) (loByte h.length),
    u16OfBe (hiByte h.identification) (loByte h.identification),
    u16OfBe (hiByte h.flags) (loByte h.flags), h.ttl, h.protocol,
    u16OfBe (hiByte h.checksum) (loByte h.checksum), h.source, h.destination⟩ : Header) = h
  simp only [u16OfBe_bytes]

/-- A packet long enough for a header, byte by byte. -/
theorem exists_twenty {bytes : Bytes} (h : 20 ≤ bytes.length) :
    ∃ b0 b1 b2 b3 b4 b5 b6 b7 b8 b9 b10 b11 b12 b13 b14 b15 b16 b17 b18 b19 rest,
      bytes = b0 :: b1 :: b2 :: b3 :: b4 :: b5 :: b6 :: b7 :: b8 :: b9 :: b10 :: b11 :: b12 ::
        b13 :: b14 :: b15 :: b16 :: b17 :: b18 :: b19 :: rest := by
  rcases bytes with _ | ⟨b0, _ | ⟨b1, _ | ⟨b2, _ | ⟨b3, _ | ⟨b4, _ | ⟨b5, _ | ⟨b6, _ | ⟨b7,
    _ | ⟨b8, _ | ⟨b9, _ | ⟨b10, _ | ⟨b11, _ | ⟨b12, _ | ⟨b13, _ | ⟨b14, _ | ⟨b15, _ | ⟨b16,
    _ | ⟨b17, _ | ⟨b18, _ | ⟨b19, rest⟩⟩⟩⟩⟩⟩⟩⟩⟩⟩⟩⟩⟩⟩⟩⟩⟩⟩⟩⟩
  iterate 20 exact absurd h (by simp)
  exact ⟨b0, b1, b2, b3, b4, b5, b6, b7, b8, b9, b10, b11, b12, b13, b14, b15, b16, b17, b18, b19,
    rest, rfl⟩

/-- Writing what was read gives the packet again. -/
theorem bytes_of_append_drop (p : Ipv4Packet) : (of p).bytes ++ p.bytes.drop 20 = p.bytes := by
  obtain ⟨bytes, hlong⟩ := p
  obtain ⟨b0, b1, b2, b3, b4, b5, b6, b7, b8, b9, b10, b11, b12, b13, b14, b15, b16, b17, b18, b19,
    rest, rfl⟩ := exists_twenty hlong
  show [b0, b1, hiByte (u16OfBe b2 b3), loByte (u16OfBe b2 b3), hiByte (u16OfBe b4 b5),
    loByte (u16OfBe b4 b5), hiByte (u16OfBe b6 b7), loByte (u16OfBe b6 b7), b8, b9,
    hiByte (u16OfBe b10 b11), loByte (u16OfBe b10 b11), b12, b13, b14, b15, b16, b17, b18, b19] ++
      rest = _
  simp only [hiByte_u16OfBe, loByte_u16OfBe]
  rfl

theorem bytes_of (p : Ipv4Packet) : (of p).bytes = p.bytes.take 20 := by
  have h := congrArg (List.take 20) (bytes_of_append_drop p)
  exact h

theorem bytes_injective {h h' : Header} (heq : h.bytes = h'.bytes) : h = h' := by
  rw [← of_append h [] (by simp), ← of_append h' [] (by simp)]
  simp only [heq]

/-! ## Overwriting fields -/

/-- A write at the place of a field is a write of the field. -/
theorem setU16_length (v : UInt16) :
    setU16 (h.bytes ++ data) 2 v = { h with length := v }.bytes ++ data := rfl

theorem setU16_flags (v : UInt16) :
    setU16 (h.bytes ++ data) 6 v = { h with flags := v }.bytes ++ data := rfl

theorem setU16_checksum (v : UInt16) :
    setU16 (h.bytes ++ data) 10 v = { h with checksum := v }.bytes ++ data := rfl

/-! ## The checksum -/

/-- The header with the checksum over its other fields. -/
def checked : Header :=
  { h with checksum := internetChecksum { h with checksum := 0 }.bytes }

/-- The header's checksum verifies: with it the words sum to all ones. -/
def Verifies : Prop := internetChecksum h.bytes = 0

instance (h : Header) : Decidable h.Verifies := inferInstanceAs (Decidable (_ = _))

/-- The checksum counts as one word of the sum. -/
theorem wordSum_bytes :
    wordSum h.bytes = wordSum { h with checksum := 0 }.bytes + h.checksum.toNat := by
  simp only [wordSum, bytes, u16OfBe_bytes]
  rw [show (0 : UInt16).toNat = 0 from rfl]
  omega

/-- A header is too short for its sum to overflow. -/
theorem wordSum_lt : wordSum h.bytes < 2 ^ 32 := by
  have hword : ∀ v : UInt16, v.toNat < 65536 := fun v => v.toNat_lt
  simp only [wordSum, bytes, u16OfBe_bytes]
  have h1 := hword (u16OfBe h.version h.service)
  have h2 := hword h.length
  have h3 := hword h.identification
  have h4 := hword h.flags
  have h5 := hword (u16OfBe h.ttl h.protocol)
  have h6 := hword h.checksum
  have h7 := hword (u16OfBe h.source.1 h.source.2.1)
  have h8 := hword (u16OfBe h.source.2.2.1 h.source.2.2.2)
  have h9 := hword (u16OfBe h.destination.1 h.destination.2.1)
  have h10 := hword (u16OfBe h.destination.2.2.1 h.destination.2.2.2)
  omega

/-- A header with a version does not sum to zero. -/
theorem wordSum_pos {h : Header} (hversion : h.version ≠ 0) : 0 < wordSum h.bytes := by
  have hpos : 0 < h.version.toNat := by
    refine Nat.pos_of_ne_zero fun h0 => hversion ?_
    rw [← UInt8.toNat_inj, h0]
    rfl
  have hsplit : wordSum h.bytes = (u16OfBe h.version h.service).toNat + wordSum (h.bytes.drop 2) :=
    rfl
  rw [hsplit, u16OfBe_toNat]
  omega

/-- The checksum written last verifies. -/
theorem checked_verifies {h : Header} (hversion : h.version ≠ 0) : h.checked.Verifies := by
  have hlt := wordSum_lt { h with checksum := 0 }
  have hcomputed : h.checked.checksum.toNat =
      65535 - fold 16 (wordSum { h with checksum := 0 }.bytes) :=
    internetChecksum_toNat hlt
  have hle := wordSum_le { h with checksum := 0 }.bytes
  rw [length_bytes] at hle
  refine (internetChecksum_eq_zero_iff (wordSum_lt h.checked)).2 ?_
  rw [wordSum_bytes h.checked, hcomputed]
  have hbound : wordSum { h with checksum := 0 }.bytes + 65535 < 2 ^ 32 := by omega
  exact fold_add_complement (by decide) (wordSum_pos hversion) hbound

/-- A checksum that verifies is the computed one, unless it is stored as all ones: one's complement
has two zeros and the computation never produces that one. -/
theorem checked_eq_iff {h : Header} (hversion : h.version ≠ 0) (hverifies : h.Verifies) :
    h.checked = h ↔ h.checksum ≠ 0xffff := by
  have hlt := wordSum_lt h
  have hchecked : h.checked = h ↔ h.checked.checksum = h.checksum := by
    constructor
    · exact fun heq => congrArg Header.checksum heq
    · intro heq
      show { h with checksum := h.checked.checksum } = h
      rw [heq]
  have hones : fold 16 (wordSum h.bytes) = 65535 := by
    have hzero := congrArg UInt16.toNat hverifies
    rw [internetChecksum_toNat hlt, show (0 : UInt16).toNat = 0 from rfl] at hzero
    have hle : fold 16 (wordSum h.bytes) ≤ 65535 :=
      fold_le (by decide) hlt
    omega
  have hcomputed : h.checked.checksum.toNat =
      65535 - fold 16 (wordSum { h with checksum := 0 }.bytes) :=
    internetChecksum_toNat (wordSum_lt { h with checksum := 0 })
  have hpos : 0 < wordSum { h with checksum := 0 }.bytes := wordSum_pos hversion
  rw [wordSum_bytes h] at hones hlt
  rw [hchecked, ← UInt16.toNat_inj, hcomputed, complement_eq_iff (by decide) hpos hlt
    (Nat.le_of_lt_succ h.checksum.toNat_lt) hones, ne_eq, ne_eq, ← UInt16.toNat_inj]
  exact Iff.rfl

end Header

end GamePath.Engine
