import GamePath.Engine.Ipv4Fragments
import GamePath.Engine.Ipv4Header

/-!
# Transport checksums

The checksum of TCP and UDP covers a segment and a pseudo-header of addresses, protocol and length.
`readdress_transport_checksum` of `engine/src/ipv4_fragments.rs` corrects it after the addresses of
a packet were changed, without the bytes of the segment the packet does not hold.
`readdress_is_exact` says that the result is a checksum of the whole segment under the new
addresses.
-/

namespace GamePath.Engine

open Lib List OnesComplement

/-! ## What a transport checksum covers -/

/-- `u16::from_be_bytes([bytes[i], bytes[i + 1]])`. -/
def wordAt (bytes : Bytes) (i : Nat) : UInt16 := u16OfBe (bytes.getD i 0) (bytes.getD (i + 1) 0)

/-- The two words of an address, added. -/
def addressSum (a : Octets) : Nat := (u16OfBe a.1 a.2.1).toNat + (u16OfBe a.2.2.1 a.2.2.2).toNat

variable (source destination : Octets)

/-- The sum over the pseudo-header and the segment. -/
def transportSum (protocol : UInt8) (segment : Bytes) : Nat :=
  addressSum source + addressSum destination + protocol.toNat + segment.length + wordSum segment

/-- The checksum in a segment verifies: with it the words sum to all ones. -/
def TransportVerifies (protocol : UInt8) (segment : Bytes) : Prop :=
  fold 16 (transportSum source destination protocol segment) = 65535

theorem addressSum_le (a : Octets) : addressSum a ≤ 2 * 65535 := by
  have hfirst := (u16OfBe a.1 a.2.1).toNat_lt
  have hsecond := (u16OfBe a.2.2.1 a.2.2.2).toNat_lt
  rw [addressSum]
  omega

theorem transportSum_lt (protocol : UInt8) {segment : Bytes} (h : segment.length ≤ 65535) :
    transportSum source destination protocol segment + 65535 < 2 ^ 32 := by
  have hsource := addressSum_le source
  have hdestination := addressSum_le destination
  have hprotocol := protocol.toNat_lt
  have hwords := wordSum_le segment
  rw [transportSum]
  omega

theorem transportSum_pos {protocol : UInt8} (h : protocol ≠ 0)
    (segment : Bytes) : 0 < transportSum source destination protocol segment := by
  have hpos : protocol.toNat ≠ 0 := by
    intro hzero
    apply h
    rw [← UInt8.toNat_inj, hzero]
    rfl
  rw [transportSum]
  omega

theorem transportVerifies_iff {protocol : UInt8} (h : protocol ≠ 0)
    {segment : Bytes} (hlength : segment.length ≤ 65535) :
    TransportVerifies source destination protocol segment ↔
      transportSum source destination protocol segment % 65535 = 0 := by
  have hlt := transportSum_lt source destination protocol hlength
  rw [TransportVerifies, fold_eq_ones_iff (by decide) (by omega)]
  exact and_iff_right (transportSum_pos source destination h segment)

theorem length_setU16 (bytes : Bytes) (i : Nat) (v : UInt16) :
    (setU16 bytes i v).length = bytes.length := by
  rw [setU16, length_set, length_set]

theorem getElem?_setU16_of_ne (bytes : Bytes) {i j : Nat} (v : UInt16) (h : j ≠ i)
    (h' : j ≠ i + 1) : (setU16 bytes i v)[j]? = bytes[j]? := by
  rw [setU16, getElem?_set_ne (Ne.symm h'), getElem?_set_ne (Ne.symm h)]

theorem wordAt_setU16 {bytes : Bytes} {i : Nat} (h : i + 2 ≤ bytes.length) (v : UInt16) :
    wordAt (setU16 bytes i v) i = v := by
  have hhi : (setU16 bytes i v).getD i 0 = hiByte v := by
    rw [setU16, getD_eq_getElem?_getD, getElem?_set_ne (Nat.succ_ne_self i),
      getElem?_set_self (by omega)]
    rfl
  have hlo : (setU16 bytes i v).getD (i + 1) 0 = loByte v := by
    rw [setU16, getD_eq_getElem?_getD,
      getElem?_set_self (by rw [length_set]; omega)]
    rfl
  rw [wordAt, hhi, hlo, u16OfBe_bytes]

/-- Replacing a word at an even place replaces it in the sum. -/
theorem transportSum_setU16 (protocol : UInt8) {segment : Bytes}
    {i : Nat} (heven : i % 2 = 0) (hin : i + 2 ≤ segment.length) (v : UInt16) :
    transportSum source destination protocol (setU16 segment i v) + (wordAt segment i).toNat =
      transportSum source destination protocol segment + v.toNat := by
  have hwords := wordSum_setU16 heven hin v
  rw [transportSum, transportSum, length_setU16, wordAt]
  omega

namespace Ipv4Fragments

/-! ## Readdressing -/

/-- Where the checksum of TCP and UDP is: the `offset` of `readdress_transport_checksum`. -/
def checksumOffset (packet : Ipv4Packet) : Option Nat :=
  if packet.protocol = 6 then some (headerLength packet + 16)
  else if packet.protocol = 17 then some (headerLength packet + 6)
  else none

/-- The sum of the incremental update: what is left of the old checksum, the old words taken out and
the new words put in. -/
def updateSum (rewritten original : Bytes) (checksum : UInt16) : Nat :=
  [12, 14, 16, 18].foldl
    (fun sum word => sum + (~~~ wordAt original word).toNat + (wordAt rewritten word).toNat)
    (~~~ checksum).toNat

/-- `readdress_transport_checksum`: what it returns, and the packet after it. -/
def readdressTransportChecksum (rewritten original : Ipv4Packet) : Bool × Bytes :=
  match checksumOffset rewritten with
  | none => (true, rewritten.bytes)
  | some offset =>
    if rewritten.length < offset + 2 then (false, rewritten.bytes)
    else
      let checksum := wordAt rewritten.bytes offset
      -- A UDP checksum of zero means none was computed.
      if rewritten.protocol = 17 ∧ checksum = 0 then (true, rewritten.bytes)
      else
        let sum := updateSum rewritten.bytes original.bytes checksum
        let updated := ~~~ (UInt16.ofNat (fold 16 sum))
        let updated := if rewritten.protocol = 17 ∧ updated = 0 then 0xffff else updated
        (true, setU16 rewritten.bytes offset updated)

/-- The place of the checksum in a segment of TCP or UDP. -/
def checksumPlace (protocol : UInt8) : Nat := if protocol = 6 then 16 else 6

/-- A packet, possibly cut short, that carries the start of a TCP or UDP segment. -/
structure Carries (packet : Ipv4Packet) (segment : Bytes) : Prop where
  version : packet.byte 0 >>> 4 = 4
  header : 20 ≤ headerLength packet
  protocol : packet.protocol = 6 ∨ packet.protocol = 17
  start : packet.bytes.drop (headerLength packet) <+: segment
  length : segment.length ≤ 65535

/-- A copy that differs in the source and destination addresses only. -/
structure Readdressed (original rewritten : Ipv4Packet) : Prop where
  length : rewritten.length = original.length
  others : ∀ i, i < 12 ∨ 20 ≤ i → rewritten.bytes[i]? = original.bytes[i]?

/-- What the result has to be: true exactly when the packet holds the checksum, nothing else
changed, and a checksum that was computed verifies for the same segment under the new addresses. -/
structure Repaired (original rewritten : Ipv4Packet) (segment : Bytes) (result : Bool × Bytes) :
    Prop where
  answer : result.1 = true ↔
    headerLength original + checksumPlace original.protocol + 2 ≤ original.length
  length : result.2.length = rewritten.length
  others : ∀ i, i ≠ headerLength original + checksumPlace original.protocol →
    i ≠ headerLength original + checksumPlace original.protocol + 1 →
    result.2[i]? = rewritten.bytes[i]?
  refused : result.1 = false → result.2 = rewritten.bytes
  unchecked : original.protocol = 17 → wordAt segment 6 = 0 → result.2 = rewritten.bytes
  verifies : result.1 = true → (original.protocol = 17 → wordAt segment 6 ≠ 0) →
    ∃ checksum, wordAt result.2 (headerLength original + checksumPlace original.protocol) =
      checksum ∧
      (original.protocol = 17 → checksum ≠ 0) ∧
      TransportVerifies rewritten.source rewritten.destination original.protocol
        (setU16 segment (checksumPlace original.protocol) checksum)

theorem not_toNat (v : UInt16) : (~~~ v).toNat = 65535 - v.toNat := by
  rw [UInt16.toNat_not]
  rfl

theorem getD_of_getElem? {bytes bytes' : Bytes} {i j : Nat} (h : bytes[i]? = bytes'[j]?) :
    bytes.getD i 0 = bytes'.getD j 0 := by
  rw [getD_eq_getElem?_getD, getD_eq_getElem?_getD, h]

theorem wordAt_congr {bytes bytes' : Bytes} {i : Nat} (h : bytes[i]? = bytes'[i]?)
    (h' : bytes[i + 1]? = bytes'[i + 1]?) : wordAt bytes i = wordAt bytes' i := by
  rw [wordAt, wordAt, getD_of_getElem? h, getD_of_getElem? h']

theorem byte_eq_getD (p : Ipv4Packet) (i : Fin 20) : p.byte i = p.bytes.getD i.val 0 := by
  rw [getD_eq_getElem?_getD, getElem?_eq_getElem (Nat.lt_of_lt_of_le i.isLt p.long)]
  rfl

theorem addressSum_words (p : Ipv4Packet) :
    (wordAt p.bytes 12).toNat + (wordAt p.bytes 14).toNat = addressSum p.source ∧
      (wordAt p.bytes 16).toNat + (wordAt p.bytes 18).toNat = addressSum p.destination := by
  simp only [addressSum, Ipv4Packet.source, Ipv4Packet.destination, byte_eq_getD, wordAt]
  exact ⟨rfl, rfl⟩

theorem updateSum_eq (rewritten original : Ipv4Packet) (checksum : UInt16) :
    updateSum rewritten.bytes original.bytes checksum + addressSum original.source +
        addressSum original.destination + checksum.toNat =
      5 * 65535 + addressSum rewritten.source + addressSum rewritten.destination := by
  obtain ⟨hos, hod⟩ := addressSum_words original
  obtain ⟨hrs, hrd⟩ := addressSum_words rewritten
  have h12 := (wordAt original.bytes 12).toNat_lt
  have h14 := (wordAt original.bytes 14).toNat_lt
  have h16 := (wordAt original.bytes 16).toNat_lt
  have h18 := (wordAt original.bytes 18).toNat_lt
  have hchecksum := checksum.toNat_lt
  simp only [updateSum, foldl_cons, foldl_nil, not_toNat]
  omega

/-- The updated checksum makes up for what the addresses changed, up to a multiple of `2 ^ 16 - 1`.
-/
theorem updated_mod (rewritten original : Ipv4Packet) (checksum : UInt16) :
    ((~~~ (UInt16.ofNat (fold 16
        (updateSum rewritten.bytes original.bytes checksum)))).toNat +
          addressSum rewritten.source + addressSum rewritten.destination) % 65535 =
      (checksum.toNat + addressSum original.source + addressSum original.destination) % 65535 := by
  have hsum := updateSum_eq rewritten original checksum
  have hrs := addressSum_le rewritten.source
  have hrd := addressSum_le rewritten.destination
  have hle : fold 16 (updateSum rewritten.bytes original.bytes checksum) ≤ 65535 :=
    fold_le (by decide) (by omega)
  have hmod := fold_mod 16 (updateSum rewritten.bytes original.bytes checksum)
  generalize fold 16 (updateSum rewritten.bytes original.bytes checksum) = folded
    at hle hmod ⊢
  rw [not_toNat, UInt16.toNat_ofNat']
  omega

variable {segment : Bytes}

/-- The word of a packet is the word of the segment it carries. -/
theorem wordAt_segment {packet : Ipv4Packet} (h : Carries packet segment) {place : Nat}
    (hin : headerLength packet + place + 2 ≤ packet.length) :
    wordAt packet.bytes (headerLength packet + place) = wordAt segment place ∧
      place + 2 ≤ segment.length := by
  obtain ⟨rest, hrest⟩ := h.start
  have hlength : (packet.bytes.drop (headerLength packet)).length =
      packet.length - headerLength packet := length_drop
  have hbyte : ∀ j, headerLength packet + j < packet.length →
      packet.bytes[headerLength packet + j]? = segment[j]? := by
    intro j hj
    rw [← hrest, getElem?_append_left (by omega), getElem?_drop]
  constructor
  · rw [wordAt, wordAt, getD_of_getElem? (hbyte place (by omega)), Nat.add_assoc,
      getD_of_getElem? (hbyte (place + 1) (by omega))]
  · have hsegment := congrArg List.length hrest
    rw [length_append] at hsegment
    omega

variable {original rewritten : Ipv4Packet}

theorem Readdressed.byte (h : Readdressed original rewritten) {i : Fin 20} (hi : i.val < 12) :
    rewritten.byte i = original.byte i := by
  rw [byte_eq_getD, byte_eq_getD]
  exact getD_of_getElem? (h.others _ (.inl hi))

theorem Readdressed.headerLength (h : Readdressed original rewritten) :
    headerLength rewritten = headerLength original := by
  rw [Ipv4Fragments.headerLength, h.byte (by decide)]
  rfl

theorem Readdressed.protocol (h : Readdressed original rewritten) :
    rewritten.protocol = original.protocol :=
  h.byte (by decide)

theorem checksumOffset_eq (h : Carries original segment) (hcopy : Readdressed original rewritten) :
    checksumOffset rewritten = some (headerLength original + checksumPlace original.protocol) := by
  rw [checksumOffset, hcopy.protocol, hcopy.headerLength, checksumPlace]
  rcases h.protocol with htcp | hudp
  · rw [if_pos htcp, if_pos htcp]
  · rw [hudp]
    rfl

/-- The new checksum verifies for the whole segment, for all that is known of it. -/
theorem verifies_updated {place : Nat} (heven : place % 2 = 0) (hin : place + 2 ≤ segment.length)
    (hlength : segment.length ≤ 65535) (hprotocol : original.protocol ≠ 0)
    (hverifies : TransportVerifies original.source original.destination original.protocol segment)
    {updated : UInt16}
    (hupdated : (updated.toNat + addressSum rewritten.source + addressSum rewritten.destination) %
        65535 = ((wordAt segment place).toNat + addressSum original.source +
          addressSum original.destination) % 65535) :
    TransportVerifies rewritten.source rewritten.destination original.protocol
      (setU16 segment place updated) := by
  have hset :=
      transportSum_setU16 rewritten.source rewritten.destination original.protocol heven hin
    updated
  rw [transportVerifies_iff _ _ hprotocol hlength, transportSum] at hverifies
  rw [transportVerifies_iff _ _ hprotocol (by rw [length_setU16]; exact hlength)]
  have hnew : transportSum rewritten.source rewritten.destination original.protocol segment =
      addressSum rewritten.source + addressSum rewritten.destination + original.protocol.toNat +
        segment.length + wordSum segment := rfl
  omega

theorem repaired_readdress (h : Carries original segment) (hcopy : Readdressed original rewritten)
    (hverifies : (original.protocol = 17 → wordAt segment 6 ≠ 0) →
      TransportVerifies original.source original.destination original.protocol segment) :
    Repaired original rewritten segment (readdressTransportChecksum rewritten original) := by
  have hoffset := checksumOffset_eq h hcopy
  have hplace : original.protocol = 17 → checksumPlace original.protocol = 6 := by
    intro hudp
    rw [hudp]
    rfl
  have heven : checksumPlace original.protocol % 2 = 0 := by
    rw [checksumPlace]
    split <;> rfl
  have hfield := h.header
  rw [readdressTransportChecksum, hoffset]
  dsimp only
  by_cases hshort : rewritten.length < headerLength original + checksumPlace original.protocol + 2
  · -- The checksum is not in the packet.
    rw [if_pos hshort]
    rw [hcopy.length] at hshort
    exact ⟨iff_of_false Bool.false_ne_true (Nat.not_le.2 hshort), rfl, fun _ _ _ => rfl,
      fun _ => rfl, fun _ _ => rfl, nofun⟩
  rw [if_neg hshort]
  rw [hcopy.length, Nat.not_lt] at hshort
  obtain ⟨hword, hin⟩ := wordAt_segment h hshort
  -- The field lies behind the addresses, so the copy has it too.
  have hcopied : wordAt rewritten.bytes (headerLength original + checksumPlace original.protocol) =
      wordAt segment (checksumPlace original.protocol) := by
    rw [← hword]
    exact wordAt_congr (hcopy.others _ (.inr (by omega))) (hcopy.others _ (.inr (by omega)))
  rw [hcopied, hcopy.protocol]
  by_cases hnone : original.protocol = 17 ∧ wordAt segment (checksumPlace original.protocol) = 0
  · rw [if_pos hnone]
    refine ⟨iff_of_true rfl hshort, rfl, fun _ _ _ => rfl, fun _ => rfl, fun _ _ => rfl, ?_⟩
    intro _ hchecked
    rw [hplace hnone.1] at hnone
    exact absurd hnone.2 (hchecked hnone.1)
  rw [if_neg hnone]
  have hchecked : original.protocol = 17 → wordAt segment 6 ≠ 0 := by
    intro hudp hzero
    exact hnone ⟨hudp, by rw [hplace hudp]; exact hzero⟩
  have hroom : headerLength original + checksumPlace original.protocol + 2 ≤
      rewritten.bytes.length := hshort.trans (Nat.le_of_eq hcopy.length.symm)
  have hmod := updated_mod rewritten original (wordAt segment (checksumPlace original.protocol))
  refine ⟨iff_of_true rfl hshort, length_setU16 _ _ _, fun i hi hi' =>
    getElem?_setU16_of_ne _ _ hi hi', nofun,
    fun hudp hzero => absurd hzero (hchecked hudp), ?_⟩
  intro _ _
  refine ⟨_, wordAt_setU16 hroom _, ?_, ?_⟩
  · intro hudp
    split
    · decide
    · next hne => exact fun hzero => hne ⟨hudp, hzero⟩
  apply verifies_updated heven hin h.length ?_ (hverifies hchecked)
  · -- All ones and zero are the same number here.
    split
    next hzero =>
      rw [hzero.2] at hmod
      rw [← hmod]
      show (65535 + _ + _) % 65535 = (0 + _ + _) % 65535
      omega
    · exact hmod
  · rcases h.protocol with htcp | hudp
    · rw [htcp]
      decide
    · rw [hudp]
      decide

/-- For every packet that carries the start of a TCP or UDP segment whose checksum verifies, and
every copy under other addresses, the checksum is repaired exactly. -/
theorem readdress_is_exact {original rewritten : Ipv4Packet} {segment : Bytes}
    (hcarries : Carries original segment) (hcopy : Readdressed original rewritten)
    (hverifies : (original.protocol = 17 → wordAt segment 6 ≠ 0) →
      TransportVerifies original.source original.destination original.protocol segment) :
    Repaired original rewritten segment (readdressTransportChecksum rewritten original) :=
  repaired_readdress hcarries hcopy hverifies

/-- The header and the UDP header of a datagram of which two more bytes are not in the packet. -/
def udpSample (host : UInt8) : Ipv4Packet where
  bytes := [0x45, 0, 0, 30, 0, 1, 0x20, 0, 64, 17, 0, 0, 10, 0, 0, host, 10, 0, 0, 2,
    0, 1, 0, 2, 0, 10, 0xeb, 0xcf]
  long := by simp

/-- The first fragment of a UDP datagram is given another source. -/
theorem readdress_is_exact_udp :
    Repaired (udpSample 1) (udpSample 9) [0, 1, 0, 2, 0, 10, 0xeb, 0xcf, 0, 5]
      (readdressTransportChecksum (udpSample 9) (udpSample 1)) := by
  refine readdress_is_exact ⟨by decide, by decide, by decide, ⟨[0, 5], rfl⟩, by decide⟩
    ⟨rfl, ?_⟩ fun _ => ?_
  · intro i hi
    rcases Nat.lt_or_ge i 28 with hlt | hge
    · interval_cases i <;> first | rfl | omega
    · rw [List.getElem?_eq_none hge, List.getElem?_eq_none hge]
  · rw [TransportVerifies]
    decide

end Ipv4Fragments

end GamePath.Engine
