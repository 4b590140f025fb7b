import GamePath.Engine.TransportChecksum

/-!
# Clamping the MSS

`engine/src/tcp_mss.rs`: `clamp` lowers the MSS option of a SYN, and `clamp_with_checksum` computes
the TCP checksum anew after that. An access that is out of range ends the program in the source;
here there is no result then.

`clamp` is always in range (`clamp_spec`). `clamp_with_checksum` slices the segment by the total
length field, and that slice is out of range when the field is smaller than the header length:
`clamping_is_safe_iff`, and `short_total_length_ends_the_program`.
-/

namespace GamePath.Engine.TcpMss

open Lib List Option OnesComplement Nat
open Ipv4Packet (destination source)

/-- `bytes[start..last]`. -/
def range (bytes : Bytes) (start last : Nat) : Option Bytes :=
  if start ≤ last ∧ last ≤ bytes.length then some ((bytes.take last).drop start) else none

/-- `bytes[at..at + 2].copy_from_slice(&value.to_be_bytes())`. -/
def writeWord (bytes : Bytes) (i : Nat) (value : UInt16) : Option Bytes :=
  if i + 2 ≤ bytes.length then some (setU16 bytes i value) else none

/-- The loop of `clamp` over the options, up to `finish`. An option is at least one byte long, so
there are not more turns than bytes. -/
def clampOptions (packet : Bytes) (maximum : UInt16) (finish : Nat) :
    Nat → Nat → Option (Bool × Bytes)
  | 0, _ => some (false, packet)
  | fuel + 1, offset =>
    if offset < finish then do
      let kind : UInt8 ← packet[offset]?
      if kind = 0 then some (false, packet)
      else if kind = 1 then clampOptions packet maximum finish fuel (offset + 1)
      else
        -- `packet.get(offset + 1)`: here the end of the packet is asked for.
        match packet[offset + 1]? with
        | none => some (false, packet)
        | some length =>
          if length.toNat < 2 ∨ finish < offset + length.toNat then some (false, packet)
          else if kind = 2 ∧ length = 4 then do
            let hi : UInt8 ← packet[offset + 2]?
            let lo : UInt8 ← packet[offset + 3]?
            if maximum < u16OfBe hi lo then
              (writeWord packet (offset + 2) maximum).map fun packet => (true, packet)
            else some (false, packet)
          else clampOptions packet maximum finish fuel (offset + length.toNat)
    else some (false, packet)

/-- `clamp`: what it returns, and the packet after it. -/
def clamp (packet : Bytes) (maximum : UInt16) : Option (Bool × Bytes) :=
  if packet.length < 20 then some (false, packet)
  else do
    let first : UInt8 ← packet[0]?
    let protocol : UInt8 ← packet[9]?
    if first >>> 4 ≠ 4 ∨ protocol ≠ 6 then some (false, packet)
    else
      let ipHeader := (first &&& 0x0f).toNat * 4
      if packet.length < ipHeader + 20 then some (false, packet)
      else do
        let flags : UInt8 ← packet[ipHeader + 13]?
        if flags &&& 0x02 = 0 then some (false, packet)
        else do
          let dataOffset : UInt8 ← packet[ipHeader + 12]?
          let tcpHeader := (dataOffset >>> 4).toNat * 4
          if tcpHeader < 20 ∨ packet.length < ipHeader + tcpHeader then some (false, packet)
          else
            clampOptions packet maximum (ipHeader + tcpHeader) (tcpHeader - 20) (ipHeader + 20)

/-- The part of `clamp_with_checksum` after `clamp`. -/
def rechecksum (packet : Bytes) : Option (Bool × Bytes) := do
  let first : UInt8 ← packet[0]?
  let ipHeader := (first &&& 0x0f).toNat * 4
  let hi : UInt8 ← packet[2]?
  let lo : UInt8 ← packet[3]?
  let totalLength := min (u16OfBe hi lo).toNat packet.length
  let segmentLength := totalLength - ipHeader
  let packet ← writeWord packet (ipHeader + 16) 0
  let addresses ← range packet 12 20
  let segment ← range packet ipHeader totalLength
  let sum := wordSum addresses + 6 + segmentLength + wordSum segment
  let packet ← writeWord packet (ipHeader + 16) (~~~ (UInt16.ofNat (fold 16 sum)))
  some (true, packet)

def clampWithChecksum (packet : Bytes) (maximum : UInt16) : Option (Bool × Bytes) := do
  let clamped ← clamp packet maximum
  if clamped.1 then rechecksum clamped.2 else some (false, clamped.2)

/-! ## The first MSS option -/

/-- Reading options from `offset` on, the first MSS option is at `place`. -/
inductive FirstMss (packet : Bytes) (finish : Nat) : Nat → Nat → Prop where
  | here {offset : Nat} (hin : offset + 4 ≤ finish) (hkind : packet[offset]? = some 2)
      (hlength : packet[offset + 1]? = some 4) : FirstMss packet finish offset offset
  | pad {offset place : Nat} (hin : offset < finish) (hkind : packet[offset]? = some 1)
      (hrest : FirstMss packet finish (offset + 1) place) : FirstMss packet finish offset place
  | skip {offset place : Nat} {kind length : UInt8} (hkind : packet[offset]? = some kind)
      (hlength : packet[offset + 1]? = some length) (hplain : kind ≠ 0 ∧ kind ≠ 1)
      (htwo : 2 ≤ length.toNat) (hin : offset + length.toNat ≤ finish)
      (hother : ¬ (kind = 2 ∧ length = 4))
      (hrest : FirstMss packet finish (offset + length.toNat) place) :
      FirstMss packet finish offset place

/-- The length of the IP header, by its field. -/
def ipHeader (packet : Bytes) : Nat := (packet.getD 0 0 &&& 0x0f).toNat * 4

/-- The length of the TCP header, by its field. -/
def tcpHeader (packet : Bytes) : Nat := (packet.getD (ipHeader packet + 12) 0 >>> 4).toNat * 4

/-- The total length field. -/
def totalLength (packet : Bytes) : Nat := (wordAt packet 2).toNat

/-- A SYN over IPv4 whose headers are in the packet, by their length fields. -/
structure Syn (packet : Bytes) : Prop where
  long : 20 ≤ packet.length
  version : packet.getD 0 0 >>> 4 = 4
  protocol : packet.getD 9 0 = 6
  fixed : ipHeader packet + 20 ≤ packet.length
  syn : packet.getD (ipHeader packet + 13) 0 &&& 0x02 ≠ 0
  offset : 20 ≤ tcpHeader packet
  inside : ipHeader packet + tcpHeader packet ≤ packet.length

/-- A SYN whose first MSS option, at `place`, is above the maximum. -/
structure Advertises (packet : Bytes) (maximum : UInt16) (place : Nat) :
    Prop extends Syn packet where
  first : FirstMss packet (ipHeader packet + tcpHeader packet) (ipHeader packet + 20) place
  above : maximum < wordAt packet (place + 2)

variable {packet : Bytes}

theorem FirstMss.bounds {finish offset place : Nat} (h : FirstMss packet finish offset place) :
    offset ≤ place ∧ place + 4 ≤ finish := by
  induction h with
  | here hin _ _ => exact ⟨le_refl _, hin⟩
  | pad _ _ _ ih | skip _ _ _ _ _ _ _ ih => exact ⟨by omega, ih.2⟩

theorem FirstMss.unique {finish offset place place' : Nat} (h : FirstMss packet finish offset place)
    (h' : FirstMss packet finish offset place') :
    place = place' := by
  induction h with
  | here _ hkind hlength =>
    cases h' with
    | here _ _ _ => rfl
    | pad _ hkind' _ => rw [hkind] at hkind'; cases hkind'
    | skip hkind' hlength' _ _ _ hother _ =>
      rw [hkind] at hkind'
      rw [hlength] at hlength'
      exact absurd ⟨(some.inj hkind').symm, (some.inj hlength').symm⟩ hother
  | pad _ hkind _ ih =>
    cases h' with
    | here _ hkind' _ => rw [hkind] at hkind'; cases hkind'
    | pad _ _ hrest => exact ih hrest
    | skip hkind' _ hplain _ _ _ _ =>
      rw [hkind] at hkind'
      exact absurd (some.inj hkind').symm hplain.2
  | skip hkind hlength hplain _ _ hother _ ih =>
    cases h' with
    | here _ hkind' hlength' =>
      rw [hkind] at hkind'
      rw [hlength] at hlength'
      exact absurd ⟨some.inj hkind', some.inj hlength'⟩ hother
    | pad _ hkind' _ =>
      rw [hkind] at hkind'
      exact absurd (some.inj hkind') hplain.2
    | skip hkind' hlength' _ _ _ _ hrest =>
      rw [hkind] at hkind'
      rw [hlength] at hlength'
      cases hkind'
      cases hlength'
      exact ih hrest

theorem getElem?_eq_getD {i : Nat} (h : i < packet.length) :
    packet[i]? = some (packet.getD i 0) := by
  rw [getD_eq_getElem?_getD, getElem?_eq_getElem h]
  rfl

/-- What the loop over the options can do: lower the first MSS option, or leave the packet. -/
theorem clampOptions_spec {maximum : UInt16} {finish : Nat} (hfinish : finish ≤ packet.length)
    (fuel : Nat) :
    ∀ offset, finish ≤ offset + fuel →
      (∃ place, FirstMss packet finish offset place ∧ maximum < wordAt packet (place + 2) ∧
        clampOptions packet maximum finish fuel offset =
          some (true, setU16 packet (place + 2) maximum)) ∨
      ((∀ place, FirstMss packet finish offset place → ¬ maximum < wordAt packet (place + 2)) ∧
        clampOptions packet maximum finish fuel offset = some (false, packet)) := by
  induction fuel with
  | zero =>
    intro offset hfuel
    refine .inr ⟨fun place hplace => ?_, rfl⟩
    have hbounds := hplace.bounds
    omega
  | succ fuel ih =>
    intro offset hfuel
    rw [clampOptions]
    by_cases hin : offset < finish
    · rw [if_pos hin]
      have hkind := getElem?_eq_getD (show offset < packet.length by omega)
      generalize packet.getD offset 0 = kind at hkind
      rw [hkind, bind_eq_bind, bind_some]
      by_cases hzero : kind = 0
      · -- The end of the options.
        rw [if_pos hzero]
        refine .inr ⟨fun place hplace => ?_, rfl⟩
        rw [hzero] at hkind
        cases hplace with
        | here _ hkind' | pad _ hkind' => rw [hkind] at hkind'; cases hkind'
        | skip hkind' _ hplain _ _ _ _ =>
          rw [hkind] at hkind'
          exact absurd (some.inj hkind').symm hplain.1
      rw [if_neg hzero]
      by_cases hone : kind = 1
      · -- One byte of padding.
        rw [if_pos hone]
        rw [hone] at hkind
        rcases ih (offset + 1) (by omega) with ⟨place, hplace, habove, heq⟩ | ⟨hnone, heq⟩
        · exact .inl ⟨place, .pad hin hkind hplace, habove, heq⟩
        refine .inr ⟨fun place hplace => ?_, heq⟩
        cases hplace with
        | here _ hkind' _ => rw [hkind] at hkind'; cases hkind'
        | pad _ _ hrest => exact hnone place hrest
        | skip hkind' _ hplain _ _ _ _ =>
          rw [hkind] at hkind'
          exact absurd (some.inj hkind').symm hplain.2
      · rw [if_neg hone]
        cases hlength : packet[offset + 1]? with
        | none =>
          refine .inr ⟨fun place hplace => ?_, rfl⟩
          have hpast := getElem?_eq_none_iff.1 hlength
          have hbounds := hplace.bounds
          omega
        | some length =>
          dsimp only
          by_cases hbad : length.toNat < 2 ∨ finish < offset + length.toNat
          · -- A length that cannot be ends the reading.
            rw [if_pos hbad]
            refine .inr ⟨fun place hplace => ?_, rfl⟩
            cases hplace with
            | here hfour _ hlength' =>
              rw [hlength] at hlength'
              rw [some.inj hlength', show (4 : UInt8).toNat = 4 from rfl] at hbad
              omega
            | pad _ hkind' _ =>
              rw [hkind] at hkind'
              exact absurd (some.inj hkind') hone
            | skip _ hlength' _ htwo hfits _ _ =>
              rw [hlength] at hlength'
              cases hlength'
              omega
          · rw [if_neg hbad]
            by_cases hmss : kind = 2 ∧ length = 4
            · rw [if_pos hmss]
              obtain ⟨rfl, rfl⟩ := hmss
              rw [show (4 : UInt8).toNat = 4 from rfl] at hbad
              have hhere : FirstMss packet finish offset offset :=
                .here (by omega) hkind hlength
              rw [getElem?_eq_getD (show offset + 2 < packet.length by omega),
                getElem?_eq_getD (show offset + 3 < packet.length by omega),
                bind_some, bind_some]
              by_cases habove : maximum < wordAt packet (offset + 2)
              · refine .inl ⟨offset, hhere, habove, ?_⟩
                refine (if_pos habove).trans ?_
                rw [writeWord, if_pos (by omega)]
                rfl
              · refine .inr ⟨fun place hplace => ?_, ?_⟩
                · rw [hplace.unique hhere]
                  exact habove
                · exact if_neg habove
            · rw [if_neg hmss]
              rcases ih (offset + length.toNat) (by omega) with
                ⟨place, hplace, habove, heq⟩ | ⟨hnone, heq⟩
              · exact .inl ⟨place, .skip hkind hlength ⟨hzero, hone⟩ (by omega) (by omega)
                  hmss hplace, habove, heq⟩
              refine .inr ⟨fun place hplace => ?_, heq⟩
              cases hplace with
              | here _ hkind' hlength' =>
                rw [hkind] at hkind'
                rw [hlength] at hlength'
                exact absurd ⟨some.inj hkind', some.inj hlength'⟩ hmss
              | pad _ hkind' _ =>
                rw [hkind] at hkind'
                exact absurd (some.inj hkind') hone
              | skip _ hlength' _ _ _ _ hrest =>
                rw [hlength] at hlength'
                cases hlength'
                exact hnone place hrest
    · rw [if_neg hin]
      refine .inr ⟨fun place hplace => ?_, rfl⟩
      have hbounds := hplace.bounds
      omega

theorem clamp_of_not_syn (h : ¬ Syn packet) (maximum : UInt16) :
    clamp packet maximum = some (false, packet) := by
  rw [clamp]
  by_cases hshort : packet.length < 20
  · exact if_pos hshort
  rw [if_neg hshort, getElem?_eq_getD (show 0 < packet.length by omega),
    getElem?_eq_getD (show 9 < packet.length by omega)]
  dsimp only [bind_eq_bind]
  by_cases hplain : packet.getD 0 0 >>> 4 ≠ 4 ∨ packet.getD 9 0 ≠ 6
  · exact if_pos hplain
  refine (if_neg hplain).trans ?_
  rw [not_or, not_not, not_not] at hplain
  by_cases hfixed : packet.length < ipHeader packet + 20
  · exact if_pos hfixed
  refine (if_neg hfixed).trans ?_
  have hflags := getElem?_eq_getD (show ipHeader packet + 13 < packet.length by omega)
  have hoffset := getElem?_eq_getD (show ipHeader packet + 12 < packet.length by omega)
  rw [← ipHeader, hflags, hoffset]
  dsimp only [bind_some]
  by_cases hsyn : packet.getD (ipHeader packet + 13) 0 &&& 0x02 = 0
  · exact if_pos hsyn
  · refine (if_neg hsyn).trans (if_pos ?_)
    by_contra hlengths
    rw [not_or, not_lt, not_lt] at hlengths
    exact h ⟨not_lt.1 hshort, hplain.1, hplain.2, not_lt.1 hfixed, hsyn, hlengths.1,
      hlengths.2⟩

theorem clamp_of_syn (h : Syn packet) (maximum : UInt16) :
    clamp packet maximum = clampOptions packet maximum (ipHeader packet + tcpHeader packet)
      (tcpHeader packet - 20) (ipHeader packet + 20) := by
  have hlong := h.long
  have hfixed := h.fixed
  rw [clamp, if_neg (not_lt.2 hlong), getElem?_eq_getD (show 0 < packet.length by omega),
    getElem?_eq_getD (show 9 < packet.length by omega)]
  dsimp only [bind_eq_bind]
  refine (if_neg (not_or.2 ⟨not_not.2 h.version, not_not.2 h.protocol⟩)).trans ?_
  refine (if_neg (not_lt.2 hfixed)).trans ?_
  rw [← ipHeader, getElem?_eq_getD (show ipHeader packet + 13 < packet.length by omega),
    getElem?_eq_getD (show ipHeader packet + 12 < packet.length by omega)]
  dsimp only [bind_some]
  refine (if_neg h.syn).trans ?_
  exact if_neg (not_or.2 ⟨not_lt.2 h.offset, not_lt.2 h.inside⟩)

theorem clamp_spec (packet : Bytes) (maximum : UInt16) :
    (∃ place, Advertises packet maximum place ∧
      clamp packet maximum = some (true, setU16 packet (place + 2) maximum)) ∨
    ((¬ ∃ place, Advertises packet maximum place) ∧
      clamp packet maximum = some (false, packet)) := by
  by_cases hsyn : Syn packet
  · rw [clamp_of_syn hsyn]
    have hoffset := hsyn.offset
    rcases clampOptions_spec hsyn.inside (tcpHeader packet - 20) (ipHeader packet + 20) (by omega)
      with ⟨place, hplace, habove, heq⟩ | ⟨hnone, heq⟩
    · exact .inl ⟨place, ⟨hsyn, hplace, habove⟩, heq⟩
    · refine .inr ⟨?_, heq⟩
      rintro ⟨place, h⟩
      exact hnone place h.first h.above
  · refine .inr ⟨?_, clamp_of_not_syn hsyn maximum⟩
    rintro ⟨place, h⟩
    exact hsyn h.toSyn

/-! ## The checksum -/

theorem getD_setU16_of_ne {bytes : Bytes} {i j : Nat} (v : UInt16) (h : j ≠ i) (h' : j ≠ i + 1) :
    (setU16 bytes i v).getD j 0 = bytes.getD j 0 :=
  Ipv4Fragments.getD_of_getElem? (getElem?_setU16_of_ne bytes v h h')

theorem setU16_setU16 (bytes : Bytes) (i : Nat) (v w : UInt16) :
    setU16 (setU16 bytes i v) i w = setU16 bytes i w := by
  rw [setU16, setU16, setU16, set_comm _ _ (succ_ne_self i), set_set, set_set]

theorem drop_setU16 (bytes : Bytes) (start i : Nat) (v : UInt16) :
    (setU16 bytes (start + i) v).drop start = setU16 (bytes.drop start) i v := by
  rw [setU16, drop_set, drop_set, if_neg (by omega), if_neg (by omega)]
  congr 1
  · congr 1
    omega
  · omega

/-- The packet without its TCP checksum, which `clamp_with_checksum` sums. -/
def cleared (packet : Bytes) : Bytes := setU16 packet (ipHeader packet + 16) 0

/-- The checksum `clamp_with_checksum` computes. -/
def tcpChecksum (packet : Bytes) : UInt16 :=
  let total := min (totalLength packet) packet.length
  ~~~ (UInt16.ofNat (fold 16 (wordSum (((cleared packet).take 20).drop 12) + 6 +
    (total - ipHeader packet) + wordSum (((cleared packet).take total).drop (ipHeader packet)))))

theorem rechecksum_eq (hlong : 20 ≤ packet.length) (hfixed : ipHeader packet + 20 ≤ packet.length) :
    rechecksum packet =
      if ipHeader packet ≤ totalLength packet then
        some (true, setU16 packet (ipHeader packet + 16) (tcpChecksum packet))
      else none := by
  rw [rechecksum, getElem?_eq_getD (show 0 < packet.length by omega),
    getElem?_eq_getD (show 2 < packet.length by omega),
    getElem?_eq_getD (show 3 < packet.length by omega)]
  dsimp only [bind_eq_bind, bind_some]
  rw [← ipHeader, writeWord, if_pos (by omega), bind_some, range,
    if_pos ⟨by decide, by rw [length_setU16]; exact hlong⟩, bind_some, range, length_setU16]
  by_cases htotal : ipHeader packet ≤ totalLength packet
  · have hin : ipHeader packet ≤ min (totalLength packet) packet.length := by omega
    rw [if_pos htotal]
    refine (congrArg (fun o => Option.bind o _) (if_pos ⟨hin, min_le_right _ _⟩)).trans ?_
    rw [bind_some, writeWord, length_setU16, if_pos (by omega), setU16_setU16]
    rfl
  · rw [if_neg htotal]
    refine (congrArg (fun o => Option.bind o _) (if_neg ?_)).trans rfl
    rintro ⟨hin, -⟩
    exact htotal (hin.trans (min_le_left _ _))

theorem wordSum_addresses (p : Ipv4Packet) :
    wordSum ((p.bytes.take 20).drop 12) = addressSum p.source + addressSum p.destination := by
  rw [← Header.bytes_of]
  show wordSum [p.source.1, p.source.2.1, p.source.2.2.1, p.source.2.2.2, p.destination.1,
    p.destination.2.1, p.destination.2.2.1, p.destination.2.2.2] = _
  simp only [wordSum, addressSum]
  omega

theorem tcpChecksum_verifies (hheader : 20 ≤ ipHeader packet)
    (hfixed : ipHeader packet + 20 ≤ packet.length) (htotal : totalLength packet = packet.length)
    (hlong : 20 ≤ (setU16 packet (ipHeader packet + 16) (tcpChecksum packet)).length) :
    TransportVerifies (source ⟨_, hlong⟩) (destination ⟨_, hlong⟩) 6
      ((setU16 packet (ipHeader packet + 16) (tcpChecksum packet)).drop (ipHeader packet)) := by
  have hclear : 20 ≤ (cleared packet).length := by rw [cleared, length_setU16]; omega
  have hlength : packet.length ≤ 65535 := by
    rw [← htotal]
    exact le_of_lt_succ (UInt16.toNat_lt _)
  -- The addresses are the same before and after the checksum is written.
  have haddress : ∀ i : Fin 20, Ipv4Packet.byte ⟨_, hlong⟩ i = Ipv4Packet.byte ⟨_, hclear⟩ i := by
    intro i
    have hi := i.isLt
    rw [Ipv4Fragments.byte_eq_getD, Ipv4Fragments.byte_eq_getD]
    dsimp only
    rw [cleared, getD_setU16_of_ne _ (by omega) (by omega), getD_setU16_of_ne _ (by omega)
      (by omega)]
  have hsource : source ⟨_, hlong⟩ = source ⟨_, hclear⟩ := by
    simp only [source, haddress]
  have hdestination : destination ⟨_, hlong⟩ = destination ⟨_, hclear⟩ := by
    simp only [destination, haddress]
  have hsegment : ((cleared packet).drop (ipHeader packet)).length =
      packet.length - ipHeader packet := by
    rw [length_drop, cleared, length_setU16]
  have hchecksum : (tcpChecksum packet).toNat = 65535 - fold 16
      (transportSum (source ⟨_, hclear⟩) (destination ⟨_, hclear⟩) 6
        ((cleared packet).drop (ipHeader packet))) := by
    have hsum : wordSum (((cleared packet).take 20).drop 12) + 6 +
        (packet.length - ipHeader packet) + wordSum ((cleared packet).drop (ipHeader packet)) =
        transportSum (source ⟨_, hclear⟩) (destination ⟨_, hclear⟩) 6
          ((cleared packet).drop (ipHeader packet)) := by
      rw [wordSum_addresses ⟨_, hclear⟩, transportSum, hsegment]
      rfl
    have hwhole : (cleared packet).take packet.length = cleared packet := by
      apply take_of_length_le
      rw [cleared, length_setU16]
    have hle := transportSum_lt (source ⟨_, hclear⟩) (destination ⟨_, hclear⟩)
      6 (show ((cleared packet).drop (ipHeader packet)).length ≤ 65535 by rw [hsegment]; omega)
    rw [tcpChecksum, htotal, min_self, hwhole, hsum, Ipv4Fragments.not_toNat,
      UInt16.toNat_ofNat', mod_eq_of_lt]
    exact lt_succ_of_le (fold_le (by decide) (by omega))
  have hset : (setU16 packet (ipHeader packet + 16) (tcpChecksum packet)).drop (ipHeader packet) =
      setU16 ((cleared packet).drop (ipHeader packet)) 16 (tcpChecksum packet) := by
    rw [← drop_setU16, cleared, setU16_setU16]
  have hzero : wordAt ((cleared packet).drop (ipHeader packet)) 16 = 0 := by
    rw [cleared, drop_setU16, wordAt_setU16]
    rw [length_drop]
    omega
  have hreplaced := transportSum_setU16 (source ⟨_, hclear⟩)
    (destination ⟨_, hclear⟩) 6 (i := 16) (by decide)
    (show 16 + 2 ≤ ((cleared packet).drop (ipHeader packet)).length by rw [hsegment]; omega)
    (tcpChecksum packet)
  rw [hzero, show (0 : UInt16).toNat = 0 from rfl, add_zero, hchecksum] at hreplaced
  rw [TransportVerifies, hsource, hdestination, hset, hreplaced]
  apply fold_add_complement (by decide)
  · exact transportSum_pos _ _ (by decide) _
  · apply transportSum_lt
    rw [hsegment]
    omega

/-! ## Safety -/

/-- `clamp` returns; false leaves the packet, and true lowers the first MSS option to the maximum.
-/
def ClampSafe (packet : Bytes) (maximum : UInt16) : Prop :=
  ∃ answer, clamp packet maximum = some answer ∧ (answer.1 = false → answer.2 = packet) ∧
    (answer.1 = true → ∃ place, Advertises packet maximum place ∧
      answer.2 = setU16 packet (place + 2) maximum)

/-- A packet that is a whole IPv4 packet and nothing else. -/
structure Whole (packet : Bytes) : Prop where
  header : 20 ≤ ipHeader packet
  length : totalLength packet = packet.length

/-- `clamp_with_checksum` returns; false leaves the packet, true lowers the first MSS option and
writes the TCP checksum, and that verifies when the packet is a whole one. -/
def ChecksumSafe (packet : Bytes) (maximum : UInt16) : Prop :=
  ∃ answer, clampWithChecksum packet maximum = some answer ∧
    (answer.1 = false → answer.2 = packet) ∧
    (answer.1 = true → ∃ place checksum, Advertises packet maximum place ∧
      answer.2 = setU16 (setU16 packet (place + 2) maximum) (ipHeader packet + 16) checksum) ∧
    (answer.1 = true → Whole packet → ∃ p : Ipv4Packet, p.bytes = answer.2 ∧
      TransportVerifies p.source p.destination 6 (answer.2.drop (ipHeader packet)))

theorem clampSafe (packet : Bytes) (maximum : UInt16) : ClampSafe packet maximum := by
  rcases clamp_spec packet maximum with ⟨place, h, heq⟩ | ⟨-, heq⟩
  · exact ⟨_, heq, nofun, fun _ => ⟨place, h, rfl⟩⟩
  · exact ⟨_, heq, fun _ => rfl, nofun⟩

theorem Advertises.place_ge {maximum : UInt16} {place : Nat} (h : Advertises packet maximum place) :
    ipHeader packet + 20 ≤ place := h.first.bounds.1

theorem ipHeader_setU16 (packet : Bytes) {i : Nat} (h : 4 ≤ i) (v : UInt16) :
    ipHeader (setU16 packet i v) = ipHeader packet := by
  rw [ipHeader, getD_setU16_of_ne _ (by omega) (by omega)]
  rfl

theorem totalLength_setU16 (packet : Bytes) {i : Nat} (h : 4 ≤ i) (v : UInt16) :
    totalLength (setU16 packet i v) = totalLength packet := by
  rw [totalLength, wordAt, getD_setU16_of_ne _ (by omega) (by omega),
    getD_setU16_of_ne _ (by omega) (by omega)]
  rfl

theorem checksumSafe_iff (packet : Bytes) (maximum : UInt16) :
    ChecksumSafe packet maximum ↔
      ((∃ place, Advertises packet maximum place) → ipHeader packet ≤ totalLength packet) := by
  rcases clamp_spec packet maximum with ⟨place, h, heq⟩ | ⟨hnone, heq⟩
  · have hplace := h.place_ge
    have hfixed := h.fixed
    have hheader := ipHeader_setU16 packet (show 4 ≤ place + 2 by omega) maximum
    have htotal := totalLength_setU16 packet (show 4 ≤ place + 2 by omega) maximum
    have hwith : clampWithChecksum packet maximum =
        rechecksum (setU16 packet (place + 2) maximum) := by
      rw [clampWithChecksum, heq]
      rfl
    have hrechecksum := rechecksum_eq
      (show 20 ≤ (setU16 packet (place + 2) maximum).length by rw [length_setU16]; exact h.long)
      (by rw [length_setU16, hheader]; exact hfixed)
    rw [hheader, htotal] at hrechecksum
    constructor
    · rintro ⟨answer, hanswer, -⟩ -
      by_contra hsmall
      rw [hwith, hrechecksum, if_neg hsmall] at hanswer
      cases hanswer
    intro hcondition
    rw [if_pos (hcondition ⟨place, h⟩)] at hrechecksum
    refine ⟨_, hwith.trans hrechecksum, nofun,
      fun _ => ⟨place, _, h, rfl⟩, ?_⟩
    intro _ hwhole
    have hlength : (setU16 packet (place + 2) maximum).length = packet.length := length_setU16 _ _ _
    have hverifies := @tcpChecksum_verifies (setU16 packet (place + 2) maximum)
      (by rw [hheader]; exact hwhole.header) (by rw [hheader, hlength]; exact hfixed)
      (by rw [htotal, hlength]; exact hwhole.length)
      (by rw [length_setU16, hlength]; exact h.long)
    rw [hheader] at hverifies
    exact ⟨⟨_, _⟩, rfl, hverifies⟩
  · have hwith : clampWithChecksum packet maximum = some (false, packet) := by
      rw [clampWithChecksum, heq]
      rfl
    refine iff_of_true ?_ fun hsome => absurd hsome hnone
    exact ⟨_, hwith, fun _ => rfl, nofun,
      nofun⟩

/-- Clamping is safe exactly where the total length field is not smaller than the header length, or
no MSS above the maximum is advertised. -/
theorem clamping_is_safe_iff (packet : Bytes) (maximum : UInt16) :
    ClampSafe packet maximum ∧ ChecksumSafe packet maximum ↔
      ((∃ place, Advertises packet maximum place) → ipHeader packet ≤ totalLength packet) :=
  (and_iff_right (clampSafe packet maximum)).trans (checksumSafe_iff packet maximum)

/-- A SYN that advertises 1460, with the given total length. -/
def synSample (total : UInt8) : Bytes :=
  [0x45, 0, 0, total, 0, 0, 0, 0, 64, 6, 0, 0, 10, 203, 0, 2, 54, 115, 107, 161,
    0, 80, 0, 81, 0, 0, 0, 1, 0, 0, 0, 0, 0x60, 0x02, 0, 0, 0, 0, 0, 0, 2, 4, 5, 180]

/-- A SYN whose total length field is zero. -/
theorem short_total_length_ends_the_program :
    clampWithChecksum (synSample 0) 1000 = none ∧
      ¬ (ClampSafe (synSample 0) 1000 ∧ ChecksumSafe (synSample 0) 1000) := by
  have hnone : clampWithChecksum (synSample 0) 1000 = none := by decide +kernel
  refine ⟨hnone, ?_⟩
  rintro ⟨-, answer, hanswer, -⟩
  rw [hnone] at hanswer
  cases hanswer

end GamePath.Engine.TcpMss
