import GamePath.Engine.FragmentRoundTrip

/-!
# The pieces of a split packet

What `split_for_tunnel` returns for any packet, also one that is a fragment itself. Every piece is a
correct fragment of the original as long as no piece starts at 65536 or later (`OffsetsFit`). The
source ORs the offset into the word of flags without a bound, and a piece further out sets its More
Fragments bit and loses its offset: `piecesCorrect_iff`, and `piece_past_the_offset_field`.
-/

namespace GamePath.Engine.Ipv4Fragments

open Lib List Tiles

/-- The payload of a packet up to its total length. -/
def carried (d : Ipv4Packet) : Bytes := (d.bytes.take (totalLength d)).drop 20

/-- Where a piece starts in the payload: after the payloads of the pieces before it. -/
def positionOf (pieces : List Bytes) (i : Nat) : Nat :=
  ((pieces.take i).map fun piece => piece.length - 20).sum

/-- A piece is a correct fragment of `d`. -/
structure CorrectPiece (d : Ipv4Packet) (mtu position : Nat) (last : Bool) (p : Ipv4Packet) :
    Prop where
  fits : p.length ≤ mtu
  length : totalLength p = p.length
  offset : fragmentOffset p = fragmentOffset d + position
  dontFragment : flags p &&& dontFragment = flags d &&& dontFragment
  more : hasMore p = (hasMore d || !last)
  checksum : (Header.of p).Verifies
  unchanged : ∀ i, i < 20 → i ∉ [2, 3, 6, 7, 10, 11] → p.bytes[i]? = d.bytes[i]?

/-- All pieces are correct fragments, and together they carry the payload. -/
structure PiecesCorrect (d : Ipv4Packet) (mtu : Nat) (pieces : List Bytes) : Prop where
  payload : pieces.flatMap (List.drop 20) = carried d
  piece : ∀ i piece, pieces[i]? = some piece → ∃ p : Ipv4Packet, p.bytes = piece ∧
    CorrectPiece d mtu (positionOf pieces i) (decide (i + 1 = pieces.length)) p

/-- No piece starts past what the offset field can say. -/
def OffsetsFit (d : Ipv4Packet) (mtu : Nat) : Prop :=
  ∀ i, i * pieceSize mtu < totalLength d - 20 → fragmentOffset d + i * pieceSize mtu < 65536

/-- The header of the piece at an index. -/
def cutHeader (d : Ipv4Packet) (mtu index : Nat) : Header :=
  { Header.of d with
    length := UInt16.ofNat (20 + (tile (carried d) (pieceSize mtu) index).length)
    flags := pieceFlags (flags d) ((fragmentOffset d + index * pieceSize mtu) / 8)
      (hasMore d || !decide (index + 1 = tileCount (carried d).length (pieceSize mtu)))
    }.checked

theorem pieceOf_bytes (d : Ipv4Packet) (mtu index : Nat) :
    pieceOf d mtu index =
      (cutHeader d mtu index).bytes ++ tile (carried d) (pieceSize mtu) index := by
  rw [pieceOf, ← Header.bytes_of]
  rfl

/-- What the guards of `split_for_tunnel` let through. -/
structure Splits (d : Ipv4Packet) (mtu : Nat) : Prop where
  version : d.byte 0 = 0x45
  wide : 28 ≤ mtu
  inside : totalLength d ≤ d.length
  tooLong : mtu < totalLength d

variable {d : Ipv4Packet} {mtu : Nat}

theorem splits_of_split {pieces : List Bytes} (h : splitForTunnel d.bytes mtu = some pieces) :
    Splits d mtu ∧ pieces = (List.range (tileCount (carried d).length (pieceSize mtu))).map
      (pieceOf d mtu) := by
  rw [splitForTunnel, dif_pos d.long] at h
  dsimp only at h
  split at h
  · cases h
  next hplain =>
    split at h
    · cases h
    next hfits =>
      rw [not_or, not_not, Nat.not_lt] at hplain
      rw [not_or, Nat.not_lt, Nat.not_le] at hfits
      have hlength : (carried d).length = totalLength d - 20 := by
        rw [carried, length_drop, length_take, Nat.min_eq_left hfits.1]
      refine ⟨⟨hplain.1, hplain.2, hfits.1, hfits.2⟩, ?_⟩
      rw [hlength]
      exact (Option.some.inj h).symm

theorem Splits.length_carried (h : Splits d mtu) :
    (carried d).length = totalLength d - 20 := by
  have hinside := h.inside
  rw [Ipv4Packet.length] at hinside
  rw [carried, length_drop, length_take, Nat.min_eq_left hinside]

theorem fragmentOffset_lt (p : Ipv4Packet) : fragmentOffset p < 65536 := by
  have hmask : (flags p &&& offsetMask).toNat ≤ 8191 := by
    exact Nat.and_le_right
  rw [fragmentOffset]
  omega

theorem fragmentOffset_mod (p : Ipv4Packet) : fragmentOffset p % 8 = 0 := Nat.mul_mod_left _ _

theorem positionOf_pieces (d : Ipv4Packet) (hmtu : 28 ≤ mtu) (i : Nat) :
    i ≤ tileCount (carried d).length (pieceSize mtu) - 1 →
      positionOf ((List.range (tileCount (carried d).length (pieceSize mtu))).map
        (pieceOf d mtu)) i = i * pieceSize mtu := by
  induction i with
  | zero => simp [positionOf]
  | succ i ih =>
    intro hi
    have hlt : i + 1 < tileCount (carried d).length (pieceSize mtu) := by omega
    have hget : ((List.range (tileCount (carried d).length (pieceSize mtu))).map
        (pieceOf d mtu))[i]? = some (pieceOf d mtu i) := by
      rw [getElem?_map, getElem?_range (by omega)]
      rfl
    rw [positionOf, take_add_one, hget, map_append, sum_append, ← positionOf,
      ih (by omega)]
    have hfull := length_tile_of_lt (pieceSize_pos hmtu) hlt
    rw [pieceOf_bytes]
    simp only [Option.toList_some, map_cons, map_nil, sum_cons, sum_nil,
      length_append, Header.length_bytes, hfull]
    rw [Nat.add_mul]
    omega

theorem correctPiece_pieceOf (h : Splits d mtu) {i : Nat}
    (hfit : fragmentOffset d + i * pieceSize mtu < 65536) :
    ∃ p : Ipv4Packet, p.bytes = pieceOf d mtu i ∧ CorrectPiece d mtu (i * pieceSize mtu)
      (decide (i + 1 = tileCount (carried d).length (pieceSize mtu))) p := by
  have hlong : 20 ≤ ((cutHeader d mtu i).bytes ++
      tile (carried d) (pieceSize mtu) i).length := by
    rw [length_append, Header.length_bytes]
    omega
  refine ⟨⟨_, hlong⟩, (pieceOf_bytes d mtu i).symm, ?_⟩
  have hheader := Header.of_append (cutHeader d mtu i) _ hlong
  have hlength : (tile (carried d) (pieceSize mtu) i).length ≤ pieceSize mtu := by
    rw [length_tile]
    omega
  have hmtu : 20 + pieceSize mtu ≤ mtu := by
    have hle := h.wide
    rw [pieceSize]
    omega
  have htotal : mtu < 65536 := Nat.lt_trans h.tooLong (UInt16.toNat_lt _)
  -- Both summands are multiples of eight, so the field loses nothing of the offset.
  have height : (fragmentOffset d + i * pieceSize mtu) / 8 * 8 =
      fragmentOffset d + i * pieceSize mtu := by
    apply Nat.div_mul_cancel
    apply Nat.dvd_add
    · exact Nat.dvd_of_mod_eq_zero (fragmentOffset_mod d)
    · exact Nat.dvd_mul_left_of_dvd (Nat.dvd_of_mod_eq_zero (pieceSize_mod mtu)) i
  have hfield : (fragmentOffset d + i * pieceSize mtu) / 8 < 8192 := by omega
  have hflags : flags ⟨_, hlong⟩ = (cutHeader d mtu i).flags := congrArg Header.flags hheader
  refine ⟨?_, ?_, ?_, ?_, ?_, ?_, ?_⟩
  · rw [Ipv4Packet.length, length_append, Header.length_bytes]
    omega
  · have hfield : totalLength ⟨_, hlong⟩ = (cutHeader d mtu i).length.toNat :=
      congrArg (fun header => header.length.toNat) hheader
    rw [hfield, Ipv4Packet.length, length_append]
    show (UInt16.ofNat (20 + _)).toNat = _
    exact Nat.mod_eq_of_lt (by omega)
  · rw [fragmentOffset, hflags]
    show (pieceFlags _ _ _ &&& offsetMask).toNat * 8 = _
    rw [pieceFlags_offset _ hfield, height]
  · rw [hflags]
    exact pieceFlags_dontFragment _ hfield _
  · rw [hasMore, hflags]
    exact pieceFlags_more _ hfield _
  · rw [hheader]
    apply Header.checked_verifies
    show d.byte 0 ≠ 0
    rw [h.version]
    decide
  · intro j hj hkept
    have hd : d.bytes[j]? = (Header.of d).bytes[j]? := by
      rw [Header.bytes_of, getElem?_take_of_lt hj]
    rw [hd]
    simp only [mem_cons, not_mem_nil, or_false, not_or] at hkept
    interval_cases j <;> first | rfl | omega

theorem lt_of_correctPiece {mtu position : Nat} {last : Bool} {p : Ipv4Packet}
    (h : CorrectPiece d mtu position last p) : fragmentOffset d + position < 65536 := by
  rw [← h.offset]
  exact fragmentOffset_lt p

theorem piecesCorrect_iff {pieces : List Bytes} (h : splitForTunnel d.bytes mtu = some pieces) :
    PiecesCorrect d mtu pieces ↔ OffsetsFit d mtu := by
  obtain ⟨hsplits, rfl⟩ := splits_of_split h
  have hsize := pieceSize_pos hsplits.wide
  have hindex : ∀ i, i < tileCount (carried d).length (pieceSize mtu) ↔
      i * pieceSize mtu < totalLength d - 20 := by
    intro i
    rw [← hsplits.length_carried]
    exact lt_tileCount_iff hsize
  have hposition := positionOf_pieces d hsplits.wide
  constructor
  · intro hcorrect i hi
    have hlt := (hindex i).2 hi
    obtain ⟨p, -, hp⟩ := hcorrect.piece i (pieceOf d mtu i) (by
      rw [getElem?_map, getElem?_range hlt]
      rfl)
    have hbound := lt_of_correctPiece hp
    rwa [hposition i (by omega)] at hbound
  intro hfit
  refine ⟨?_, ?_⟩
  · have hdrop : ∀ i, (pieceOf d mtu i).drop 20 = tile (carried d) (pieceSize mtu) i := by
      intro i
      rw [pieceOf_bytes]
      exact drop_left' (Header.length_bytes _)
    rw [flatMap_map]
    simp only [hdrop]
    exact flatMap_tile hsize _
  intro i piece hpiece
  rw [getElem?_map, Option.map_eq_some_iff] at hpiece
  obtain ⟨j, hj, rfl⟩ := hpiece
  obtain ⟨hi, rfl⟩ := List.getElem?_eq_some_iff.1 hj
  rw [length_range] at hi
  rw [getElem_range, hposition i (by omega), length_map, length_range]
  exact correctPiece_pieceOf hsplits (hfit i ((hindex i).1 hi))

/-- Splitting any packet gives correct fragments exactly when no piece starts past the offset
field. -/
theorem split_pieces_correct {d : Ipv4Packet} {mtu : Nat} {pieces : List Bytes}
    (h : splitForTunnel d.bytes mtu = some pieces) :
    PiecesCorrect d mtu pieces ↔ OffsetsFit d mtu :=
  piecesCorrect_iff h

/-- A fragment of 36 bytes with the given flags. -/
def cutSample (flags : UInt16) : Ipv4Packet where
  bytes := [0x45, 0, 0, 36, 0, 1, hiByte flags, loByte flags, 64, 17, 0, 0, 10, 0, 0, 1, 10,
    0, 0, 2] ++
    List.replicate 16 7
  long := by simp

/-- A middle fragment splits into two correct ones. -/
theorem split_pieces_correct_middle :
    ∃ pieces, splitForTunnel (cutSample 0x2001).bytes 28 = some pieces ∧
      (PiecesCorrect (cutSample 0x2001) 28 pieces ↔ OffsetsFit (cutSample 0x2001) 28) := by
  refine ⟨_, rfl, split_pieces_correct ?_⟩
  rfl

/-- The last fragment a datagram can have, 16 bytes of payload: its second piece would start at
65536 and comes out as a first fragment with More Fragments set. -/
theorem piece_past_the_offset_field :
    ∃ pieces, splitForTunnel (cutSample 0x1fff).bytes 28 = some pieces ∧
      ¬ PiecesCorrect (cutSample 0x1fff) 28 pieces ∧
      ∃ piece, pieces[1]? = some piece ∧ u16OfBe (piece.getD 6 0) (piece.getD 7 0) = 0x2000 := by
  have hsplit : splitForTunnel (cutSample 0x1fff).bytes 28 =
      some [pieceOf (cutSample 0x1fff) 28 0, pieceOf (cutSample 0x1fff) 28 1] := by decide +kernel
  refine ⟨_, hsplit, ?_, _, rfl, by decide +kernel⟩
  rw [piecesCorrect_iff hsplit]
  intro hfit
  exact nomatch hfit 1 (by decide)

end GamePath.Engine.Ipv4Fragments
