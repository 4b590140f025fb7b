import GamePath.Lib.Run
import GamePath.Engine.Ipv4Header
import GamePath.Engine.Ipv4Fragments

/-!
# Splitting and reassembling

What comes out of an empty reassembler that is fed the pieces of one datagram, in any order and with
any copies: nothing until the last missing piece arrives, and then the datagram with its flags
reduced to Don't Fragment and its checksum computed anew (`push_pieces`). That is the datagram that
was split exactly when its reserved flag bit is clear, and its checksum is not the all-ones spelling
of zero (`split_round_trip`); `reserved_bit_is_lost` is a datagram that comes out changed.
-/

namespace GamePath.Engine.Ipv4Fragments

open Lib List KeyedMap DatagramKey Tiles Run Piece
open UInt16 (and_zero or_zero toNat_ofNat' zero_or)
open Header (checked length_bytes of_append)

universe u

/-! ## The word of flags and offset -/

theorem or_and (x y z : UInt16) : (x ||| y) &&& z = (x &&& z) ||| (y &&& z) :=
  UInt16.toBitVec_inj.1 BitVec.and_or_distrib_right

/-- The word of flags and offset of a piece. -/
def pieceFlags (flags : UInt16) (offset : Nat) (more : Bool) : UInt16 :=
  (flags &&& dontFragment) ||| UInt16.ofNat offset ||| if more then moreFragments else 0

variable {offset : Nat}

theorem ofNat_and_offsetMask (h : offset < 8192) :
    UInt16.ofNat offset &&& offsetMask = UInt16.ofNat offset := by
  rw [← UInt16.toNat_inj, UInt16.toNat_and, toNat_ofNat', Nat.mod_eq_of_lt (by omega)]
  show offset &&& 2 ^ 13 - 1 = offset
  rw [Nat.and_two_pow_sub_one_eq_mod]
  exact Nat.mod_eq_of_lt h

theorem ofNat_and_of_disjoint (h : offset < 8192) {flag : UInt16}
    (hflag : offsetMask &&& flag = 0) :
    UInt16.ofNat offset &&& flag = 0 := by
  rw [← ofNat_and_offsetMask h, UInt16.and_assoc, hflag, and_zero]

theorem pieceFlags_offset (flags : UInt16) (h : offset < 8192) (more : Bool) :
    (pieceFlags flags offset more &&& offsetMask).toNat = offset := by
  have hflags : flags &&& dontFragment &&& offsetMask = 0 := by
    rw [UInt16.and_assoc, show dontFragment &&& offsetMask = 0 by decide, and_zero]
  have hmore : (if more then moreFragments else 0) &&& offsetMask = 0 := by
    cases more with
    | false | true => rfl
  rw [pieceFlags, or_and, or_and, hflags, hmore, zero_or, or_zero, ofNat_and_offsetMask h]
  exact Nat.mod_eq_of_lt (by omega)

theorem pieceFlags_more (flags : UInt16) (h : offset < 8192) (more : Bool) :
    decide (pieceFlags flags offset more &&& moreFragments ≠ 0) = more := by
  have hflags : flags &&& dontFragment &&& moreFragments = 0 := by
    rw [UInt16.and_assoc, show dontFragment &&& moreFragments = 0 by decide, and_zero]
  rw [pieceFlags, or_and, or_and, hflags, ofNat_and_of_disjoint h (by decide), zero_or]
  cases more with
  | false | true => rfl

theorem pieceFlags_dontFragment (flags : UInt16) (h : offset < 8192) (more : Bool) :
    pieceFlags flags offset more &&& dontFragment = flags &&& dontFragment := by
  have hmore : (if more then moreFragments else 0) &&& dontFragment = 0 := by
    cases more with
    | false | true => rfl
  rw [pieceFlags, or_and, or_and, hmore, ofNat_and_of_disjoint h (by decide), or_zero,
    or_zero, UInt16.and_assoc, show dontFragment &&& dontFragment = dontFragment by decide]

/-! ## The pieces of a whole datagram -/

/-- An unfragmented datagram without options whose length and checksum are right. -/
structure Whole (d : Ipv4Packet) : Prop where
  version : d.byte 0 = 0x45
  checksum : (Header.of d).Verifies
  length : totalLength d = d.length
  offset : flags d &&& offsetMask = 0
  more : flags d &&& moreFragments = 0

/-- What a datagram carries after its header. -/
def dataOf (d : Ipv4Packet) : Bytes := d.bytes.drop 20

/-- The number of pieces of a datagram. -/
def pieceCount (d : Ipv4Packet) (mtu : Nat) : Nat :=
  tileCount (dataOf d).length (pieceSize mtu)

/-- The data of a piece. -/
def pieceData (d : Ipv4Packet) (mtu index : Nat) : Bytes :=
  tile (dataOf d) (pieceSize mtu) index

/-- The header of a piece. -/
def pieceHeader (d : Ipv4Packet) (mtu index : Nat) : Header :=
  { Header.of d with
    length := UInt16.ofNat (20 + (pieceData d mtu index).length)
    flags := pieceFlags (flags d) (index * pieceSize mtu / 8)
      (!decide (index + 1 = pieceCount d mtu)) }.checked

theorem withFields_bytes (h : Header) (data : Bytes) (length flags : UInt16) :
    withFields (h.bytes ++ data) length flags =
      { h with length := length, flags := flags }.checked.bytes ++ data := by
  rfl

theorem length_dataOf (d : Ipv4Packet) : (dataOf d).length + 20 = d.length := by
  rw [dataOf, length_drop]
  exact Nat.sub_add_cancel d.long

variable {d : Ipv4Packet}

theorem Whole.length_le (h : Whole d) : d.length ≤ 65535 := by
  rw [← h.length]
  exact Nat.le_of_lt_succ (UInt16.toNat_lt _)

theorem pieceOf_eq (h : Whole d) (mtu index : Nat) :
    pieceOf d mtu index = (pieceHeader d mtu index).bytes ++ pieceData d mtu index := by
  have hpayload : (d.bytes.take (totalLength d)).drop 20 = dataOf d := by
    rw [h.length, Ipv4Packet.length, take_length]
    rfl
  have hoffset : fragmentOffset d = 0 := by
    rw [fragmentOffset, h.offset]
    rfl
  have hmore : hasMore d = false := by
    rw [hasMore, h.more]
    rfl
  unfold pieceOf
  dsimp only
  rw [hpayload, hoffset, hmore, Nat.zero_add, Bool.false_or, ← Header.bytes_of]
  rfl

theorem exists_piece (h : Whole d) (mtu index : Nat) :
    ∃ hlong : 20 ≤ (pieceOf d mtu index).length,
      Header.of ⟨pieceOf d mtu index, hlong⟩ = pieceHeader d mtu index ∧
        (pieceOf d mtu index).drop 20 = pieceData d mtu index ∧
        (pieceOf d mtu index).take 20 = (pieceHeader d mtu index).bytes ∧
        (pieceOf d mtu index).length = 20 + (pieceData d mtu index).length := by
  rw [pieceOf_eq h]
  have hlength : ((pieceHeader d mtu index).bytes ++ pieceData d mtu index).length =
      20 + (pieceData d mtu index).length := by
    rw [length_append, length_bytes]
  refine ⟨by omega, of_append _ _ _, ?_, ?_, hlength⟩
  · exact drop_left' (length_bytes _)
  · exact take_left' (length_bytes _)

theorem pieceSize_mod (mtu : Nat) : pieceSize mtu % 8 = 0 := by
  exact Nat.mul_mod_left _ _

variable {mtu : Nat}

theorem pieceSize_pos (h : 28 ≤ mtu) : 0 < pieceSize mtu := by
  rw [pieceSize]
  omega

/-- What `push` reads off a packet that is one of the pieces. -/
structure Reads (d : Ipv4Packet) (mtu index : Nat) (p : Ipv4Packet) : Prop where
  header : headerLength p = 20
  total : totalLength p = p.length
  offset : fragmentOffset p = index * pieceSize mtu
  more : hasMore p = !decide (index + 1 = pieceCount d mtu)
  key : of p = of d
  data : p.bytes.drop 20 = pieceData d mtu index
  first : p.bytes.take 20 = (pieceHeader d mtu index).bytes

variable {p : Ipv4Packet}

theorem reads_of_eq (h : Whole d) {mtu index : Nat} (hmtu : 28 ≤ mtu)
    (hindex : index < pieceCount d mtu) (hp : p.bytes = pieceOf d mtu index) :
    Reads d mtu index p := by
  obtain ⟨hlong, hheader, hdrop, htake, hlength⟩ := exists_piece h mtu index
  obtain ⟨bytes, hbytes⟩ := p
  subst hp
  have hsize := pieceSize_pos hmtu
  have hmod := pieceSize_mod mtu
  have hle := h.length_le
  have hdata := length_dataOf d
  have hin : index * pieceSize mtu < (dataOf d).length := (lt_tileCount_iff hsize).1 hindex
  -- The data of a piece is a multiple of eight, so the offset field loses nothing.
  have height : index * pieceSize mtu / 8 * 8 = index * pieceSize mtu :=
    Nat.div_mul_cancel (Nat.dvd_of_mod_eq_zero (by rw [Nat.mul_mod, hmod, Nat.mul_zero]))
  have hpiece : (pieceData d mtu index).length ≤ (dataOf d).length := by
    rw [pieceData, length_tile]
    omega
  have hflags : flags ⟨pieceOf d mtu index, hbytes⟩ =
      pieceFlags (flags d) (index * pieceSize mtu / 8)
        (!decide (index + 1 = pieceCount d mtu)) := congrArg Header.flags hheader
  refine ⟨?_, ?_, ?_, ?_, ?_, hdrop, htake⟩
  · have hversion : (⟨pieceOf d mtu index, hbytes⟩ : Ipv4Packet).byte 0 = d.byte 0 :=
      congrArg Header.version hheader
    rw [headerLength, hversion, h.version]
    rfl
  · have htotal : totalLength ⟨pieceOf d mtu index, hbytes⟩ =
        (UInt16.ofNat (20 + (pieceData d mtu index).length)).toNat :=
      congrArg (fun header => header.length.toNat) hheader
    rw [htotal, toNat_ofNat', Nat.mod_eq_of_lt (by omega), Ipv4Packet.length, hlength]
  · rw [fragmentOffset, hflags, pieceFlags_offset _ (by omega), height]
  · rw [hasMore, hflags, pieceFlags_more _ (by omega)]
  · exact congrArg
      (fun header => (⟨header.source, header.destination, header.protocol,
        header.identification⟩ : DatagramKey)) hheader

theorem index_eq_of_pieceOf_eq (h : Whole d) {mtu i j : Nat} (hmtu : 28 ≤ mtu)
    (hi : i < pieceCount d mtu) (hj : j < pieceCount d mtu)
    (heq : pieceOf d mtu i = pieceOf d mtu j) : i = j := by
  obtain ⟨hlong, -⟩ := exists_piece h mtu i
  have hri := reads_of_eq (p := ⟨pieceOf d mtu i, hlong⟩) h hmtu hi rfl
  have hrj := reads_of_eq (p := ⟨pieceOf d mtu i, hlong⟩) h hmtu hj heq
  exact Nat.eq_of_mul_eq_mul_right (pieceSize_pos hmtu) (hri.offset.symm.trans hrj.offset)

/-! ## The scan over sorted pieces -/

variable {τ : Type u}

/-- The piece is the `i`-th one of the datagram. -/
def IsNth (d : Ipv4Packet) (mtu : Nat) (piece : Piece τ) (i : Nat) : Prop :=
  i < pieceCount d mtu ∧ piece.start = i * pieceSize mtu ∧ piece.data = pieceData d mtu i

/-- Pieces in order, none of them before the `k`-th. -/
structure Ordered (d : Ipv4Packet) (mtu k : Nat) (pieces : List (Piece τ)) : Prop where
  nth : ∀ piece ∈ pieces, ∃ i, k ≤ i ∧ IsNth d mtu piece i
  sorted : (pieces.map start).Pairwise (· < ·)

/-- No piece from the `k`-th on is missing. -/
def Complete (d : Ipv4Packet) (mtu k : Nat) (pieces : List (Piece τ)) : Prop :=
  ∀ i, k ≤ i → i < pieceCount d mtu → i * pieceSize mtu ∈ pieces.map start

variable {pieces : List (Piece τ)} {piece : Piece τ}

theorem Ordered.tail {mtu k : Nat} (h : Ordered d mtu k (piece :: pieces))
    (hstart : piece.start = k * pieceSize mtu) :
    Ordered d mtu (k + 1) pieces := by
  have hsorted := h.sorted
  obtain ⟨hfirst, hrest⟩ := pairwise_cons.1 hsorted
  refine ⟨fun other hother => ?_, hrest⟩
  obtain ⟨i, -, hi⟩ := h.nth other (mem_cons_of_mem _ hother)
  refine ⟨i, ?_, hi⟩
  have hlt := hfirst other.start (mem_map.2 ⟨other, hother, rfl⟩)
  rw [hstart, hi.2.1] at hlt
  exact Nat.lt_of_mul_lt_mul_right hlt

theorem Ordered.not_mem {mtu k i : Nat} (hsize : 0 < pieceSize mtu)
    (h : Ordered d mtu k (piece :: pieces)) (hstart : piece.start = i * pieceSize mtu)
    (hlt : k < i) :
    k * pieceSize mtu ∉ (piece :: pieces).map start := by
  have hsorted := h.sorted
  obtain ⟨hfirst, -⟩ := pairwise_cons.1 hsorted
  have hbelow : k * pieceSize mtu < i * pieceSize mtu := Nat.mul_lt_mul_of_pos_right hlt hsize
  intro hmem
  rcases mem_cons.1 hmem with heq | hmem
  · omega
  · have := hfirst _ hmem
    omega

theorem cover_complete (hmtu : 28 ≤ mtu) (pieces : List (Piece τ)) :
    ∀ k, k < pieceCount d mtu → Ordered d mtu k pieces → Complete d mtu k pieces →
      cover (k * pieceSize mtu) pieces = .upTo (dataOf d).length ∧
        pieces.flatMap data = (dataOf d).drop (k * pieceSize mtu) := by
  have hsize := pieceSize_pos hmtu
  induction pieces with
  | nil => exact fun k hk _ hcomplete => nomatch (hcomplete k (Nat.le_refl k) hk)
  | cons piece pieces ih =>
    intro k hk hordered hcomplete
    obtain ⟨i, hki, hi, hstart, hdata⟩ := hordered.nth piece mem_cons_self
    -- The first piece has to be the `k`-th, or that one would be missing.
    obtain rfl : k = i := by
      rcases Nat.lt_or_eq_of_le hki with hlt | heq
      · exact absurd (hcomplete k (Nat.le_refl k) hk) (hordered.not_mem hsize hstart hlt)
      · exact heq
    have htail := hordered.tail hstart
    rw [cover, hstart, if_neg (Nat.lt_irrefl _), if_neg (Nat.lt_irrefl _), flatMap_cons, hdata]
    by_cases hlast : k + 1 = pieceCount d mtu
    · -- The last piece: it ends the datagram, and nothing can follow it.
      have hnil : pieces = [] := by
        refine eq_nil_iff_forall_not_mem.2 fun other hother => ?_
        obtain ⟨j, hj, hother, -⟩ := htail.nth other hother
        omega
      have hend := mul_add_length_tile hsize hlast
      have hdrop := tile_append_drop (dataOf d) (pieceSize mtu) k
      rw [drop_of_length_le (by
        rw [← mul_add_length_tile hsize hlast, Nat.add_mul, length_tile]
        omega), append_nil] at hdrop
      rw [hnil, flatMap_nil, append_nil]
      exact ⟨congrArg Coverage.upTo hend, hdrop⟩
    · -- A piece before the last is full, so the scan goes on where the next one starts.
      have hnext : k + 1 < pieceCount d mtu := by omega
      have hfull : (pieceData d mtu k).length = pieceSize mtu :=
        length_tile_of_lt hsize hnext
      obtain ⟨hcover, hspell⟩ := ih (k + 1) hnext htail fun j hj hjcount => by
        rcases mem_cons.1 (hcomplete j (by omega) hjcount) with heq | hmem
        · rw [hstart] at heq
          have := Nat.eq_of_mul_eq_mul_right hsize heq
          omega
        · exact hmem
      rw [hspell, hfull]
      refine ⟨?_, tile_append_drop _ _ _⟩
      rw [← hcover, Nat.add_mul, Nat.one_mul]

theorem cover_gap (hmtu : 28 ≤ mtu) (pieces : List (Piece τ)) :
    ∀ k, Ordered d mtu k pieces → ¬ Complete d mtu k pieces →
      (pieceCount d mtu - 1) * pieceSize mtu ∈ pieces.map start →
      cover (k * pieceSize mtu) pieces = .gap := by
  have hsize := pieceSize_pos hmtu
  induction pieces with
  | nil => exact nofun
  | cons piece pieces ih =>
    intro k hordered hmissing hlast
    obtain ⟨i, hki, hi, hstart, hdata⟩ := hordered.nth piece mem_cons_self
    rcases Nat.lt_or_eq_of_le hki with hlt | rfl
    · -- The `k`-th piece itself is missing.
      rw [cover, if_pos]
      rw [hstart]
      exact Nat.mul_lt_mul_of_pos_right hlt hsize
    have htail := hordered.tail hstart
    have hmissing' : ¬ Complete d mtu (k + 1) pieces := by
      intro hcomplete
      apply hmissing
      intro j hj hjcount
      rcases Nat.lt_or_eq_of_le hj with hlt | rfl
      · exact mem_cons_of_mem _ (hcomplete j hlt hjcount)
      · exact hstart ▸ mem_cons_self
    -- A later piece is missing, so this one is not the last and is full.
    have hnext : k + 1 < pieceCount d mtu := by
      by_contra hge
      exact hmissing' fun j hj hjcount => absurd hjcount (by omega)
    have hlast' : (pieceCount d mtu - 1) * pieceSize mtu ∈ pieces.map start := by
      rcases mem_cons.1 hlast with heq | hmem
      · rw [hstart] at heq
        have := Nat.eq_of_mul_eq_mul_right hsize heq
        omega
      · exact hmem
    have hfull : (pieceData d mtu k).length = pieceSize mtu :=
      length_tile_of_lt hsize hnext
    have hcover := ih (k + 1) htail hmissing' hlast'
    rw [cover, hstart, if_neg (Nat.lt_irrefl _), if_neg (Nat.lt_irrefl _), hdata, hfull,
      ← hcover, Nat.add_mul, Nat.one_mul]

/-! ## The datagram that comes out -/

/-- A datagram with its flags reduced to Don't Fragment and its checksum computed anew. -/
def restored (d : Ipv4Packet) : Bytes :=
  { Header.of d with flags := flags d &&& dontFragment }.checked.bytes ++ dataOf d

theorem assemble_eq (h : Whole d) (hdata : pieces.flatMap data = dataOf d) :
    assemble (pieceHeader d mtu 0).bytes pieces = restored d := by
  have hflags : u16OfBe ((pieceHeader d mtu 0).bytes.getD 6 0)
      ((pieceHeader d mtu 0).bytes.getD 7 0) &&& dontFragment = flags d &&& dontFragment := by
    show u16OfBe (hiByte (pieceHeader d mtu 0).flags) (loByte (pieceHeader d mtu 0).flags) &&&
      dontFragment = _
    rw [u16OfBe_bytes]
    apply pieceFlags_dontFragment
    rw [Nat.zero_mul]
    decide
  have hlength : UInt16.ofNat ((pieceHeader d mtu 0).bytes ++ dataOf d).length =
      (Header.of d).length := by
    rw [length_append, length_bytes, Nat.add_comm, length_dataOf, ← h.length]
    exact UInt16.ofNat_toNat
  unfold assemble
  dsimp only
  rw [hdata, hflags, hlength, Header.setU16_length, Header.setU16_flags, Header.setU16_checksum,
    length_bytes, Header.setU16_checksum]
  rfl

/-! ## The reassembler while pieces arrive -/

/-- The entry of a datagram of which the pieces `seen` have arrived, opened at one of `instants`. -/
structure Holding (d : Ipv4Packet) (mtu : Nat) (instants : List Instant) (seen : List Nat)
    (entry : Partial τ) : Prop where
  started : entry.started ∈ instants
  nth : ∀ piece ∈ entry.pieces, ∃ i, IsNth d mtu piece i
  nodup : (entry.pieces.map start).Nodup
  arrived : ∀ i, i < pieceCount d mtu →
    (i * pieceSize mtu ∈ entry.pieces.map start ↔ i ∈ seen)
  header : entry.header = if 0 ∈ seen then some (pieceHeader d mtu 0).bytes else none
  ending : entry.ending =
    if pieceCount d mtu - 1 ∈ seen then some (dataOf d).length else none

/-- The reassembler holds the pieces `seen` of one datagram and nothing else. -/
structure Receiving (d : Ipv4Packet) (mtu : Nat) (instants : List Instant) (seen : List Nat)
    (r : Reassembler τ) : Prop where
  only : ∀ e ∈ r.partials.entries, e.1 = of d
  entry : ∀ now ∈ instants,
    Holding d mtu instants seen ((r.partials.get? (of d)).getD ⟨now, none, [], none⟩)

theorem receiving_default (d : Ipv4Packet) (mtu : Nat) (instants : List Instant) :
    Receiving d mtu instants [] (Reassembler.default : Reassembler τ) where
  only := nofun
  entry := fun now hnow => ⟨hnow, nofun, nodup_nil,
    fun _ _ => by simp [Reassembler.default], rfl, rfl⟩

variable {instants : List Instant} {seen : List Nat} {entry : Partial τ} {r : Reassembler τ}

theorem receiving_store (honly : ∀ e ∈ r.partials.entries, e.1 = of d)
    (h : Holding d mtu instants seen entry) :
    Receiving d mtu instants seen (r.store (of d) entry) := by
  refine ⟨fun e he => ?_, fun now _ => ?_⟩
  · rcases mem_insert.1 he with rfl | ⟨he, -⟩
    · rfl
    · exact honly e he
  · show Holding d mtu instants seen
      (((r.partials.insert (of d) entry).get? (of d)).getD _)
    rw [get?_insert_self]
    exact h

theorem Holding.sort (h : Holding d mtu instants seen entry) :
    Holding d mtu instants seen { entry with pieces := sortPieces entry.pieces } := by
  have hperm : (sortPieces entry.pieces).Perm entry.pieces := perm_insertionSort _ _
  refine ⟨h.started, fun piece hp => h.nth piece (hperm.mem_iff.1 hp), ?_, fun i hi => ?_, h.header,
    h.ending⟩
  · exact (hperm.map start).nodup_iff.2 h.nodup
  · rw [← h.arrived i hi]
    exact (hperm.map start).mem_iff

theorem Holding.ordered (h : Holding d mtu instants seen entry) :
    Ordered d mtu 0 (sortPieces entry.pieces) := by
  refine ⟨fun piece hp => ?_, ?_⟩
  · obtain ⟨i, hi⟩ := h.sort.nth piece hp
    exact ⟨i, Nat.zero_le i, hi⟩
  · have hle : ((sortPieces entry.pieces).map start).Pairwise (· ≤ ·) :=
      pairwise_map.2 (pairwise_insertionSort (fun a b : Piece τ => a.start ≤ b.start) _)
    have hne : ((sortPieces entry.pieces).map start).Pairwise (· ≠ ·) := h.sort.nodup
    exact (hle.and hne).imp fun hab => Nat.lt_of_le_of_ne hab.1 hab.2

theorem complete_missing (h : Whole d) (hmtu : 28 ≤ mtu)
    (honly : ∀ e ∈ r.partials.entries, e.1 = of d)
    (hentry : Holding d mtu instants seen entry) {j : Nat} (hj : j < pieceCount d mtu)
    (hmissing : j ∉ seen) :
    (r.complete (of d) entry).2 = none ∧
      Receiving d mtu instants seen (r.complete (of d) entry).1 := by
  have hheader := hentry.header
  have hending := hentry.ending
  unfold Reassembler.complete
  by_cases hfirst : 0 ∈ seen
  · by_cases hlast : pieceCount d mtu - 1 ∈ seen
    · -- Header and end are known, but the scan meets a gap.
      rw [if_pos hfirst] at hheader
      rw [if_pos hlast] at hending
      rw [hheader, hending]
      dsimp only
      have hlength := length_dataOf d
      have hle := h.length_le
      rw [length_bytes, if_neg (by rw [maxDatagramLength]; omega)]
      have hgap : cover 0 (sortPieces entry.pieces) = .gap := by
        rw [← Nat.zero_mul (pieceSize mtu)]
        refine cover_gap hmtu _ 0 hentry.ordered (fun hcomplete => hmissing ?_) ?_
        · exact (hentry.sort.arrived j hj).1 (hcomplete j (Nat.zero_le j) hj)
        · exact (hentry.sort.arrived _ (by omega)).2 hlast
      rw [hgap]
      have hsorted := hentry.sort
      rw [hheader, hending] at hsorted
      exact ⟨rfl, receiving_store honly hsorted⟩
    · -- The last piece has not come, so the end is not known.
      rw [if_neg hlast] at hending
      rw [hending]
      cases hh : entry.header with
      | none | some => exact ⟨rfl, receiving_store honly hentry⟩
  · -- The first piece has not come, so there is no header.
    rw [if_neg hfirst] at hheader
    rw [hheader]
    exact ⟨rfl, receiving_store honly hentry⟩

theorem complete_all (h : Whole d) (hmtu : 28 ≤ mtu)
    (r : Reassembler τ) (hentry : Holding d mtu instants seen entry) (hpos : 0 < pieceCount d mtu)
    (hall : ∀ i, i < pieceCount d mtu → i ∈ seen) :
    (r.complete (of d) entry).2.map Prod.fst = some (restored d) := by
  have hheader := hentry.header
  have hending := hentry.ending
  rw [if_pos (hall 0 hpos)] at hheader
  rw [if_pos (hall _ (by omega))] at hending
  have hcomplete : Complete d mtu 0 (sortPieces entry.pieces) := fun i _ hi =>
    (hentry.sort.arrived i hi).2 (hall i hi)
  obtain ⟨hcover, hspell⟩ := cover_complete hmtu _ 0 hpos hentry.ordered hcomplete
  rw [Nat.zero_mul] at hcover hspell
  have hlength := length_dataOf d
  have hle := h.length_le
  unfold Reassembler.complete
  rw [hheader, hending]
  dsimp only
  rw [length_bytes, if_neg (by rw [maxDatagramLength]; omega), hcover]
  dsimp only
  rw [if_neg (by simp)]
  exact congrArg some (assemble_eq h hspell)

variable {i : Nat}

theorem Holding.add (hmtu : 28 ≤ mtu)
    (h : Holding d mtu instants seen entry) (hi : i < pieceCount d mtu) (hp : Reads d mtu i p)
    (hnew : i ∉ seen) (hpiece : IsNth d mtu piece i) :
    Holding d mtu instants (i :: seen)
      { entry with
        ending := if hasMore p then entry.ending else some (piece.start + piece.data.length)
        header := if piece.start = 0 then some (p.bytes.take (headerLength p)) else entry.header
        pieces := entry.pieces ++ [piece] } := by
  have hsize := pieceSize_pos hmtu
  have hstart := hpiece.2.1
  have hdata := hpiece.2.2
  refine ⟨h.started, ?_, ?_, ?_, ?_, ?_⟩
  · intro other hother
    rcases mem_snoc.1 hother with hother | rfl
    · exact h.nth other hother
    · exact ⟨i, hpiece⟩
  · rw [map_append]
    refine List.Nodup.append h.nodup (nodup_singleton _) (disjoint_singleton.2 ?_)
    rw [hstart, h.arrived i hi]
    exact hnew
  · intro j hj
    rw [map_append, mem_append, h.arrived j hj, mem_cons, map_singleton,
      mem_singleton, hstart]
    constructor
    · rintro (hmem | heq)
      · exact .inr hmem
      · exact .inl (Nat.eq_of_mul_eq_mul_right hsize heq)
    · rintro (rfl | hmem)
      · exact .inr rfl
      · exact .inl hmem
  · -- The header is kept from the piece that starts the datagram.
    rw [hp.header, hp.first, h.header, hstart]
    by_cases hzero : i = 0
    · subst hzero
      rw [Nat.zero_mul, if_pos rfl, if_pos mem_cons_self]
    · have hne : i * pieceSize mtu ≠ 0 := Nat.mul_ne_zero hzero (Nat.pos_iff_ne_zero.1 hsize)
      rw [if_neg hne]
      simp [Ne.symm hzero]
  · -- The end is known from the piece that has no more behind it.
    dsimp only
    rw [hp.more, h.ending]
    by_cases hlast : i + 1 = pieceCount d mtu
    · have hend := mul_add_length_tile hsize hlast
      rw [decide_eq_true hlast, if_neg (by simp), hstart, hdata,
        if_pos (by rw [← hlast]; exact mem_cons_self)]
      exact congrArg some hend
    · rw [decide_eq_false hlast]
      have hne : pieceCount d mtu - 1 ≠ i := by omega
      simp [hne]

theorem Holding.length_le (h : Holding d mtu instants seen entry) :
    entry.pieces.length ≤ pieceCount d mtu := by
  have hsub : entry.pieces.map start ⊆
      (List.range (pieceCount d mtu)).map fun i => i * pieceSize mtu := by
    intro start hstart
    obtain ⟨piece, hpiece, rfl⟩ := mem_map.1 hstart
    obtain ⟨i, hi, heq, -⟩ := h.nth piece hpiece
    exact mem_map.2 ⟨i, mem_range.2 hi, heq.symm⟩
  have hle := (subperm_of_subset h.nodup hsub).length_le
  simpa using hle

variable {now : Instant}

theorem Receiving.expire (h : Receiving d mtu instants seen r)
    (hclose : ∀ a ∈ instants, ∀ b ∈ instants, b - a < fragmentTimeout) (hnow : now ∈ instants) :
    Receiving d mtu instants seen (r.expire now) := by
  have hget : (r.expire now).partials.get? (of d) =
      r.partials.get? (of d) := by
    show (r.partials.retain _).get? _ = _
    rw [get?_retain]
    cases hentry : r.partials.get? (of d) with
    | none => rfl
    | some entry =>
      have hholding := h.entry now hnow
      rw [hentry] at hholding
      exact Option.filter_some_pos (decide_eq_true (hclose _ hholding.started now hnow))
  refine ⟨fun e he => h.only e (mem_retain.1 he).1, fun t ht => ?_⟩
  rw [hget]
  exact h.entry t ht

theorem Receiving.makeRoom (h : Receiving d mtu instants seen r) (pick : Nat) :
    r.makeRoom (of d) pick = r := by
  unfold Reassembler.makeRoom
  cases hget : r.partials.get? (of d) with
  | some entry => rfl
  | none =>
    have hnil : r.partials.entries = [] := by
      refine eq_nil_iff_forall_not_mem.2 fun e he => ?_
      exact get?_eq_none_iff.1 hget e he (h.only e he)
    have hsize : r.partials.size = 0 := by rw [KeyedMap.size, hnil]; rfl
    rw [hsize]
    rfl

section

variable {d : Ipv4Packet} (h : Whole d) {mtu : Nat} (hmtu : 28 ≤ mtu)
include h hmtu

/-- The checks of `push` pass for a piece and nothing is evicted: what is left is the search for a
copy of the piece. -/
theorem push_eq (hr : Receiving d mtu instants seen (r.expire now)) (hi : i < pieceCount d mtu)
    (hp : Reads d mtu i p) (tag : τ) (pick : Nat)
    (hentry : ((r.expire now).partials.get? (of d)).getD ⟨now, none, [], none⟩ =
      entry) :
    r.push p tag now pick =
      match entry.pieces.find? fun piece => decide (piece.start = i * pieceSize mtu) with
      | some known =>
        if known.data ≠ pieceData d mtu i then
          (((r.expire now).store (of d) entry).discard (of d), none)
        else ((r.expire now).store (of d) entry, none)
      | none => (r.expire now).take (of d) entry p
          ⟨i * pieceSize mtu, pieceData d mtu i, tag⟩ := by
  have hsize := pieceSize_pos hmtu
  have hle := h.length_le
  have hdataLength := length_dataOf d
  have hin : i * pieceSize mtu < (dataOf d).length := (lt_tileCount_iff hsize).1 hi
  have hpayload : (p.bytes.take (totalLength p)).drop (headerLength p) = pieceData d mtu i := by
    rw [hp.total, hp.header, Ipv4Packet.length, take_length, hp.data]
  have hdatalen : (pieceData d mtu i).length ≤ (dataOf d).length - i * pieceSize mtu := by
    rw [pieceData, length_tile]
    exact Nat.min_le_right _ _
  -- Only the last piece may have a length that is no multiple of eight.
  have height : (hasMore p && decide ((pieceData d mtu i).length % 8 ≠ 0)) = false := by
    rw [hp.more]
    by_cases hlast : i + 1 = pieceCount d mtu
    · rw [decide_eq_true hlast]
      rfl
    · have hfull : (pieceData d mtu i).length = pieceSize mtu :=
        length_tile_of_lt hsize (by unfold pieceCount at hlast hi; omega)
      rw [hfull, pieceSize_mod]
      exact Bool.and_false _
  have hsound : ¬ (headerLength p < 20 ∨ totalLength p < headerLength p ∨
      p.length < totalLength p) := by
    have hlong : 20 ≤ p.length := p.long
    rw [hp.header, hp.total]
    omega
  have hfits : ¬ (((hasMore p && decide ((pieceData d mtu i).length % 8 ≠ 0)) ||
      decide (maxDatagramLength <
        headerLength p + (fragmentOffset p + (pieceData d mtu i).length))) = true) := by
    rw [height, Bool.false_or, decide_eq_true_iff, hp.header, hp.offset, maxDatagramLength]
    omega
  unfold Reassembler.push
  dsimp only
  rewrite [if_neg hsound, hpayload, if_neg hfits, hp.key, hr.makeRoom, hentry, hp.offset]
  rfl

theorem push_known (hclose : ∀ a ∈ instants, ∀ b ∈ instants, b - a < fragmentTimeout)
    (hr : Receiving d mtu instants seen r) (hi : i < pieceCount d mtu) (hp : Reads d mtu i p)
    (tag : τ) (hnow : now ∈ instants) (pick : Nat) (hseen : i ∈ seen) :
    (r.push p tag now pick).2 = none ∧
      Receiving d mtu instants seen (r.push p tag now pick).1 := by
  have hexpired := hr.expire hclose hnow
  obtain ⟨entry, hget⟩ : ∃ entry,
      ((r.expire now).partials.get? (of d)).getD ⟨now, none, [], none⟩ = entry :=
    ⟨_, rfl⟩
  have hentry := hexpired.entry now hnow
  rw [hget] at hentry
  rw [push_eq h hmtu hexpired hi hp tag pick hget]
  cases hfind : entry.pieces.find? fun piece => decide (piece.start = i * pieceSize mtu) with
  | none =>
    obtain ⟨piece, hmem, hstart⟩ := mem_map.1 ((hentry.arrived i hi).2 hseen)
    exact absurd (decide_eq_true hstart) (find?_eq_none.1 hfind piece hmem)
  | some known =>
    -- Pieces of one datagram with one start are the same piece.
    obtain ⟨j, -, hstart, hdata⟩ := hentry.nth known (mem_of_find?_eq_some hfind)
    have hfound := find?_some hfind
    rw [decide_eq_true_iff, hstart] at hfound
    rw [Nat.eq_of_mul_eq_mul_right (pieceSize_pos hmtu) hfound] at hdata
    dsimp only
    rw [if_neg (not_not.2 hdata)]
    exact ⟨rfl, receiving_store hexpired.only hentry⟩

theorem push_new (hcount : pieceCount d mtu ≤ 64)
    (hclose : ∀ a ∈ instants, ∀ b ∈ instants, b - a < fragmentTimeout)
    (hr : Receiving d mtu instants seen r)
    (hi : i < pieceCount d mtu) (hp : Reads d mtu i p) (tag : τ) (hnow : now ∈ instants)
    (pick : Nat) (hnew : i ∉ seen) :
    ∃ entry, Holding d mtu instants (i :: seen) entry ∧
      r.push p tag now pick = (r.expire now).complete (of d) entry := by
  have hexpired := hr.expire hclose hnow
  obtain ⟨entry, hget⟩ : ∃ entry,
      ((r.expire now).partials.get? (of d)).getD ⟨now, none, [], none⟩ = entry :=
    ⟨_, rfl⟩
  have hentry := hexpired.entry now hnow
  rw [hget] at hentry
  rw [push_eq h hmtu hexpired hi hp tag pick hget]
  have hfind : (entry.pieces.find? fun piece => decide (piece.start = i * pieceSize mtu)) =
      none := by
    rw [find?_eq_none]
    intro piece hmem hstart
    apply hnew
    rw [← hentry.arrived i hi]
    exact mem_map.2 ⟨piece, hmem, of_decide_eq_true hstart⟩
  have hpiece : IsNth d mtu (⟨i * pieceSize mtu, pieceData d mtu i, tag⟩ : Piece τ) i :=
    ⟨hi, rfl, rfl⟩
  have hadded := hentry.add hmtu hi hp hnew hpiece
  refine ⟨_, hadded, ?_⟩
  rw [hfind]
  unfold Reassembler.take
  -- Only the last piece could name another end, and it is new.
  have hagrees : hasMore p = true ∨ entry.ending = none := by
    by_cases hlast : i + 1 = pieceCount d mtu
    · rw [hentry.ending, if_neg (by rw [← hlast]; exact hnew)]
      exact .inr rfl
    · rw [hp.more, decide_eq_false hlast]
      exact .inl rfl
  have hroom := Nat.le_trans hadded.length_le hcount
  rw [if_neg (by rcases hagrees with heq | heq <;> simp [heq])]
  exact if_neg (Nat.not_lt.2 hroom)

end

/-! ## The pieces of one datagram in any order -/

/-- A fragment arrives. -/
structure Arrival where
  packet : Ipv4Packet
  now : Instant
  pick : Nat

/-- The reassembler takes a fragment that arrives. -/
def arrive (r : Reassembler Unit) (a : Arrival) : Reassembler Unit × Option Bytes :=
  let result := r.push a.packet () a.now a.pick
  (result.1, result.2.map Prod.fst)

/-- What an empty reassembler returns for each of the fragments that arrive. -/
def outputs (arrivals : List Arrival) : List (Option Bytes) :=
  (exec arrive Reassembler.default arrivals).log.map Prod.snd

/-- All of `pieces` arrive within the timeout, in any order and with any copies before the last
missing one. -/
structure Arrives (pieces : List Bytes) (earlier : List Arrival) (last : Arrival) : Prop where
  piece : ∀ a ∈ earlier ++ [last], a.packet.bytes ∈ pieces
  every : ∀ bytes ∈ pieces, ∃ a ∈ earlier ++ [last], a.packet.bytes = bytes
  missing : ∀ a ∈ earlier, a.packet.bytes ≠ last.packet.bytes
  close : ∀ a ∈ earlier ++ [last], ∀ b ∈ earlier ++ [last], b.now - a.now < fragmentTimeout

/-- The run before the last missing piece `j` arrives. -/
structure Underway (d : Ipv4Packet) (mtu : Nat) (instants : List Instant) (j : Nat)
    (c : Config (Reassembler Unit) Arrival (Option Bytes)) (seen : List Nat) : Prop where
  receiving : Receiving d mtu instants seen c.state
  logged : ∀ i, i < pieceCount d mtu →
    (i ∈ seen ↔ ∃ a ∈ c.log.map Prod.fst, a.packet.bytes = pieceOf d mtu i)
  missing : j ∉ seen
  quiet : ∀ e ∈ c.log, e.2 = none

theorem arrived_append (h : Whole d) (hmtu : 28 ≤ mtu) {a : Arrival}
    {i k : Nat} (hi : i < pieceCount d mtu) (ha : a.packet.bytes = pieceOf d mtu i)
    (hk : k < pieceCount d mtu) (arrivals : List Arrival) :
    (∃ b ∈ arrivals ++ [a], b.packet.bytes = pieceOf d mtu k) ↔
      (∃ b ∈ arrivals, b.packet.bytes = pieceOf d mtu k) ∨ k = i := by
  constructor
  · rintro ⟨b, hb, heq⟩
    rcases mem_snoc.1 hb with hb | rfl
    · exact .inl ⟨b, hb, heq⟩
    · rw [ha] at heq
      exact .inr (index_eq_of_pieceOf_eq h hmtu hi hk heq).symm
  · rintro (⟨b, hb, heq⟩ | rfl)
    · exact ⟨b, mem_append_left _ hb, heq⟩
    · exact ⟨a, mem_append_right _ (mem_singleton.2 rfl), ha⟩

/-- One more piece that is not the last missing one. -/
theorem underway_advance (h : Whole d) (hmtu : 28 ≤ mtu) (hcount : pieceCount d mtu ≤ 64)
    (hclose : ∀ a ∈ instants, ∀ b ∈ instants, b - a < fragmentTimeout) {j : Nat}
    (hj : j < pieceCount d mtu) {c : Config (Reassembler Unit) Arrival (Option Bytes)}
    {a : Arrival} (hi : i < pieceCount d mtu) (ha : a.packet.bytes = pieceOf d mtu i) (hne : i ≠ j)
    (hnow : a.now ∈ instants) (hc : ∃ seen, Underway d mtu instants j c seen) :
    ∃ seen, Underway d mtu instants j (advance arrive c a) seen := by
  obtain ⟨seen, hreceiving, hlogged, hmissing, hquiet⟩ := hc
  have hreads := reads_of_eq h hmtu hi ha
  -- Both cases below return nothing, which keeps the log quiet.
  have hquiet' : (c.state.push a.packet () a.now a.pick).2 = none →
      ∀ e ∈ (advance arrive c a).log, e.2 = none := by
    intro hnone e he
    rcases mem_snoc.1 he with he | rfl
    · exact hquiet e he
    · exact congrArg (Option.map Prod.fst) hnone
  have hinputs : (advance arrive c a).log.map Prod.fst = c.log.map Prod.fst ++ [a] := by
    rw [advance_log, map_append]
    rfl
  by_cases hseen : i ∈ seen
  · -- A copy of a piece that is there already.
    obtain ⟨hnone, hreceiving'⟩ :=
      push_known h hmtu hclose hreceiving hi hreads () hnow a.pick hseen
    refine ⟨seen, hreceiving', fun k hk => ?_, hmissing, hquiet' hnone⟩
    rw [hinputs, arrived_append h hmtu hi ha hk, ← hlogged k hk]
    exact (or_iff_left_of_imp fun heq => heq ▸ hseen).symm
  -- A new piece: the entry grows by it and stays incomplete without `j`.
  obtain ⟨entry, hentry, hpush⟩ :=
    push_new h hmtu hcount hclose hreceiving hi hreads () hnow a.pick hseen
  have hmissing' : j ∉ i :: seen := by
    intro hmem
    rcases mem_cons.1 hmem with heq | hmem
    · exact hne heq.symm
    · exact hmissing hmem
  obtain ⟨hnone, hreceiving'⟩ :=
    complete_missing h hmtu (hreceiving.expire hclose hnow).only hentry hj hmissing'
  rw [← hpush] at hnone hreceiving'
  refine ⟨i :: seen, hreceiving', fun k hk => ?_, hmissing', hquiet' hnone⟩
  rw [hinputs, arrived_append h hmtu hi ha hk, ← hlogged k hk, mem_cons]
  exact or_comm

theorem eq_replicate_of_quiet {log : List (Arrival × Option Bytes)} (h : ∀ e ∈ log, e.2 = none) :
    log.map Prod.snd = List.replicate log.length none := by
  rw [eq_replicate_iff]
  refine ⟨length_map _, fun output houtput => ?_⟩
  obtain ⟨e, he, rfl⟩ := mem_map.1 houtput
  exact h e he

theorem outputs_append (earlier : List Arrival) (last : Arrival) :
    outputs (earlier ++ [last]) = outputs earlier ++
      [(arrive (exec arrive Reassembler.default earlier).state last).2] := by
  rw [outputs, exec, execFrom_append, execFrom_cons, execFrom_nil,
    advance_log, map_append]
  rfl

section Arrival

variable {d : Ipv4Packet} {mtu : Nat} {earlier : List Arrival} {last : Arrival}

theorem Arrives.index
    (h : Arrives ((List.range (pieceCount d mtu)).map (pieceOf d mtu)) earlier last) :
    ∀ a ∈ earlier ++ [last], ∃ i, i < pieceCount d mtu ∧ a.packet.bytes = pieceOf d mtu i := by
  intro a ha
  obtain ⟨i, hi, heq⟩ := mem_map.1 (h.piece a ha)
  exact ⟨i, mem_range.1 hi, heq.symm⟩

theorem Arrives.instants_close {pieces : List Bytes} (h : Arrives pieces earlier last) :
    ∀ s ∈ (earlier ++ [last]).map Arrival.now, ∀ t ∈ (earlier ++ [last]).map Arrival.now,
      t - s < fragmentTimeout := by
  intro s hs t ht
  obtain ⟨a, ha, rfl⟩ := mem_map.1 hs
  obtain ⟨b, hb, rfl⟩ := mem_map.1 ht
  exact h.close a ha b hb

section

variable (h : Whole d) (hmtu : 28 ≤ mtu) (hcount : pieceCount d mtu ≤ 64)
  (harrives : Arrives ((List.range (pieceCount d mtu)).map (pieceOf d mtu)) earlier last)
include h hmtu hcount harrives

theorem underway_earlier {j : Nat} (hj : j < pieceCount d mtu)
    (hlast : last.packet.bytes = pieceOf d mtu j) :
    ∃ seen, Underway d mtu ((earlier ++ [last]).map Arrival.now) j
      (exec arrive Reassembler.default earlier) seen := by
  have hmeets : Meets arrive (fun _ a => a ∈ earlier) ⟨Reassembler.default, []⟩ earlier :=
    meets_of_forall (fun a ha _ => ha) _
  refine execFrom_invariant_of_meets (I := fun c => ∃ seen, Underway d mtu _ j c seen)
    (fun c a ha hc => ?_) earlier _ hmeets ⟨[], receiving_default d mtu _, ?_, ?_, ?_⟩
  · obtain ⟨i, hi, heq⟩ := harrives.index a (mem_append_left _ ha)
    have hne : i ≠ j := by
      rintro rfl
      exact harrives.missing a ha (heq.trans hlast.symm)
    exact underway_advance h hmtu hcount harrives.instants_close hj hi heq hne
      (mem_map_of_mem (mem_append_left _ ha)) hc
  · intro i _
    simp
  · exact not_mem_nil
  · exact nofun

theorem push_pieces :
    outputs (earlier ++ [last]) =
      List.replicate earlier.length none ++ [some (restored d)] := by
  obtain ⟨j, hj, hlast⟩ := harrives.index last (mem_append_right _ (mem_singleton.2 rfl))
  obtain ⟨seen, hreceiving, hlogged, hmissing, hquiet⟩ :=
    underway_earlier h hmtu hcount harrives hj hlast
  have hinputs : (exec arrive Reassembler.default earlier).log.map Prod.fst = earlier :=
    execFrom_inputs _ earlier
  have hlength : (exec arrive Reassembler.default earlier).log.length = earlier.length := by
    conv_rhs => rw [← hinputs]
    exact (length_map _).symm
  -- The last missing piece completes the entry.
  obtain ⟨entry, hentry, hpush⟩ := push_new h hmtu hcount harrives.instants_close hreceiving hj
    (reads_of_eq h hmtu hj hlast) ()
    (mem_map_of_mem (mem_append_right _ (mem_singleton.2 rfl))) last.pick hmissing
  have hall : ∀ i, i < pieceCount d mtu → i ∈ j :: seen := by
    intro i hi
    obtain ⟨a, ha, heq⟩ := harrives.every _ (mem_map_of_mem (mem_range.2 hi))
    rw [mem_cons, hlogged i hi, hinputs, or_comm, ← arrived_append h hmtu hj hlast hi]
    exact ⟨a, ha, heq⟩
  have hout := complete_all h hmtu
    ((exec arrive Reassembler.default earlier).state.expire last.now) hentry
    (Nat.lt_of_le_of_lt (Nat.zero_le j) hj) hall
  rw [← hpush] at hout
  rw [outputs_append, outputs, eq_replicate_of_quiet hquiet, hlength]
  exact congrArg (fun output => List.replicate earlier.length none ++ [output]) hout

end

end Arrival

/-! ## Splitting and reassembling -/

/-- The reserved bit of the flags, which neither the splitter nor the reassembler knows. -/
def reservedFlag : UInt16 := 0x8000

section

variable {d : Ipv4Packet} (h : Whole d)
include h

theorem splitForTunnel_eq {mtu : Nat} (hmtu : 28 ≤ mtu) (hlong : mtu < d.length) :
    splitForTunnel d.bytes mtu = some ((List.range (pieceCount d mtu)).map (pieceOf d mtu)) := by
  have hdata : d.length - 20 = (dataOf d).length := by
    rw [← length_dataOf, Nat.add_sub_cancel]
  have hplain : ¬ (d.byte 0 ≠ 0x45 ∨ mtu < 28) := by
    rw [not_or, not_not]
    exact ⟨h.version, Nat.not_lt.2 hmtu⟩
  have hfits : ¬ (d.bytes.length < totalLength d ∨ totalLength d ≤ mtu) := by
    rw [h.length]
    show ¬ (d.length < d.length ∨ d.length ≤ mtu)
    omega
  unfold splitForTunnel
  rw [dif_pos d.long, if_neg hplain, if_neg hfits, h.length, hdata]
  rfl

theorem split_eq_some {mtu : Nat} (hmtu : 28 ≤ mtu) {pieces : List Bytes}
    (hsplit : splitForTunnel d.bytes mtu = some pieces) :
    0 < pieceCount d mtu ∧ pieces = (List.range (pieceCount d mtu)).map (pieceOf d mtu) := by
  have hlong : mtu < d.length := by
    by_contra hle
    have hnone : splitForTunnel d.bytes mtu = none := by
      unfold splitForTunnel
      rw [dif_pos d.long]
      rw [ite_eq_left_iff]
      intro _
      rw [if_pos]
      exact .inr (h.length ▸ Nat.not_lt.1 hle)
    rw [hnone] at hsplit
    cases hsplit
  rw [splitForTunnel_eq h hmtu hlong] at hsplit
  refine ⟨?_, (Option.some.inj hsplit).symm⟩
  have hdata := length_dataOf d
  exact (lt_tileCount_iff (pieceSize_pos hmtu)).2 (by omega)

theorem exists_arrives {mtu : Nat} (hmtu : 28 ≤ mtu) (hpos : 0 < pieceCount d mtu) :
    ∃ earlier last,
      Arrives ((List.range (pieceCount d mtu)).map (pieceOf d mtu)) earlier last := by
  -- In order, all at once: the last piece is the only one that comes last.
  let arrival (i : Nat) : Arrival := ⟨⟨pieceOf d mtu i, (exists_piece h mtu i).1⟩, 0, 0⟩
  have hall : (List.range (pieceCount d mtu - 1)).map arrival ++ [arrival (pieceCount d mtu - 1)] =
      (List.range (pieceCount d mtu)).map arrival := by
    conv_rhs => rw [← Nat.sub_add_cancel hpos, range_succ, map_append]
    rfl
  refine ⟨(List.range (pieceCount d mtu - 1)).map arrival, arrival (pieceCount d mtu - 1), ?_⟩
  refine ⟨fun a ha => ?_, fun bytes hbytes => ?_, fun a ha heq => ?_, fun a ha b hb => ?_⟩
  · rw [hall] at ha
    obtain ⟨i, hi, rfl⟩ := mem_map.1 ha
    exact mem_map_of_mem hi
  · rw [hall]
    obtain ⟨i, hi, rfl⟩ := mem_map.1 hbytes
    exact ⟨arrival i, mem_map_of_mem hi, rfl⟩
  · obtain ⟨i, hi, rfl⟩ := mem_map.1 ha
    rw [mem_range] at hi
    have := index_eq_of_pieceOf_eq h hmtu (by omega) (by omega) heq
    omega
  · rw [hall] at ha hb
    obtain ⟨i, -, rfl⟩ := mem_map.1 ha
    obtain ⟨j, -, rfl⟩ := mem_map.1 hb
    show 0 - 0 < fragmentTimeout
    decide

theorem Whole.flags_eq_iff :
    flags d &&& dontFragment = flags d ↔ flags d &&& reservedFlag = 0 := by
  constructor
  · intro heq
    rw [← heq, UInt16.and_assoc, show dontFragment &&& reservedFlag = 0 by decide, and_zero]
  intro hreserved
  have hsplit : flags d &&& (reservedFlag ||| dontFragment ||| moreFragments ||| offsetMask) =
      flags d &&& dontFragment := by
    rw [UInt16.and_comm, or_and, or_and, or_and, UInt16.and_comm reservedFlag, hreserved,
      UInt16.and_comm moreFragments, h.more, UInt16.and_comm offsetMask, h.offset,
      zero_or, or_zero, or_zero, UInt16.and_comm]
  rw [← hsplit, show reservedFlag ||| dontFragment ||| moreFragments ||| offsetMask = -1 by decide,
    UInt16.and_neg_one]

theorem restored_eq_iff :
    restored d = d.bytes ↔
      flags d &&& reservedFlag = 0 ∧ (Header.of d).checksum ≠ 0xffff := by
  have hversion : (Header.of d).version ≠ 0 := by
    show d.byte 0 ≠ 0
    rw [h.version]
    decide
  have hheader : restored d = d.bytes ↔
      { Header.of d with flags := flags d &&& dontFragment }.checked = Header.of d := by
    conv_lhs => rw [← Header.bytes_of_append_drop d]
    constructor
    · exact fun heq => Header.bytes_injective (append_cancel_right heq)
    · intro heq
      rw [restored, heq]
      rfl
  rw [hheader, ← h.flags_eq_iff, ← Header.checked_eq_iff hversion h.checksum]
  constructor
  · intro heq
    have hflags : flags d &&& dontFragment = flags d := congrArg Header.flags heq
    rw [hflags] at heq
    exact ⟨hflags, heq⟩
  · rintro ⟨hflags, heq⟩
    rw [hflags]
    exact heq

end

/-- Whatever the order and the copies, the reassembler returns the datagram that was split exactly
when its reserved flag is clear and its checksum is not stored as all ones. -/
theorem split_round_trip {d : Ipv4Packet} (h : Whole d) {mtu : Nat} (hmtu : 576 ≤ mtu)
    {pieces : List Bytes} (hsplit : splitForTunnel d.bytes mtu = some pieces)
    (hcount : pieces.length ≤ 64) :
    (∀ earlier last, Arrives pieces earlier last →
      outputs (earlier ++ [last]) = List.replicate earlier.length none ++ [some d.bytes]) ↔
    flags d &&& reservedFlag = 0 ∧ (Header.of d).checksum ≠ 0xffff := by
  have hmtu' : 28 ≤ mtu := Nat.le_trans (by decide) hmtu
  obtain ⟨hpos, rfl⟩ := split_eq_some h hmtu' hsplit
  have hcount' : pieceCount d mtu ≤ 64 := by
    rw [List.length_map, List.length_range] at hcount
    exact hcount
  rw [← restored_eq_iff h]
  constructor
  · intro hall
    obtain ⟨earlier, last, harrives⟩ := exists_arrives h hmtu' hpos
    have hout := hall earlier last harrives
    rw [push_pieces h hmtu' hcount' harrives] at hout
    exact Option.some.inj (List.cons.inj (List.append_cancel_left hout)).1
  · intro heq earlier last harrives
    rw [push_pieces h hmtu' hcount' harrives, heq]

/-- A UDP datagram of 600 bytes with the given flags. -/
def sample (flags : UInt16) : Ipv4Packet where
  bytes := (checked ⟨0x45, 0, 600, 1, flags, 64, 17, 0, (10, 77, 0, 2), (1, 2, 3, 4)⟩).bytes ++
    List.replicate 580 0
  long := by rw [length_append, length_bytes]; omega

theorem length_sample (flags : UInt16) : (sample flags).length = 600 := by
  rw [Ipv4Packet.length, sample, length_append, length_bytes, length_replicate]

theorem sample_whole {flags : UInt16} (hoffset : flags &&& offsetMask = 0)
    (hmore : flags &&& moreFragments = 0)
    (hverifies : (checked ⟨0x45, 0, 600, 1, flags, 64, 17, 0, (10, 77, 0, 2),
      (1, 2, 3, 4)⟩).Verifies) : Whole (sample flags) := by
  have hheader : Header.of (sample flags) = checked ⟨0x45, 0, 600, 1, flags, 64, 17, 0,
      (10, 77, 0, 2), (1, 2, 3, 4)⟩ := of_append _ _ _
  have hflags : Ipv4Fragments.flags (sample flags) = flags := congrArg Header.flags hheader
  refine ⟨rfl, ?_, ?_, ?_, ?_⟩
  · rw [hheader]
    exact hverifies
  · have htotal : totalLength (sample flags) = 600 :=
      congrArg (fun header => header.length.toNat) hheader
    rw [htotal, length_sample]
  · rw [hflags]
    exact hoffset
  · rw [hflags]
    exact hmore

theorem pieceCount_sample (flags : UInt16) : pieceCount (sample flags) 576 = 2 := by
  have hdata := length_dataOf (sample flags)
  rw [length_sample] at hdata
  rw [pieceCount, show (dataOf (sample flags)).length = 580 by omega]
  rfl

theorem split_sample {flags : UInt16} (h : Whole (sample flags)) :
    splitForTunnel (sample flags).bytes 576 =
      some ((List.range 2).map (pieceOf (sample flags) 576)) := by
  rw [splitForTunnel_eq h (by decide) (by rw [length_sample]; decide), pieceCount_sample]

/-- A datagram with Don't Fragment comes out as it went in. -/
theorem split_round_trip_dont_fragment :
    Whole (sample dontFragment) ∧
    splitForTunnel (sample dontFragment).bytes 576 =
      some ((List.range 2).map (pieceOf (sample dontFragment) 576)) ∧
    ∀ earlier last,
      Arrives ((List.range 2).map (pieceOf (sample dontFragment) 576)) earlier last →
        outputs (earlier ++ [last]) =
          List.replicate earlier.length none ++ [some (sample dontFragment).bytes] := by
  have hwhole : Whole (sample dontFragment) :=
    sample_whole (by decide) (by decide) (by decide)
  have hsplit := split_sample hwhole
  refine ⟨hwhole, hsplit, ?_⟩
  exact (split_round_trip hwhole (Nat.le_refl 576) hsplit (by simp)).2 ⟨by decide, by decide⟩

/-- A datagram with the reserved flag set does not come out as it went in. -/
theorem reserved_bit_is_lost :
    Whole (sample reservedFlag) ∧
    splitForTunnel (sample reservedFlag).bytes 576 =
      some ((List.range 2).map (pieceOf (sample reservedFlag) 576)) ∧
    ∃ earlier last,
      Arrives ((List.range 2).map (pieceOf (sample reservedFlag) 576)) earlier last ∧
        outputs (earlier ++ [last]) ≠
          List.replicate earlier.length none ++ [some (sample reservedFlag).bytes] := by
  have hwhole : Whole (sample reservedFlag) :=
    sample_whole (by decide) (by decide) (by decide)
  have hmtu : 28 ≤ 576 := by decide
  have hcount := pieceCount_sample reservedFlag
  obtain ⟨earlier, last, harrives⟩ := exists_arrives hwhole hmtu (by rw [hcount]; decide)
  have hout := push_pieces hwhole hmtu (by rw [hcount]; decide) harrives
  rw [hcount] at harrives
  refine ⟨hwhole, split_sample hwhole, earlier, last, harrives, fun hsame => ?_⟩
  rw [hsame] at hout
  have heq := Option.some.inj (List.cons.inj (List.append_cancel_left hout)).1
  exact absurd ((restored_eq_iff hwhole).1 heq.symm).1 (by decide)

end GamePath.Engine.Ipv4Fragments
