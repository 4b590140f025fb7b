import GamePath.Engine.FragmentReads
import GamePath.Engine.FragmentRoundTrip

/-!
# What a rebuilt datagram is made of

`Reassembler::push` over any run of packets, fragments that overlap, contradict each other or are
cut short among them. Each entry holds what was pushed for its key since its first piece (`Backed`),
and the datagram that comes out of it is those pieces end to end under the header of the first one
(`Justified`): `reassembly_sound`. The reads of the source are in range all the while:
`pushChecked`, in which every access may fail, does what `push` does.

A push is known by its position in the run, which is the tag of the piece it leaves.
-/

namespace GamePath.Engine.Ipv4Fragments

open Lib List Header Piece Reassembler

variable {τ : Type}

/-! ## The header of a rebuilt datagram -/

/-- The header of the first fragment, with the length, the flags and the checksum of a whole
datagram. -/
structure KeepsHeader (first datagram : Ipv4Packet) : Prop where
  fields : of datagram =
    { of first with
      length := (of datagram).length
      flags := flags first &&& dontFragment
      checksum := (of datagram).checksum }
  options : (datagram.bytes.take (headerLength datagram)).drop 20 =
    (first.bytes.take (headerLength first)).drop 20
  length : totalLength datagram = datagram.length
  unfragmented : hasMore datagram = false ∧ fragmentOffset datagram = 0
  checksum : internetChecksum (datagram.bytes.take (headerLength datagram)) = 0

theorem headerLength_le (packet : Ipv4Packet) : headerLength packet ≤ 60 := by
  have hle : (packet.byte 0 &&& 0x0f).toNat ≤ 15 := by
    exact Nat.and_le_right
  rw [headerLength]
  omega

theorem checksum_verifies {h : Header} {options : Bytes} (hversion : h.version ≠ 0)
    (hshort : options.length ≤ 40) :
    internetChecksum ({ h with
      checksum := internetChecksum ({ h with checksum := 0 }.bytes ++ options) }.bytes ++ options) =
        0 := by
  have hsum : ∀ h : Header,
      wordSum (h.bytes ++ options) = wordSum h.bytes + wordSum options :=
    fun h => wordSum_append (by rw [length_bytes]) options
  have hfixed := wordSum_le { h with checksum := 0 }.bytes
  have hoptions := wordSum_le options
  have hpos : 0 < wordSum { h with checksum := 0 }.bytes := wordSum_pos hversion
  rw [length_bytes] at hfixed
  have hbound : wordSum ({ h with checksum := 0 }.bytes ++ options) + 65535 < 2 ^ 32 := by
    rw [hsum]
    omega
  have hcomputed : (internetChecksum ({ h with checksum := 0 }.bytes ++ options)).toNat =
      65535 - OnesComplement.fold 16 (wordSum ({ h with checksum := 0 }.bytes ++ options)) :=
    internetChecksum_toNat (by omega)
  have htotal : ∀ sum : UInt16, wordSum ({ h with checksum := sum }.bytes ++ options) =
      wordSum ({ h with checksum := 0 }.bytes ++ options) + sum.toNat := by
    intro sum
    have hfield : wordSum { h with checksum := sum }.bytes =
        wordSum { h with checksum := 0 }.bytes + sum.toNat :=
      wordSum_bytes { h with checksum := sum }
    rw [hsum, hsum]
    omega
  refine (internetChecksum_eq_zero_iff ?_).2 ?_
  · rw [htotal]
    omega
  · rw [htotal, hcomputed]
    exact OnesComplement.fold_add_complement (by decide) (by rw [hsum]; omega) hbound

/-- The options of a packet. -/
def optionsOf (packet : Ipv4Packet) : Bytes := (packet.bytes.take (headerLength packet)).drop 20

/-- The header of a first fragment for a datagram of that length, before the checksum is computed.
-/
def unsummed (first : Ipv4Packet) (length : Nat) : Header :=
  { of first with
    length := UInt16.ofNat length
    flags := flags first &&& dontFragment
    checksum := 0 }

/-- The header with the checksum over it and its options. -/
def summed (header : Header) (options : Bytes) : Header :=
  { header with checksum := internetChecksum (header.bytes ++ options) }

theorem length_optionsOf {packet : Ipv4Packet} (h : Legible packet) :
    (optionsOf packet).length + 20 = headerLength packet := by
  have hlong := h.header
  have htotal := h.total
  have hinside : totalLength packet ≤ packet.bytes.length := h.inside
  rw [optionsOf, length_drop, length_take]
  omega

theorem take_headerLength {packet : Ipv4Packet} (h : 20 ≤ headerLength packet) :
    packet.bytes.take (headerLength packet) = (of packet).bytes ++ optionsOf packet := by
  have hfixed : (packet.bytes.take (headerLength packet)).take 20 = packet.bytes.take 20 := by
    rw [take_take, Nat.min_eq_left h]
  rw [bytes_of, ← hfixed]
  exact (take_append_drop 20 _).symm

theorem assemble_first {first : Ipv4Packet} (h : Legible first) (pieces : List (Piece τ)) :
    assemble (first.bytes.take (headerLength first)) pieces =
      (summed (unsummed first (headerLength first + (pieces.flatMap data).length))
        (optionsOf first)).bytes ++ (optionsOf first ++ pieces.flatMap data) := by
  have hoptions := length_optionsOf h
  have hwhole : ∀ fields : Header,
      (fields.bytes ++ (optionsOf first ++ pieces.flatMap data)).take
        ((of first).bytes ++ optionsOf first).length = fields.bytes ++ optionsOf first := by
    intro fields
    rw [← append_assoc]
    exact take_left' rfl
  have hwords : u16OfBe (((of first).bytes ++ optionsOf first).getD 6 0)
      (((of first).bytes ++ optionsOf first).getD 7 0) = flags first := u16OfBe_bytes _
  have hlength : ((of first).bytes ++ (optionsOf first ++ pieces.flatMap data)).length =
      headerLength first + (pieces.flatMap data).length := by
    rw [length_append, length_append, length_bytes]
    omega
  rw [take_headerLength h.header]
  unfold assemble
  dsimp only
  rw [hwords, append_assoc, hlength, setU16_length, setU16_flags, setU16_checksum, hwhole]
  rfl

/-- A rebuilt datagram keeps the header of its first fragment, and carries the data of its pieces.
-/
theorem keepsHeader_of_assemble {first : Ipv4Packet} (h : Legible first) {pieces : List (Piece τ)}
    (hfits : headerLength first + (pieces.flatMap data).length ≤ maxDatagramLength)
    {datagram : Ipv4Packet}
    (hbytes : datagram.bytes = assemble (first.bytes.take (headerLength first)) pieces) :
    KeepsHeader first datagram ∧ payload datagram = pieces.flatMap data := by
  have hoptions := length_optionsOf h
  have hshort := headerLength_le first
  have hlong := h.header
  have hversion : (of first).version ≠ 0 := by
    intro hzero
    have hbyte : first.byte 0 = 0 := hzero
    rw [headerLength, hbyte] at hlong
    cases hlong
  rw [assemble_first h] at hbytes
  generalize hfields : unsummed first (headerLength first + (pieces.flatMap data).length) =
    fields at hbytes
  have hof : of datagram = summed fields (optionsOf first) := by
    obtain ⟨bytes, hdatagram⟩ := datagram
    subst hbytes
    exact of_append _ _ hdatagram
  have hheader : headerLength datagram = headerLength first := by
    have hbyte : datagram.byte 0 = first.byte 0 := by
      show (of datagram).version = (of first).version
      rw [hof, ← hfields]
      rfl
    rw [headerLength, hbyte, headerLength]
  have htotal : totalLength datagram = headerLength first + (pieces.flatMap data).length := by
    show (of datagram).length.toNat = _
    rw [hof, ← hfields]
    show (UInt16.ofNat _).toNat = _
    rw [UInt16.toNat_ofNat', Nat.mod_eq_of_lt]
    exact Nat.lt_succ_of_le hfits
  have hlength : datagram.length = headerLength first + (pieces.flatMap data).length := by
    show datagram.bytes.length = _
    rw [hbytes, length_append, length_append, length_bytes]
    omega
  have hflags : flags datagram = flags first &&& dontFragment := by
    show (of datagram).flags = _
    rw [hof, ← hfields]
    rfl
  have htake : datagram.bytes.take (headerLength first) =
      (summed fields (optionsOf first)).bytes ++ optionsOf first := by
    rw [hbytes, ← append_assoc]
    apply take_left'
    rw [length_append, length_bytes]
    omega
  refine ⟨⟨?_, ?_, ?_, ?_, ?_⟩, ?_⟩
  · rw [hof, ← hfields]
    rfl
  · rw [hheader, htake, drop_left' (length_bytes _), optionsOf]
  · rw [htotal, hlength]
  · rw [hasMore, fragmentOffset, hflags, UInt16.and_assoc, UInt16.and_assoc,
      show dontFragment &&& moreFragments = 0 by decide,
      show dontFragment &&& offsetMask = 0 by decide, UInt16.and_zero]
    exact ⟨rfl, rfl⟩
  · rw [hheader, htake]
    have hzero : fields = { fields with checksum := 0 } := by
      rw [← hfields]
      rfl
    rw [hzero]
    exact checksum_verifies (by rw [← hfields]; exact hversion) (by omega)
  · rw [payload, htotal, ← hlength]
    show (datagram.bytes.take datagram.bytes.length).drop _ = _
    rw [take_length, hbytes, ← append_assoc]
    apply drop_left'
    rw [length_append, length_bytes]
    omega

/-! ## What an entry holds -/

/-- A piece is the fragment pushed at the position it is tagged with. -/
structure Kept (pushed : List Arrival) (key : DatagramKey) (started : Instant) (piece : Piece Nat)
    (a : Arrival) : Prop where
  position : pushed[piece.tag]? = some a
  key : DatagramKey.of a.packet = key
  legible : Legible a.packet
  later : started ≤ a.now
  start : piece.start = fragmentOffset a.packet
  data : piece.data = payload a.packet

/-- What is held for a key: pieces that were pushed for it, at different offsets, and among them
every fragment pushed for it since the first of them. -/
structure Backed (pushed : List Arrival) (key : DatagramKey) (entry : Partial Nat) : Prop where
  piece : ∀ piece ∈ entry.pieces, ∃ a, Kept pushed key entry.started piece a
  distinct : (entry.pieces.map start).Nodup
  every : ∀ i a, (∃ piece ∈ entry.pieces, piece.tag ≤ i) → pushed[i]? = some a →
    DatagramKey.of a.packet = key → Legible a.packet →
    ∃ piece ∈ entry.pieces, piece.start = fragmentOffset a.packet ∧ piece.data = payload a.packet
  header : ∀ header, entry.header = some header → ∃ piece ∈ entry.pieces, ∃ a,
    pushed[piece.tag]? = some a ∧ fragmentOffset a.packet = 0 ∧
      header = a.packet.bytes.take (headerLength a.packet)
  ending : ∀ finish, entry.ending = some finish → ∃ piece ∈ entry.pieces, ∃ a,
    pushed[piece.tag]? = some a ∧ hasMore a.packet = false ∧
      piece.start + piece.data.length = finish

section Backed

variable {pushed : List Arrival} {key : DatagramKey} {started : Instant} {entry : Partial Nat}
  {piece : Piece Nat} {a b : Arrival}

theorem getElem?_append_of_some {i : Nat} (h : pushed[i]? = some b) :
    (pushed ++ [a])[i]? = some b := by
  rw [List.getElem?_append_left (List.getElem?_eq_some_iff.1 h).1]
  exact h

theorem getElem?_concat_cases {i : Nat} (h : (pushed ++ [a])[i]? = some b) :
    pushed[i]? = some b ∨ (i = pushed.length ∧ b = a) := by
  rw [getElem?_append] at h
  split at h
  · exact .inl h
  · rw [getElem?_singleton] at h
    split at h
    · exact .inr ⟨by omega, (Option.some.inj h).symm⟩
    · cases h

theorem Kept.push (h : Kept pushed key started piece b) :
    Kept (pushed ++ [a]) key started piece b :=
  { h with position := getElem?_append_of_some h.position }

theorem backed_new (pushed : List Arrival) (key : DatagramKey) (now : Instant) :
    Backed pushed key ⟨now, none, [], none⟩ where
  piece := nofun
  distinct := nodup_nil
  every := nofun
  header := fun _ h => absurd h.symm (Option.some_ne_none _)
  ending := fun _ h => absurd h.symm (Option.some_ne_none _)

theorem Backed.push (h : Backed pushed key entry)
    (hknown : DatagramKey.of a.packet = key → Legible a.packet →
      ∃ piece ∈ entry.pieces, piece.start = fragmentOffset a.packet ∧
        piece.data = payload a.packet) :
    Backed (pushed ++ [a]) key entry where
  piece := by
    intro piece hmem
    obtain ⟨b, hkept⟩ := h.piece piece hmem
    exact ⟨b, hkept.push⟩
  distinct := h.distinct
  every := by
    intro i b hsince hget hkey hlegible
    rcases getElem?_concat_cases hget with hold | ⟨-, rfl⟩
    · exact h.every i b hsince hold hkey hlegible
    · exact hknown hkey hlegible
  header := by
    intro header heq
    obtain ⟨piece, hmem, b, hget, hrest⟩ := h.header header heq
    exact ⟨piece, hmem, b, getElem?_append_of_some hget, hrest⟩
  ending := by
    intro finish heq
    obtain ⟨piece, hmem, b, hget, hrest⟩ := h.ending finish heq
    exact ⟨piece, hmem, b, getElem?_append_of_some hget, hrest⟩

theorem Backed.perm (h : Backed pushed key entry) {pieces : List (Piece Nat)}
    (hperm : pieces.Perm entry.pieces) : Backed pushed key { entry with pieces := pieces } where
  piece := fun piece hmem => h.piece piece (hperm.mem_iff.1 hmem)
  distinct := ((hperm.map start).nodup_iff).2 h.distinct
  every := by
    rintro i b ⟨piece, hmem, hle⟩ hget hkey hlegible
    obtain ⟨found, hfound, hrest⟩ := h.every i b ⟨piece, hperm.mem_iff.1 hmem,
      hle⟩ hget hkey hlegible
    exact ⟨found, hperm.mem_iff.2 hfound, hrest⟩
  header := by
    intro header heq
    obtain ⟨piece, hmem, hrest⟩ := h.header header heq
    exact ⟨piece, hperm.mem_iff.2 hmem, hrest⟩
  ending := by
    intro finish heq
    obtain ⟨piece, hmem, hrest⟩ := h.ending finish heq
    exact ⟨piece, hperm.mem_iff.2 hmem, hrest⟩

theorem Backed.join (h : Backed pushed (DatagramKey.of a.packet) entry)
    (hlegible : Legible a.packet) (hstarted : entry.started ≤ a.now)
    (hnew : ∀ piece ∈ entry.pieces, piece.start ≠ fragmentOffset a.packet) :
    Backed (pushed ++ [a]) (DatagramKey.of a.packet) (entry.join a.packet pushed.length) := by
  have hown : (pushed ++ [a])[pushed.length]? = some a := by simp
  have hlast : pieceFrom a.packet pushed.length ∈ entry.pieces ++
      [pieceFrom a.packet pushed.length] :=
    mem_append_right _ (mem_singleton_self _)
  refine ⟨?_, ?_, ?_, ?_, ?_⟩
  · intro piece hmem
    rcases mem_snoc.1 hmem with hold | rfl
    · obtain ⟨b, hkept⟩ := h.piece piece hold
      exact ⟨b, hkept.push⟩
    · exact ⟨a, hown, rfl, hlegible, hstarted, rfl, rfl⟩
  · show ((entry.pieces ++ [pieceFrom a.packet pushed.length]).map start).Nodup
    rw [map_append, nodup_append]
    refine ⟨h.distinct, nodup_singleton _, ?_⟩
    intro x hx y hy
    obtain ⟨piece, hmem, rfl⟩ := mem_map.1 hx
    rw [map_singleton, mem_singleton] at hy
    rw [hy]
    exact hnew piece hmem
  · rintro i b ⟨piece, hmem, hle⟩ hget hkey hlegible'
    rcases getElem?_concat_cases hget with hold | ⟨-, rfl⟩
    · -- An earlier push: the piece it is not before cannot be the new one.
      have hlt := (List.getElem?_eq_some_iff.1 hold).1
      rcases mem_snoc.1 hmem with hin | rfl
      · obtain ⟨found, hfound, hrest⟩ := h.every i b ⟨piece, hin, hle⟩ hold hkey hlegible'
        exact ⟨found, mem_append_left _ hfound, hrest⟩
      · exact absurd hlt (Nat.not_lt.2 hle)
    · exact ⟨_, hlast, rfl, rfl⟩
  · intro header heq
    change (if fragmentOffset a.packet = 0 then _ else entry.header) = some header at heq
    split at heq
    next hzero => exact ⟨_, hlast, a, hown, hzero, (Option.some.inj heq).symm⟩
    · obtain ⟨piece, hmem, b, hget, hrest⟩ := h.header header heq
      exact ⟨piece, mem_append_left _ hmem, b, getElem?_append_of_some hget, hrest⟩
  · intro finish heq
    change (if hasMore a.packet then entry.ending else _) = some finish at heq
    split at heq
    · obtain ⟨piece, hmem, b, hget, hrest⟩ := h.ending finish heq
      exact ⟨piece, mem_append_left _ hmem, b, getElem?_append_of_some hget, hrest⟩
    next hmore =>
      exact ⟨_, hlast, a, hown, by simpa using hmore, Option.some.inj heq⟩

end Backed

/-! ## What comes out -/

/-- The datagram is the fragments pushed at the positions `used`, end to end, under the header of
the one that starts at offset zero; all of them were pushed for its key within the timeout before
`now`, and every fragment pushed for that key since the first of them is one of them. -/
structure Justified (pushed : List Arrival) (now : Instant) (datagram : Ipv4Packet)
    (used : List Nat) (fragments : List Arrival) : Prop where
  positions : used.map (fun i => pushed[i]?) = fragments.map some
  distinct : used.Nodup
  key : ∀ a ∈ fragments, DatagramKey.of a.packet = DatagramKey.of datagram
  legible : ∀ a ∈ fragments, Legible a.packet
  recent : ∀ a ∈ fragments, a.now ≤ now ∧ now - a.now < fragmentTimeout
  tiling : Tiles.Tiling (fun a : Arrival => fragmentOffset a.packet)
    (fun a => (payload a.packet).length) 0 fragments (payload datagram).length
  content : payload datagram = fragments.flatMap fun a => payload a.packet
  ending : ∃ a ∈ fragments, hasMore a.packet = false ∧
    fragmentOffset a.packet + (payload a.packet).length = (payload datagram).length
  agreed : ∀ i a, (∃ j ∈ used, j ≤ i) → pushed[i]? = some a →
    DatagramKey.of a.packet = DatagramKey.of datagram → Legible a.packet →
    ∃ b ∈ fragments, fragmentOffset b.packet = fragmentOffset a.packet ∧
      payload b.packet = payload a.packet
  header : ∃ a ∈ fragments, fragmentOffset a.packet = 0 ∧ KeepsHeader a.packet datagram

theorem KeepsHeader.key {first datagram : Ipv4Packet} (h : KeepsHeader first datagram) :
    DatagramKey.of first = DatagramKey.of datagram := by
  have hfields := h.fields
  have hkey : ∀ packet : Ipv4Packet, DatagramKey.of packet =
      ⟨(of packet).source, (of packet).destination, (of packet).protocol,
        (of packet).identification⟩ := fun _ => rfl
  rw [hkey datagram, hfields]
  rfl

variable {pushed : List Arrival}

/-- An entry whose pieces cover it is rebuilt into a datagram that they justify. -/
theorem Backed.justified {key : DatagramKey} {entry : Partial Nat}
    (h : Backed pushed key entry) {header : Bytes} {finish : Nat}
    (hheader : entry.header = some header) (hending : entry.ending = some finish)
    (hlength : header.length + finish ≤ maxDatagramLength)
    (hcover : cover 0 entry.pieces = .upTo finish) {now : Instant}
    (hrecent : now - entry.started < fragmentTimeout) (hclock : ∀ a ∈ pushed, a.now ≤ now) :
    ∃ datagram fragments, datagram.bytes = assemble header entry.pieces ∧
      Justified pushed now datagram (entry.pieces.map tag) fragments := by
  obtain ⟨first, hfirst, a, hget, hzero, rfl⟩ := h.header header hheader
  obtain ⟨last, hlast, z, hgetz, hmore, hfinish⟩ := h.ending finish hending
  have : Nonempty Arrival := ⟨a⟩
  choose! source hsource using h.piece
  have hat : ∀ {piece : Piece Nat} {b : Arrival}, piece ∈ entry.pieces →
      pushed[piece.tag]? = some b → source piece = b := fun hmem hb =>
    Option.some.inj ((hsource _ hmem).position.symm.trans hb)
  obtain rfl := hat hfirst hget
  obtain rfl := hat hlast hgetz
  have htiling := cover_tiling entry.pieces hcover
  have hdata : (entry.pieces.flatMap data).length = finish := by
    rw [length_flatMap, ← htiling.length_eq, Nat.zero_add]
  have hlegible := (hsource first hfirst).legible
  have htake : ((source first).packet.bytes.take (headerLength (source first).packet)).length =
      headerLength (source first).packet := by
    have htotal := hlegible.total
    have hinside : totalLength (source first).packet ≤ (source first).packet.bytes.length :=
      hlegible.inside
    rw [length_take]
    omega
  have hfits : headerLength (source first).packet + (entry.pieces.flatMap data).length ≤
      maxDatagramLength := by
    rw [hdata]
    rw [htake] at hlength
    exact hlength
  have hlong : 20 ≤ (assemble ((source first).packet.bytes.take
      (headerLength (source first).packet)) entry.pieces).length := by
    rw [assemble_first hlegible, length_append, length_bytes]
    omega
  obtain ⟨hkeeps, hpayload⟩ := @keepsHeader_of_assemble _ _ hlegible entry.pieces hfits
    ⟨_, hlong⟩ rfl
  refine ⟨⟨_, hlong⟩, entry.pieces.map source, rfl, ?_⟩
  generalize (⟨_, hlong⟩ : Ipv4Packet) = datagram at hkeeps hpayload ⊢
  have hkey : DatagramKey.of datagram = key :=
    hkeeps.key.symm.trans (hsource first hfirst).key
  rw [← hpayload] at hdata
  have hpieces : ∀ b ∈ entry.pieces.map source, ∃ piece ∈ entry.pieces,
      b = source piece ∧ Kept pushed key entry.started piece b := by
    intro b hb
    obtain ⟨piece, hmem, rfl⟩ := mem_map.1 hb
    exact ⟨piece, hmem, rfl, hsource piece hmem⟩
  refine ⟨?_, ?_, ?_, ?_, ?_, ?_, ?_, ?_, ?_, ?_⟩
  · rw [map_map, map_map]
    exact map_congr_left fun piece hmem => (hsource piece hmem).position
  · -- Two pieces from one push would start at the same offset.
    rw [List.Nodup, pairwise_map]
    have hdistinct := h.distinct
    rw [List.Nodup, pairwise_map] at hdistinct
    refine hdistinct.imp_of_mem fun {x y} hx hy hne heq => hne ?_
    have hy' := (hsource y hy).position
    rw [← heq] at hy'
    rw [(hsource x hx).start, (hsource y hy).start, hat hx hy']
  · intro b hb
    obtain ⟨piece, hmem, -, hkept⟩ := hpieces b hb
    exact hkept.key.trans hkey.symm
  · intro b hb
    obtain ⟨piece, hmem, -, hkept⟩ := hpieces b hb
    exact hkept.legible
  · intro b hb
    obtain ⟨piece, hmem, -, hkept⟩ := hpieces b hb
    have hlater := hkept.later
    have hnow := hclock b (mem_of_getElem? hkept.position)
    exact ⟨hnow, Nat.lt_of_le_of_lt (Nat.sub_le_sub_left hlater now) hrecent⟩
  · rw [hdata]
    refine htiling.map source ?_
    intro piece hmem
    rw [(hsource piece hmem).start, (hsource piece hmem).data]
    exact ⟨rfl, rfl⟩
  · rw [hpayload, flatMap_map]
    exact flatMap_congr fun piece hmem => (hsource piece hmem).data
  · refine ⟨source last, mem_map_of_mem hlast, hmore, ?_⟩
    rw [hdata, ← hfinish, (hsource last hlast).start, (hsource last hlast).data]
  · rintro i b ⟨j, hj, hle⟩ hb hkeyb hlegibleb
    obtain ⟨piece, hmem, rfl⟩ := mem_map.1 hj
    obtain ⟨found, hfound, hstart, hsame⟩ :=
      h.every i b ⟨piece, hmem, hle⟩ hb (hkeyb.trans hkey) hlegibleb
    refine ⟨source found, mem_map_of_mem hfound, ?_, ?_⟩
    · rw [← hstart, (hsource found hfound).start]
    · rw [← hsame, (hsource found hfound).data]
  · exact ⟨source first, mem_map_of_mem hfirst, hzero, hkeeps⟩

/-! ## Runs -/

/-- What an entry satisfies after the run `pushed`. -/
structure Sound (pushed : List Arrival) (key : DatagramKey) (entry : Partial Nat) : Prop where
  backed : Backed pushed key entry
  room : entry.pieces.length ≤ maxFragmentsPerDatagram
  opened : ∃ a ∈ pushed, entry.started = a.now

/-- What the reassembler holds after the run `pushed`. -/
structure Held (pushed : List Arrival) (r : Reassembler Nat) : Prop where
  size : r.partials.size ≤ maxDatagrams
  entries : r.Each (Sound pushed)

section Held

variable {pushed : List Arrival} {r : Reassembler Nat} {key : DatagramKey} {entry : Partial Nat}
  {a : Arrival}

theorem Sound.push (h : Sound pushed key entry)
    (hother : ¬ (DatagramKey.of a.packet = key ∧ Legible a.packet)) :
    Sound (pushed ++ [a]) key entry where
  backed := h.backed.push fun hkey hlegible => absurd ⟨hkey, hlegible⟩ hother
  room := h.room
  opened := by
    obtain ⟨b, hb, hstarted⟩ := h.opened
    exact ⟨b, mem_append_left _ hb, hstarted⟩

theorem entryFor_spec (h : r.Each fun key entry => a.now - entry.started < fragmentTimeout ∧
      Sound pushed key entry) :
    Backed pushed (DatagramKey.of a.packet) (entryFor r a.packet a.now) ∧
      (entryFor r a.packet a.now).pieces.length ≤ maxFragmentsPerDatagram ∧
      a.now - (entryFor r a.packet a.now).started < fragmentTimeout ∧
      ∃ b ∈ pushed ++ [a], (entryFor r a.packet a.now).started = b.now := by
  rw [entryFor]
  cases hget : r.partials.get? (DatagramKey.of a.packet) with
  | none =>
    refine ⟨backed_new _ _ _, Nat.zero_le _, ?_, a, by simp, rfl⟩
    show a.now - a.now < fragmentTimeout
    rw [Nat.sub_self]
    decide
  | some entry =>
    obtain ⟨hrecent, hsound⟩ := h _ _ hget
    obtain ⟨b, hb, hstarted⟩ := hsound.opened
    exact ⟨hsound.backed, hsound.room, hrecent, b, mem_append_left _ hb, hstarted⟩

/-- What becomes of the entry of the fragment's own datagram keeps the reassembler sound, and a
datagram that is returned is justified. -/
theorem outcome_sound (h : r.Each fun key entry => a.now - entry.started < fragmentTimeout ∧
      Sound pushed key entry)
    (hclock : ∀ b ∈ pushed ++ [a], b.now ≤ a.now) (hlegible : Legible a.packet)
    {result : Reassembler Nat × Option (Bytes × List Nat)}
    (houtcome : r.Outcome a.packet pushed.length a.now result) :
    result.1.Each (Sound (pushed ++ [a])) ∧ ∀ bytes used, result.2 = some (bytes, used) →
      ∃ datagram fragments, datagram.bytes = bytes ∧
        Justified (pushed ++ [a]) a.now datagram used fragments := by
  obtain ⟨hbacked, hroom, hrecent, hopened⟩ := entryFor_spec h
  have hstarted : (entryFor r a.packet a.now).started ≤ a.now := by
    obtain ⟨b, hb, heq⟩ := hopened
    rw [heq]
    exact hclock b hb
  have hothers : r.Each fun key entry => key ≠ DatagramKey.of a.packet →
      Sound (pushed ++ [a]) key entry := by
    intro key entry hget hne
    exact (h key entry hget).2.push fun hboth => hne hboth.1.symm
  cases houtcome with
  | @dropped entry =>
    refine ⟨?_, fun _ _ heq => absurd heq.symm (Option.some_ne_none _)⟩
    have hstored : (r.store (DatagramKey.of a.packet) entry).Each fun key entry =>
        key ≠ DatagramKey.of a.packet → Sound (pushed ++ [a]) key entry :=
      Each.store (hothers.imp fun _ _ hsound _ => hsound) fun hne => absurd rfl hne
    exact (hstored.discard _).imp fun _ _ hkept => hkept.2 hkept.1
  | known hmem hstart hdata =>
    refine ⟨?_, fun _ _ heq => absurd heq.symm (Option.some_ne_none _)⟩
    exact hothers.store ⟨hbacked.push fun _ _ => ⟨_, hmem, hstart, hdata⟩, hroom, hopened⟩
  | joined hnew hperm hpieces =>
    refine ⟨?_, fun _ _ heq => absurd heq.symm (Option.some_ne_none _)⟩
    exact hothers.store
      ⟨(hbacked.join hlegible hstarted hnew).perm hperm, hpieces, hopened⟩
  | completed hnew hperm hheader hending hlength hcover =>
    constructor
    · exact (hothers.erase _).imp fun _ _ hkept => hkept.2 hkept.1
    · intro bytes used heq
      cases heq
      exact ((hbacked.join hlegible hstarted hnew).perm hperm).justified hheader hending hlength
        hcover hrecent hclock

theorem Held.push (h : Held pushed r) (hclock : ∀ b ∈ pushed, b.now ≤ a.now) :
    Held (pushed ++ [a]) (r.push a.packet pushed.length a.now a.pick).1 ∧
      ∀ bytes used, (r.push a.packet pushed.length a.now a.pick).2 = some (bytes, used) →
        ∃ datagram fragments, datagram.bytes = bytes ∧
          Justified (pushed ++ [a]) a.now datagram used fragments := by
  have hclock' : ∀ b ∈ pushed ++ [a], b.now ≤ a.now := by
    intro b hb
    rcases mem_snoc.1 hb with hold | hlast
    · exact hclock b hold
    · rw [hlast]
  have hexpired := h.entries.expire a.now
  have hsize := size_push h.size a.packet pushed.length a.now a.pick
  rcases push_cases r a.packet pushed.length a.now a.pick with
    ⟨hbad, heq⟩ | heq | ⟨hlegible, houtcome⟩
  · rw [heq] at hsize ⊢
    refine ⟨⟨hsize, ?_⟩, fun _ _ hnone => absurd hnone.symm (Option.some_ne_none _)⟩
    exact hexpired.imp fun _ _ hsound => hsound.2.push fun hboth => hbad hboth.2
  · rw [heq] at hsize ⊢
    refine ⟨⟨hsize, ?_⟩, fun _ _ hnone => absurd hnone.symm (Option.some_ne_none _)⟩
    exact (hexpired.discard _).imp fun _ _ hkept =>
      hkept.2.2.push fun hboth => hkept.1 hboth.1.symm
  · obtain ⟨hentries, houtput⟩ := outcome_sound (hexpired.makeRoom _ _) hclock' hlegible houtcome
    exact ⟨⟨hsize, hentries⟩, houtput⟩

end Held

theorem Held.headed {r : Reassembler Nat} (h : Held pushed r) :
    r.Headed fun header => 20 ≤ header.length := by
  intro key entry hget header heq
  obtain ⟨piece, hmem, a, ha, -, rfl⟩ := (h.entries key entry hget).backed.header header heq
  obtain ⟨b, hkept⟩ := (h.entries key entry hget).backed.piece piece hmem
  cases ha.symm.trans hkept.position
  have hlong := hkept.legible.header
  have htotal := hkept.legible.total
  have hinside : totalLength a.packet ≤ a.packet.bytes.length := hkept.legible.inside
  rw [length_take]
  omega

/-- The reassembler and the number of pushes so far. -/
abbrev Feed := Reassembler Nat × Nat

/-- One push, tagged with its position. -/
def feed (s : Feed) (a : Arrival) : Feed × Option (Bytes × List Nat) :=
  (((s.1.push a.packet s.2 a.now a.pick).1, s.2 + 1), (s.1.push a.packet s.2 a.now a.pick).2)

/-- A run from an empty reassembler. -/
def fed (pushed : List Arrival) : Run.Config Feed Arrival (Option (Bytes × List Nat)) :=
  Run.exec feed (default, 0) pushed

/-- The instants of a run do not decrease. -/
def Clocked (pushed : List Arrival) : Prop := (pushed.map Arrival.now).Pairwise (· ≤ ·)

instance (pushed : List Arrival) : Decidable (Clocked pushed) :=
  inferInstanceAs (Decidable (List.Pairwise _ _))

theorem Clocked.concat {a : Arrival} (h : Clocked (pushed ++ [a])) :
    Clocked pushed ∧ ∀ b ∈ pushed, b.now ≤ a.now := by
  rw [Clocked, map_append, pairwise_append] at h
  refine ⟨h.1, ?_⟩
  intro b hb
  exact h.2.2 _ (mem_map_of_mem hb) _ (mem_singleton_self _)

theorem fed_concat (pushed : List Arrival) (a : Arrival) :
    fed (pushed ++ [a]) = Run.advance feed (fed pushed) a := by
  rw [fed, Run.exec, Run.execFrom_append]
  rfl

theorem held_run (pushed : List Arrival) :
    Clocked pushed → (fed pushed).state.2 = pushed.length ∧ Held pushed (fed pushed).state.1 := by
  induction pushed using List.reverseRecOn with
  | nil =>
    intro _
    exact ⟨rfl, Nat.zero_le _, each_default⟩
  | append_singleton pushed a ih =>
    intro h
    obtain ⟨hbefore, hclock⟩ := h.concat
    obtain ⟨hcount, hheld⟩ := ih hbefore
    rw [fed_concat, Run.advance_state, feed, hcount]
    refine ⟨?_, (hheld.push hclock).1⟩
    rw [length_append, length_singleton]

/-- Over every run of packets at instants that do not decrease: no access of the next push is out of
range, there are at most 64 entries of at most 64 pieces after it, and a datagram it returns is the
concatenation of fragments of the run that tile it, under the header of the first of them. -/
theorem reassembly_sound (pushed : List Arrival) (a : Arrival) (hclock : Clocked (pushed ++ [a])) :
    (fed pushed).state.1.pushChecked a.packet.bytes pushed.length a.now a.pick =
        some ((fed (pushed ++ [a])).state.1,
          (feed (fed pushed).state a).2) ∧
      (fed (pushed ++ [a])).state.1.partials.size ≤ 64 ∧
      (∀ key entry, (fed (pushed ++ [a])).state.1.partials.get? key = some entry →
        entry.pieces.length ≤ 64) ∧
      ∀ bytes used, (feed (fed pushed).state a).2 = some (bytes, used) →
        ∃ datagram fragments, datagram.bytes = bytes ∧
          Justified (pushed ++ [a]) a.now datagram used fragments := by
  obtain ⟨hbefore, hnow⟩ := hclock.concat
  obtain ⟨hcount, hheld⟩ := held_run pushed hbefore
  obtain ⟨hafter, houtput⟩ := hheld.push hnow
  rw [fed_concat, Run.advance_state, feed, hcount]
  refine ⟨?_, hafter.size, ?_, houtput⟩
  · rw [pushChecked_eq hheld.headed]
  · exact fun key entry hget => (hafter.entries key entry hget).room

/-- A fragment with 8 bytes of data, with the given flags and offset bytes. -/
def eightBytes (flags offset : UInt8) : Ipv4Packet :=
  ⟨[0x45, 0, 0, 28, 0, 1, flags, offset, 64, 17, 0, 0, 10, 0, 0, 2, 9, 9, 9, 9] ++
    List.replicate 8 offset, by simp⟩

/-- Two halves, the second one first. -/
theorem reassembly_sound_halves :
    (feed (fed [⟨eightBytes 0 1, 0, 0⟩]).state ⟨eightBytes 0x20 0, 5, 0⟩).2.isSome = true ∧
      ∀ bytes used,
        (feed (fed [⟨eightBytes 0 1, 0, 0⟩]).state ⟨eightBytes 0x20 0, 5, 0⟩).2 =
            some (bytes, used) →
          ∃ datagram fragments, datagram.bytes = bytes ∧
            Justified [⟨eightBytes 0 1, 0, 0⟩,
              ⟨eightBytes 0x20 0, 5, 0⟩] 5 datagram used fragments :=
  ⟨by decide +kernel, (reassembly_sound [⟨eightBytes 0 1, 0, 0⟩] ⟨eightBytes 0x20 0, 5, 0⟩
    (by decide)).2.2.2⟩

end GamePath.Engine.Ipv4Fragments
