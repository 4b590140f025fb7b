import GamePath.Engine.FragmentSteps
import GamePath.Engine.TcpMss

/-!
# The reads of a push

`Reassembler::push` once more, with every index and every slice of the source as an access that ends
the program when it is out of range: `pushChecked` has no result then. It does what `push` does
(`pushChecked_eq`), given headers that were kept whole.
-/

namespace GamePath.Engine.Ipv4Fragments

open List Option
open TcpMss (range writeWord)

variable {τ : Type}

/-- `u16::from_be_bytes([bytes[i], bytes[i + 1]])`. -/
def readWord (bytes : Bytes) (i : Nat) : Option UInt16 := do
  let hi : UInt8 ← bytes[i]?
  let lo : UInt8 ← bytes[i + 1]?
  some (u16OfBe hi lo)

/-- `bytes[i..i + 4].try_into().unwrap()`. -/
def readOctets (bytes : Bytes) (i : Nat) : Option Octets := do
  let slice ← range bytes i (i + 4)
  match slice with
  | [a, b, c, d] => some (a, b, c, d)
  | _ => none

/-- `DatagramKey::of`. -/
def DatagramKey.read (bytes : Bytes) : Option DatagramKey := do
  let source ← readOctets bytes 12
  let destination ← readOctets bytes 16
  let protocol : UInt8 ← bytes[9]?
  let identification ← readWord bytes 4
  some ⟨source, destination, protocol, identification⟩

/-- The datagram, written field by field. -/
def assembleChecked (header : Bytes) (pieces : List (Piece τ)) : Option Bytes := do
  let datagram := header ++ pieces.flatMap Piece.data
  let length := UInt16.ofNat datagram.length
  let flags ← readWord header 6
  let datagram ← writeWord datagram 2 length
  let datagram ← writeWord datagram 6 (flags &&& dontFragment)
  let datagram ← writeWord datagram 10 0
  let covered ← range datagram 0 header.length
  writeWord datagram 10 (internetChecksum covered)

namespace Reassembler

/-- The end of `push`. -/
def completeChecked (r : Reassembler τ) (key : DatagramKey) (entry : Partial τ) :
    Option (Reassembler τ × Option (Bytes × List τ)) :=
  match entry.header, entry.ending with
  | some header, some ending =>
    if maxDatagramLength < header.length + ending then some ((r.store key entry).discard key, none)
    else
      let entry := { entry with pieces := sortPieces entry.pieces }
      match cover 0 entry.pieces with
      | .gap => some (r.store key entry, none)
      | .overlap => some ((r.store key entry).discard key, none)
      | .upTo covered =>
        if covered ≠ ending then some ((r.store key entry).discard key, none)
        else do
          let datagram ← assembleChecked header entry.pieces
          some ({ r with partials := r.partials.erase key },
            some (datagram, entry.pieces.map Piece.tag))
  | _, _ => some (r.store key entry, none)

/-- The header an entry has once a piece joined it: `packet[..header_length]` if it is the first. -/
def headerChecked (entry : Partial τ) (bytes : Bytes) (headerLength start : Nat) :
    Option (Option Bytes) :=
  if start = 0 then (range bytes 0 headerLength).map some else some entry.header

/-- The middle of `push`. -/
def takeChecked (r : Reassembler τ) (key : DatagramKey) (entry : Partial τ) (bytes : Bytes)
    (headerLength : Nat) (more : Bool) (piece : Piece τ) :
    Option (Reassembler τ × Option (Bytes × List τ)) :=
  let finish := piece.start + piece.data.length
  let conflicting := match entry.ending with
    | some known => decide (known ≠ finish)
    | none => false
  if !more && conflicting then some ((r.store key entry).discard key, none)
  else do
    let header ← headerChecked entry bytes headerLength piece.start
    let entry : Partial τ :=
      { entry with
        ending := if more then entry.ending else some finish
        header := header
        pieces := entry.pieces ++ [piece] }
    if maxFragmentsPerDatagram < entry.pieces.length then
      some ((r.store key entry).discard key, none)
    else r.completeChecked key entry

/-- `push`. -/
def pushChecked (r : Reassembler τ) (bytes : Bytes) (tag : τ) (now : Instant) (pick : Nat) :
    Option (Reassembler τ × Option (Bytes × List τ)) := do
  let r := r.expire now
  let first : UInt8 ← bytes[0]?
  let headerLength := (first &&& 0x0f).toNat * 4
  let total ← readWord bytes 2
  let totalLength := total.toNat
  if headerLength < 20 ∨ totalLength < headerLength ∨ bytes.length < totalLength then
    some ({ r with discarded := r.discarded + 1 }, none)
  else
    let flags ← readWord bytes 6
    let offset := (flags &&& offsetMask).toNat * 8
    let more := decide (flags &&& moreFragments ≠ 0)
    let payload ← range bytes headerLength totalLength
    let key ← DatagramKey.read bytes
    let finish := offset + payload.length
    if (more && decide (payload.length % 8 ≠ 0)) ||
        decide (maxDatagramLength < headerLength + finish) then
      some (r.discard key, none)
    else
      let r := r.makeRoom key pick
      let entry := (r.partials.get? key).getD ⟨now, none, [], none⟩
      match entry.pieces.find? fun piece => decide (piece.start = offset) with
      | some known =>
        if known.data ≠ payload then some ((r.store key entry).discard key, none)
        else some (r.store key entry, none)
      | none => r.takeChecked key entry bytes headerLength more ⟨offset, payload, tag⟩

end Reassembler

/-! ## Every access is in range -/

theorem getElem?_byte (packet : Ipv4Packet) (i : Nat) (h : i < 20) :
    packet.bytes[i]? = some (packet.byte ⟨i, h⟩) :=
  getElem?_eq_getElem (Nat.lt_of_lt_of_le h packet.long)

variable {bytes : Bytes}

theorem readWord_of_getElem? {i : Nat} {hi lo : UInt8} (hhi : bytes[i]? = some hi)
    (hlo : bytes[i + 1]? = some lo) : readWord bytes i = some (u16OfBe hi lo) := by
  rw [readWord, hhi, hlo]
  rfl

theorem range_eq {start last : Nat} (hstart : start ≤ last) (hlast : last ≤ bytes.length) :
    range bytes start last = some ((bytes.take last).drop start) :=
  if_pos ⟨hstart, hlast⟩

theorem writeWord_eq {i : Nat} (h : i + 2 ≤ bytes.length) (value : UInt16) :
    writeWord bytes i value = some (setU16 bytes i value) :=
  if_pos h

theorem readOctets_eq {i : Nat} {a b c d : UInt8} (ha : bytes[i]? = some a)
    (hb : bytes[i + 1]? = some b) (hc : bytes[i + 2]? = some c) (hd : bytes[i + 3]? = some d) :
    readOctets bytes i = some (a, b, c, d) := by
  have hlast := (List.getElem?_eq_some_iff.1 hd).1
  have hslice : (bytes.take (i + 4)).drop i = [a, b, c, d] := by
    apply ext_getElem?
    intro n
    match n with
    | 0 => simpa using ha
    | 1 => simpa using hb
    | 2 => simpa using hc
    | 3 => simpa using hd
    | n + 4 => simp
  rw [readOctets, range_eq (by omega) (by omega), hslice]
  rfl

theorem read_eq (packet : Ipv4Packet) :
    DatagramKey.read packet.bytes = some (DatagramKey.of packet) := by
  rw [DatagramKey.read,
    readOctets_eq (getElem?_byte packet 12 (by decide)) (getElem?_byte packet 13 (by decide))
      (getElem?_byte packet 14 (by decide))
      (getElem?_byte packet 15 (by decide)),
    readOctets_eq (getElem?_byte packet 16 (by decide)) (getElem?_byte packet 17 (by decide))
      (getElem?_byte packet 18 (by decide))
      (getElem?_byte packet 19 (by decide)),
    getElem?_byte packet 9 (by decide), readWord_of_getElem? (getElem?_byte packet 4 (by decide))
      (getElem?_byte packet 5 (by decide))]
  rfl

theorem assembleChecked_eq {header : Bytes} (h : 20 ≤ header.length) (pieces : List (Piece τ)) :
    assembleChecked header pieces = some (assemble header pieces) := by
  have hlong : 20 ≤ (header ++ pieces.flatMap Piece.data).length := by
    rw [length_append]
    omega
  have hflags : readWord header 6 = some (u16OfBe (header.getD 6 0) (header.getD 7 0)) := by
    apply readWord_of_getElem?
    · rw [getD_eq_getElem?_getD, getElem?_eq_getElem (by omega)]
      rfl
    · rw [getD_eq_getElem?_getD, getElem?_eq_getElem (by omega)]
      rfl
  rw [assembleChecked, hflags]
  dsimp only [bind_eq_bind]
  rw [writeWord_eq (by omega)]
  dsimp only [bind_some]
  rw [writeWord_eq (by rw [length_setU16]; omega)]
  dsimp only [bind_some]
  rw [writeWord_eq (by rw [length_setU16, length_setU16]; omega)]
  dsimp only [bind_some]
  rw [range_eq (Nat.zero_le _) (by
    rw [length_setU16, length_setU16, length_setU16, length_append]
    omega)]
  dsimp only [bind_some]
  rw [writeWord_eq (by rw [length_setU16, length_setU16, length_setU16]; omega)]
  rfl

namespace Reassembler

section

variable (r : Reassembler τ) (key : DatagramKey) {entry : Partial τ}
  (h : entry.Headed fun header => 20 ≤ header.length)
include r key h

theorem completeChecked_eq :
    r.completeChecked key entry = some (r.complete key entry) := by
  obtain ⟨started, header, pieces, ending⟩ := entry
  cases header with
  | none => rfl
  | some header =>
    cases ending with
    | none => rfl
    | some ending =>
      rw [completeChecked, complete]
      dsimp only
      by_cases hlong : maxDatagramLength < header.length + ending
      · rw [if_pos hlong, if_pos hlong]
      rw [if_neg hlong, if_neg hlong]
      cases cover 0 (sortPieces pieces) with
      | gap | overlap => rfl
      | upTo covered =>
        dsimp only
        by_cases hcovered : covered ≠ ending
        · rw [if_pos hcovered, if_pos hcovered]
        · rw [if_neg hcovered, if_neg hcovered, assembleChecked_eq (h header rfl)]
          rfl

theorem takeChecked_eq {packet : Ipv4Packet} (hlegible : Legible packet) (piece : Piece τ) :
    r.takeChecked key entry packet.bytes (headerLength packet) (hasMore packet) piece =
      some (r.take key entry packet piece) := by
  have hlong := hlegible.header
  have hinside : headerLength packet ≤ packet.bytes.length := hlegible.total.trans hlegible.inside
  have hheader : headerChecked entry packet.bytes (headerLength packet) piece.start =
      some (if piece.start = 0 then some (packet.bytes.take (headerLength packet))
        else entry.header) := by
    rw [headerChecked, range_eq (Nat.zero_le _) hinside]
    split <;> rfl
  unfold takeChecked take
  dsimp only
  rw [hheader]
  generalize (!hasMore packet && _) = conflicting
  cases conflicting with
  | true => rfl
  | false =>
    rw [if_neg Bool.false_ne_true]
    dsimp only [bind_eq_bind, bind_some]
    split
    · rfl
    apply completeChecked_eq
    intro header heq
    split at heq
    · rw [← some.inj heq, length_take]
      omega
    · exact h header heq

end

theorem pushChecked_eq {r : Reassembler τ} (h : r.Headed fun header => 20 ≤ header.length)
    (packet : Ipv4Packet) (tag : τ) (now : Instant) (pick : Nat) :
    r.pushChecked packet.bytes tag now pick = some (r.push packet tag now pick) := by
  rw [pushChecked, getElem?_byte packet 0 (by decide),
    readWord_of_getElem? (getElem?_byte packet 2 (by decide)) (getElem?_byte packet 3 (by decide)),
    readWord_of_getElem? (getElem?_byte packet 6 (by decide)) (getElem?_byte packet 7 (by decide)),
      read_eq]
  unfold push
  by_cases hbad : headerLength packet < 20 ∨ totalLength packet < headerLength packet ∨
      packet.length < totalLength packet
  · rw [if_pos hbad]
    exact if_pos hbad
  rw [if_neg hbad]
  refine (if_neg hbad).trans ?_
  have hlegible : Legible packet := ⟨by omega, by omega, by omega⟩
  have hslice : range packet.bytes ((packet.byte ⟨0, by decide⟩ &&& 0x0f).toNat * 4)
      (u16OfBe (packet.byte ⟨2, by decide⟩) (packet.byte ⟨3, by decide⟩)).toNat =
        some (payload packet) := range_eq hlegible.total hlegible.inside
  rw [hslice]
  by_cases hmalformed : ((hasMore packet && decide ((payload packet).length % 8 ≠ 0)) ||
      decide (maxDatagramLength < headerLength packet +
        (fragmentOffset packet + (payload packet).length))) = true
  · refine (if_pos hmalformed).trans ?_
    rw [if_pos]
    exact hmalformed
  refine (if_neg hmalformed).trans ?_
  rw [if_neg (by exact hmalformed)]
  have hroom : ((r.expire now).makeRoom (DatagramKey.of packet) pick).Headed
      fun header => 20 ≤ header.length := (h.expire now).makeRoom _ pick
  have hentry : Partial.Headed (fun header => 20 ≤ header.length)
      (entryFor ((r.expire now).makeRoom (DatagramKey.of packet) pick) packet now) := by
    rw [entryFor]
    cases hget : ((r.expire now).makeRoom (DatagramKey.of packet) pick).partials.get?
        (DatagramKey.of packet) with
    | none => exact fun header heq => absurd heq.symm (some_ne_none _)
    | some entry => exact hroom _ _ hget
  have htake := ((r.expire now).makeRoom (DatagramKey.of packet) pick).takeChecked_eq
    (DatagramKey.of packet) hentry hlegible (pieceFrom packet tag)
  change (match (entryFor ((r.expire now).makeRoom (DatagramKey.of packet) pick) packet now
    ).pieces.find? fun piece => decide (piece.start = fragmentOffset packet) with
    | some known => _
    | none => _) = some (match (entryFor ((r.expire now).makeRoom (DatagramKey.of packet) pick)
      packet now).pieces.find? fun piece => decide (piece.start = fragmentOffset packet) with
      | some known => _
      | none => _)
  cases (entryFor ((r.expire now).makeRoom (DatagramKey.of packet) pick) packet now
    ).pieces.find? fun piece => decide (piece.start = fragmentOffset packet) with
  | none => exact htake
  | some known => exact (apply_ite some _ _ _).symm

end Reassembler

end GamePath.Engine.Ipv4Fragments
