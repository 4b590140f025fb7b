import GamePath.Lib.KeyedMap
import GamePath.Lib.Tiles
import GamePath.Engine.Checksum

/-!
# IPv4 fragments

`engine/src/ipv4_fragments.rs`: `split_for_tunnel`, which cuts a datagram to cross the tunnel, and
the `Reassembler` at the far end.

A piece the reassembler keeps carries a `tag`, which is not in the source: it names what the piece
came from, so that a result can say which pieces a rebuilt datagram was made of.
`sort_unstable_by_key` is an insertion sort, which is the same on pieces with distinct starts. As in
the fragment router, `pick` chooses among equally old entries where the source asks a hash map for
its oldest one.
-/

namespace GamePath.Engine.Ipv4Fragments

open Lib

universe u

def fragmentTimeout : Nat := secs 2

def maxDatagrams : Nat := 64

def maxFragmentsPerDatagram : Nat := 64

def maxDatagramLength : Nat := 65535

def moreFragments : UInt16 := 0x2000

def dontFragment : UInt16 := 0x4000

def offsetMask : UInt16 := 0x1fff

variable (packet : Ipv4Packet)

/-- `flags`: the word of flags and fragment offset. -/
def flags : UInt16 := u16OfBe (packet.byte 6) (packet.byte 7)

/-- The total length field. -/
def totalLength : Nat := (u16OfBe (packet.byte 2) (packet.byte 3)).toNat

/-- `usize::from(packet[0] & 0x0f) * 4`. -/
def headerLength : Nat := (packet.byte 0 &&& 0x0f).toNat * 4

/-- `usize::from(flags & OFFSET_MASK) * 8`. -/
def fragmentOffset : Nat := (flags packet &&& offsetMask).toNat * 8

/-- `flags & MORE_FRAGMENTS != 0`. -/
def hasMore : Bool := decide (flags packet &&& moreFragments ≠ 0)

def isFragment (bytes : Bytes) : Bool :=
  if h : 20 ≤ bytes.length then
    let packet : Ipv4Packet := ⟨bytes, h⟩
    decide (packet.byte 0 >>> 4 = 4) &&
      decide (flags packet &&& (moreFragments ||| offsetMask) ≠ 0)
  else false

/-! ## Splitting -/

/-- `(mtu - 20) & !7`: the data a piece carries. -/
def pieceSize (mtu : Nat) : Nat := (mtu - 20) / 8 * 8

/-- Writes a length, flags and the checksum over both into a 20-byte header followed by data. -/
def withFields (bytes : Bytes) (length flags : UInt16) : Bytes :=
  let bytes := setU16 (setU16 (setU16 bytes 2 length) 6 flags) 10 0
  setU16 bytes 10 (internetChecksum (bytes.take 20))

/-- One piece of a datagram, the closure of `split_for_tunnel`. -/
def pieceOf (mtu index : Nat) : Bytes :=
  let size := pieceSize mtu
  let payload := (packet.bytes.take (totalLength packet)).drop 20
  let count := Tiles.tileCount payload.length size
  let piece := Tiles.tile payload size index
  let last := decide (index + 1 = count)
  -- The offset goes on from the one the packet itself has, if it is a fragment.
  let flags := (flags packet &&& dontFragment) |||
    UInt16.ofNat ((fragmentOffset packet + index * size) / 8) |||
    if hasMore packet || !last then moreFragments else 0
  withFields (packet.bytes.take 20 ++ piece) (UInt16.ofNat (20 + piece.length)) flags

def splitForTunnel (bytes : Bytes) (mtu : Nat) : Option (List Bytes) :=
  if h : 20 ≤ bytes.length then
    let packet : Ipv4Packet := ⟨bytes, h⟩
    -- A header with options is left whole.
    if packet.byte 0 ≠ 0x45 ∨ mtu < 28 then none
    else if bytes.length < totalLength packet ∨ totalLength packet ≤ mtu then none
    else
      let count := Tiles.tileCount (totalLength packet - 20) (pieceSize mtu)
      some ((List.range count).map (pieceOf packet mtu))
  else none

/-! ## Reassembly -/

structure DatagramKey where
  source : Octets
  destination : Octets
  protocol : UInt8
  identification : UInt16
  deriving DecidableEq

def DatagramKey.of : DatagramKey :=
  ⟨packet.source, packet.destination, packet.protocol, packet.identification⟩

/-- A piece of a datagram: where it starts, its data and where it came from. -/
structure Piece (τ : Type u) where
  start : Nat
  data : Bytes
  tag : τ

/-- `Partial`. `ending` is the field `end` of the source. -/
structure Partial (τ : Type u) where
  started : Instant
  header : Option Bytes
  pieces : List (Piece τ)
  ending : Option Nat

structure Reassembler (τ : Type u) where
  partials : KeyedMap DatagramKey (Partial τ)
  discarded : Nat

/-- The outcome of the scan over the sorted pieces. -/
inductive Coverage where
  | gap
  | overlap
  | upTo (covered : Nat)

variable {τ : Type u}

/-- The scan: each piece has to start where the last one ended. -/
def cover : Nat → List (Piece τ) → Coverage
  | covered, [] => .upTo covered
  | covered, piece :: pieces =>
    if covered < piece.start then .gap
    else if piece.start < covered then .overlap
    else cover (covered + piece.data.length) pieces

/-- `pieces.sort_unstable_by_key(|(start, _)| *start)`. -/
def sortPieces (pieces : List (Piece τ)) : List (Piece τ) :=
  pieces.insertionSort fun a b => a.start ≤ b.start

/-- The datagram: the first fragment's header with the fields of the whole, and the data. -/
def assemble (header : Bytes) (pieces : List (Piece τ)) : Bytes :=
  let datagram := header ++ pieces.flatMap Piece.data
  let length := UInt16.ofNat datagram.length
  let dontFragment := u16OfBe (header.getD 6 0) (header.getD 7 0) &&& dontFragment
  let datagram := setU16 (setU16 (setU16 datagram 2 length) 6 dontFragment) 10 0
  setU16 datagram 10 (internetChecksum (datagram.take header.length))

namespace Reassembler

def default : Reassembler τ := ⟨KeyedMap.empty, 0⟩

variable (r : Reassembler τ)

def discard (key : DatagramKey) : Reassembler τ :=
  if (r.partials.get? key).isSome then
    { r with partials := r.partials.erase key, discarded := r.discarded + 1 }
  else r

/-- The expiry `push` starts with. -/
def expire (now : Instant) : Reassembler τ :=
  let kept := r.partials.retain fun _ entry => decide (now - entry.started < fragmentTimeout)
  { r with partials := kept, discarded := r.discarded + (r.partials.size - kept.size) }

/-- The eviction before an entry for a new key. -/
def makeRoom (key : DatagramKey) (pick : Nat) : Reassembler τ :=
  if (r.partials.get? key).isNone && decide (maxDatagrams ≤ r.partials.size) then
    match r.partials.minBy (fun entry => entry.started) pick with
    | some (oldest, _) => r.discard oldest
    | none => r
  else r

/-- Stores the entry of a key. -/
def store (key : DatagramKey) (entry : Partial τ) : Reassembler τ :=
  { r with partials := r.partials.insert key entry }

/-- The end of `push`: the datagram is rebuilt once the pieces cover it. -/
def complete (key : DatagramKey) (entry : Partial τ) :
    Reassembler τ × Option (Bytes × List τ) :=
  match entry.header, entry.ending with
  | some header, some ending =>
    -- The bound of `push` used the header of the fragment, this one uses the first fragment's.
    if maxDatagramLength < header.length + ending then ((r.store key entry).discard key, none)
    else
      let entry := { entry with pieces := sortPieces entry.pieces }
      match cover 0 entry.pieces with
      | .gap => (r.store key entry, none)
      | .overlap => ((r.store key entry).discard key, none)
      -- The pieces join up, but one of them may reach past the end.
      | .upTo covered =>
        if covered ≠ ending then ((r.store key entry).discard key, none)
        else
          ({ r with partials := r.partials.erase key },
            some (assemble header entry.pieces, entry.pieces.map Piece.tag))
  | _, _ => (r.store key entry, none)

/-- The middle of `push`: a piece that is new to its datagram joins it. -/
def take (key : DatagramKey) (entry : Partial τ) (packet : Ipv4Packet)
    (piece : Piece τ) : Reassembler τ × Option (Bytes × List τ) :=
  let finish := piece.start + piece.data.length
  let conflicting := match entry.ending with
    | some known => decide (known ≠ finish)
    | none => false
  -- Two last fragments that disagree about the end make the datagram unusable.
  if !hasMore packet && conflicting then ((r.store key entry).discard key, none)
  else
    let entry : Partial τ :=
      { entry with
        ending := if hasMore packet then entry.ending else some finish
        header := if piece.start = 0 then some (packet.bytes.take (headerLength packet))
          else entry.header
        pieces := entry.pieces ++ [piece] }
    if maxFragmentsPerDatagram < entry.pieces.length then ((r.store key entry).discard key, none)
    else r.complete key entry

/-- `push`: takes one fragment and returns the whole datagram, with the tags of its pieces, once its
last missing piece arrives. -/
def push (packet : Ipv4Packet) (tag : τ) (now : Instant) (pick : Nat) :
    Reassembler τ × Option (Bytes × List τ) :=
  let r := r.expire now
  if headerLength packet < 20 ∨ totalLength packet < headerLength packet ∨
      packet.length < totalLength packet then
    ({ r with discarded := r.discarded + 1 }, none)
  else
    let payload := (packet.bytes.take (totalLength packet)).drop (headerLength packet)
    let key := DatagramKey.of packet
    let finish := fragmentOffset packet + payload.length
    if (hasMore packet && decide (payload.length % 8 ≠ 0)) ||
        decide (maxDatagramLength < headerLength packet + finish) then
      -- A malformed fragment also costs the datagram it belongs to.
      (r.discard key, none)
    else
      let r := r.makeRoom key pick
      let entry := (r.partials.get? key).getD ⟨now, none, [], none⟩
      -- Only an exact copy is a duplicate: other data at the same offset is a conflict.
      match entry.pieces.find? fun piece => decide (piece.start = fragmentOffset packet) with
      | some known =>
        if known.data ≠ payload then ((r.store key entry).discard key, none)
        else (r.store key entry, none)
      | none => r.take key entry packet ⟨fragmentOffset packet, payload, tag⟩

end Reassembler

end GamePath.Engine.Ipv4Fragments
