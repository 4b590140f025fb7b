import GamePath.Lib.BigEndian

/-!
# Shared vocabulary of the engine

Byte strings, the monotonic clock and IPv4 headers, as every module of the engine uses them. An
`Instant` is a number of nanoseconds since an arbitrary origin; `now - earlier` on natural numbers
is `saturating_duration_since`, which is also what `duration_since` computes.
-/

namespace GamePath.Engine

open Lib

/-- A byte string (`Vec<u8>` or `&[u8]`). -/
abbrev Bytes := List UInt8

/-- A reading of the monotonic clock, in nanoseconds. -/
abbrev Instant := Nat

/-- `Duration::from_millis`, in nanoseconds. -/
def millis (n : Nat) : Nat := n * 1000000

/-- `Duration::from_secs`, in nanoseconds. -/
def secs (n : Nat) : Nat := n * 1000000000

/-- Four octets, as in `[u8; 4]` and `Ipv4Addr`. -/
abbrev Octets := UInt8 × UInt8 × UInt8 × UInt8

-- Every list of addresses is searched by one test: its proof has a name, and is not made again by
-- each search.
instance : LawfulBEq Octets := inferInstance

/-- `Ipv4Addr::octets`. -/
def octets (address : Octets) : List UInt8 := [address.1, address.2.1, address.2.2.1, address.2.2.2]

/-- `str::eq_ignore_ascii_case`. -/
def eqIgnoreAsciiCase (value other : List Char) : Bool :=
  value.map Char.toLower == other.map Char.toLower

/-- `u32::to_be_bytes`. -/
def beU32 (v : UInt32) : Bytes := BigEndian.toBytes 4 v.toNat

instance neZeroTwenty : NeZero 20 := ⟨by decide⟩

/-- `u16::from_be_bytes`. -/
def u16OfBe (hi lo : UInt8) : UInt16 := hi.toUInt16 <<< 8 ||| lo.toUInt16

/-- A packet long enough to hold an IPv4 header, so that reading a header byte cannot fail. -/
structure Ipv4Packet where
  bytes : Bytes
  long : 20 ≤ bytes.length
  deriving DecidableEq

namespace Ipv4Packet

/-- A byte of the fixed part of the header. -/
def byte (p : Ipv4Packet) (i : Fin 20) : UInt8 :=
  p.bytes.get ⟨i.val, Nat.lt_of_lt_of_le i.isLt p.long⟩

/-- `packet[12..16]`. -/
def source (p : Ipv4Packet) : Octets := (p.byte 12, p.byte 13, p.byte 14, p.byte 15)

/-- `packet[16..20]`. -/
def destination (p : Ipv4Packet) : Octets := (p.byte 16, p.byte 17, p.byte 18, p.byte 19)

/-- `packet[9]`. -/
def protocol (p : Ipv4Packet) : UInt8 := p.byte 9

/-- `u16::from_be_bytes([packet[4], packet[5]])`. -/
def identification (p : Ipv4Packet) : UInt16 := u16OfBe (p.byte 4) (p.byte 5)

/-- The number of bytes. -/
def length (p : Ipv4Packet) : Nat := p.bytes.length

end Ipv4Packet

end GamePath.Engine
