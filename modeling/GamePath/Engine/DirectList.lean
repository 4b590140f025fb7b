import GamePath.Lib.Ranges
import GamePath.Engine.Addresses

/-!
# The direct list (`direct_list.rs`)

Destinations that keep the normal connection while the VPN carries everything else: IPv4 ranges and
domain names, compiled from the texts the client sends. A DNS reply gives addresses for a listed
name when its question or any name of its answer chain is listed.

A text is the list of its characters; its length in bytes is that of its UTF-8 form. Addresses of
ranges are numbers, as in the source.
-/

namespace GamePath.Engine.Direct

open Lib

/-- A `String` or `&str`. -/
abbrev Text := List Char

def maxNetworks : Nat := 65536

def maxDomains : Nat := 65536

def maxLearned : Nat := 4096

def minPrefix : Nat := 8

/-- What the client sends (`DirectSpec`). -/
structure DirectSpec where
  networks : List Text
  domains : List Text
  deriving DecidableEq

/-- A range of addresses, `(u32, u32)`. -/
abbrev AddressRange := Range UInt32 Unit

structure DirectList where
  ranges : List AddressRange
  exact : Finset Text
  suffixes : Finset Text
  skipped : Nat
  deriving DecidableEq

/-! ## Texts -/

def isWhitespace (c : Char) : Bool :=
  let n := c.toNat
  (9 ≤ n && n ≤ 13) || n == 0x20 || n == 0x85 || n == 0xa0 || n == 0x1680 ||
    (0x2000 ≤ n && n ≤ 0x200a) || n == 0x2028 || n == 0x2029 || n == 0x202f || n == 0x205f ||
    n == 0x3000

def trimEndMatches (p : Char → Bool) (value : Text) : Text := (value.reverse.dropWhile p).reverse

variable (value : Text)

def trim : Text := trimEndMatches isWhitespace (value.dropWhile isWhitespace)

def splitOnce (c : Char) : Text → Option (Text × Text)
  | [] => none
  | d :: rest =>
    if d = c then some ([], rest)
    else (splitOnce c rest).map fun parts => (d :: parts.1, parts.2)

/-- The length of a text in bytes (`str::len`). -/
def utf8Len : Nat := (value.map Char.utf8Size).sum

/-- The number a text of decimal digits spells. -/
def digits : Option Nat :=
  if value.all Char.isDigit then
    some (value.foldl (fun n c => 10 * n + (c.toNat - '0'.toNat)) 0)
  else none

/-- `str::parse::<u8>`, which accepts one plus sign. -/
def parseU8 : Option Nat :=
  let unsigned :=
    match value with
    | '+' :: rest => rest
    | value => value
  if unsigned = [] then none else (digits unsigned).filter fun n => n ≤ 255

/-- One part of a dotted address: at most three digits and no zero before another digit. -/
def parseOctet : Option UInt8 :=
  if value = [] ∨ 3 < value.length ∨ (value.head? = some '0' ∧ 1 < value.length) then none
  else ((digits value).filter fun n => n ≤ 255).map UInt8.ofNat

/-- `str::parse::<Ipv4Addr>`. -/
def parseIpv4 : Option Octets :=
  match value.splitOn '.' with
  | [a, b, c, d] => do
      let a ← parseOctet a
      let b ← parseOctet b
      let c ← parseOctet c
      let d ← parseOctet d
      pure (a, b, c, d)
  | _ => none

/-! ## Compiling -/

/-- The numbers of an address and a prefix length, `(address & mask, address & mask | !mask)`. -/
def networkRange (address : Octets) (length : Nat) : AddressRange :=
  let mask := UInt32.ofNat (2 ^ 32 - 1) <<< UInt32.ofNat (32 - length)
  let first := u32OfOctets address &&& mask
  ⟨first, first ||| ~~~mask, ()⟩

def parseNetwork : Option AddressRange := do
  let value := trim value
  let (address, length) ←
    match splitOnce '/' value with
    | some (address, length) => (parseU8 length).map fun length => (address, length)
    | none => some (value, 32)
  let address ← parseIpv4 address
  if minPrefix ≤ length ∧ length ≤ 32 then some (networkRange address length) else none

/-- A character of a label: an ASCII letter or digit, a hyphen or an underscore. -/
def isLabelChar (c : Char) : Bool := c.isAlphanum || c == '-' || c == '_'

/-- The checks `parse_domain` makes of a name. -/
def validName (name : Text) : Bool :=
  name ≠ [] && utf8Len name ≤ 253 &&
    (name.splitOn '.').all fun label => label ≠ [] && utf8Len label ≤ 63 && label.all isLabelChar

/-- `parse_domain`: a name and whether it covers subdomains. -/
def parseDomain : Option (Text × Bool) :=
  let value := (trimEndMatches (· == '.') (trim value)).map Char.toLower
  let parsed :=
    match value with
    | '*' :: '.' :: name => (name, true)
    | value => (value, false)
  if validName parsed.1 then some parsed else none

/-- One turn of the loop of `merge`; the merged ranges are held with the last one first. -/
def mergeRange (merged : List AddressRange) (range : AddressRange) : List AddressRange :=
  match merged with
  | [] => [range]
  | previous :: rest =>
    if range.first ≤ saturatingAdd previous.last 1 then
      { previous with last := max previous.last range.last } :: rest
    else range :: previous :: rest

def merge (ranges : List AddressRange) : List AddressRange :=
  let sorted := ranges.insertionSort fun r r' =>
    r.first < r'.first ∨ (r.first = r'.first ∧ r.last ≤ r'.last)
  (sorted.foldl mergeRange []).reverse

namespace DirectList

variable (list : DirectList)

/-- A domain is put with the suffixes or with the exact names, or skipped. -/
def addDomain (domain : Text) : DirectList :=
  match parseDomain domain with
  | some (name, true) => { list with suffixes := insert name list.suffixes }
  | some (name, false) => { list with exact := insert name list.exact }
  | none => { list with skipped := list.skipped + 1 }

def compile (spec : DirectSpec) : DirectList :=
  let parsed := (spec.networks.take maxNetworks).map parseNetwork
  let list : DirectList :=
    ⟨merge (parsed.filterMap id), ∅, ∅,
      parsed.countP Option.isNone + (spec.networks.length - maxNetworks)⟩
  let list := (spec.domains.take maxDomains).foldl addDomain list
  { list with skipped := list.skipped + (spec.domains.length - maxDomains) }

def hasDomains : Bool := list.exact ≠ ∅ || list.suffixes ≠ ∅

/-- The index of the last range that starts at or before an address, one more than it. -/
def rangesUpTo (address : UInt32) : Nat :=
  partitionPoint (fun r => decide (r.first ≤ address)) list.ranges

def contains (address : Octets) : Bool :=
  match list.rangesUpTo (u32OfOctets address) with
  | 0 => false
  | index + 1 =>
    match list.ranges[index]? with
    | none => false
    | some range => u32OfOctets address ≤ range.last

/-- What follows each dot of a name. -/
def afterDots : Text → List Text
  | [] => []
  | c :: rest => if c = '.' then rest :: afterDots rest else afterDots rest

def matchesName (name : Text) : Bool :=
  name ∈ list.exact || name ∈ list.suffixes || (afterDots name).any (· ∈ list.suffixes)

def exclude (address : Octets) : DirectList :=
  let address := u32OfOctets address
  match list.rangesUpTo address with
  | 0 => list
  | index + 1 =>
    match list.ranges[index]? with
    | none => list
    | some range =>
      if address > range.last then list
      else
        let before :=
          if range.first < address then [⟨range.first, address - 1, ()⟩] else []
        let after := if address < range.last then [⟨address + 1, range.last, ()⟩] else []
        { list with
          ranges := list.ranges.take index ++ (before ++ after) ++ list.ranges.drop (index + 1) }

/-- `compile` of `direct_routes.rs`: the list without the addresses that must stay in the tunnel. -/
def compileFor (spec : DirectSpec) (protectedAddresses : List Octets) : DirectList :=
  protectedAddresses.foldl exclude (compile spec)

/-! ### Prefixes -/

/-- A route's destination and prefix length. -/
abbrev Prefix := Octets × Nat

/-- `u64::trailing_zeros` of a positive number below `2 ^ 32`. -/
def trailingZeros (n : Nat) : Nat := ((List.range 32).find? fun i => n.testBit i).getD 32

/-- `Ipv4Addr::from(start as u32)`. -/
def octetsOfU32 (n : Nat) : Octets :=
  (UInt8.ofNat (n / 2 ^ 24), UInt8.ofNat (n / 2 ^ 16), UInt8.ofNat (n / 2 ^ 8), UInt8.ofNat n)

/-- How many low bits the next block leaves free: as the start is aligned, and as the range has room
for (`63 - leading_zeros` is the logarithm). -/
def blockBits (start last : Nat) : Nat :=
  min (if start = 0 then 32 else trailingZeros start) (Nat.log2 (last - start + 1))

/-- The loop of `prefixes` over one range. Every block has an address, so the number of addresses
left is fuel enough. -/
def blocks : Nat → Nat → Nat → List Prefix
  | 0, _, _ => []
  | fuel + 1, start, last =>
    if start ≤ last then
      (octetsOfU32 start, 32 - blockBits start last) ::
        blocks fuel (start + 2 ^ blockBits start last) last
    else []

def prefixes : List Prefix :=
  list.ranges.flatMap fun range =>
    blocks (range.last.toNat + 1 - range.first.toNat) range.first.toNat range.last.toNat

end DirectList

end GamePath.Engine.Direct
