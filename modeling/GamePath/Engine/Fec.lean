import GamePath.Lib.Run
import GamePath.Engine.Basic

/-!
# Loss repair

`engine/src/fec.rs`: the encoder that XORs small groups of sent packets into repairs, the format of
a repair, and the decoder that rebuilds a lost packet from a repair and the members that arrived.

Arrays are lists here: `offsets` has `maxGroup` bytes, a repair's `members` are the used part of the
array, and `recent` is empty or has `recentCapacity` slots. The counters of the decoder do not wrap.
-/

namespace GamePath.Engine.Fec

open Lib

def maxGroup : Nat := 4

def groupMaxAge : Nat := millis 5

def version : UInt8 := 1

def maxSpan : UInt64 := 255

def lengthPrefix : Nat := 2

def recentCapacity : Nat := 512

def pendingCapacity : Nat := 32

def pendingMaxAge : Nat := millis 500

/-- `u64::to_be_bytes`. -/
def u64ToBe (n : UInt64) : Bytes := BigEndian.toBytes 8 n.toNat

/-- `u64::from_be_bytes`. -/
def u64OfBe (bytes : Bytes) : UInt64 := UInt64.ofNat (BigEndian.ofBytes bytes)

theorem u64OfBe_u64ToBe (n : UInt64) : u64OfBe (u64ToBe n) = n := by
  have hlt : n.toNat < 256 ^ 8 := n.toNat_lt
  rw [u64OfBe, u64ToBe, BigEndian.ofBytes_toBytes, Nat.mod_eq_of_lt hlt]
  exact UInt64.ofNat_toNat

/-- The loop of `xor_member`: XORs the packet over the bytes it meets, the rest stays. -/
def xorOver : Bytes → Bytes → Bytes
  | byte :: bytes, source :: sources => (byte ^^^ source) :: xorOver bytes sources
  | bytes, _ => bytes

def xorMember (parity packet : Bytes) : Bytes :=
  let needed := lengthPrefix + packet.length
  let parity :=
    if parity.length < needed then parity ++ List.replicate (needed - parity.length) 0 else parity
  let length := BigEndian.toBytes 2 packet.length
  xorOver (parity.take lengthPrefix) length ++ xorOver (parity.drop lengthPrefix) packet

/-! ## The encoder -/

/-- Builds repairs for packets as they are sent. -/
structure Encoder where
  groupSize : Nat
  maxPacket : Nat
  base : UInt64
  offsets : List UInt8
  count : Nat
  parity : Bytes
  openedAt : Option Instant

/-- `usize::from(group_size).clamp(1, MAX_GROUP)`. -/
def clampGroup (groupSize : UInt8) : Nat := min (max groupSize.toNat 1) maxGroup

/-- `max_packet.min(usize::from(u16::MAX))`. -/
def clampPacket (maxPacket : Nat) : Nat := min maxPacket 65535

namespace Encoder

def new (groupSize : UInt8) (maxPacket : Nat) : Encoder where
  groupSize := clampGroup groupSize
  maxPacket := clampPacket maxPacket
  base := 0
  offsets := List.replicate maxGroup 0
  count := 0
  parity := []
  openedAt := none

variable (e : Encoder)

def deadline : Option Instant := e.openedAt.map fun opened => opened + groupMaxAge

def expired (now : Instant) : Bool :=
  match e.deadline with
  | some deadline => decide (deadline ≤ now)
  | none => false

/-- The member the open group ends with, as `can_join` computes it. -/
def last : UInt64 := e.base + (e.offsets.getD (e.count - 1) 0).toUInt64

def canJoin (sequence : UInt64) (now : Instant) : Bool :=
  decide (e.count < e.groupSize) && decide (e.last < sequence) &&
    decide (sequence - e.base ≤ maxSpan) && !e.expired now

/-- The repair of the open group. -/
def repair : Bytes :=
  version :: (u64ToBe e.base ++
    UInt8.ofNat e.count :: ((e.offsets.take e.count).drop 1 ++ e.parity))

def close : Encoder × Option Bytes :=
  -- `offsets` and `base` stay as they are, `count` says how much of them is in use.
  if e.count = 0 then (e, none)
  else ({ e with count := 0, parity := [], openedAt := none }, some e.repair)

/-- Whether `push` leaves a packet unprotected. -/
def leavesOut (packet : Bytes) : Bool :=
  packet.isEmpty || decide (e.maxPacket < packet.length)

/-- The part of `push` that opens a group for a packet when none is open. -/
def openFor (sequence : UInt64) (now : Instant) : Encoder :=
  if e.count = 0 then { e with base := sequence, openedAt := some now } else e

/-- The part of `push` that adds a packet to the open group. -/
def join (sequence : UInt64) (packet : Bytes) : Encoder :=
  { e with
    offsets := e.offsets.set e.count (sequence - e.base).toUInt8
    count := e.count + 1
    parity := xorMember e.parity packet }

def push (sequence : UInt64) (packet : Bytes) (now : Instant) :
    Encoder × Option Bytes :=
  if e.leavesOut packet then (e, none)
  else
    -- The group that was open is closed first, so the repair returned is never of this packet.
    let closed := if decide (0 < e.count) && !e.canJoin sequence now then e.close else (e, none)
    ((closed.1.openFor sequence now).join sequence packet, closed.2)

def setMaxPacket (maxPacket : Nat) : Encoder :=
  { e with maxPacket := clampPacket maxPacket }

def setGroupSize (groupSize : UInt8) : Encoder × Option Bytes :=
  -- A change closes the open group under the size it was opened with.
  if clampGroup groupSize = e.groupSize then (e, none)
  else { e with groupSize := clampGroup groupSize }.close

def flushDue (now : Instant) : Encoder × Option Bytes :=
  if e.expired now then e.close else (e, none)

/-- One call on the encoder. -/
inductive Op where
  | push (sequence : UInt64) (packet : Bytes) (now : Instant)
  | setGroupSize (groupSize : UInt8)
  | setMaxPacket (maxPacket : Nat)
  | flushDue (now : Instant)

/-- One call, with the repair it returns. -/
def step : Op → Encoder × Option Bytes
  | .push sequence packet now => e.push sequence packet now
  | .setGroupSize groupSize => e.setGroupSize groupSize
  | .setMaxPacket maxPacket => (e.setMaxPacket maxPacket, none)
  | .flushDue now => e.flushDue now

end Encoder

/-! ## Repairs -/

/-- A parsed repair. -/
structure Repair where
  members : List UInt64
  parity : Bytes
  receivedAt : Instant

namespace Repair

/-- The loop of `Repair::parse`: members have to grow, and none may overflow. -/
def parseMembers (base : UInt64) : UInt64 → List UInt8 → Option (List UInt64)
  | _, [] => some []
  | last, offset :: offsets =>
    if 2 ^ 64 ≤ base.toNat + offset.toNat then none
    else
      -- `checked_add` has ruled the overflow out.
      let member := base + offset.toUInt64
      if member ≤ last then none
      else (parseMembers base member offsets).map fun members => member :: members

def parse (payload : Bytes) (now : Instant) : Option Repair :=
  match payload with
  | [] => none
  | head :: rest =>
    if head ≠ version ∨ rest.length < 9 then none
    else
      let base := u64OfBe (rest.take 8)
      let count := (rest.getD 8 0).toNat
      if count = 0 ∨ maxGroup < count then none
      else if rest.length < 9 + count - 1 then none
      else
        let offsets := (rest.drop 9).take (count - 1)
        let parity := rest.drop (9 + count - 1)
        if parity.length ≤ lengthPrefix then none
        else (parseMembers base base offsets).map fun members => ⟨base :: members, parity, now⟩

/-- The members that have not been delivered. -/
def lost (repair : Repair) (delivered : UInt64 → Bool) : List UInt64 :=
  repair.members.filter fun member => !delivered member

def missing (repair : Repair) (delivered : UInt64 → Bool) : Nat := (repair.lost delivered).length

end Repair

/-! ## The decoder -/

/-- Rebuilds lost packets from repairs and the packets that did arrive. -/
structure Decoder where
  recent : List (UInt64 × Bytes)
  pending : List Repair
  storing : Bool
  repairsReceived : Nat
  unrecoverable : Nat

/-- The slot a sequence is kept in. -/
def slotOf (sequence : UInt64) : Nat := sequence.toNat % recentCapacity

/-- `Vec::swap_remove` without the element it returns. -/
def swapRemove {α : Type} (xs : List α) (i : Nat) : List α :=
  match xs.getLast? with
  | some last => (xs.set i last).dropLast
  | none => []

namespace Decoder

def default : Decoder := ⟨[], [], false, 0, 0⟩

variable (d : Decoder)

def remember (sequence : UInt64) (packet : Bytes) : Decoder :=
  if d.storing then
    let recent := if d.recent.isEmpty then List.replicate recentCapacity (0, []) else d.recent
    { d with recent := recent.set (slotOf sequence) (sequence, packet) }
  else d

def stored (d : Decoder) (sequence : UInt64) : Option Bytes :=
  match d.recent[slotOf sequence]? with
  | some (stored, packet) =>
    -- An empty slot is a packet of no bytes: sequence 0 would match it otherwise.
    if stored = sequence ∧ packet.isEmpty = false then some packet else none
  | none => none

/-- The loop of `rebuild`: XORs the other members out of the parity. -/
def xorOut (d : Decoder) : List UInt64 → Bytes → Option Bytes
  | [], parity => some parity
  | member :: members, parity =>
    match d.stored member with
    | none => none
    | some packet =>
      -- A member longer than the parity cannot have been part of it.
      if parity.length < lengthPrefix + packet.length then none
      else d.xorOut members (xorMember parity packet)

/-- The end of `rebuild`: the packet a parity starts with, by its length prefix. -/
def unwrap (parity : Bytes) : Option Bytes :=
  let length := BigEndian.ofBytes (parity.take lengthPrefix)
  if length = 0 ∨ parity.length < lengthPrefix + length then none
  else some ((parity.take (lengthPrefix + length)).drop lengthPrefix)

def rebuild (repair : Repair) (lost : UInt64) : Option Bytes :=
  (d.xorOut (repair.members.filter fun member => decide (member ≠ lost)) repair.parity).bind unwrap

/-- Keeps a repair that misses more than one member, dropping the oldest when there is no room. -/
def postpone (repair : Repair) : Decoder :=
  if pendingCapacity ≤ d.pending.length then
    { d with
      pending := d.pending.drop 1 ++ [repair]
      unrecoverable := d.unrecoverable + 1 }
  else { d with pending := d.pending ++ [repair] }

def resolve (repair : Repair) (delivered : UInt64 → Bool) :
    Decoder × Option (UInt64 × Bytes) :=
  match repair.lost delivered with
  | [] => (d, none)
  | [lost] =>
    match d.rebuild repair lost with
    | some packet => (d, some (lost, packet))
    | none => ({ d with unrecoverable := d.unrecoverable + 1 }, none)
  -- One more arrival may make this one repairable.
  | _ :: _ :: _ => (d.postpone repair, none)

def acceptRepair (payload : Bytes) (now : Instant) (delivered : UInt64 → Bool) :
    Decoder × Option (UInt64 × Bytes) :=
  match Repair.parse payload now with
  | none => (d, none)
  | some repair =>
    { d with
      repairsReceived := d.repairsReceived + 1
      storing := d.storing || decide (1 < repair.members.length) }.resolve repair delivered

def hasPending : Bool := !d.pending.isEmpty

/-- The housekeeping of `retry_pending`: repairs that waited too long and repairs with nothing left
to rebuild go. -/
def prune (now : Instant) (delivered : UInt64 → Bool) : Decoder :=
  -- A repair with nothing left to rebuild is not counted as lost, however old it is.
  let kept := d.pending.filter fun repair =>
    decide (now - repair.receivedAt < pendingMaxAge) || decide (repair.missing delivered = 0)
  { d with
    pending := kept.filter fun repair => decide (0 < repair.missing delivered)
    unrecoverable := d.unrecoverable + (d.pending.length - kept.length) }

def retryPending (now : Instant) (delivered : UInt64 → Bool) :
    Decoder × Option (UInt64 × Bytes) :=
  let d := d.prune now delivered
  match d.pending.findIdx? fun repair => decide (repair.missing delivered = 1) with
  | none => (d, none)
  | some ready =>
    match d.pending[ready]? with
    | none => (d, none)
    | some repair =>
      { d with pending := swapRemove d.pending ready }.resolve repair delivered

end Decoder

/-! ## Offers -/

structure Offer where
  groupSize : UInt8
  mtu : UInt16

/-- `OFFER`. -/
def offerTag : Bytes := [0x66, 0x65, 0x63, 0x71]

/-- `ACCEPT`. -/
def acceptTag : Bytes := [0x66, 0x65, 0x63, 0x61]

def control (tag : Bytes) (groupSize : UInt8) : Bytes := tag ++ [version, groupSize]

def accept (groupSize : UInt8) : Bytes := control acceptTag groupSize

def parseControl (tag : Bytes) (payload : Bytes) : Option UInt8 :=
  match payload with
  | [a, b, c, d, v, group] =>
    if [a, b, c, d] = tag ∧ v = version ∧ 1 ≤ group.toNat ∧ group.toNat ≤ maxGroup then some group
    else none
  | _ => none

def parseOffer (payload : Bytes) : Option Offer :=
  match payload.drop 6 with
  | [hi, lo] =>
    (parseControl offerTag (payload.take 6)).map fun groupSize => ⟨groupSize, u16OfBe hi lo⟩
  | _ => none

end GamePath.Engine.Fec
