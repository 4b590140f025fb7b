import GamePath.Engine.FecRepair

/-!
# Coverage and size of repairs

Over every run of the encoder: the packets it protects go into groups in the order they were pushed,
each into exactly one, and a group leaves whole in one repair (`repair_coverage`). `Emitted.Sound`
says what holds of a repair that leaves: its members, their span and age, and its length.

The operations of `Encoder` wrap where the source's would overflow. `stepChecked` has no result
there; it is `step` in every state of a run (`stepChecked_eq`).
-/

namespace GamePath.Engine.Fec

open Lib List
open Encoder (close flushDue openFor setGroupSize)
open Encoder (canJoin deadline expired leavesOut repair)

def repairHeaderMax : Nat := 1 + 8 + 1 + (maxGroup - 1) + 2

/-! ## Checked arithmetic -/

namespace Encoder

/-- `can_join`, without a result where its arithmetic overflows or an index is out of range. -/
def canJoinChecked (e : Encoder) (sequence : UInt64) (now : Instant) : Option Bool := do
  guard (1 ≤ e.count)
  let offset ← e.offsets[e.count - 1]?
  guard (e.base.toNat + offset.toNat < 2 ^ 64)
  let last := e.base + offset.toUInt64
  if e.count < e.groupSize ∧ last < sequence then
    guard (e.base ≤ sequence)
    some (decide (sequence - e.base ≤ maxSpan) && !e.expired now)
  else some false

/-- `close`, without a result where the count is truncated or the slice is out of range. -/
def closeChecked (e : Encoder) : Option (Encoder × Option Bytes) :=
  if e.count = 0 then some (e, none)
  else do
    guard (e.count ≤ 255)
    guard (1 ≤ e.count ∧ e.count ≤ e.offsets.length)
    some e.close

/-- `push`, without a result where the offset or the packet's length is truncated, the subtraction
overflows or an index is out of range. -/
def pushChecked (e : Encoder) (sequence : UInt64) (packet : Bytes) (now : Instant) :
    Option (Encoder × Option Bytes) :=
  if e.leavesOut packet then some (e, none)
  else do
    let joins ← if 0 < e.count then e.canJoinChecked sequence now else some true
    let closed ← if 0 < e.count ∧ joins = false then e.closeChecked else some (e, none)
    let e := closed.1.openFor sequence now
    guard (e.base ≤ sequence)
    guard ((sequence - e.base).toNat ≤ 255)
    guard (e.count < e.offsets.length)
    guard (packet.length ≤ 65535)
    some (e.join sequence packet, closed.2)

/-- One call in checked arithmetic. -/
def stepChecked (e : Encoder) : Op → Option (Encoder × Option Bytes)
  | .push sequence packet now => e.pushChecked sequence packet now
  | .setGroupSize groupSize =>
    if clampGroup groupSize = e.groupSize then some (e, none)
    else { e with groupSize := clampGroup groupSize }.closeChecked
  | .setMaxPacket maxPacket => some (e.setMaxPacket maxPacket, none)
  | .flushDue now => if e.expired now then e.closeChecked else some (e, none)

end Encoder

theorem guard_of {p : Prop} [Decidable p] (h : p) : (guard p : Option Unit) = some () :=
  if_pos h

variable {e : Encoder}

theorem closeChecked_eq (hcount : e.count ≤ maxGroup) (hslots : e.offsets.length = maxGroup) :
    e.closeChecked = some e.close := by
  rw [Encoder.closeChecked]
  by_cases hzero : e.count = 0
  · rw [if_pos hzero, close, if_pos hzero]
  · have hfour : maxGroup = 4 := rfl
    have hbyte : e.count ≤ 255 := by omega
    have hslice : 1 ≤ e.count ∧ e.count ≤ e.offsets.length := ⟨by omega, by omega⟩
    rw [if_neg hzero, guard_of hbyte, guard_of hslice]
    rfl

variable {group : List Sent}

theorem base_le_last {sent : Sent} (h : Tracks e (group ++ [sent])) : e.base ≤ e.last := by
  rw [last_eq h]
  exact UInt64.le_iff_toNat_le.2 (h.span sent (by simp)).1

theorem canJoinChecked_eq (h : Tracks e group) (hne : group ≠ []) (sequence : UInt64)
    (now : Instant) :
    e.canJoinChecked sequence now = some (e.canJoin sequence now) := by
  obtain ⟨init, last, rfl⟩ := eq_nil_or_concat group |>.resolve_left hne
  rw [concat_eq_append] at h
  have hcount : e.count = init.length + 1 := by rw [h.count]; simp
  have hget : e.offsets[e.count - 1]? = some (offsetOf e.base last.1) := by
    have htake : (e.offsets.take e.count)[e.count - 1]? = e.offsets[e.count - 1]? :=
      getElem?_take_of_lt (by omega)
    rw [← htake, h.offsets, hcount]
    simp
  have hspan := h.span last (by simp)
  -- The offset leads back to the last member, so the sum is a sequence.
  have hsum : e.base.toNat + (offsetOf e.base last.1).toNat < 2 ^ 64 := (base_add_offsetOf hspan).1
  have hlast : e.base + (offsetOf e.base last.1).toUInt64 = e.last := by
    rw [Encoder.last, getD_eq_getElem?_getD, hget]
    rfl
  have hpositive : 1 ≤ e.count := by omega
  rw [Encoder.canJoinChecked, guard_of hpositive, hget]
  dsimp only [Option.bind_eq_bind, Option.bind_some]
  rw [guard_of hsum, hlast, canJoin]
  by_cases habove : e.count < e.groupSize ∧ e.last < sequence
  · have hbase : e.base ≤ sequence :=
      UInt64.le_of_lt (UInt64.lt_of_le_of_lt (base_le_last h) habove.2)
    rw [if_pos habove, guard_of hbase, decide_eq_true habove.1, decide_eq_true habove.2]
    rfl
  · rw [if_neg habove]
    have hfalse : (decide (e.count < e.groupSize) && decide (e.last < sequence)) = false := by
      rw [← Bool.decide_and, decide_eq_false habove]
    rw [hfalse]
    rfl

/-- The part of `push` that adds the packet, in checked arithmetic: the group it is added to tracks
the encoder before and after. -/
theorem join_checked {sent : Sent} (h : Tracks (e.join sent.1 sent.2) (group ++ [sent]))
    (hslots : e.offsets.length = maxGroup) (closed : Option Bytes) :
    (do
      guard (e.base ≤ sent.1)
      guard ((sent.1 - e.base).toNat ≤ 255)
      guard (e.count < e.offsets.length)
      guard (sent.2.length ≤ 65535)
      some (e.join sent.1 sent.2, closed) : Option (Encoder × Option Bytes)) =
      some (e.join sent.1 sent.2, closed) := by
  have hspan : InSpan e.base sent.1 := h.span sent (by simp)
  have hbase : e.base ≤ sent.1 := UInt64.le_iff_toNat_le.2 hspan.1
  have hoffset : (sent.1 - e.base).toNat ≤ 255 := by
    rw [UInt64.toNat_sub_of_le _ _ hbase]
    exact hspan.2
  have hslot : e.count < e.offsets.length := by
    have hroom : e.count + 1 ≤ e.groupSize := h.room
    have hsize : e.groupSize ≤ maxGroup := h.size.2
    omega
  rw [guard_of hbase, guard_of hoffset, guard_of hslot, guard_of (h.sendable sent (by simp)).2]
  rfl

theorem pushChecked_eq (h : Tracks e group) (sequence : UInt64) (packet : Bytes) (now : Instant) :
    e.pushChecked sequence packet now = some (e.push sequence packet now) := by
  rw [Encoder.pushChecked, Encoder.push]
  cases hout : e.leavesOut packet with
  | true => rfl
  | false =>
    rw [if_neg Bool.false_ne_true, if_neg Bool.false_ne_true]
    have hsend : Sendable (sequence, packet) := sendable_of_leavesOut h hout
    by_cases hne : group = []
    · -- No group is open: the packet opens one.
      subst hne
      have hcount : e.count = 0 := h.count
      have hslots : (e.openFor sequence now).offsets.length = maxGroup := by
        rw [openFor, if_pos hcount]
        exact h.slots
      have hjoined := @join_open_spec (sequence, packet) _ h now hsend
      rw [hcount]
      exact @join_checked _ [] (sequence, packet) hjoined hslots none
    have hpos : 0 < e.count := by
      rw [h.count]
      exact length_pos_iff.2 hne
    rw [if_pos hpos, canJoinChecked_eq h hne, decide_eq_true hpos]
    dsimp only [Option.bind_eq_bind, Option.bind_some]
    cases hjoin : e.canJoin sequence now with
    | true =>
      have hopen : e.openFor sequence now = e := if_neg (Nat.pos_iff_ne_zero.1 hpos)
      have hjoined := @join_inside_spec group (sequence, packet) e h hne now hjoin hsend
      rw [if_neg (by simp), if_neg (by simp)]
      rw [hopen]
      exact join_checked hjoined h.slots none
    | false =>
      -- The group closes, and the packet opens the next one.
      have hempty := (close_spec h).1
      have hopened : (e.close.1.openFor sequence now).offsets.length = maxGroup := by
        rw [openFor]
        split <;> exact hempty.slots
      have hjoined := @join_open_spec (sequence, packet) _ hempty now hsend
      rw [if_pos ⟨hpos, rfl⟩, closeChecked_eq (h.room.trans h.size.2) h.slots]
      exact @join_checked _ [] (sequence, packet) hjoined hopened e.close.2

theorem stepChecked_eq (h : Tracks e group) (op : Encoder.Op) :
    e.stepChecked op = some (e.step op) := by
  have hcount := h.room.trans h.size.2
  cases op with
  | push sequence packet now => exact pushChecked_eq h sequence packet now
  | setGroupSize groupSize =>
    show (if _ then _ else _) = some (e.setGroupSize groupSize)
    rw [setGroupSize]
    split
    · rfl
    · exact closeChecked_eq hcount h.slots
  | setMaxPacket maxPacket => rfl
  | flushDue now =>
    show (if _ then _ else _) = some (e.flushDue now)
    rw [flushDue]
    split
    · exact closeChecked_eq hcount h.slots
    · rfl

/-! ## Runs with a clock -/

/-- A packet that was pushed, and when. -/
abbrev Pushed := Sent × Instant

/-- An encoder with the packets pushed into its open group, and when. -/
structure Clocked where
  encoder : Encoder
  group : List Pushed

/-- A repair that left: its bytes, the packets it covers, and the group size in force. -/
structure Emitted where
  payload : Bytes
  members : List Pushed
  size : Nat

namespace Clocked

/-- Without the clock. -/
def traced (t : Clocked) : Traced := ⟨t.encoder, t.group.map Prod.fst⟩

/-- The open group after a call, as `groupAfter` has it. -/
def groupAfter (t : Clocked) : Encoder.Op → List Pushed
  | .push sequence packet now =>
    if t.encoder.leavesOut packet then t.group
    else if (t.encoder.push sequence packet now).2.isSome then [((sequence, packet), now)]
    else t.group ++ [((sequence, packet), now)]
  | op => if (t.encoder.step op).2.isSome then [] else t.group

/-- One call: the repair it returns covers the group that was open before it. -/
def step (t : Clocked) (op : Encoder.Op) : Clocked × Option Emitted :=
  (⟨(t.encoder.step op).1, t.groupAfter op⟩,
    (t.encoder.step op).2.map fun payload => ⟨payload, t.group, t.encoder.groupSize⟩)

/-- The calls that close the open group: a protected packet that finds it full or too old, or is not
after its last member or too far from its first; a change of the group size; and a flush of a group
that is too old. -/
def Closes (t : Clocked) : Encoder.Op → Prop
  | .push sequence packet now =>
    (packet ≠ [] ∧ packet.length ≤ t.encoder.maxPacket) ∧ ∃ first ∈ t.group.head?,
      ∃ last ∈ t.group.getLast?, t.encoder.groupSize ≤ t.group.length ∨ sequence ≤ last.1.1 ∨
        first.1.1.toNat + maxSpan.toNat < sequence.toNat ∨ first.2 + groupMaxAge ≤ now
  | .setGroupSize groupSize => t.group ≠ [] ∧ clampGroup groupSize ≠ t.encoder.groupSize
  | .setMaxPacket _ => False
  | .flushDue now => ∃ first ∈ t.group.head?, first.2 + groupMaxAge ≤ now

theorem traced_groupAfter (t : Clocked) (op : Encoder.Op) :
    (t.groupAfter op).map Prod.fst = Fec.groupAfter t.traced op := by
  cases op with
  | push sequence packet now =>
    rw [groupAfter, Fec.groupAfter, traced]
    split
    · rfl
    · split
      · rfl
      · rw [map_append]
        rfl
  | setGroupSize | flushDue =>
    show (if _ then _ else _ : List Pushed).map Prod.fst = if _ then _ else _
    rw [apply_ite (List.map Prod.fst)]
    rfl
  | setMaxPacket maxPacket => rfl

/-- The encoder describes the open group, and the group is not older than it may be. -/
structure Kept (t : Clocked) : Prop where
  tracks : Tracks t.encoder (t.group.map Prod.fst)
  opened : t.encoder.openedAt = t.group.head?.map Prod.snd
  young : ∀ first ∈ t.group.head?, ∀ m ∈ t.group, m.2 < first.2 + groupMaxAge

end Clocked

theorem length_parityOf (hne : group ≠ []) :
    ∃ sent ∈ group, (parityOf group).length = lengthPrefix + sent.2.length := by
  induction group using List.reverseRecOn with
  | nil => exact absurd rfl hne
  | append_singleton group sent ih =>
    rw [parityOf_concat, xorMember_eq_merge, XorParity.length_merge, length_prefixed]
    by_cases hgroup : group = []
    · subst hgroup
      refine ⟨sent, by simp, ?_⟩
      show max 0 _ = _
      omega
    · obtain ⟨longest, hmem, hlength⟩ := ih hgroup
      rcases Nat.le_total sent.2.length longest.2.length with hle | hle
      · exact ⟨longest, mem_append_left _ hmem, by omega⟩
      · exact ⟨sent, by simp, by omega⟩

/-- What holds of a repair that leaves. -/
structure Emitted.Sound (em : Emitted) : Prop where
  stands : Stands em.payload (em.members.map Prod.fst)
  count : 1 ≤ em.members.length ∧ em.members.length ≤ em.size
  increasing : (em.members.map fun m => m.1.1).Pairwise (· < ·)
  span : ∀ m ∈ em.members, ∀ m' ∈ em.members, m.1.1.toNat - m'.1.1.toNat ≤ maxSpan.toNat
  age : ∀ first ∈ em.members.head?, ∀ m ∈ em.members, m.2 < first.2 + groupMaxAge
  length : ∃ m ∈ em.members, em.payload.length ≤ repairHeaderMax + m.1.2.length

theorem length_repair (h : Tracks e group) (hne : group ≠ []) :
    ∃ sent ∈ group, e.repair.length ≤ repairHeaderMax + sent.2.length := by
  obtain ⟨sent, hmem, hlength⟩ := length_parityOf hne
  refine ⟨sent, hmem, ?_⟩
  have hprefix : lengthPrefix = 2 := rfl
  rw [repair, length_cons, length_append, u64ToBe, BigEndian.length_toBytes, length_cons,
    length_append, length_drop, length_take, h.slots, h.parity, repairHeaderMax]
  omega

variable {t : Clocked}

theorem sound_repair (h : t.Kept) (hne : t.group ≠ []) :
    Emitted.Sound ⟨t.encoder.repair, t.group, t.encoder.groupSize⟩ where
  stands := stands_repair h.tracks (by simpa using hne)
  count := by
    have hcount := h.tracks.count
    rw [length_map] at hcount
    refine ⟨length_pos_iff.2 hne, ?_⟩
    rw [← hcount]
    exact h.tracks.room
  increasing := by
    have hordered := h.tracks.ordered
    rw [map_map] at hordered
    exact hordered
  span := by
    intro m hm m' hm'
    have hspan := h.tracks.span m.1 (mem_map_of_mem hm)
    have hspan' := h.tracks.span m'.1 (mem_map_of_mem hm')
    obtain ⟨-, hupper⟩ := hspan
    obtain ⟨hlower, -⟩ := hspan'
    show _ ≤ 255
    omega
  age := h.young
  length := by
    obtain ⟨sent, hmem, hlength⟩ := length_repair h.tracks (by simpa using hne)
    obtain ⟨m, hm, rfl⟩ := mem_map.1 hmem
    exact ⟨m, hm, hlength⟩

/-! ## What each call keeps -/

theorem openedAt_close (h : t.Kept) : t.encoder.close.1.openedAt = none := by
  rw [close]
  split
  next hzero =>
    have hcount := h.tracks.count
    rw [hzero, length_map, eq_comm, length_eq_zero_iff] at hcount
    rw [h.opened, hcount]
    rfl
  · rfl

/-- What `push` does to a packet that is not left out: it joins the open group, which is young
enough, or opens the next one. -/
theorem push_cases (h : t.Kept) (sequence : UInt64) (packet : Bytes) (now : Instant)
    (hin : t.encoder.leavesOut packet = false) :
    (t.group ≠ [] ∧ (t.encoder.push sequence packet now).2 = none ∧
      (t.encoder.push sequence packet now).1.openedAt = t.encoder.openedAt ∧
      t.encoder.expired now = false) ∨
    ((t.encoder.push sequence packet now).1.openedAt = some now ∧
      ((t.encoder.push sequence packet now).2.isSome = false → t.group = [])) := by
  have hcount : t.encoder.count = t.group.length := by
    rw [h.tracks.count, length_map]
  rw [Encoder.push, if_neg (by rw [hin]; exact Bool.false_ne_true)]
  dsimp only
  by_cases hne : t.group = []
  · -- No group is open.
    have hzero : t.encoder.count = 0 := by rw [hcount, hne]; rfl
    rw [hzero, if_neg (by simp), openFor, if_pos hzero]
    exact .inr ⟨rfl, fun _ => hne⟩
  have hpos : 0 < t.encoder.count := by
    rw [hcount]
    exact length_pos_iff.2 hne
  rw [decide_eq_true hpos]
  cases hjoin : t.encoder.canJoin sequence now with
  | true =>
    rw [if_neg (by simp), openFor, if_neg (Nat.pos_iff_ne_zero.1 hpos)]
    rw [canJoin, Bool.and_eq_true] at hjoin
    exact .inl ⟨hne, rfl, rfl, by simpa using hjoin.2⟩
  | false =>
    have hempty : t.encoder.close.1.count = 0 := (close_spec h.tracks).1.count
    rw [if_pos (by simp), openFor, if_pos hempty]
    refine .inr ⟨rfl, fun hnone => ?_⟩
    rw [close, if_neg (Nat.pos_iff_ne_zero.1 hpos)] at hnone
    cases hnone

theorem kept_push (h : t.Kept) (sequence : UInt64) (packet : Bytes) (now : Instant) :
    (t.encoder.push sequence packet now).1.openedAt =
        (t.groupAfter (.push sequence packet now)).head?.map Prod.snd ∧
      ∀ first ∈ (t.groupAfter (.push sequence packet now)).head?,
        ∀ m ∈ t.groupAfter (.push sequence packet now), m.2 < first.2 + groupMaxAge := by
  -- A packet is younger than itself.
  have halone : ∀ first ∈ [((sequence, packet), now)].head?, ∀ m ∈ [((sequence, packet), now)],
      m.2 < first.2 + groupMaxAge := by
    intro first hfirst m hm
    cases hfirst
    rw [mem_singleton.1 hm]
    exact Nat.lt_add_of_pos_right (by decide)
  rw [Clocked.groupAfter]
  cases hout : t.encoder.leavesOut packet with
  | true =>
    have hpush : t.encoder.push sequence packet now = (t.encoder, none) := if_pos hout
    rw [hpush]
    exact ⟨h.opened, h.young⟩
  | false =>
    rcases push_cases h sequence packet now hout with
      ⟨hne, hnone, hopened, hyoung⟩ | ⟨hopened, hempty⟩
    · -- The packet joins: the first member is the one it was.
      rw [hnone, hopened, h.opened]
      obtain ⟨first, rest, hgroup⟩ := exists_cons_of_ne_nil hne
      rw [hgroup]
      refine ⟨rfl, ?_⟩
      intro first' hfirst m hm
      obtain rfl : first = first' := Option.some.inj hfirst
      rcases mem_snoc.1 hm with hm | rfl
      · exact h.young first (by rw [hgroup]; rfl) m (by rw [hgroup]; exact hm)
      · rw [expired, deadline, h.opened, hgroup] at hyoung
        exact Nat.lt_of_not_le (of_decide_eq_false hyoung)
    · rw [hopened]
      cases hret : (t.encoder.push sequence packet now).2.isSome with
      | true =>
        exact ⟨rfl, halone⟩
      | false =>
        rw [hempty hret]
        exact ⟨rfl, halone⟩

theorem kept_quiet (h : t.Kept) {closed : Option Bytes}
    (hcases : (closed = none ∧ e.openedAt = t.encoder.openedAt) ∨
      (closed = t.encoder.close.2 ∧ e.openedAt = none)) :
    e.openedAt = (if closed.isSome then [] else t.group).head?.map Prod.snd ∧
      ∀ first ∈ (if closed.isSome then [] else t.group).head?,
        ∀ m ∈ if closed.isSome then [] else t.group, m.2 < first.2 + groupMaxAge := by
  rcases hcases with ⟨rfl, hopened⟩ | ⟨rfl, hopened⟩
  · rw [hopened]
    exact ⟨h.opened, h.young⟩
  rcases close_spec h.tracks with ⟨-, ⟨hnil, hret⟩ | ⟨hne, hret⟩⟩
  · rw [hret, hopened]
    rw [map_eq_nil_iff] at hnil
    refine ⟨?_, h.young⟩
    rw [hnil]
    rfl
  · rw [hret, hopened]
    exact ⟨rfl, nofun⟩

theorem Clocked.Kept.step (h : t.Kept) (op : Encoder.Op) : (t.step op).1.Kept := by
  have hstep := @step_spec t.traced h.tracks op
  rw [← Clocked.traced_groupAfter] at hstep
  have hclock : (t.encoder.step op).1.openedAt = (t.groupAfter op).head?.map Prod.snd ∧
      ∀ first ∈ (t.groupAfter op).head?, ∀ m ∈ t.groupAfter op, m.2 < first.2 + groupMaxAge := by
    cases op with
    | push sequence packet now => exact kept_push h sequence packet now
    | setGroupSize groupSize =>
      apply kept_quiet h
      rw [Encoder.step, setGroupSize]
      split
      · exact .inl ⟨rfl, rfl⟩
      · rw [close_resize]
        exact .inr ⟨rfl, openedAt_close h⟩
    | setMaxPacket maxPacket => exact ⟨h.opened, h.young⟩
    | flushDue now =>
      apply kept_quiet h
      rw [Encoder.step, flushDue]
      split
      · exact .inr ⟨rfl, openedAt_close h⟩
      · exact .inl ⟨rfl, rfl⟩
  exact ⟨hstep.tracks, hclock.1, hclock.2⟩

theorem expired_iff (h : t.Kept) (now : Instant) :
    t.encoder.expired now = true ↔ ∃ first ∈ t.group.head?, first.2 + groupMaxAge ≤ now := by
  rw [expired, deadline, h.opened]
  cases t.group.head? with
  | none | some => simp

theorem isSome_close (h : t.Kept) : t.encoder.close.2.isSome = true ↔ t.group ≠ [] := by
  rcases close_spec h.tracks with ⟨-, ⟨hnil, hret⟩ | ⟨hne, hret⟩⟩
  · rw [hret, map_eq_nil_iff.1 hnil]
    simp
  · rw [hret]
    exact iff_of_true rfl fun hnil => hne (by rw [hnil]; rfl)

theorem canJoin_eq_false_iff (h : t.Kept) {init : List Pushed} {first last : Pushed}
    (hfirst : first ∈ t.group.head?)
    (hgroup : t.group = init ++ [last]) (sequence : UInt64) (now : Instant) :
    t.encoder.canJoin sequence now = false ↔ t.encoder.groupSize ≤ t.group.length ∨
      sequence ≤ last.1.1 ∨
      first.1.1.toNat + maxSpan.toNat < sequence.toNat ∨ first.2 + groupMaxAge ≤ now := by
  have hbase : first.1.1 = t.encoder.base :=
    h.tracks.first first.1 (by rw [head?_map]; exact Option.mem_map_of_mem _ hfirst)
  have htracks : Tracks t.encoder (init.map Prod.fst ++ [last.1]) := by
    have htracks := h.tracks
    rwa [hgroup, map_append] at htracks
  have hcount : t.encoder.count = t.group.length := by rw [h.tracks.count, length_map]
  have hexpired : t.encoder.expired now = true ↔ first.2 + groupMaxAge ≤ now := by
    rw [expired_iff h, Option.mem_def.1 hfirst]
    simp
  rw [canJoin, last_eq htracks, hcount, hbase, ← hexpired]
  simp only [Bool.and_eq_false_iff, decide_eq_false_iff_not, Bool.not_eq_false', Nat.not_lt,
    UInt64.not_lt, UInt64.not_le, or_assoc]
  -- The distance is only looked at above the last member, where it does not wrap.
  by_cases habove : sequence ≤ last.1.1
  · simp [habove]
  have hle : t.encoder.base ≤ sequence :=
    UInt64.le_trans (last_eq htracks ▸ base_le_last htracks)
      (UInt64.le_of_lt (UInt64.not_le.1 habove))
  have hspan : maxSpan < sequence - t.encoder.base ↔
      t.encoder.base.toNat + maxSpan.toNat < sequence.toNat := by
    rw [UInt64.lt_iff_toNat_lt, UInt64.toNat_sub_of_le _ _ hle]
    have := UInt64.le_iff_toNat_le.1 hle
    omega
  rw [hspan]

/-- A repair leaves exactly when a call closes the open group. -/
theorem isSome_step (h : t.Kept) (op : Encoder.Op) : (t.step op).2.isSome = true ↔ t.Closes op := by
  rw [Clocked.step, Option.isSome_map]
  cases op with
  | push sequence packet now =>
    have hin : t.encoder.leavesOut packet = false ↔ packet ≠ [] ∧
        packet.length ≤ t.encoder.maxPacket := by
      simp [leavesOut]
    rw [Encoder.step, Encoder.push, Clocked.Closes, ← hin]
    cases t.encoder.leavesOut packet with
    | true => simp
    | false =>
      rcases eq_nil_or_concat t.group with hnil | ⟨init, last, hgroup⟩
      · have hcount : t.encoder.count = 0 := by rw [h.tracks.count, hnil]; rfl
        simp [hnil, hcount]
      rw [concat_eq_append] at hgroup
      have hpos : 0 < t.encoder.count := by rw [h.tracks.count, hgroup]; simp
      obtain ⟨first, hfirst⟩ := Option.isSome_iff_exists.1
        (isSome_head?.2 (by simp [hgroup] : t.group ≠ []))
      have hjoin := canJoin_eq_false_iff h hfirst hgroup sequence now
      have hclose := (isSome_close h).2 (by simp [hgroup])
      have hlast : t.group.getLast? = some last := by simp [hgroup]
      simp only [hfirst, hlast, Option.mem_some, exists_eq_left', ← hjoin, decide_eq_true hpos]
      cases t.encoder.canJoin sequence now <;> simp [hclose]
  | setGroupSize groupSize =>
    rw [Encoder.step, setGroupSize, Clocked.Closes]
    split
    next hsame => simp [hsame]
    next hother => rw [close_resize, isSome_close h, and_iff_left hother]
  | setMaxPacket maxPacket => exact iff_of_false Bool.false_ne_true id
  | flushDue now =>
    rw [Encoder.step, flushDue, Clocked.Closes, ← expired_iff h]
    split
    next hexpired =>
      rw [isSome_close h, iff_true_right hexpired]
      rintro hnil
      obtain ⟨first, hfirst, -⟩ := (expired_iff h now).1 hexpired
      rw [hnil] at hfirst
      cases hfirst
    next hyoung => exact iff_of_false Bool.false_ne_true hyoung

theorem sound_of_step (h : t.Kept) (op : Encoder.Op) {em : Emitted}
    (hem : (t.step op).2 = some em) :
    em.Sound ∧ em.members = t.group := by
  obtain ⟨payload, hpayload, rfl⟩ := Option.map_eq_some_iff.1 hem
  refine ⟨?_, rfl⟩
  have hstands := (@step_spec t.traced h.tracks op).repair payload hpayload
  have hne : t.group ≠ [] := by
    intro hnil
    have hgroup := hstands.1
    rw [Clocked.traced, hnil] at hgroup
    exact hgroup rfl
  -- Every call that returns a repair returns the one of the open group.
  have hrepair : payload = t.encoder.repair := by
    have hclose : ∀ {returned : Option Bytes}, returned = t.encoder.close.2 →
        returned = some payload → payload = t.encoder.repair := by
      rintro returned rfl hreturned
      rcases close_spec h.tracks with ⟨-, ⟨-, hret⟩ | ⟨-, hret⟩⟩
      · rw [hret] at hreturned
        cases hreturned
      · rw [hret] at hreturned
        exact (Option.some.inj hreturned).symm
    cases op with
    | push sequence packet now =>
      rw [Encoder.step, Encoder.push] at hpayload
      split at hpayload
      · cases hpayload
      · split at hpayload
        · exact hclose rfl hpayload
        · cases hpayload
    | setGroupSize groupSize =>
      rw [Encoder.step, setGroupSize] at hpayload
      split at hpayload
      · cases hpayload
      · rw [close_resize] at hpayload
        exact hclose rfl hpayload
    | setMaxPacket maxPacket => cases hpayload
    | flushDue now =>
      rw [Encoder.step, flushDue] at hpayload
      split at hpayload
      · exact hclose rfl hpayload
      · cases hpayload
  rw [hrepair]
  exact sound_repair h hne

/-! ## Coverage -/

/-- The packet a call pushes, if it is protected under the limit in force. -/
def admitted (limit : Nat) : Encoder.Op → List Pushed
  | .push sequence packet now =>
    if packet = [] ∨ limit < packet.length then [] else [((sequence, packet), now)]
  | _ => []

/-- The limit in force after a call. -/
def limitAfter (limit : Nat) : Encoder.Op → Nat
  | .setMaxPacket maxPacket => clampPacket maxPacket
  | _ => limit

/-- The protected packets of a list of calls, in the order they are pushed. -/
def admittedFrom : Nat → List Encoder.Op → List Pushed
  | _, [] => []
  | limit, op :: ops => admitted limit op ++ admittedFrom (limitAfter limit op) ops

/-- The repairs that left, in order. -/
def emissions (log : List (Encoder.Op × Option Emitted)) : List Emitted := log.filterMap Prod.snd

/-- A run of calls on a new encoder, with the clock. -/
def clockedRun (groupSize : UInt8) (maxPacket : Nat) (ops : List Encoder.Op) :
    Run.Config Clocked Encoder.Op (Option Emitted) :=
  Run.exec Clocked.step ⟨Encoder.new groupSize maxPacket, []⟩ ops

theorem maxPacket_close (e : Encoder) : e.close.1.maxPacket = e.maxPacket := by
  rw [close]
  split <;> rfl

theorem maxPacket_step (e : Encoder) (op : Encoder.Op) :
    (e.step op).1.maxPacket = limitAfter e.maxPacket op := by
  cases op with
  | push sequence packet now =>
    show (e.push sequence packet now).1.maxPacket = e.maxPacket
    rw [Encoder.push]
    split
    · rfl
    have hopen : ∀ e' : Encoder, (e'.openFor sequence now).maxPacket = e'.maxPacket := by
      intro e'
      rw [openFor]
      split <;> rfl
    show (openFor _ sequence now).maxPacket = _
    rw [hopen]
    split
    · exact maxPacket_close e
    · rfl
  | setGroupSize groupSize =>
    show (e.setGroupSize groupSize).1.maxPacket = e.maxPacket
    rw [setGroupSize]
    split
    · rfl
    · rw [close_resize]
      exact maxPacket_close e
  | setMaxPacket maxPacket => rfl
  | flushDue now =>
    show (e.flushDue now).1.maxPacket = e.maxPacket
    rw [flushDue]
    split
    · exact maxPacket_close e
    · rfl

theorem handed_on (t : Clocked) (op : Encoder.Op) :
    (t.step op).2.toList.flatMap Emitted.members ++ (t.step op).1.group =
      t.group ++ admitted t.encoder.maxPacket op := by
  have hquiet : ∀ returned : Option Bytes,
      (returned.map fun payload => (⟨payload, t.group, t.encoder.groupSize⟩ :
        Emitted)).toList.flatMap
        Emitted.members ++ (if returned.isSome then [] else t.group) = t.group ++ [] := by
    intro returned
    cases returned with
    | none | some => simp
  cases op with
  | push sequence packet now =>
    show ((t.encoder.push sequence packet now).2.map _).toList.flatMap Emitted.members ++
      t.groupAfter (.push sequence packet now) = _
    rw [Clocked.groupAfter, admitted]
    by_cases hout : t.encoder.leavesOut packet = true
    · have hpush : t.encoder.push sequence packet now = (t.encoder, none) := if_pos hout
      have hlimit : packet = [] ∨ t.encoder.maxPacket < packet.length := by
        rw [leavesOut, Bool.or_eq_true, List.isEmpty_iff, decide_eq_true_iff] at hout
        exact hout
      rw [if_pos hout, if_pos hlimit, hpush]
      simp
    have hlimit : ¬ (packet = [] ∨ t.encoder.maxPacket < packet.length) := by
      rw [leavesOut, Bool.or_eq_true, List.isEmpty_iff, decide_eq_true_iff] at hout
      exact hout
    rw [if_neg hout, if_neg hlimit]
    cases (t.encoder.push sequence packet now).2 with
    | none | some => simp
  | setGroupSize | flushDue => exact hquiet _
  | setMaxPacket maxPacket => exact hquiet none

/-- Over a run nothing is lost and nothing is covered twice: the members of the repairs that left,
and the open group after them, are what was protected. -/
theorem members_execFrom (ops : List Encoder.Op) :
    ∀ c : Run.Config Clocked Encoder.Op (Option Emitted),
      (emissions (Run.execFrom Clocked.step c ops).log).flatMap Emitted.members ++
          (Run.execFrom Clocked.step c ops).state.group =
        (emissions c.log).flatMap Emitted.members ++ c.state.group ++
          admittedFrom c.state.encoder.maxPacket ops := by
  induction ops with
  | nil =>
    intro c
    rw [Run.execFrom_nil, admittedFrom, append_nil]
  | cons op ops ih =>
    intro c
    have hstep := handed_on c.state op
    have hlimit := maxPacket_step c.state.encoder op
    rw [Run.execFrom_cons, ih, Run.advance_state, Run.advance_log]
    have hlog : emissions (c.log ++ [(op, (c.state.step op).2)]) =
        emissions c.log ++ (c.state.step op).2.toList := by
      rw [emissions, filterMap_append]
      cases (c.state.step op).2 with
      | none | some => rfl
    rw [hlog, flatMap_append, append_assoc, append_assoc, ← append_assoc _ _
      (admittedFrom _ ops), hstep, append_assoc, append_assoc]
    exact congrArg (fun limit => _ ++ (_ ++ (_ ++ admittedFrom limit ops))) hlimit

theorem kept_run (groupSize : UInt8) (maxPacket : Nat) (ops : List Encoder.Op) :
    (clockedRun groupSize maxPacket ops).state.Kept ∧
      ∀ em ∈ emissions (clockedRun groupSize maxPacket ops).log, em.Sound := by
  have hrun := @Run.exec_invariant _ _ _ Clocked.step ⟨Encoder.new groupSize maxPacket, []⟩
    (fun c => c.state.Kept ∧ ∀ em ∈ emissions c.log, em.Sound)
  refine hrun ⟨⟨tracks_new groupSize maxPacket, rfl, nofun⟩,
    nofun⟩ ?_ ops
  rintro c op ⟨hkept, hsound⟩
  refine ⟨hkept.step op, ?_⟩
  intro em hem
  rw [Run.advance_log, emissions, filterMap_append, mem_append] at hem
  rcases hem with hem | hem
  · exact hsound em hem
  · obtain ⟨entry, hentry, hret⟩ := mem_filterMap.1 hem
    rw [mem_singleton.1 hentry] at hret
    exact (sound_of_step hkept op hret).1

/-- Every run of the encoder: each protected packet is in exactly one group, in the order of
pushing, and a group leaves whole with the next call that closes it, and with no other; what leaves
is sound; and the arithmetic of the next call, whatever it is, neither overflows nor truncates. -/
theorem repair_coverage (groupSize : UInt8) (maxPacket : Nat) (ops : List Encoder.Op) :
    (emissions (clockedRun groupSize maxPacket ops).log).flatMap Emitted.members ++
        (clockedRun groupSize maxPacket ops).state.group =
      admittedFrom (clampPacket maxPacket) ops ∧
    (∀ em ∈ emissions (clockedRun groupSize maxPacket ops).log, em.Sound) ∧
    (∀ op em, ((clockedRun groupSize maxPacket ops).state.step op).2 = some em →
      em.Sound ∧ em.members = (clockedRun groupSize maxPacket ops).state.group) ∧
    (∀ op, ((clockedRun groupSize maxPacket ops).state.step op).2.isSome = true ↔
      (clockedRun groupSize maxPacket ops).state.Closes op) ∧
    ∀ op, (clockedRun groupSize maxPacket ops).state.encoder.stepChecked op =
      some ((clockedRun groupSize maxPacket ops).state.encoder.step op) := by
  obtain ⟨hkept, hsound⟩ := kept_run groupSize maxPacket ops
  refine ⟨?_, hsound, fun op em hem => sound_of_step hkept op hem, isSome_step hkept, ?_⟩
  · exact members_execFrom ops ⟨⟨Encoder.new groupSize maxPacket, []⟩, []⟩
  · exact fun op => stepChecked_eq hkept.tracks op

-- A full group leaves with the next packet, and the rest when it is flushed.
example : (emissions (clockedRun 2 1200 [.push 1 [7] 0, .push 2 [8, 9] 1, .push 3 [10] 2,
    .flushDue (millis 9)]).log).map (fun em => em.members.map fun m => m.1.1) =
      [[1, 2], [3]] := by decide

end GamePath.Engine.Fec
