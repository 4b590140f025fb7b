import GamePath.Lib.XorParity
import GamePath.Engine.Fec

/-!
# Repairs are exact

What a repair of the encoder means to the decoder. `Genuine` is the meaning of a parsed repair: its
members are the sequences of a group of packets and its parity is the zero-extended XOR of the
packets, each behind its length. The encoder's invariant `Tracks` says that its header fields and
parity describe the packets pushed since the last repair; closing a group gives a repair that parses
to a genuine one, and a genuine repair gives back any one member from the others.
-/

namespace GamePath.Engine.Fec

open Lib List Encoder BigEndian Prod Decoder

/-- A packet with the sequence it was sent under. -/
abbrev Sent := UInt64 × Bytes

/-- What `xor_member` XORs into a parity: the packet behind its length. -/
def prefixed (packet : Bytes) : Bytes := toBytes 2 packet.length ++ packet

/-- The parity of a group. -/
def parityOf (group : List Sent) : Bytes :=
  XorParity.parity (· ^^^ ·) (group.map fun sent => prefixed sent.2)

/-! ## XOR of packets -/

@[simp] theorem length_prefixed (packet : Bytes) :
    (prefixed packet).length = lengthPrefix + packet.length := by
  simp [prefixed, lengthPrefix]

theorem xorOver_eq_merge {bytes sources : Bytes} (h : sources.length ≤ bytes.length) :
    xorOver bytes sources = XorParity.merge (· ^^^ ·) bytes sources := by
  induction bytes generalizing sources with
  | nil =>
    rw [length_nil, Nat.le_zero, length_eq_zero_iff] at h
    rw [h]
    rfl
  | cons byte bytes ih =>
    cases sources with
    | nil => rfl
    | cons source sources =>
      rw [xorOver, XorParity.merge_cons_cons, ih (Nat.le_of_succ_le_succ h)]

/-- `xor_member` merges the packet, behind its length, into the parity. -/
theorem xorMember_eq_merge (parity packet : Bytes) :
    xorMember parity packet = XorParity.merge (· ^^^ ·) parity (prefixed packet) := by
  -- `resize` pads the parity with zeros, which the merge does not see.
  have key : ∀ extended : Bytes, lengthPrefix + packet.length ≤ extended.length →
      xorOver (extended.take lengthPrefix) (toBytes 2 packet.length) ++
        xorOver (extended.drop lengthPrefix) packet =
      XorParity.merge (· ^^^ ·) extended (prefixed packet) := by
    intro extended hlong
    have htake : (extended.take lengthPrefix).length =
        (toBytes 2 packet.length).length := by
      rw [length_take]
      exact Nat.min_eq_left (by omega)
    rw [xorOver_eq_merge (Nat.le_of_eq htake.symm),
      xorOver_eq_merge (by rw [length_drop]; omega), ← XorParity.merge_append htake,
      take_append_drop]
    rfl
  unfold xorMember
  dsimp only
  split
  · rw [key _ (by rw [length_append, length_replicate]; omega)]
    exact XorParity.merge_extend (fun a => UInt8.zero_xor) (by rw [length_prefixed])
  · exact key parity (by omega)

theorem parityOf_concat (group : List Sent) (sent : Sent) :
    parityOf (group ++ [sent]) = xorMember (parityOf group) sent.2 := by
  rw [xorMember_eq_merge, parityOf, XorParity.parity, map_append, foldl_append]
  rfl

variable {group : List Sent} {sent : Sent}

theorem length_parityOf_le (h : sent ∈ group) :
    lengthPrefix + sent.2.length ≤ (parityOf group).length := by
  rw [← length_prefixed]
  exact XorParity.length_le_parity (mem_map.2 ⟨sent, h, rfl⟩)

/-! ## Rebuilding from a genuine repair -/

/-- A packet that can be a member of a group. -/
def Sendable (sent : Sent) : Prop := sent.2 ≠ [] ∧ sent.2.length ≤ 65535

/-- A repair that stands for a group of sent packets. -/
structure Genuine (repair : Repair) (group : List Sent) : Prop where
  members : repair.members = group.map fst
  parity : repair.parity = parityOf group
  ordered : (group.map fst).Pairwise (· < ·)
  sendable : ∀ sent ∈ group, Sendable sent

theorem unwrap_of_take {parity packet : Bytes} (hne : packet ≠ []) (hlen : packet.length ≤ 65535)
    (h : parity.take (lengthPrefix + packet.length) = prefixed packet) :
    unwrap parity = some packet := by
  have hlong : lengthPrefix + packet.length ≤ parity.length := by
    have := congrArg List.length h
    rw [length_take, length_prefixed] at this
    omega
  have hhead : parity.take lengthPrefix = toBytes 2 packet.length := by
    have := congrArg (List.take lengthPrefix) h
    rw [take_take, Nat.min_eq_left (Nat.le_add_right _ _)] at this
    rw [this]
    exact take_left' (length_toBytes 2 _)
  have hvalue : ofBytes (parity.take lengthPrefix) = packet.length := by
    rw [hhead, ofBytes_toBytes]
    exact Nat.mod_eq_of_lt (by omega)
  have hpos : packet.length ≠ 0 := fun h0 => hne (length_eq_zero_iff.1 h0)
  unfold unwrap
  rw [hvalue]
  rw [if_neg (by omega), h]
  exact congrArg some (drop_left' (length_toBytes 2 _))

/-- XOR-ing stored packets out of a parity long enough for all of them. -/
theorem xorOut_of_stored {d : Decoder} (others : List Sent) :
    ∀ parity : Bytes, (∀ sent ∈ others, d.stored sent.1 = some sent.2) →
      (∀ sent ∈ others, lengthPrefix + sent.2.length ≤ parity.length) →
      d.xorOut (others.map fst) parity =
        some ((others.map fun sent => prefixed sent.2).foldl
          (XorParity.merge (· ^^^ ·)) parity) := by
  induction others with
  | nil => exact fun parity _ _ => rfl
  | cons sent others ih =>
    intro parity hstored hlong
    have hhead := hlong sent mem_cons_self
    have hsame : (xorMember parity sent.2).length = parity.length := by
      rw [xorMember_eq_merge, XorParity.length_merge, length_prefixed]
      exact Nat.max_eq_left hhead
    rw [map_cons, xorOut, hstored sent mem_cons_self]
    dsimp only
    rw [if_neg (by omega), ih _ (fun s hs => hstored s (mem_cons_of_mem _ hs)) ?_,
      xorMember_eq_merge]
    · rfl
    · intro s hs
      rw [hsame]
      exact hlong s (mem_cons_of_mem _ hs)

/-- Taking one member out of a group with distinct sequences. -/
theorem filter_ne_middle {before after : List Sent}
    (hordered : ((before ++ sent :: after).map fst).Pairwise (· < ·)) :
    ((before ++ sent :: after).map fst).filter (fun member => decide (member ≠ sent.1)) =
      (before ++ after).map fst := by
  have hne : ∀ s ∈ before ++ after, s.1 ≠ sent.1 := by
    rw [map_append, pairwise_append] at hordered
    obtain ⟨-, hcons, hcross⟩ := hordered
    intro s hs heq
    rcases mem_append.1 hs with hs | hs
    · have hlt := hcross s.1 (mem_map.2 ⟨s, hs, rfl⟩) sent.1 mem_cons_self
      rw [heq] at hlt
      exact absurd hlt (UInt64.lt_irrefl _)
    · have hlt := (pairwise_cons.1 hcons).1 s.1 (mem_map.2 ⟨s, hs, rfl⟩)
      rw [heq] at hlt
      exact absurd hlt (UInt64.lt_irrefl _)
  have hkeep : ∀ xs : List Sent, (∀ s ∈ xs, s.1 ≠ sent.1) →
      (xs.map fst).filter (fun member => decide (member ≠ sent.1)) = xs.map fst := by
    intro xs hxs
    refine filter_eq_self.2 fun member hm => ?_
    obtain ⟨s, hs, rfl⟩ := mem_map.1 hm
    exact decide_eq_true (hxs s hs)
  rw [map_append, filter_append, map_cons, filter_cons_of_neg (by simp),
    hkeep before fun s hs => hne s (mem_append_left _ hs),
    hkeep after fun s hs => hne s (mem_append_right _ hs), map_append]

/-- A genuine repair gives back any member from the others. -/
theorem rebuild_of_stored {d : Decoder} {repair : Repair} (h : Genuine repair group)
    (hmem : sent ∈ group) (hstored : ∀ s ∈ group, s.1 ≠ sent.1 → d.stored s.1 = some s.2) :
    d.rebuild repair sent.1 = some sent.2 := by
  obtain ⟨before, after, rfl⟩ := append_of_mem hmem
  have hne : ∀ s ∈ before ++ after, s.1 ≠ sent.1 := by
    intro s hs
    have hin : s.1 ∈ (before ++ after).map fst := mem_map.2 ⟨s, hs, rfl⟩
    rw [← filter_ne_middle h.ordered] at hin
    exact of_decide_eq_true (mem_filter.1 hin).2
  have hsub : ∀ s ∈ before ++ after, s ∈ before ++ sent :: after := by
    intro s hs
    rcases mem_append.1 hs with hs | hs
    · exact mem_append_left _ hs
    · exact mem_append_right _ (mem_cons_of_mem _ hs)
  rw [rebuild, h.members, filter_ne_middle h.ordered, h.parity,
    xorOut_of_stored (before ++ after) _ (fun s hs => hstored s (hsub s hs) (hne s hs))
      (fun s hs => length_parityOf_le (hsub s hs))]
  obtain ⟨hnil, hlen⟩ := h.sendable sent hmem
  refine unwrap_of_take hnil hlen ?_
  rw [← length_prefixed, map_append, parityOf, map_append]
  exact XorParity.take_foldl_parity (fun a => UInt8.xor_self) (fun a => UInt8.xor_zero) _ _ _

/-! ## The encoder's open group -/

/-- The offset of a sequence from the group's first one, as the encoder stores it. -/
def offsetOf (base sequence : UInt64) : UInt8 := (sequence - base).toUInt8

/-- A sequence within reach of one-byte offsets from the group's first one. -/
def InSpan (base sequence : UInt64) : Prop :=
  base.toNat ≤ sequence.toNat ∧ sequence.toNat - base.toNat ≤ 255

/-- The encoder's fields describe the group of packets pushed since the last repair. -/
structure Tracks (e : Encoder) (group : List Sent) : Prop where
  size : 1 ≤ e.groupSize ∧ e.groupSize ≤ maxGroup
  limit : e.maxPacket ≤ 65535
  count : e.count = group.length
  room : e.count ≤ e.groupSize
  parity : e.parity = parityOf group
  sendable : ∀ sent ∈ group, Sendable sent
  slots : e.offsets.length = maxGroup
  offsets : e.offsets.take e.count = group.map fun sent => offsetOf e.base sent.1
  first : ∀ sent ∈ group.head?, sent.1 = e.base
  ordered : (group.map fst).Pairwise (· < ·)
  span : ∀ sent ∈ group, InSpan e.base sent.1

variable (groupSize : UInt8)

theorem clampGroup_bounds :
    1 ≤ clampGroup groupSize ∧ clampGroup groupSize ≤ maxGroup := by
  simp only [clampGroup, maxGroup]
  omega

theorem tracks_new (maxPacket : Nat) :
    Tracks (new groupSize maxPacket) [] where
  size := clampGroup_bounds groupSize
  limit := Nat.min_le_right _ _
  count := rfl
  room := Nat.zero_le _
  parity := rfl
  sendable := nofun
  slots := rfl
  offsets := rfl
  first := nofun
  ordered := List.Pairwise.nil
  span := nofun

/-- The offset of a sequence in the span leads back to it, without overflow. -/
theorem base_add_offsetOf {base sequence : UInt64} (h : InSpan base sequence) :
    base.toNat + (offsetOf base sequence).toNat < 2 ^ 64 ∧
      base + (offsetOf base sequence).toUInt64 = sequence := by
  obtain ⟨hle, hspan⟩ := h
  have hsub : (sequence - base).toNat = sequence.toNat - base.toNat :=
    UInt64.toNat_sub_of_le _ _ (UInt64.le_iff_toNat_le.2 hle)
  have hoffset : (offsetOf base sequence).toNat = sequence.toNat - base.toNat := by
    rw [offsetOf, UInt64.toNat_toUInt8, hsub]
    exact Nat.mod_eq_of_lt (by omega)
  have hlt := sequence.toNat_lt
  refine ⟨by omega, UInt64.toNat_inj.1 ?_⟩
  rw [UInt64.toNat_add, UInt8.toNat_toUInt64]
  omega

/-- The loop of `Repair::parse` reads the members back from their offsets. -/
theorem parseMembers_offsets {base : UInt64} (group : List Sent) :
    ∀ last : UInt64, (last :: group.map fst).Pairwise (· < ·) →
      (∀ sent ∈ group, InSpan base sent.1) →
      Repair.parseMembers base last (group.map fun sent => offsetOf base sent.1) =
        some (group.map fst) := by
  induction group with
  | nil => exact fun _ _ _ => rfl
  | cons sent group ih =>
    intro last hordered hspan
    obtain ⟨hadd, hmember⟩ := base_add_offsetOf (hspan sent mem_cons_self)
    rw [map_cons] at *
    obtain ⟨hfirst, hrest⟩ := pairwise_cons.1 hordered
    have hlast : ¬ sent.1 ≤ last := by
      have := hfirst sent.1 mem_cons_self
      rw [UInt64.lt_iff_toNat_lt] at this
      rw [UInt64.le_iff_toNat_le]
      omega
    rw [Repair.parseMembers, if_neg (by omega)]
    rw [hmember, if_neg hlast,
      ih sent.1 hrest fun s hs => hspan s (mem_cons_of_mem _ hs)]
    rfl

/-- A payload with a well-formed header parses to its parts. -/
theorem parse_payload {base : UInt64} {count : UInt8} {offsets : List UInt8} {parity : Bytes}
    {members : List UInt64} (hcount : count.toNat = offsets.length + 1)
    (hmax : count.toNat ≤ maxGroup) (hparity : lengthPrefix < parity.length)
    (hmembers : Repair.parseMembers base base offsets = some members) (now : Instant) :
    Repair.parse (version :: (u64ToBe base ++ count :: (offsets ++ parity))) now =
      some ⟨base :: members, parity, now⟩ := by
  have hbe : (u64ToBe base).length = 8 := length_toBytes 8 _
  -- The payload is cut where `parse` cuts it: after the base, the count and the offsets.
  generalize hrest : u64ToBe base ++ count :: (offsets ++ parity) = rest
  have hbase : rest.take 8 = u64ToBe base := by
    rw [← hrest]
    exact take_left' hbe
  have htail : rest.drop 8 = count :: (offsets ++ parity) := by
    rw [← hrest]
    exact drop_left' hbe
  have hbyte : rest.getD 8 0 = count := by
    rw [getD_eq_getElem?_getD, ← hrest, getElem?_append_right (Nat.le_of_eq hbe)]
    rfl
  have hbody : rest.drop 9 = offsets ++ parity := by
    rw [← drop_drop (i := 1) (j := 8), htail]
    rfl
  have hparity' : rest.drop (9 + (offsets.length + 1) - 1) = parity := by
    rw [show 9 + (offsets.length + 1) - 1 = 9 + offsets.length from rfl, ← drop_drop, hbody]
    exact drop_left
  have hlength : rest.length = 9 + offsets.length + parity.length := by
    rw [← hrest, length_append, length_cons, length_append]
    omega
  unfold Repair.parse
  dsimp only
  rw [hbase, hbyte, hcount, hbody, hparity', u64OfBe_u64ToBe, if_neg, if_neg, if_neg, if_neg,
    Nat.add_sub_cancel, take_left, hmembers]
  · rfl
  · omega
  · omega
  · omega
  · simp only [ne_eq, not_true_eq_false, false_or]
    omega

variable {e : Encoder}

/-- The repair of an open group parses to one that stands for the group. -/
theorem parse_repair (h : Tracks e group) (hne : group ≠ []) (now : Instant) :
    Repair.parse e.repair now = some ⟨group.map fst, parityOf group, now⟩ := by
  obtain ⟨sent, rest, rfl⟩ := exists_cons_of_ne_nil hne
  have hbase : sent.1 = e.base := h.first sent (by simp)
  have hcount : e.count = rest.length + 1 := by rw [h.count, length_cons]
  have hmax : e.count ≤ maxGroup := h.room.trans h.size.2
  have hbyte : (UInt8.ofNat e.count).toNat = e.count := by
    rw [maxGroup] at hmax
    exact Nat.mod_eq_of_lt (by omega)
  have hoffsets : (e.offsets.take e.count).drop 1 = rest.map fun s => offsetOf e.base s.1 := by
    rw [h.offsets]
    rfl
  -- A group holds a packet that is not empty, so its parity is longer than the prefix.
  have hparity : lengthPrefix < (parityOf (sent :: rest)).length := by
    have hlen : lengthPrefix + sent.2.length ≤ (parityOf (sent :: rest)).length :=
      length_parityOf_le mem_cons_self
    have := length_pos_iff.2 (h.sendable sent mem_cons_self).1
    omega
  have hordered := h.ordered
  rw [map_cons, hbase] at hordered
  have hmembers := parseMembers_offsets rest e.base hordered
    fun s hs => h.span s (mem_cons_of_mem _ hs)
  rw [repair, hoffsets, h.parity, map_cons, hbase]
  refine parse_payload ?_ (by rw [hbyte]; exact hmax) hparity hmembers now
  rw [hbyte, length_map, hcount]

/-! ## What each call does to the open group -/

/-- A payload that parses to a repair standing for the group. -/
def Stands (payload : Bytes) (group : List Sent) : Prop :=
  group ≠ [] ∧ ∀ now, ∃ repair, Repair.parse payload now = some repair ∧ Genuine repair group

theorem stands_repair (h : Tracks e group) (hne : group ≠ []) :
    Stands e.repair group :=
  ⟨hne, fun now => ⟨_, parse_repair h hne now, ⟨rfl, rfl, h.ordered, h.sendable⟩⟩⟩

theorem close_spec (h : Tracks e group) :
    Tracks e.close.1 [] ∧
      ((group = [] ∧ e.close.2 = none) ∨ (group ≠ [] ∧ e.close.2 = some e.repair)) := by
  cases group with
  | nil =>
    have hcount : e.count = 0 := h.count
    rw [close, if_pos hcount]
    exact ⟨h, .inl ⟨rfl, rfl⟩⟩
  | cons sent group =>
    have hcount : e.count ≠ 0 := by rw [h.count]; exact Nat.succ_ne_zero _
    rw [close, if_neg hcount]
    exact ⟨⟨h.size, h.limit, rfl, Nat.zero_le _, rfl, nofun,
      h.slots, rfl, nofun, List.Pairwise.nil,
      nofun⟩, .inr ⟨cons_ne_nil _ _, rfl⟩⟩

theorem close_resize (e : Encoder) (size : Nat) :
    { e with groupSize := size }.close = ({ e.close.1 with groupSize := size }, e.close.2) := by
  unfold close
  split <;> rfl

theorem last_eq (h : Tracks e (group ++ [sent])) :
    e.last = sent.1 := by
  have hcount : e.count = group.length + 1 := by rw [h.count]; simp
  have hget : e.offsets[group.length]? = some (offsetOf e.base sent.1) := by
    have htake : (e.offsets.take e.count)[group.length]? = e.offsets[group.length]? :=
      getElem?_take_of_lt (by omega)
    rw [← htake, h.offsets, map_append]
    simp
  rw [last, hcount, Nat.add_sub_cancel, getD_eq_getElem?_getD, hget]
  exact (base_add_offsetOf (h.span sent (by simp))).2

/-- Adding a packet to the open group. -/
theorem join_spec (h : Tracks e group) (hroom : e.count < e.groupSize)
    (hspan : InSpan e.base sent.1) (hfirst : group = [] → sent.1 = e.base)
    (hlast : ∀ s ∈ group, s.1 < sent.1) (hsend : Sendable sent) :
    Tracks (e.join sent.1 sent.2) (group ++ [sent]) where
  size := h.size
  limit := h.limit
  count := by rw [length_append, ← h.count]; rfl
  room := hroom
  parity := by rw [parityOf_concat, ← h.parity]; rfl
  sendable := by
    intro s hs
    rcases mem_snoc.1 hs with hs | rfl
    · exact h.sendable s hs
    · exact hsend
  slots := (length_set).trans h.slots
  offsets := by
    -- The new offset goes into the first slot that is not in use.
    have hin : e.count < e.offsets.length := by
      rw [h.slots]
      exact Nat.lt_of_lt_of_le hroom h.size.2
    show (e.offsets.set e.count (offsetOf e.base sent.1)).take (e.count + 1) =
      (group ++ [sent]).map fun s => offsetOf e.base s.1
    rw [map_append, ← h.offsets, set_eq_take_append_cons_drop, if_pos hin,
      take_append, length_take, Nat.min_eq_left (Nat.le_of_lt hin), take_take,
      Nat.min_eq_right (Nat.le_succ _), Nat.add_sub_cancel_left]
    rfl
  first := by
    intro s hs
    cases group with
    | nil =>
      obtain rfl : sent = s := by simpa using hs
      exact hfirst rfl
    | cons first group => exact h.first s hs
  ordered := by
    rw [map_append, pairwise_append]
    refine ⟨h.ordered, pairwise_singleton _ _, fun a ha b hb => ?_⟩
    obtain ⟨s, hs, rfl⟩ := mem_map.1 ha
    rw [mem_singleton.1 hb]
    exact hlast s hs
  span := by
    intro s hs
    rcases mem_snoc.1 hs with hs | rfl
    · exact h.span s hs
    · exact hspan

theorem join_open_spec (h : Tracks e []) (now : Instant) (hsend : Sendable sent) :
    Tracks ((e.openFor sent.1 now).join sent.1 sent.2) [sent] := by
  have hcount : e.count = 0 := h.count
  have hopen : e.openFor sent.1 now = { e with base := sent.1, openedAt := some now } :=
    if_pos hcount
  have htracks : Tracks (e.openFor sent.1 now) [] := by
    rw [hopen]
    exact ⟨h.size, h.limit, h.count, h.room, h.parity, h.sendable, h.slots, h.offsets,
      nofun, h.ordered, nofun⟩
  have hbase : (e.openFor sent.1 now).base = sent.1 := by rw [hopen]
  refine join_spec htracks ?_ ?_ (fun _ => hbase.symm) (nofun) hsend
  · rw [hopen]
    show e.count < e.groupSize
    have := h.size.1
    omega
  · rw [hbase]
    exact ⟨Nat.le_refl _, by omega⟩

theorem sendable_of_leavesOut (h : Tracks e group) (hin : e.leavesOut sent.2 = false) :
    Sendable sent := by
  rw [leavesOut, Bool.or_eq_false_iff, decide_eq_false_iff_not] at hin
  refine ⟨fun hnil => ?_, (Nat.le_of_not_lt hin.2).trans h.limit⟩
  rw [hnil] at hin
  cases hin.1

theorem above_of_last (h : Tracks e group) (hne : group ≠ []) {sequence : UInt64}
    (hlast : e.last < sequence) : ∀ s ∈ group, s.1 < sequence := by
  obtain ⟨init, last, rfl⟩ := eq_nil_or_concat group |>.resolve_left hne
  rw [concat_eq_append] at h ⊢
  rw [last_eq h] at hlast
  intro s hs
  rcases mem_snoc.1 hs with hs | rfl
  · -- An earlier member is below the last one, which is below the sequence.
    have hordered := h.ordered
    rw [map_append, pairwise_append] at hordered
    exact UInt64.lt_trans (hordered.2.2 s.1 (mem_map.2 ⟨s, hs, rfl⟩) last.1 (by simp)) hlast
  · exact hlast

theorem join_inside_spec (h : Tracks e group) (hne : group ≠ []) {now : Instant}
    (hjoin : e.canJoin sent.1 now = true) (hsend : Sendable sent) :
    Tracks (e.join sent.1 sent.2) (group ++ [sent]) := by
  rw [canJoin, Bool.and_eq_true, Bool.and_eq_true, Bool.and_eq_true, decide_eq_true_iff,
    decide_eq_true_iff, decide_eq_true_iff] at hjoin
  obtain ⟨⟨⟨hroom, hlast⟩, hspan⟩, -⟩ := hjoin
  have habove := above_of_last h hne hlast
  have hbase : e.base.toNat ≤ sent.1.toNat := by
    obtain ⟨s, hs⟩ := exists_mem_of_ne_nil _ hne
    have := (h.span s hs).1
    have := UInt64.lt_iff_toNat_lt.1 (habove s hs)
    omega
  refine join_spec h hroom ⟨hbase, ?_⟩ (fun hnil => absurd hnil hne) habove hsend
  have hsub := UInt64.toNat_sub_of_le _ _ (UInt64.le_iff_toNat_le.2 hbase)
  have := UInt64.le_iff_toNat_le.1 hspan
  rw [hsub] at this
  exact this

/-- `push` of a packet that is not left out: it joins the open group, or the group closes with its
repair and the packet opens the next one. -/
theorem push_spec (h : Tracks e group) (sent : Sent) (now : Instant)
    (hin : e.leavesOut sent.2 = false) :
    ((e.push sent.1 sent.2 now).2 = none ∧
        Tracks (e.push sent.1 sent.2 now).1 (group ++ [sent])) ∨
      ((e.push sent.1 sent.2 now).2 = some e.repair ∧ group ≠ [] ∧
        Tracks (e.push sent.1 sent.2 now).1 [sent]) := by
  have hsend := sendable_of_leavesOut h hin
  have hpush : e.push sent.1 sent.2 now =
      ((((if decide (0 < e.count) && !e.canJoin sent.1 now then e.close else (e, none)).1.openFor
        sent.1 now).join sent.1 sent.2),
        (if decide (0 < e.count) && !e.canJoin sent.1 now then e.close else (e, none)).2) := by
    rw [push, if_neg (by rw [hin]; exact Bool.false_ne_true)]
  rw [hpush]
  by_cases hne : group = []
  · -- No group is open: the packet opens one.
    subst hne
    have hcount : e.count = 0 := h.count
    rw [hcount, show decide (0 < 0) = false from rfl, Bool.false_and]
    exact .inl ⟨rfl, join_open_spec h now hsend⟩
  have hpos : 0 < e.count := by
    rw [h.count]
    exact length_pos_iff.2 hne
  rw [decide_eq_true hpos, Bool.true_and]
  cases hjoin : e.canJoin sent.1 now with
  | true =>
    rw [Bool.not_true, if_neg Bool.false_ne_true]
    have hopen : e.openFor sent.1 now = e := if_neg (Nat.pos_iff_ne_zero.1 hpos)
    refine .inl ⟨rfl, ?_⟩
    rw [hopen]
    exact join_inside_spec h hne hjoin hsend
  | false =>
    -- The group closes with its repair, and the packet opens the next one.
    obtain ⟨hempty, ⟨hnil, -⟩ | ⟨-, hrepair⟩⟩ := close_spec h
    · exact absurd hnil hne
    · exact .inr ⟨hrepair, hne, join_open_spec hempty now hsend⟩

/-! ## Runs of the encoder -/

/-- An encoder with the packets pushed into its open group. -/
structure Traced where
  encoder : Encoder
  group : List Sent

/-- The open group after a call: a packet that is not left out joins the group, or opens the next
one when the call returned the repair of the last. -/
def groupAfter (t : Traced) : Op → List Sent
  | .push sequence packet now =>
    if t.encoder.leavesOut packet then t.group
    else if (t.encoder.push sequence packet now).2.isSome then [(sequence, packet)]
    else t.group ++ [(sequence, packet)]
  | op => if (t.encoder.step op).2.isSome then [] else t.group

/-- One call, with the repair it returns and the packets that repair covers. -/
def Traced.step (t : Traced) (op : Op) : Traced × Option (Bytes × List Sent) :=
  (⟨(t.encoder.step op).1, groupAfter t op⟩,
    (t.encoder.step op).2.map fun repair => (repair, t.group))

/-- A run of calls on a new encoder. -/
def encoderRun (maxPacket : Nat) (ops : List Op) :
    Run.Config Traced Op (Option (Bytes × List Sent)) :=
  Run.exec Traced.step ⟨new groupSize maxPacket, []⟩ ops

/-- The packets a run pushes, with their sequences. -/
def pushed (ops : List Op) : List Sent :=
  ops.filterMap fun
    | .push sequence packet _ => some (sequence, packet)
    | _ => none

/-- One call keeps the fields in step with the group, and a repair it returns stands for the group
that was open before. -/
structure StepOk (t : Traced) (result : Encoder × Option Bytes) (group : List Sent) : Prop where
  tracks : Tracks result.1 group
  repair : ∀ payload, result.2 = some payload → Stands payload t.group

variable {t : Traced}

theorem stepOk_none (h : Tracks e group) :
    StepOk t (e, none) group :=
  ⟨h, nofun⟩

theorem stepOk_close (h : Tracks t.encoder t.group) {size : Nat}
    (hsize : 1 ≤ size ∧ size ≤ maxGroup) :
    StepOk t ({ t.encoder.close.1 with groupSize := size }, t.encoder.close.2)
      (if t.encoder.close.2.isSome then [] else t.group) := by
  obtain ⟨hempty, hret⟩ := close_spec h
  have hresized : Tracks { t.encoder.close.1 with groupSize := size } [] :=
    ⟨hsize, hempty.limit, hempty.count, by rw [hempty.count]; exact Nat.zero_le _, hempty.parity,
      hempty.sendable, hempty.slots, hempty.offsets, hempty.first, hempty.ordered, hempty.span⟩
  rcases hret with ⟨hnil, hret⟩ | ⟨hne, hret⟩
  · rw [hret, hnil]
    exact stepOk_none hresized
  · rw [hret]
    refine ⟨hresized, fun payload heq => ?_⟩
    rw [← Option.some.inj heq]
    exact stands_repair h hne

theorem stepOk_push (h : Tracks t.encoder t.group) (sequence : UInt64) (packet : Bytes)
    (now : Instant) :
    StepOk t (t.encoder.push sequence packet now) (groupAfter t (.push sequence packet now)) := by
  cases hout : t.encoder.leavesOut packet with
  | true =>
    have hpush : t.encoder.push sequence packet now = (t.encoder, none) := if_pos hout
    rw [groupAfter, if_pos hout, hpush]
    exact stepOk_none h
  | false =>
    rw [groupAfter, if_neg (by rw [hout]; exact Bool.false_ne_true)]
    rcases push_spec h (sequence, packet) now hout with ⟨hret, htracks⟩ | ⟨hret, hne, htracks⟩
    · rw [hret]
      exact ⟨htracks, fun payload heq => nomatch (hret.symm.trans heq)⟩
    · rw [hret]
      refine ⟨htracks, fun payload heq => ?_⟩
      rw [← Option.some.inj (hret.symm.trans heq)]
      exact stands_repair h hne

theorem stepOk_flushDue (h : Tracks t.encoder t.group) (now : Instant) :
    StepOk t (t.encoder.flushDue now)
      (if (t.encoder.flushDue now).2.isSome then [] else t.group) := by
  cases hexpired : t.encoder.expired now with
  | true =>
    have hsize : t.encoder.close.1.groupSize = t.encoder.groupSize := by
      unfold close
      split <;> rfl
    have hok := stepOk_close h h.size
    rw [← hsize] at hok
    rw [flushDue, if_pos hexpired]
    exact hok
  | false =>
    rw [flushDue, if_neg (by rw [hexpired]; exact Bool.false_ne_true)]
    exact stepOk_none h

theorem step_spec (h : Tracks t.encoder t.group) (op : Op) :
    StepOk t (t.encoder.step op) (groupAfter t op) := by
  cases op with
  | push sequence packet now => exact stepOk_push h sequence packet now
  | setGroupSize groupSize =>
    show StepOk t (t.encoder.setGroupSize groupSize)
      (if (t.encoder.setGroupSize groupSize).2.isSome then [] else t.group)
    by_cases hsame : clampGroup groupSize = t.encoder.groupSize
    · rw [setGroupSize, if_pos hsame]
      exact stepOk_none h
    · rw [setGroupSize, if_neg hsame, close_resize]
      exact stepOk_close h (clampGroup_bounds groupSize)
  | setMaxPacket maxPacket =>
    exact stepOk_none ⟨h.size, Nat.min_le_right _ _, h.count, h.room, h.parity, h.sendable,
      h.slots, h.offsets, h.first, h.ordered, h.span⟩
  | flushDue now => exact stepOk_flushDue h now

/-- Every point of a run: the fields describe the open group, its packets were pushed, and every
repair returned so far stands for packets that were pushed. -/
structure Covered (c : Run.Config Traced Op (Option (Bytes × List Sent))) : Prop where
  tracks : Tracks c.state.encoder c.state.group
  pushed : ∀ sent ∈ c.state.group, sent ∈ pushed (c.log.map fst)
  repairs : ∀ op payload group, (op, some (payload, group)) ∈ c.log →
    Stands payload group ∧ ∀ sent ∈ group, sent ∈ Fec.pushed (c.log.map fst)

theorem mem_groupAfter {op : Op} (h : sent ∈ groupAfter t op) :
    sent ∈ t.group ∨ sent ∈ pushed [op] := by
  cases op with
  | push sequence packet now =>
    rw [groupAfter] at h
    split at h
    · exact .inl h
    · split at h
      · exact .inr h
      · exact mem_append.1 h
  | setGroupSize | flushDue =>
    rw [groupAfter] at h
    split at h
    · exact absurd h not_mem_nil
    · exact .inl h
    · simp
  | setMaxPacket maxPacket => exact .inl h

theorem covered_advance (c : Run.Config Traced Op (Option (Bytes × List Sent)))
    (op : Op) (h : Covered c) : Covered (Run.advance Traced.step c op) := by
  have hstep := step_spec h.tracks op
  have hlog : pushed ((Run.advance Traced.step c op).log.map fst) =
      pushed (c.log.map fst) ++ pushed [op] := by
    rw [Run.advance_log, map_append]
    exact filterMap_append
  refine ⟨hstep.tracks, fun sent hs => ?_, fun op' payload group hmem => ?_⟩
  · rw [hlog]
    rcases mem_groupAfter hs with hs | hs
    · exact mem_append_left _ (h.pushed sent hs)
    · exact mem_append_right _ hs
  rw [hlog]
  rcases mem_snoc.1 hmem with hmem | hmem
  · obtain ⟨hstands, hpushed⟩ := h.repairs op' payload group hmem
    exact ⟨hstands, fun sent hs => mem_append_left _ (hpushed sent hs)⟩
  · obtain ⟨-, hret⟩ := mk.inj hmem
    obtain ⟨repair, hrepair, heq⟩ := Option.map_eq_some_iff.1 hret.symm
    obtain ⟨rfl, rfl⟩ := mk.inj heq
    exact ⟨hstep.repair repair hrepair, fun sent hs => mem_append_left _ (h.pushed sent hs)⟩

theorem covered_run (maxPacket : Nat) (ops : List Op) :
    Covered (encoderRun groupSize maxPacket ops) :=
  Run.exec_invariant ⟨tracks_new groupSize maxPacket, nofun,
    nofun⟩ covered_advance ops

theorem encoderRun_inputs (maxPacket : Nat) (ops : List Op) :
    (encoderRun groupSize maxPacket ops).log.map fst = ops :=
  Run.execFrom_inputs _ ops

/-! ## End to end -/

/-- The decoder's slot for the sequence holds exactly the packet. -/
def Holds (d : Decoder) (sequence : UInt64) (packet : Bytes) : Prop :=
  d.recent[slotOf sequence]? = some (sequence, packet)

theorem stored_of_holds {d : Decoder} {sequence : UInt64} {packet : Bytes}
    (h : Holds d sequence packet) (hne : packet ≠ []) : d.stored sequence = some packet := by
  unfold stored
  rw [h]
  exact if_pos ⟨rfl, by simpa using hne⟩

/-- When all members but one were delivered, a genuine repair finds that one. -/
theorem lost_of_delivered {repair : Repair} (h : Genuine repair group) {delivered : UInt64 → Bool}
    {lost : UInt64} (hmem : lost ∈ group.map fst)
    (hdelivered : ∀ member ∈ group.map fst, delivered member = true ↔ member ≠ lost) :
    repair.lost delivered = [lost] := by
  have hfilter : repair.lost delivered = (group.map fst).filter (· == lost) := by
    rw [Repair.lost, h.members]
    refine filter_congr fun member hm => ?_
    have := hdelivered member hm
    by_cases heq : member = lost
    · rw [Bool.eq_false_iff.2 fun ht => this.1 ht heq, heq]
      simp
    · rw [this.2 heq]
      simp [heq]
  have hnodup : (group.map fst).Nodup := by
    refine List.Pairwise.imp ?_ h.ordered
    intro a b hlt heq
    rw [heq] at hlt
    exact UInt64.lt_irrefl _ hlt
  rw [hfilter, filter_beq, count_eq_one_of_mem hnodup hmem]
  rfl

/-- Over every run of the encoder: a repair names the packets it covers, and a decoder that holds
all of them but one, and is told so, rebuilds the missing one exactly. -/
theorem repair_is_exact (groupSize : UInt8) (maxPacket : Nat) (ops : List Op)
    (hdistinct : ((pushed ops).map fst).Nodup) :
    ∀ op payload group,
      (op, some (payload, group)) ∈ (encoderRun groupSize maxPacket ops).log →
      (∀ now, (Repair.parse payload now).map Repair.members = some (group.map fst)) ∧
      ∀ (d : Decoder) (now : Instant) (delivered : UInt64 → Bool) (lost : UInt64) (packet : Bytes),
        lost ∈ group.map fst → (lost, packet) ∈ pushed ops →
        (∀ member ∈ group.map fst, member ≠ lost →
          ∀ other, (member, other) ∈ pushed ops → Holds d member other) →
        (∀ member ∈ group.map fst, delivered member = true ↔ member ≠ lost) →
        (d.acceptRepair payload now delivered).2 = some (lost, packet) := by
  intro op payload group hlog
  obtain ⟨hstands, hpushed⟩ := (covered_run groupSize maxPacket ops).repairs op payload group hlog
  rw [encoderRun_inputs] at hpushed
  refine ⟨fun now => ?_, ?_⟩
  · obtain ⟨repair, hparse, hgenuine⟩ := hstands.2 now
    rw [hparse, Option.map_some, hgenuine.members]
  intro d now delivered lost packet hlost hpacket hholds hdelivered
  obtain ⟨repair, hparse, hgenuine⟩ := hstands.2 now
  obtain ⟨sent, hsent, rfl⟩ := List.mem_map.1 hlost
  obtain rfl : packet = sent.2 :=
    congrArg snd (List.inj_on_of_nodup_map hdistinct hpacket (hpushed sent hsent) rfl)
  rw [acceptRepair, hparse]
  dsimp only
  rw [resolve, lost_of_delivered hgenuine hlost hdelivered]
  dsimp only
  rw [rebuild_of_stored hgenuine hsent]
  intro s hs hne
  have hin : s.1 ∈ group.map fst := List.mem_map.2 ⟨s, hs, rfl⟩
  exact stored_of_holds (hholds s.1 hin hne s.2 (hpushed s hs)) (hgenuine.sendable s hs).1

/-- Two packets in one group, of which the second is lost. -/
theorem repair_is_exact_two_packets :
    ((remember ⟨[], [], true, 0, 0⟩ 10 [1, 2, 3]).acceptRepair
        [1, 0, 0, 0, 0, 0, 0, 0, 10, 2, 1, 0, 2, 8, 2, 3] 0
          (fun member => decide (member ≠ 11))).2 =
      some (11, [9]) := by
  refine (repair_is_exact 2 1400 [.push 10 [1, 2, 3] 0, .push 11 [9] 0, .push 12 [5] 0] (by decide)
    (.push 12 [5] 0) _ [(10, [1, 2, 3]), (11, [9])] ?_).2 _ 0 _ 11 [9] (by decide) (by decide) ?_
    (fun _ _ => decide_eq_true_iff)
  · exact List.mem_of_getElem? (i := 2) rfl
  · intro member hm hne other hother
    obtain rfl : member = 10 := by simpa [hne] using hm
    obtain rfl : other = [1, 2, 3] := by simpa [pushed] using hother
    rfl

end GamePath.Engine.Fec
