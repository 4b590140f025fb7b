import GamePath.Lib.AlignedBlocks
import GamePath.Engine.DirectRanges

/-!
# What a compiled direct list means

`prefixes` cuts each range into the largest blocks that fit, which are those of `Lib.Cut`. So the
prefixes of spaced ranges have the addresses of the ranges, none twice, and no shorter list of
prefixes has the same (`compiled_list_means_what_was_written`). Which prefixes can come out at all
is `exists_prefix_le_iff`.
-/

namespace GamePath.Engine.Direct

open Lib List DirectList Engine.Addresses
open DirectList (blockBits blocks compile octetsOfU32)

/-! ## The largest block -/

section Bits

variable {start last : ℕ}

theorem two_pow_dvd_iff_le_trailingZeros {n : ℕ} (hpos : 0 < n) (hlt : n < 2 ^ 32) (k : ℕ) :
    2 ^ k ∣ n ↔ k ≤ trailingZeros n := by
  have hdvd : ∀ k, 2 ^ k ∣ n ↔ ∀ i < k, n.testBit i = false := by
    intro k
    rw [Nat.dvd_iff_mod_eq_zero]
    constructor
    · intro hmod i hi
      have hbit := Nat.testBit_mod_two_pow n k i
      rw [hmod] at hbit
      simpa [hi] using hbit
    intro hbits
    apply Nat.eq_of_testBit_eq
    intro i
    by_cases hi : i < k
    · simp [hbits i hi]
    · simp [hi]
  rw [hdvd, trailingZeros]
  cases hfind : (List.range 32).find? fun i => n.testBit i with
  | none =>
    -- A positive number has a bit.
    rw [find?_eq_none] at hfind
    have hzero : n = 0 := by
      apply Nat.eq_of_testBit_eq
      intro i
      rw [Nat.zero_testBit]
      by_cases hi : i < 32
      · simpa using hfind i (mem_range.2 hi)
      · apply Nat.testBit_lt_two_pow
        exact hlt.trans_le (Nat.pow_le_pow_right (by omega) (by omega))
    omega
  | some first =>
    obtain ⟨hbit, -, hnone⟩ := find?_range_eq_some.1 hfind
    simp only [Bool.not_eq_true'] at hnone
    constructor
    · intro hbits
      by_contra hlarge
      rw [hbits first (not_le.1 hlarge)] at hbit
      cases hbit
    · intro hle i hi
      exact hnone i (hi.trans_le hle)

theorem largest_blockBits (hle : start ≤ last) (hlast : last < 2 ^ 32) :
    Largest start last (blockBits start last) := by
  have hroom : ∀ k, start + 2 ^ k ≤ last + 1 ↔ k ≤ Nat.log2 (last - start + 1) := by
    intro k
    rw [Nat.le_log2 (by omega)]
    omega
  have hfits : ∀ k, Fits start last k ↔ k ≤ blockBits start last := by
    intro k
    have hsplit : Fits start last k ↔ 2 ^ k ∣ start ∧ start + 2 ^ k ≤ last + 1 :=
      ⟨fun h => ⟨h.aligned, h.room⟩, fun h => ⟨h.1, h.2⟩⟩
    rw [hsplit, hroom, blockBits, le_min_iff]
    split_ifs with hzero
    · -- Every power of two divides zero, and no more than 32 bits have room.
      subst hzero
      have hlog : Nat.log2 (last - 0 + 1) ≤ 32 := by
        by_contra hmore
        have := (hroom 33).2 (by omega)
        omega
      simp only [dvd_zero, true_and]
      omega
    · rw [two_pow_dvd_iff_le_trailingZeros (by omega) (by omega)]
  exact ⟨(hfits _).2 le_rfl, fun k hk => (hfits k).1 hk⟩

theorem blockBits_le (hle : start ≤ last) (hlast : last < 2 ^ 32) :
    blockBits start last ≤ 32 := by
  have hroom := (largest_blockBits hle hlast).fits.room
  by_contra hmore
  have hpow : 2 ^ 33 ≤ 2 ^ blockBits start last :=
    Nat.pow_le_pow_right (by omega) (by omega)
  omega

end Bits

/-! ## Prefixes as blocks -/

section Prefixes

/-- The prefix has the address. -/
def Routes (p : Prefix) (address : Octets) : Prop := InNetwork p.1 p.2 (number address)

/-- The block of a prefix, whose address may have bits below the prefix. -/
def prefixBlock (p : Prefix) : Block where
  start := number p.1 / 2 ^ (32 - p.2) * 2 ^ (32 - p.2)
  bits := 32 - p.2
  aligned := Nat.dvd_mul_left _ _

theorem prefixBlock_contains_iff (p : Prefix) (n : ℕ) :
    (prefixBlock p).Contains n ↔ InNetwork p.1 p.2 n := by
  rw [Block.contains_iff_div, prefixBlock, InNetwork, Nat.mul_div_cancel _ (Nat.two_pow_pos _)]

theorem lt_of_inNetwork {address : Octets} {length n : ℕ} (h : InNetwork address length n) :
    n < 2 ^ 32 := by
  have hsplit : 2 ^ 32 = 2 ^ (32 - (32 - length)) * 2 ^ (32 - length) := by
    rw [← pow_add]
    congr 1
    omega
  have hdiv : number address / 2 ^ (32 - length) < 2 ^ (32 - (32 - length)) := by
    rw [Nat.div_lt_iff_lt_mul (Nat.two_pow_pos _), ← hsplit]
    exact number_lt address
  rw [hsplit, ← Nat.div_lt_iff_lt_mul (Nat.two_pow_pos _), h]
  exact hdiv

theorem prefixBlock_mk {start bits : ℕ} (hstart : start < 2 ^ 32) (hbits : bits ≤ 32)
    (haligned : 2 ^ bits ∣ start) :
    prefixBlock (octetsOfU32 start, 32 - bits) = ⟨start, bits, haligned⟩ := by
  have hsame : 32 - (32 - bits) = bits := by omega
  simp only [prefixBlock, number_octetsOfU32 hstart, hsame, Nat.div_mul_cancel haligned]

theorem blocks_cut {last : ℕ} (hlast : last < 2 ^ 32) (fuel : ℕ) :
    ∀ start, last + 1 - start ≤ fuel →
      Cut last start ((blocks fuel start last).map prefixBlock) := by
  induction fuel with
  | zero =>
    intro start hfuel
    exact .nil (by omega)
  | succ fuel ih =>
    intro start hfuel
    rw [blocks]
    split_ifs with hle
    · have hlargest := largest_blockBits hle hlast
      have hpos := Nat.two_pow_pos (blockBits start last)
      rw [map_cons, prefixBlock_mk (by omega) (blockBits_le hle hlast) hlargest.fits.aligned]
      have hrest := ih (start + 2 ^ blockBits start last) (by omega)
      exact Cut.cons (b := ⟨start, _, hlargest.fits.aligned⟩) hlargest hrest
    · exact .nil (by omega)

theorem blocks_add (last extra : ℕ) (fuel : ℕ) :
    ∀ start, last + 1 - start ≤ fuel →
      blocks (fuel + extra) start last = blocks fuel start last := by
  induction fuel with
  | zero =>
    intro start hfuel
    cases extra with
    | zero => rfl
    | succ extra =>
      simp only [blocks]
      rw [if_neg (by omega)]
  | succ fuel ih =>
    intro start hfuel
    rw [Nat.succ_add, blocks, blocks]
    have hpos := Nat.two_pow_pos (blockBits start last)
    split_ifs
    · rw [ih _ (by omega)]
    · rfl

end Prefixes

/-! ## The prefixes of spaced ranges -/

section Meaning

variable {list : DirectList}

/-- The ranges as intervals of numbers. -/
def intervals (list : DirectList) : List (ℕ × ℕ) :=
  list.ranges.map fun r => (r.first.toNat, r.last.toNat)

/-- The blocks that an interval is cut into. -/
def intervalBlocks (i : ℕ × ℕ) : List Block :=
  (blocks (i.2 + 1 - i.1) i.1 i.2).map prefixBlock

theorem map_prefixBlock_prefixes (list : DirectList) :
    list.prefixes.map prefixBlock = (intervals list).flatMap intervalBlocks := by
  rw [prefixes, map_flatMap, intervals, flatMap_map]
  rfl

theorem cuts_intervals (h : Spaced list.ranges) : Cuts (intervals list) intervalBlocks where
  gaps := pairwise_map.2 h.gaps
  cut := by
    intro i hi
    obtain ⟨r, -, rfl⟩ := mem_map.1 hi
    exact blocks_cut r.last.toNat_lt _ _ le_rfl

theorem exists_interval_iff (n : ℕ) :
    (∃ i ∈ intervals list, i.1 ≤ n ∧ n ≤ i.2) ↔
      n < 2 ^ 32 ∧ Covered list.ranges (UInt32.ofNat n) := by
  have htoNat : n < 2 ^ 32 → (UInt32.ofNat n).toNat = n := by
    intro hlt
    rw [UInt32.toNat_ofNat', Nat.mod_eq_of_lt hlt]
  constructor
  · rintro ⟨i, hi, hn⟩
    obtain ⟨r, hr, rfl⟩ := mem_map.1 hi
    have hlt : n < 2 ^ 32 := hn.2.trans_lt r.last.toNat_lt
    refine ⟨hlt, r, hr, ?_⟩
    rw [contains_iff_toNat, htoNat hlt]
    exact hn
  · rintro ⟨hlt, r, hr, hn⟩
    rw [contains_iff_toNat, htoNat hlt] at hn
    exact ⟨_, mem_map.2 ⟨r, hr, rfl⟩, hn⟩

theorem contains_iff_interval (h : Spaced list.ranges) (address : Octets) :
    list.contains address = true ↔
      ∃ i ∈ intervals list, i.1 ≤ number address ∧ number address ≤ i.2 := by
  rw [contains_iff_covered h, exists_interval_iff, number, UInt32.ofNat_toNat,
    and_iff_right (UInt32.toNat_lt _)]

theorem exists_block_iff (ps : List Prefix) (n : ℕ) :
    (∃ b ∈ ps.map prefixBlock, b.Contains n) ↔ ∃ p ∈ ps, InNetwork p.1 p.2 n := by
  simp only [mem_map, exists_exists_and_eq_and, prefixBlock_contains_iff]

theorem routes_iff_contains (h : Spaced list.ranges) (address : Octets) :
    (∃ p ∈ list.prefixes, Routes p address) ↔ list.contains address = true := by
  rw [contains_iff_interval h, ← (cuts_intervals h).contains_iff, ← map_prefixBlock_prefixes,
    exists_block_iff]
  rfl

theorem prefixes_apart (h : Spaced list.ranges) :
    list.prefixes.Pairwise fun p q => ∀ address, Routes p address → ¬ Routes q address := by
  have hapart := (cuts_intervals h).apart
  rw [← map_prefixBlock_prefixes, pairwise_map] at hapart
  apply hapart.imp
  intro p q hpq address hp hq
  exact hpq (number address) ((prefixBlock_contains_iff p _).2 hp)
    ((prefixBlock_contains_iff q _).2 hq)

theorem prefixes_length_le (h : Spaced list.ranges) {other : List Prefix}
    (hother : ∀ address, (∃ p ∈ other, Routes p address) ↔ list.contains address = true) :
    list.prefixes.length ≤ other.length := by
  have hcuts := cuts_intervals h
  have hlength : ((intervals list).flatMap intervalBlocks).length ≤
      (other.map prefixBlock).length := by
    apply hcuts.length_le
    intro n
    rw [exists_block_iff]
    by_cases hlt : n < 2 ^ 32
    · have := hother (octetsOfU32 n)
      rw [contains_iff_interval h, number_octetsOfU32 hlt] at this
      rw [← this]
      simp only [Routes, number_octetsOfU32 hlt]
    · refine iff_of_false ?_ ?_
      · rintro ⟨p, -, hp⟩
        exact hlt (lt_of_inNetwork hp)
      · rw [exists_interval_iff]
        exact fun hn => hlt hn.1
  rwa [← map_prefixBlock_prefixes, length_map, length_map] at hlength

theorem prefixes_proper (list : DirectList) {p : Prefix} (hp : p ∈ list.prefixes) :
    p.2 ≤ 32 ∧ 2 ^ (32 - p.2) ∣ number p.1 := by
  obtain ⟨r, -, hblock⟩ := mem_flatMap.1 hp
  have hlast := r.last.toNat_lt
  -- Along the turns of the loop.
  have hall : ∀ fuel start, ∀ q ∈ blocks fuel start r.last.toNat,
      q.2 ≤ 32 ∧ 2 ^ (32 - q.2) ∣ number q.1 := by
    intro fuel
    induction fuel with
    | zero =>
      intro start q hq
      cases hq
    | succ fuel ih =>
      intro start q hq
      rw [blocks] at hq
      split_ifs at hq with hle
      · rcases mem_cons.1 hq with rfl | hq
        · have hbits := blockBits_le hle hlast
          have hsame : 32 - (32 - blockBits start r.last.toNat) =
              blockBits start r.last.toNat := by omega
          refine ⟨Nat.sub_le _ _, ?_⟩
          rw [hsame, number_octetsOfU32 (by omega)]
          exact (largest_blockBits hle hlast).fits.aligned
        · exact ih _ q hq
      · cases hq
  exact hall _ _ p hblock

theorem exists_prefix_le_iff (h : Spaced list.ranges) {length : ℕ} (hlength : length ≤ 32) :
    (∃ p ∈ list.prefixes, p.2 ≤ length) ↔
      ∃ address, ∀ other, InNetwork address length (number other) → list.contains other = true := by
  constructor
  · rintro ⟨p, hp, hle⟩
    refine ⟨p.1, ?_⟩
    intro other hother
    apply (routes_iff_contains h other).1
    refine ⟨p, hp, ?_⟩
    obtain ⟨d, hd⟩ := Nat.exists_eq_add_of_le (by omega : 32 - length ≤ 32 - p.2)
    rw [Routes, InNetwork, hd, pow_add, ← Nat.div_div_eq_div_mul, hother, Nat.div_div_eq_div_mul]
  rintro ⟨address, hall⟩
  have hcuts := cuts_intervals h
  -- The network is a block inside an interval, so it lies in one of the blocks that come out.
  have hinside : ∀ n, (prefixBlock (address, length)).Contains n →
      ∃ i ∈ intervals list, i.1 ≤ n ∧ n ≤ i.2 := by
    intro n hn
    rw [prefixBlock_contains_iff] at hn
    have hlt := lt_of_inNetwork hn
    have hcontains := hall (octetsOfU32 n) (by rwa [number_octetsOfU32 hlt])
    rwa [contains_iff_interval h, number_octetsOfU32 hlt] at hcontains
  obtain ⟨i, hi, hstart, hroom⟩ := hcuts.exists_interval hinside
  obtain ⟨b, hb, hwithin⟩ := (hcuts.cut i hi).exists_within hstart hroom
  have hmem : b ∈ list.prefixes.map prefixBlock := by
    rw [map_prefixBlock_prefixes]
    exact mem_flatMap.2 ⟨i, hi, hb⟩
  obtain ⟨p, hp, rfl⟩ := mem_map.1 hmem
  have hbits := Block.bits_le_of_within hwithin
  have hproper := (prefixes_proper list hp).1
  simp only [prefixBlock] at hbits
  exact ⟨p, hp, by omega⟩

/-- What a list means that is compiled from a request, without the excluded addresses. -/
structure MeansWhatWasWritten (spec : DirectSpec) (excluded : List Octets) (list : DirectList) :
    Prop where
  contains : ∀ address,
    list.contains address = true ↔ address ∉ excluded ∧ Listed spec (number address)
  ordered : Range.Ordered list.ranges
  names : ∀ name, list.matchesName name = true ↔
    ∃ text ∈ spec.domains.take maxDomains, NamesDomain text name false ∨
      ∃ base, NamesDomain text base true ∧ (name = base ∨ ∃ front, name = front ++ '.' :: base)
  ends : ∀ r ∈ list.ranges, ∀ extra,
    blocks (r.last.toNat + 1 - r.first.toNat + extra) r.first.toNat r.last.toNat =
      blocks (r.last.toNat + 1 - r.first.toNat) r.first.toNat r.last.toNat
  proper : ∀ p ∈ list.prefixes, p.2 ≤ 32 ∧ 2 ^ (32 - p.2) ∣ number p.1
  apart : list.prefixes.Pairwise fun p q => ∀ address, Routes p address → ¬ Routes q address
  exact : ∀ address, (∃ p ∈ list.prefixes, Routes p address) ↔ list.contains address = true
  fewest : ∀ other : List Prefix,
    (∀ address, (∃ p ∈ other, Routes p address) ↔ list.contains address = true) →
      list.prefixes.length ≤ other.length

end Meaning

/-! ## Compiled lists -/

section Compiled

/-- A compiled list means what was written in the first networks and domains of the request, after
any exclusions. -/
theorem compiled_list_means_what_was_written (spec : DirectSpec) (excluded : List Octets) :
    MeansWhatWasWritten spec excluded
      (excluded.foldl exclude (compile spec)) := by
  obtain ⟨hcompiled, hlisted⟩ := compile_spec spec
  obtain ⟨hspaced, hcovered⟩ := foldl_exclude_spec excluded hcompiled
  constructor
  case contains =>
    intro address
    rw [contains_iff_covered hspaced, hcovered, hlisted, and_comm]
    apply and_congr_left'
    constructor
    · intro h hmem
      exact h address hmem rfl
    · rintro hnot other hother heq
      have hsame : number address = number other := congrArg UInt32.toNat heq
      exact hnot (number_injective hsame ▸ hother)
  case ordered => exact hspaced.ordered
  case names => exact matchesName_spec spec excluded
  case ends => exact fun r _ extra => blocks_add _ extra _ _ le_rfl
  case proper => exact fun p => prefixes_proper _
  case apart => exact prefixes_apart hspaced
  case exact => exact routes_iff_contains hspaced
  case fewest => exact fun other => prefixes_length_le hspaced

/-- As many empty texts as are read, and a network behind them. -/
def crowdedSpec : DirectSpec :=
  ⟨List.replicate maxNetworks [] ++ [['1', '.', '1', '.', '1', '.', '1']], []⟩

theorem not_writes_nil {address : Octets} {length : ℕ} : ¬ Writes [] address length := by
  have hsplit : splitOnce '/' (trim []) = none := by decide
  have hparse : parseIpv4 (trim []) = none := by decide
  intro h
  cases h with
  | prefixed h => simp [hsplit] at h
  | single _ h => simp [hparse] at h

/-- The last network of the request is not read. -/
theorem crowded_network_is_not_contained :
    (∃ text ∈ crowdedSpec.networks, ∃ address length, Writes text address length ∧
        minPrefix ≤ length ∧ length ≤ 32 ∧ InNetwork address length (number (1, 1, 1, 1))) ∧
      (compile crowdedSpec).contains (1, 1, 1, 1) = false := by
  constructor
  · refine ⟨['1', '.', '1', '.', '1', '.', '1'], ?_, (1, 1, 1, 1), 32, ?_, ?_, le_rfl, rfl⟩
    · exact List.mem_append_right _ (List.mem_singleton.2 rfl)
    · exact .single (by decide) (by decide)
    · decide
  obtain ⟨hspaced, hlisted⟩ := compile_spec crowdedSpec
  rw [Bool.eq_false_iff, ne_eq, contains_iff_covered hspaced, hlisted]
  rintro ⟨text, htext, address, length, hwrites, -⟩
  rw [crowdedSpec, List.take_left' List.length_replicate] at htext
  obtain rfl := List.eq_of_mem_replicate htext
  exact not_writes_nil hwrites

/-- No prefix of a compiled list is as short as those of the routes into the tunnel, exactly when
the networks leave out something of the lower half and something of the upper half of all addresses.
-/
theorem no_wide_prefix_iff (spec : DirectSpec) :
    (∀ p ∈ (compile spec).prefixes, p.2 ≠ 0 ∧ p.2 ≠ 1) ↔
      (∃ n, n < 2 ^ 31 ∧ ¬ Listed spec n) ∧ ∃ n, 2 ^ 31 ≤ n ∧ n < 2 ^ 32 ∧ ¬ Listed spec n := by
  obtain ⟨hspaced, hlisted⟩ := compile_spec spec
  have hcontains : ∀ n, n < 2 ^ 32 →
      ((compile spec).contains (octetsOfU32 n) = true ↔ Listed spec n) := by
    intro n hn
    rw [contains_iff_covered hspaced, hlisted]
    exact Iff.of_eq (congrArg (Listed spec) (number_octetsOfU32 hn))
  have hwide : (∀ p ∈ (compile spec).prefixes, p.2 ≠ 0 ∧ p.2 ≠ 1) ↔
      ¬ ∃ p ∈ (compile spec).prefixes, p.2 ≤ 1 := by
    rw [not_exists]
    apply forall_congr'
    intro p
    rw [not_and]
    apply forall_congr'
    intro _
    omega
  -- A network of one bit is one of the halves.
  have hhalf : ∀ first : Octets,
      (∀ other, InNetwork first 1 (number other) →
        (compile spec).contains other = true) ↔
      ∀ n, n < 2 ^ 32 → n / 2 ^ 31 = number first / 2 ^ 31 → Listed spec n := by
    intro first
    constructor
    · intro h n hn hdiv
      apply (hcontains n hn).1 (h _ _)
      rw [number_octetsOfU32 hn]
      exact hdiv
    intro h other hother
    have hn := number_lt other
    have hsame : octetsOfU32 (number other) = other :=
      number_injective (number_octetsOfU32 hn)
    rw [← hsame, hcontains _ hn]
    exact h _ hn hother
  rw [hwide, exists_prefix_le_iff hspaced (by omega)]
  simp only [hhalf]
  constructor
  · intro hnone
    rw [not_exists] at hnone
    have hlower := hnone (octetsOfU32 0)
    have hupper := hnone (octetsOfU32 (2 ^ 31))
    rw [number_octetsOfU32 (by norm_num)] at hlower hupper
    push Not at hlower hupper
    obtain ⟨n, hn, hdiv, hlisted⟩ := hlower
    obtain ⟨m, hm, hdiv', hlisted'⟩ := hupper
    exact ⟨⟨n, by omega, hlisted⟩, m, by omega, hm, hlisted'⟩
  · rintro ⟨⟨n, hn, hlisted⟩, m, hle, hm, hlisted'⟩ ⟨first, hall⟩
    have hfirst := number_lt first
    by_cases hlower : number first < 2 ^ 31
    · exact hlisted (hall n (by omega) (by omega))
    · exact hlisted' (hall m hm (by omega))

/-- The networks `0.0.0.0/8` to `127.0.0.0/8`. -/
def lowerHalf : DirectSpec :=
  ⟨(List.range 128).map fun n => Nat.toDigits 10 n ++ ['.', '0', '.', '0', '.', '0', '/', '8'], []⟩

/-- Merged, they are one network that ties with the route `0.0.0.0/1` into the tunnel. -/
theorem lower_half_is_one_prefix :
    (compile lowerHalf).prefixes = [((0, 0, 0, 0), 1)] := by
  decide +kernel

end Compiled

end GamePath.Engine.Direct
