import GamePath.Engine.DirectList

/-!
# The ranges of a direct list

Merging makes of any parsed networks ranges that are `Spaced`: none is empty, and between two of
them lies an address that neither has. Excluding an address keeps that. The addresses of the ranges
are those of the networks without the excluded ones, and `contains` finds them.
-/

namespace GamePath.Engine.Direct

open Lib List Engine.Addresses
open DirectList (addDomain afterDots compile exclude)
open UInt32 (le_iff_toNat_le lt_iff_toNat_lt toNat_add toNat_ofNat' toNat_one toNat_or)

/-! ## Addresses and their numbers -/

section Numbers

/-- The number of an address. -/
def number (address : Octets) : ℕ := (u32OfOctets address).toNat

theorem number_lt (address : Octets) : number address < 2 ^ 32 := UInt32.toNat_lt _

theorem shiftLeft_or {high low : ℕ} {shift : ℕ} (hlow : low < 2 ^ shift) :
    high <<< shift ||| low = high * 2 ^ shift + low := by
  rw [← Nat.shiftLeft_add_eq_or_of_lt hlow, Nat.shiftLeft_eq]

theorem number_eq (address : Octets) :
    number address = address.1.toNat * 2 ^ 24 + address.2.1.toNat * 2 ^ 16 +
      address.2.2.1.toNat * 2 ^ 8 + address.2.2.2.toNat := by
  obtain ⟨a, b, c, d⟩ := address
  have hb := b.toNat_lt
  have hc := c.toNat_lt
  have hd := d.toNat_lt
  have hshift : ∀ (octet : UInt8) (shift : UInt32), shift.toNat ≤ 24 →
      (octet.toUInt32 <<< shift).toNat = octet.toNat <<< shift.toNat := by
    intro octet shift hle
    have hoctet := octet.toNat_lt
    have hpow : 2 ^ shift.toNat ≤ 2 ^ 24 := Nat.pow_le_pow_right (by omega) hle
    rw [UInt32.toNat_shiftLeft, Nat.mod_eq_of_lt (by omega : shift.toNat < 32)]
    apply Nat.mod_eq_of_lt
    rw [Nat.shiftLeft_eq]
    calc octet.toNat * 2 ^ shift.toNat ≤ 255 * 2 ^ 24 := Nat.mul_le_mul (by omega) hpow
      _ < 2 ^ 32 := by norm_num
  have hparts : number (a, b, c, d) =
      a.toNat <<< 24 ||| (b.toNat <<< 16 ||| (c.toNat <<< 8 ||| d.toNat)) := by
    simp only [number, u32OfOctets, toNat_or, UInt8.toNat_toUInt32, Nat.or_assoc]
    rw [hshift a 24 (by decide), hshift b 16 (by decide), hshift c 8 (by decide)]
    rfl
  have hlow : c.toNat <<< 8 ||| d.toNat = c.toNat * 2 ^ 8 + d.toNat := shiftLeft_or (by omega)
  have hmiddle : b.toNat <<< 16 ||| (c.toNat * 2 ^ 8 + d.toNat) =
      b.toNat * 2 ^ 16 + (c.toNat * 2 ^ 8 + d.toNat) := shiftLeft_or (by omega)
  rw [hparts, hlow, hmiddle, shiftLeft_or (by omega)]
  simp only [Nat.add_assoc]

theorem number_octetsOfU32 {n : ℕ} (h : n < 2 ^ 32) : number (DirectList.octetsOfU32 n) = n := by
  simp only [number_eq, DirectList.octetsOfU32, UInt8.toNat_ofNat']
  omega

theorem number_injective {address other : Octets} (h : number address = number other) :
    address = other := by
  obtain ⟨a, b, c, d⟩ := address
  obtain ⟨a', b', c', d'⟩ := other
  rw [number_eq, number_eq] at h
  have hbound : ∀ octet : UInt8, octet.toNat < 2 ^ 8 := UInt8.toNat_lt
  have := hbound b
  have := hbound c
  have := hbound d
  have := hbound b'
  have := hbound c'
  have := hbound d'
  simp only [Prod.mk.injEq, ← UInt8.toNat_inj]
  dsimp only at h
  omega

end Numbers

/-! ## Networks -/

section Networks

/-- The numbers of a network agree with its address in the bits of the prefix. -/
def InNetwork (address : Octets) (length n : ℕ) : Prop :=
  n / 2 ^ (32 - length) = number address / 2 ^ (32 - length)

theorem toNat_mask {k : ℕ} (hk : k < 32) :
    (UInt32.ofNat (2 ^ 32 - 1) <<< UInt32.ofNat k).toNat = 2 ^ 32 - 2 ^ k := by
  have hpow : 2 ^ k ≤ 2 ^ 32 := Nat.pow_le_pow_right (by omega) (by omega)
  rw [UInt32.toNat_shiftLeft, toNat_ofNat', toNat_ofNat',
    Nat.mod_eq_of_lt (by omega : 2 ^ 32 - 1 < 2 ^ 32), Nat.mod_eq_of_lt (by omega : k < 2 ^ 32),
    Nat.mod_eq_of_lt hk, Nat.shiftLeft_eq, Nat.sub_mul, Nat.one_mul]
  have hsplit : 2 ^ 32 * 2 ^ k - 2 ^ k = (2 ^ 32 - 2 ^ k) + 2 ^ 32 * (2 ^ k - 1) := by
    have hpos : 0 < 2 ^ k := Nat.two_pow_pos k
    omega
  rw [hsplit, Nat.add_mul_mod_self_left, Nat.mod_eq_of_lt (by omega)]

theorem and_mask {n k : ℕ} (hn : n < 2 ^ 32) (hk : k ≤ 32) :
    n &&& (2 ^ 32 - 2 ^ k) = n / 2 ^ k * 2 ^ k := by
  have hmask : 2 ^ 32 - 2 ^ k = 2 ^ k * (2 ^ (32 - k) - 1) := by
    rw [Nat.mul_sub, ← pow_add, Nat.add_sub_cancel' hk, Nat.mul_one]
  rw [hmask, Nat.mul_comm (n / 2 ^ k)]
  apply Nat.eq_of_testBit_eq
  intro j
  rw [Nat.testBit_and, Nat.testBit_two_pow_mul, Nat.testBit_two_pow_mul, Nat.testBit_div_two_pow]
  by_cases hlow : j ≥ k
  · rw [Nat.sub_add_cancel hlow]
    by_cases hhigh : j < 32
    · have hroom : j - k < 32 - k := by omega
      simp [hlow, hroom]
    · -- The number has no bits up there.
      have hpow : 2 ^ 32 ≤ 2 ^ j := Nat.pow_le_pow_right (by omega) (by omega)
      rw [Nat.testBit_lt_two_pow (by omega : n < 2 ^ j)]
      simp
  · simp [hlow]

theorem networkRange_contains_iff (address : Octets) {length : ℕ} (hmin : minPrefix ≤ length)
    (a : UInt32) :
    (networkRange address length).Contains a ↔ InNetwork address length a.toNat := by
  have hk : 32 - length < 32 := by
    rw [minPrefix] at hmin
    omega
  have hpos : 0 < 2 ^ (32 - length) := Nat.two_pow_pos _
  have hpow : 2 ^ (32 - length) ≤ 2 ^ 32 := Nat.pow_le_pow_right (by omega) (by omega)
  have hfirst : (networkRange address length).first.toNat =
      number address / 2 ^ (32 - length) * 2 ^ (32 - length) := by
    simp only [networkRange, UInt32.toNat_and]
    rw [toNat_mask hk, ← and_mask (number_lt address) (by omega), number]
  have hmask : (~~~(UInt32.ofNat (2 ^ 32 - 1) <<< UInt32.ofNat (32 - length))).toNat =
      2 ^ (32 - length) - 1 := by
    rw [UInt32.toNat_not, toNat_mask hk, UInt32.size]
    omega
  have hlast : (networkRange address length).last.toNat =
      number address / 2 ^ (32 - length) * 2 ^ (32 - length) + (2 ^ (32 - length) - 1) := by
    have hor : (networkRange address length).last.toNat =
        (networkRange address length).first.toNat |||
          (~~~(UInt32.ofNat (2 ^ 32 - 1) <<< UInt32.ofNat (32 - length))).toNat := by
      simp only [networkRange, toNat_or]
    rw [hor, hfirst, hmask, ← Nat.shiftLeft_eq, shiftLeft_or (by omega), Nat.shiftLeft_eq]
  rw [Range.Contains, le_iff_toNat_le, le_iff_toNat_le, hfirst, hlast, InNetwork,
    Nat.div_eq_iff hpos, Nat.add_sub_assoc hpos]

end Networks

/-! ## Spaced ranges -/

section Spaced

/-- No range is empty, and between two ranges lies an address that neither has. -/
structure Spaced (ranges : List AddressRange) : Prop where
  proper : ∀ r ∈ ranges, r.first ≤ r.last
  gaps : ranges.Pairwise fun r r' => r.last.toNat + 1 < r'.first.toNat

/-- Some range has the number. -/
def Covered (ranges : List AddressRange) (a : UInt32) : Prop := ∃ r ∈ ranges, r.Contains a

variable {ranges : List AddressRange} {a : UInt32} {r : AddressRange}

theorem Spaced.ordered (h : Spaced ranges) : Range.Ordered ranges where
  proper := h.proper
  apart := by
    apply h.gaps.imp
    intro r r' hgap
    rw [lt_iff_toNat_lt]
    omega

theorem contains_iff_toNat :
    r.Contains a ↔ r.first.toNat ≤ a.toNat ∧ a.toNat ≤ r.last.toNat := by
  rw [Range.Contains, le_iff_toNat_le, le_iff_toNat_le]

theorem find_eq_none_iff (h : Spaced ranges) : Range.find ranges a = none ↔ ¬ Covered ranges a := by
  rw [Option.eq_none_iff_forall_ne_some]
  constructor
  · rintro hnone ⟨r, hr⟩
    exact hnone r (h.ordered.find_eq_some_iff.2 hr)
  · rintro hnot r hfind
    exact hnot ⟨r, h.ordered.find_eq_some_iff.1 hfind⟩

theorem contains_eq_find (list : DirectList) (address : Octets) :
    list.contains address = (Range.find list.ranges (u32OfOctets address)).isSome := by
  simp only [DirectList.contains, DirectList.rangesUpTo, Range.find]
  split
  · rename_i hzero
    simp [hzero]
  · rename_i index hindex
    rw [hindex]
    cases hget : list.ranges[index]? with
    | none => simp [hget]
    | some range => by_cases hle : u32OfOctets address ≤ range.last <;> simp [hget, hle]

theorem contains_iff_covered {list : DirectList} (h : Spaced list.ranges) (address : Octets) :
    list.contains address = true ↔ Covered list.ranges (u32OfOctets address) := by
  rw [contains_eq_find, Option.isSome_iff_ne_none, ne_eq, find_eq_none_iff h, not_not]

end Spaced

/-! ## Merging -/

section Merging

variable {merged rest : List AddressRange} {range previous : AddressRange}

theorem toNat_saturatingAdd_one (a : UInt32) :
    (saturatingAdd a 1).toNat = min (a.toNat + 1) (2 ^ 32 - 1) := by
  rw [saturatingAdd]
  split_ifs with hroom
  · rw [toNat_add, toNat_one] at *
    omega
  · rw [toNat_one] at hroom
    rw [toNat_ofNat']
    omega

theorem spaced_reverse_cons {r : AddressRange} :
    Spaced (r :: rest).reverse ↔
      r.first ≤ r.last ∧ (∀ p ∈ rest, p.last.toNat + 1 < r.first.toNat) ∧ Spaced rest.reverse := by
  rw [reverse_cons]
  constructor
  · rintro ⟨hproper, hgaps⟩
    obtain ⟨hrest, -, hlast⟩ := pairwise_append.1 hgaps
    refine ⟨hproper r (by simp), ?_, fun p hp => hproper p (by simp_all), hrest⟩
    intro p hp
    exact hlast p (mem_reverse.2 hp) r (by simp)
  rintro ⟨hr, hlast, hproper, hgaps⟩
  refine ⟨?_, pairwise_append.2 ⟨hgaps, pairwise_singleton _ _, ?_⟩⟩
  · intro p hp
    rcases mem_append.1 hp with hp | hp
    · exact hproper p hp
    · rw [mem_singleton.1 hp]
      exact hr
  · intro p hp q hq
    rw [mem_singleton.1 hq]
    exact hlast p (mem_reverse.1 hp)

theorem covered_cons {r : AddressRange} {a : UInt32} :
    Covered (r :: rest) a ↔ r.Contains a ∨ Covered rest a :=
  exists_mem_cons_iff _ _ _

/-- A range that starts no earlier than the last merged one is added to the merged ones. These are
held with the last one first. -/
theorem mergeRange_spec (h : Spaced merged.reverse) (hrange : range.first ≤ range.last)
    (hlater : ∀ r ∈ merged.head?, r.first ≤ range.first) :
    Spaced (mergeRange merged range).reverse ∧
      (∀ a, Covered (mergeRange merged range) a ↔ Covered merged a ∨ range.Contains a) ∧
      ∀ r ∈ (mergeRange merged range).head?, r.first ≤ range.first := by
  cases merged with
  | nil =>
    refine ⟨⟨?_, by simp [mergeRange]⟩, ?_, ?_⟩
    · simpa [mergeRange] using hrange
    · simp [mergeRange, Covered]
    · simp [mergeRange]
  | cons previous rest =>
    have hfirst : previous.first ≤ range.first := hlater previous (by simp)
    obtain ⟨hprevious, hbefore, hrest⟩ := spaced_reverse_cons.1 h
    have hjoin : range.first ≤ saturatingAdd previous.last 1 ↔
        range.first.toNat ≤ previous.last.toNat + 1 := by
      have hbound := range.first.toNat_lt
      rw [le_iff_toNat_le, toNat_saturatingAdd_one]
      omega
    rw [le_iff_toNat_le] at hprevious hrange hfirst
    rw [mergeRange]
    split_ifs with hjoined
    · -- The range starts within the last one or right after it, so the two become one.
      rw [hjoin] at hjoined
      have hlast : (max previous.last range.last).toNat =
          max previous.last.toNat range.last.toNat := by
        rcases le_total previous.last range.last with hle | hle
        · rw [max_eq_right hle, max_eq_right (le_iff_toNat_le.1 hle)]
        · rw [max_eq_left hle, max_eq_left (le_iff_toNat_le.1 hle)]
      refine ⟨spaced_reverse_cons.2 ⟨?_, hbefore, hrest⟩, ?_, ?_⟩
      · rw [le_iff_toNat_le, hlast]
        exact hprevious.trans (le_max_left _ _)
      · intro a
        rw [covered_cons, covered_cons, contains_iff_toNat, contains_iff_toNat, contains_iff_toNat]
        dsimp only
        constructor
        · rintro (hin | hin)
          · by_cases hold : a.toNat ≤ previous.last.toNat
            · exact .inl (.inl ⟨hin.1, hold⟩)
            · exact .inr (by omega)
          · exact .inl (.inr hin)
        · rintro ((hin | hin) | hin)
          · exact .inl (by omega)
          · exact .inr hin
          · exact .inl (by omega)
      · intro r hr
        cases hr
        exact le_iff_toNat_le.2 hfirst
    · rw [hjoin] at hjoined
      refine ⟨spaced_reverse_cons.2 ⟨?_, ?_, h⟩, ?_, ?_⟩
      · exact le_iff_toNat_le.2 hrange
      · intro p hp
        rcases mem_cons.1 hp with rfl | hp
        · omega
        · have := hbefore p hp
          omega
      · intro a
        rw [covered_cons]
        exact or_comm
      · intro r hr
        cases hr
        exact le_rfl

theorem foldl_mergeRange_spec (ranges : List AddressRange) :
    ∀ merged : List AddressRange, Spaced merged.reverse → (∀ r ∈ ranges, r.first ≤ r.last) →
      ranges.Pairwise (fun r r' => r.first ≤ r'.first) →
      (∀ r ∈ merged.head?, ∀ r' ∈ ranges, r.first ≤ r'.first) →
      Spaced (ranges.foldl mergeRange merged).reverse ∧
        ∀ a, Covered (ranges.foldl mergeRange merged) a ↔ Covered merged a ∨ Covered ranges a := by
  induction ranges with
  | nil =>
    intro merged h _ _ _
    exact ⟨h, by simp [Covered]⟩
  | cons range rest ih =>
    intro merged h hproper hsorted hlater
    obtain ⟨hrange, hrest⟩ := forall_mem_cons.1 hproper
    obtain ⟨hbefore, hsorted'⟩ := pairwise_cons.1 hsorted
    obtain ⟨hspaced, hcovered, hhead⟩ :=
      mergeRange_spec h hrange (fun r hr => hlater r hr range mem_cons_self)
    obtain ⟨hspaced', hcovered'⟩ := ih _ hspaced hrest hsorted'
      (fun r hr r' hr' => (hhead r hr).trans (hbefore r' hr'))
    refine ⟨hspaced', ?_⟩
    intro a
    rw [foldl_cons, hcovered', hcovered, covered_cons, or_assoc]

theorem merge_spec {ranges : List AddressRange} (hproper : ∀ r ∈ ranges, r.first ≤ r.last) :
    Spaced (merge ranges) ∧ ∀ a, Covered (merge ranges) a ↔ Covered ranges a := by
  let before : AddressRange → AddressRange → Prop := fun r r' =>
    r.first < r'.first ∨ (r.first = r'.first ∧ r.last ≤ r'.last)
  have hperm : (ranges.insertionSort before).Perm ranges := perm_insertionSort _ _
  have hsorted : (ranges.insertionSort before).Pairwise fun r r' => r.first ≤ r'.first := by
    have : Std.Total before := ⟨by
      intro r r'
      grind⟩
    have : IsTrans AddressRange before := ⟨by
      intro r r' r'' h h'
      grind⟩
    apply (pairwise_insertionSort before ranges).imp
    rintro r r' (hlt | ⟨heq, -⟩)
    · exact hlt.le
    · exact heq.le
  obtain ⟨hspaced, hcovered⟩ := foldl_mergeRange_spec (ranges.insertionSort before)
    [] ⟨by simp, by simp⟩ (fun r hr => hproper r (hperm.mem_iff.1 hr)) hsorted (by simp)
  refine ⟨hspaced, ?_⟩
  intro a
  have hmerge : Covered (merge ranges) a ↔
      Covered ((ranges.insertionSort before).foldl mergeRange []) a := by
    simp only [merge, Covered, mem_reverse, before]
  rw [hmerge, hcovered]
  simp only [Covered, hperm.mem_iff, not_mem_nil, false_and, exists_false, false_or]

end Merging

/-! ## Excluding -/

section Excluding

variable {before pieces after : List AddressRange} {range : AddressRange} {a : UInt32}

theorem covered_append {ranges ranges' : List AddressRange} :
    Covered (ranges ++ ranges') a ↔ Covered ranges a ∨ Covered ranges' a := by
  simp only [Covered, mem_append, or_and_right, exists_or]

theorem spaced_replace (h : Spaced (before ++ range :: after)) (hpieces : Spaced pieces)
    (hin : ∀ p ∈ pieces, range.first ≤ p.first ∧ p.last ≤ range.last) :
    Spaced (before ++ pieces ++ after) := by
  obtain ⟨hproper, hgaps⟩ := h
  obtain ⟨hbefore, htail, hcross⟩ := pairwise_append.1 hgaps
  obtain ⟨hrange, hafter⟩ := pairwise_cons.1 htail
  constructor
  · intro p hp
    rw [append_assoc, mem_append, mem_append] at hp
    rcases hp with hp | hp | hp
    · exact hproper p (mem_append_left _ hp)
    · exact hpieces.proper p hp
    · exact hproper p (mem_append_right _ (mem_cons_of_mem _ hp))
  rw [append_assoc, pairwise_append, pairwise_append]
  refine ⟨hbefore, ⟨hpieces.gaps, hafter, ?_⟩, ?_⟩
  · intro p hp q hq
    have hlast := le_iff_toNat_le.1 (hin p hp).2
    have := hrange q hq
    omega
  intro p hp q hq
  rcases mem_append.1 hq with hq | hq
  · have hfirst := le_iff_toNat_le.1 (hin q hq).1
    have := hcross p hp range mem_cons_self
    omega
  · exact hcross p hp q (mem_cons_of_mem _ hq)

/-- What is left of a range on both sides of one of its numbers. -/
def around (range : AddressRange) (a : UInt32) : List AddressRange :=
  (if range.first < a then [⟨range.first, a - 1, ()⟩] else []) ++
    if a < range.last then [⟨a + 1, range.last, ()⟩] else []

theorem mem_around {p : AddressRange} :
    p ∈ around range a ↔
      (range.first < a ∧ p = ⟨range.first, a - 1, ()⟩) ∨
      (a < range.last ∧ p = ⟨a + 1, range.last, ()⟩) := by
  simp only [around, mem_append, mem_ite_nil_right, mem_singleton]

theorem toNat_sub_one {b : UInt32} (h : b < a) : (a - 1).toNat = a.toNat - 1 := by
  have := lt_iff_toNat_lt.1 h
  rw [UInt32.toNat_sub_of_le _ _ (by rw [le_iff_toNat_le, toNat_one]; omega),
    toNat_one]

theorem toNat_add_one {b : UInt32} (h : a < b) : (a + 1).toNat = a.toNat + 1 := by
  have hlt := lt_iff_toNat_lt.1 h
  have := b.toNat_lt
  rw [toNat_add, toNat_one, Nat.mod_eq_of_lt (by omega)]

theorem spaced_around (range : AddressRange) (a : UInt32) : Spaced (around range a) := by
  constructor
  · intro p hp
    rcases mem_around.1 hp with ⟨hlt, rfl⟩ | ⟨hlt, rfl⟩ <;> rw [le_iff_toNat_le] <;> dsimp only
    · have := lt_iff_toNat_lt.1 hlt
      rw [toNat_sub_one hlt]
      omega
    · have := lt_iff_toNat_lt.1 hlt
      rw [toNat_add_one hlt]
      omega
  rw [around]
  split_ifs with hfirst hlast hlast
  · have := lt_iff_toNat_lt.1 hfirst
    simp only [cons_append, nil_append, pairwise_cons, mem_singleton,
      forall_eq, toNat_sub_one hfirst, toNat_add_one hlast]
    refine ⟨by omega, by simp⟩
  all_goals simp

theorem around_within {p : AddressRange} (ha : range.Contains a) (hp : p ∈ around range a) :
    range.first ≤ p.first ∧ p.last ≤ range.last := by
  rw [contains_iff_toNat] at ha
  rcases mem_around.1 hp with ⟨hlt, rfl⟩ | ⟨hlt, rfl⟩ <;>
    simp only [le_iff_toNat_le]
  · rw [toNat_sub_one hlt]
    omega
  · rw [toNat_add_one hlt]
    omega

theorem covered_around {b : UInt32} (ha : range.Contains a) :
    Covered (around range a) b ↔ range.Contains b ∧ b ≠ a := by
  rw [contains_iff_toNat] at ha
  have hne : b ≠ a ↔ b.toNat ≠ a.toNat := not_congr UInt32.toNat_inj.symm
  have hmem : Covered (around range a) b ↔
      (range.first < a ∧ (⟨range.first, a - 1, ()⟩ : AddressRange).Contains b) ∨
      (a < range.last ∧ (⟨a + 1, range.last, ()⟩ : AddressRange).Contains b) := by
    simp only [Covered, mem_around, or_and_right, exists_or, and_assoc, exists_and_left,
      exists_eq_left]
  rw [hmem, hne]
  simp only [contains_iff_toNat]
  constructor
  · rintro (⟨hlt, hin⟩ | ⟨hlt, hin⟩)
    · rw [toNat_sub_one hlt] at hin
      have := lt_iff_toNat_lt.1 hlt
      omega
    · rw [toNat_add_one hlt] at hin
      omega
  rintro ⟨⟨hfirst, hlast⟩, hother⟩
  rcases Nat.lt_or_gt_of_ne hother with hbelow | habove
  · have hlt : range.first < a := lt_iff_toNat_lt.2 (by omega)
    refine .inl ⟨hlt, ?_⟩
    rw [toNat_sub_one hlt]
    omega
  · have hlt : a < range.last := lt_iff_toNat_lt.2 (by omega)
    refine .inr ⟨hlt, ?_⟩
    rw [toNat_add_one hlt]
    omega

/-- Excluding leaves the list as it is when no range has the address, and else puts what is around
the address in the place of the range that has it. -/
theorem exclude_cases {list : DirectList} (h : Spaced list.ranges) (address : Octets) :
    (list.exclude address = list ∧ ¬ Covered list.ranges (u32OfOctets address)) ∨
    ∃ before range after, list.ranges = before ++ range :: after ∧
      range.Contains (u32OfOctets address) ∧
      list.exclude address =
        { list with ranges := before ++ around range (u32OfOctets address) ++ after } := by
  have hfind := @find_eq_none_iff list.ranges (u32OfOctets address) h
  have hsome := fun r => @Range.Ordered.find_eq_some_iff _ _ _ list.ranges (u32OfOctets address) r
    h.ordered
  simp only [Range.find] at hfind hsome
  simp only [exclude, DirectList.rangesUpTo]
  cases hindex : partitionPoint (fun r => decide (r.first ≤ u32OfOctets address)) list.ranges with
  | zero =>
    rw [hindex] at hfind
    exact .inl ⟨rfl, hfind.1 rfl⟩
  | succ index =>
    rw [hindex] at hfind hsome
    cases hget : list.ranges[index]? with
    | none =>
      simp only [hget, Option.filter_none, true_iff] at hfind
      refine .inl ⟨?_, hfind⟩
      simp only [hget]
    | some range =>
      simp only [hget, Option.filter] at hfind hsome
      by_cases hpast : u32OfOctets address > range.last
      · have hle : ¬ u32OfOctets address ≤ range.last := not_le.2 hpast
        simp only [hle, decide_false, Bool.false_eq_true, if_false, true_iff] at hfind
        refine .inl ⟨?_, hfind⟩
        simp only [hget, if_pos hpast]
      have hle : u32OfOctets address ≤ range.last := not_lt.1 hpast
      simp only [hle, decide_true, if_true] at hsome
      refine .inr ⟨list.ranges.take index, range, list.ranges.drop (index + 1), ?_,
        ((hsome range).1 rfl).2, ?_⟩
      · obtain ⟨hlt, hrange⟩ := List.getElem?_eq_some_iff.1 hget
        rw [← hrange, ← drop_eq_getElem_cons hlt, take_append_drop]
      · simp only [hget, if_neg hpast, around]

theorem exclude_spec {list : DirectList} (h : Spaced list.ranges) (address : Octets) :
    Spaced (list.exclude address).ranges ∧
      ∀ a, Covered (list.exclude address).ranges a ↔
        Covered list.ranges a ∧ a ≠ u32OfOctets address := by
  rcases exclude_cases h address with ⟨heq, hnot⟩ | ⟨before, range, after, hranges, hin, heq⟩
  · rw [heq]
    refine ⟨h, ?_⟩
    intro a
    refine ⟨fun ha => ⟨ha, ?_⟩, And.left⟩
    rintro rfl
    exact hnot ha
  rw [heq]
  rw [hranges] at h ⊢
  refine ⟨spaced_replace h (spaced_around _ _) (fun p hp => around_within hin hp), ?_⟩
  intro a
  rw [covered_append, covered_append, covered_around hin, covered_append, covered_cons]
  -- The other ranges do not have the address.
  have hother : ∀ r ∈ before ++ after, ¬ r.Contains (u32OfOctets address) := by
    intro r hr hcontains
    have hbefore := pairwise_append.1 h.gaps
    have hafter := pairwise_cons.1 hbefore.2.1
    rw [contains_iff_toNat] at hin hcontains
    rcases mem_append.1 hr with hr | hr
    · have := hbefore.2.2 r hr range mem_cons_self
      omega
    · have := hafter.1 r hr
      omega
  have hleft : Covered before a → a ≠ u32OfOctets address := by
    rintro ⟨r, hr, hcontains⟩ rfl
    exact hother r (mem_append_left _ hr) hcontains
  have hright : Covered after a → a ≠ u32OfOctets address := by
    rintro ⟨r, hr, hcontains⟩ rfl
    exact hother r (mem_append_right _ hr) hcontains
  tauto

end Excluding

/-! ## Compiling -/

section Compiling

/-- The text is a network: an address in dotted form and, after a slash, the length of its prefix.
-/
inductive Writes : Text → Octets → ℕ → Prop where
  | prefixed {text address length : Text} {octets : Octets} {n : ℕ} :
      splitOnce '/' (trim text) = some (address, length) → parseU8 length = some n →
        parseIpv4 address = some octets → Writes text octets n
  | single {text : Text} {octets : Octets} :
      splitOnce '/' (trim text) = none → parseIpv4 (trim text) = some octets → Writes text octets 32

theorem parseNetwork_eq_some_iff {text : Text} {range : AddressRange} :
    parseNetwork text = some range ↔
      ∃ address length, Writes text address length ∧ minPrefix ≤ length ∧ length ≤ 32 ∧
        range = networkRange address length := by
  constructor
  · intro h
    cases hsplit : splitOnce '/' (trim text) with
    | none =>
      simp only [parseNetwork, hsplit, Option.bind_eq_bind, Option.bind_some,
        Option.bind_eq_some_iff] at h
      obtain ⟨address, haddress, hrange⟩ := h
      obtain ⟨⟨hmin, hmax⟩, heq⟩ := Option.ite_none_right_eq_some.1 hrange
      exact ⟨address, 32, .single hsplit haddress, hmin, hmax, (Option.some.inj heq).symm⟩
    | some parts =>
      simp only [parseNetwork, hsplit, Option.bind_eq_bind, Option.bind_eq_some_iff,
        Option.map_eq_some_iff] at h
      obtain ⟨-, ⟨length, hlength, rfl⟩, address, haddress, hrange⟩ := h
      obtain ⟨⟨hmin, hmax⟩, heq⟩ := Option.ite_none_right_eq_some.1 hrange
      exact ⟨address, length, .prefixed hsplit hlength haddress, hmin, hmax,
        (Option.some.inj heq).symm⟩
  · rintro ⟨address, length, hwrites, hmin, hmax, rfl⟩
    cases hwrites with
    | prefixed hsplit hlength haddress =>
      simp [parseNetwork, hsplit, hlength, haddress, hmin, hmax]
    | single hsplit haddress =>
      simp [parseNetwork, hsplit, haddress, minPrefix]

theorem networkRange_proper (address : Octets) {length : ℕ} (hmin : minPrefix ≤ length) :
    (networkRange address length).first ≤ (networkRange address length).last := by
  have hself : (networkRange address length).Contains (u32OfOctets address) :=
    (networkRange_contains_iff address hmin _).2 rfl
  exact hself.1.trans hself.2

theorem foldl_addDomain_ranges (domains : List Text) :
    ∀ list : DirectList, (domains.foldl addDomain list).ranges = list.ranges := by
  induction domains with
  | nil => exact fun _ => rfl
  | cons domain rest ih =>
    intro list
    rw [foldl_cons, ih, addDomain]
    split <;> rfl

theorem compile_ranges (spec : DirectSpec) :
    (compile spec).ranges =
      merge ((spec.networks.take maxNetworks).filterMap parseNetwork) := by
  simp only [compile, foldl_addDomain_ranges, filterMap_map]
  rfl

/-- Some network among the first ones of the request has the number. -/
def Listed (spec : DirectSpec) (n : ℕ) : Prop :=
  ∃ text ∈ spec.networks.take maxNetworks, ∃ address length, Writes text address length ∧
    minPrefix ≤ length ∧ length ≤ 32 ∧ InNetwork address length n

theorem compile_spec (spec : DirectSpec) :
    Spaced (compile spec).ranges ∧
      ∀ a, Covered (compile spec).ranges a ↔ Listed spec a.toNat := by
  have hmem : ∀ r, r ∈ (spec.networks.take maxNetworks).filterMap parseNetwork ↔
      ∃ text ∈ spec.networks.take maxNetworks, ∃ address length, Writes text address length ∧
        minPrefix ≤ length ∧ length ≤ 32 ∧ r = networkRange address length := by
    intro r
    simp only [mem_filterMap, parseNetwork_eq_some_iff]
  obtain ⟨hspaced, hcovered⟩ :=
    @merge_spec ((spec.networks.take maxNetworks).filterMap parseNetwork) (by
      intro r hr
      obtain ⟨text, -, address, length, -, hmin, -, rfl⟩ := (hmem r).1 hr
      exact networkRange_proper address hmin)
  rw [compile_ranges]
  refine ⟨hspaced, ?_⟩
  intro a
  rw [hcovered]
  constructor
  · rintro ⟨r, hr, ha⟩
    obtain ⟨text, htext, address, length, hwrites, hmin, hmax, rfl⟩ := (hmem r).1 hr
    exact ⟨text, htext, address, length, hwrites, hmin, hmax,
      (networkRange_contains_iff address hmin a).1 ha⟩
  · rintro ⟨text, htext, address, length, hwrites, hmin, hmax, ha⟩
    exact ⟨_, (hmem _).2 ⟨text, htext, address, length, hwrites, hmin, hmax, rfl⟩,
      (networkRange_contains_iff address hmin a).2 ha⟩

theorem foldl_exclude_spec (excluded : List Octets) :
    ∀ {list : DirectList}, Spaced list.ranges →
      Spaced (excluded.foldl exclude list).ranges ∧
        ∀ a, Covered (excluded.foldl exclude list).ranges a ↔
          Covered list.ranges a ∧ ∀ address ∈ excluded, a ≠ u32OfOctets address := by
  induction excluded with
  | nil =>
    intro list h
    exact ⟨h, by simp⟩
  | cons address rest ih =>
    intro list h
    obtain ⟨hspaced, hcovered⟩ := exclude_spec h address
    obtain ⟨hspaced', hcovered'⟩ := ih hspaced
    refine ⟨hspaced', ?_⟩
    intro a
    rw [foldl_cons, hcovered', hcovered, forall_mem_cons, and_assoc]

end Compiling

/-! ## Names -/

section Names

/-- The text names a domain, or every subdomain of it too when a wildcard stands before it. -/
structure NamesDomain (text base : Text) (wildcard : Bool) : Prop where
  valid : validName base = true
  written : (trimEndMatches (· == '.') (trim text)).map Char.toLower =
    if wildcard then '*' :: '.' :: base else base

theorem not_validName_star (rest : Text) : validName ('*' :: '.' :: rest) = false := by
  simp [validName, List.splitOn, splitOnP_cons_eq_if_modifyHead, isLabelChar]

theorem parseDomain_plain {text value : Text}
    (hvalue : (trimEndMatches (· == '.') (trim text)).map Char.toLower = value)
    (hstar : ∀ name, value ≠ '*' :: '.' :: name) :
    parseDomain text = if validName value then some (value, false) else none := by
  simp only [parseDomain, hvalue]

theorem parseDomain_eq_some_iff {text base : Text} {wildcard : Bool} :
    parseDomain text = some (base, wildcard) ↔ NamesDomain text base wildcard := by
  generalize hvalue : (trimEndMatches (· == '.') (trim text)).map Char.toLower = value
  -- A wildcard stands before a name, or the text is a name.
  have hplain : (∀ name, value ≠ '*' :: '.' :: name) →
      (parseDomain text = some (base, wildcard) ↔
        validName value = true ∧ base = value ∧ wildcard = false) := by
    intro hstar
    rw [parseDomain_plain hvalue hstar]
    split_ifs with hvalid
    · simp [hvalid, eq_comm]
    · simp [hvalid]
  have hwild : ∀ name, value = '*' :: '.' :: name →
      (parseDomain text = some (base, wildcard) ↔
        validName name = true ∧ base = name ∧ wildcard = true) := by
    rintro name rfl
    simp only [parseDomain, hvalue]
    split_ifs with hvalid
    · simp [hvalid, eq_comm]
    · simp [hvalid]
  constructor
  · intro h
    by_cases hstar : ∃ name, value = '*' :: '.' :: name
    · obtain ⟨name, hname⟩ := hstar
      obtain ⟨hvalid, rfl, rfl⟩ := (hwild name hname).1 h
      exact ⟨hvalid, hvalue.trans hname⟩
    · obtain ⟨hvalid, rfl, rfl⟩ := (hplain (not_exists.1 hstar)).1 h
      exact ⟨hvalid, hvalue⟩
  rintro ⟨hvalid, hwritten⟩
  rw [hvalue] at hwritten
  cases wildcard with
  | true => exact (hwild base hwritten).2 ⟨hvalid, rfl, rfl⟩
  | false =>
    refine (hplain ?_).2 ⟨hwritten ▸ hvalid, hwritten.symm, rfl⟩
    rintro name rfl
    rw [if_neg (by simp)] at hwritten
    rw [← hwritten, not_validName_star] at hvalid
    cases hvalid

theorem mem_afterDots {name base : Text} :
    base ∈ afterDots name ↔ ∃ front, name = front ++ '.' :: base := by
  induction name with
  | nil => simp [afterDots]
  | cons c rest ih =>
    have hfront : (∃ front, c :: rest = front ++ '.' :: base) ↔
        (c = '.' ∧ rest = base) ∨ ∃ front, rest = front ++ '.' :: base := by
      constructor
      · rintro ⟨- | ⟨d, front⟩, h⟩
        · exact .inl (List.cons.inj h)
        · exact .inr ⟨front, (List.cons.inj h).2⟩
      · rintro (⟨rfl, rfl⟩ | ⟨front, rfl⟩)
        · exact ⟨[], rfl⟩
        · exact ⟨c :: front, rfl⟩
    rw [hfront, ← ih, afterDots]
    split_ifs with hdot
    · simp [hdot, eq_comm]
    · simp [hdot]

theorem foldl_addDomain_names (domains : List Text) :
    ∀ list : DirectList,
      (∀ name, name ∈ (domains.foldl addDomain list).exact ↔
        name ∈ list.exact ∨ ∃ text ∈ domains, NamesDomain text name false) ∧
      ∀ name, name ∈ (domains.foldl addDomain list).suffixes ↔
        name ∈ list.suffixes ∨ ∃ text ∈ domains, NamesDomain text name true := by
  induction domains with
  | nil => simp
  | cons domain rest ih =>
    intro list
    obtain ⟨hexact, hsuffixes⟩ := ih (list.addDomain domain)
    simp only [foldl_cons, exists_mem_cons_iff, ← parseDomain_eq_some_iff]
      at hexact hsuffixes ⊢
    constructor <;> intro name
    · rw [hexact, ← or_assoc]
      apply or_congr_left
      rw [addDomain]
      rcases parseDomain domain with - | ⟨base, - | -⟩ <;> simp [eq_comm, or_comm]
    · rw [hsuffixes, ← or_assoc]
      apply or_congr_left
      rw [addDomain]
      rcases parseDomain domain with - | ⟨base, - | -⟩ <;> simp [eq_comm, or_comm]

theorem exclude_names (list : DirectList) (address : Octets) :
    (list.exclude address).exact = list.exact ∧
      (list.exclude address).suffixes = list.suffixes := by
  rw [exclude]
  split
  · exact ⟨rfl, rfl⟩
  · split
    · exact ⟨rfl, rfl⟩
    · split_ifs <;> exact ⟨rfl, rfl⟩

theorem foldl_exclude_names (excluded : List Octets) :
    ∀ list : DirectList, (excluded.foldl exclude list).exact = list.exact ∧
      (excluded.foldl exclude list).suffixes = list.suffixes := by
  induction excluded with
  | nil => exact fun _ => ⟨rfl, rfl⟩
  | cons address rest ih =>
    intro list
    obtain ⟨hexact, hsuffixes⟩ := ih (list.exclude address)
    obtain ⟨hexact', hsuffixes'⟩ := exclude_names list address
    exact ⟨hexact.trans hexact', hsuffixes.trans hsuffixes'⟩

theorem compile_names (spec : DirectSpec) :
    (∀ name, name ∈ (compile spec).exact ↔
      ∃ text ∈ spec.domains.take maxDomains, NamesDomain text name false) ∧
    ∀ name, name ∈ (compile spec).suffixes ↔
      ∃ text ∈ spec.domains.take maxDomains, NamesDomain text name true := by
  have hfold : ∀ list : DirectList,
      (∀ name, name ∈ ((spec.domains.take maxDomains).foldl addDomain
        { list with exact := ∅, suffixes := ∅ }).exact ↔
          ∃ text ∈ spec.domains.take maxDomains, NamesDomain text name false) ∧
      ∀ name, name ∈ ((spec.domains.take maxDomains).foldl addDomain
        { list with exact := ∅, suffixes := ∅ }).suffixes ↔
          ∃ text ∈ spec.domains.take maxDomains, NamesDomain text name true := by
    intro list
    simpa using foldl_addDomain_names (spec.domains.take maxDomains)
      { list with exact := ∅, suffixes := ∅ }
  unfold compile
  dsimp only
  exact hfold ⟨_, ∅, ∅, _⟩

theorem matchesName_spec (spec : DirectSpec) (excluded : List Octets) (name : Text) :
    (excluded.foldl exclude (compile spec)).matchesName name = true ↔
      ∃ text ∈ spec.domains.take maxDomains, NamesDomain text name false ∨
        ∃ base, NamesDomain text base true ∧
          (name = base ∨ ∃ front, name = front ++ '.' :: base) := by
  obtain ⟨hexact, hsuffixes⟩ := foldl_exclude_names excluded (compile spec)
  obtain ⟨hexact', hsuffixes'⟩ := compile_names spec
  simp only [DirectList.matchesName, hexact, hsuffixes, Bool.or_eq_true, decide_eq_true_eq,
    any_eq_true, mem_afterDots, hexact', hsuffixes']
  constructor
  · rintro ((⟨text, htext, hnames⟩ | ⟨text, htext, hnames⟩) | ⟨base, hfront, text, htext, hnames⟩)
    · exact ⟨text, htext, .inl hnames⟩
    · exact ⟨text, htext, .inr ⟨name, hnames, .inl rfl⟩⟩
    · exact ⟨text, htext, .inr ⟨base, hnames, .inr hfront⟩⟩
  · rintro ⟨text, htext, hnames | ⟨base, hnames, rfl | hfront⟩⟩
    · exact .inl (.inl ⟨text, htext, hnames⟩)
    · exact .inl (.inr ⟨text, htext, hnames⟩)
    · exact .inr ⟨base, hfront, text, htext, hnames⟩

end Names

end GamePath.Engine.Direct
