import GamePath.Engine.Socks.Wire

/-!
# Texts come back from their bytes (`String::from_utf8`, `String::from_utf8_lossy`)

Every character is decoded from the bytes it is encoded in, whatever follows them, so a text comes
back from its bytes (`fromUtf8Lossy_utf8Bytes`, `fromUtf8_utf8Bytes`).
-/

namespace GamePath.Engine.Utf8

open List

open Direct (Text fromUtf8Lossy decodeChar decodeChars continuation secondBounds low6)
open Dns (utf8Bytes)
open Socks (fromUtf8)

@[simp] theorem utf8Bytes_cons (c : Char) (text : Text) :
    utf8Bytes (c :: text) = String.utf8EncodeChar c ++ utf8Bytes text := rfl

@[simp] theorem utf8Bytes_append (text text' : Text) :
    utf8Bytes (text ++ text') = utf8Bytes text ++ utf8Bytes text' :=
  flatMap_append

/-! ## One character -/

variable (text : Text) {n : Nat}

/-- A continuation byte carries six bits. -/
theorem low6_continuation (h : n < 64) : low6 (UInt8.ofNat (n + 128)) = n := by
  show (n + 128) % 256 &&& 2 ^ 6 - 1 = n
  rw [Nat.and_two_pow_sub_one_eq_mod]
  omega

theorem between_iff {n low high : Nat} (hn : n < 256) (hlow : low < 256) (hhigh : high < 256) :
    (UInt8.ofNat low ≤ UInt8.ofNat n ∧ UInt8.ofNat n ≤ UInt8.ofNat high) ↔ low ≤ n ∧ n ≤ high := by
  rw [UInt8.le_iff_toNat_le, UInt8.le_iff_toNat_le]
  simp only [UInt8.toNat_ofNat', Nat.reducePow]
  rw [Nat.mod_eq_of_lt hn, Nat.mod_eq_of_lt hlow, Nat.mod_eq_of_lt hhigh]

theorem continuation_some {n low high : Nat} (hlow : low ≤ n + 128) (hhigh : n + 128 ≤ high)
    (hbyte : high < 256) (rest : Bytes) :
    continuation (UInt8.ofNat low) (UInt8.ofNat high) (UInt8.ofNat (n + 128) :: rest) =
      some (UInt8.ofNat (n + 128), rest) := by
  rw [continuation, if_pos]
  exact (between_iff (by omega) (by omega) hbyte).2 ⟨hlow, hhigh⟩

theorem continuation_any (h : n < 64) (rest : Bytes) :
    continuation 0x80 0xbf (UInt8.ofNat (n + 128) :: rest) = some (UInt8.ofNat (n + 128), rest) :=
  @continuation_some n 128 191 (by omega) (by omega) (by omega) rest

theorem and_mask {n lead : Nat} (b : Nat) (hn : n < 2 ^ b) (hlead : 2 ^ b ∣ lead)
    (hbyte : n + lead < 256)
    (hb : b < 8) : (UInt8.ofNat (n + lead) &&& UInt8.ofNat (2 ^ b - 1)).toNat = n := by
  have hmask : 2 ^ b - 1 < 256 := by
    have := Nat.pow_lt_pow_right (a := 2) (by omega) hb
    omega
  rw [UInt8.toNat_and, UInt8.toNat_ofNat', UInt8.toNat_ofNat']
  rw [Nat.mod_eq_of_lt hbyte, Nat.mod_eq_of_lt hmask, Nat.and_two_pow_sub_one_eq_mod]
  rw [Nat.add_mod, Nat.mod_eq_zero_of_dvd hlead, Nat.add_zero, Nat.mod_mod, Nat.mod_eq_of_lt hn]

/-- No overlong form and no surrogate has three bytes. -/
theorem secondBounds_three {k : Nat} (hk : k < 16) :
    secondBounds (UInt8.ofNat (k + 224)) =
      if k = 0 then (0xa0, 0xbf) else if k = 13 then (0x80, 0x9f) else (0x80, 0xbf) := by
  interval_cases k <;> rfl

/-- No overlong form has four bytes, and no number beyond the last character. -/
theorem secondBounds_four {k : Nat} (hk : k < 5) :
    secondBounds (UInt8.ofNat (k + 240)) =
      if k = 0 then (0x90, 0xbf) else if k = 4 then (0x80, 0x8f) else (0x80, 0xbf) := by
  interval_cases k <;> rfl

theorem decodeChar_one (h : n < 128) (rest : Bytes) :
    decodeChar (UInt8.ofNat n) rest = (Char.ofNat n, rest) := by
  rw [decodeChar, if_pos, UInt8.toNat_ofNat', Nat.mod_eq_of_lt (by omega)]
  show n % 256 < 128
  omega

/-- Which of the four lengths a first byte above the ASCII ones tells. -/
theorem lead_iff (hn : n < 256) :
    (UInt8.ofNat n < 0x80 ↔ n < 128) ∧ ((0xc2 ≤ UInt8.ofNat n ∧ UInt8.ofNat n ≤ 0xdf) ↔ 194 ≤ n ∧
      n ≤ 223) ∧
      ((0xe0 ≤ UInt8.ofNat n ∧ UInt8.ofNat n ≤ 0xef) ↔ 224 ≤ n ∧ n ≤ 239) ∧
      ((0xf0 ≤ UInt8.ofNat n ∧ UInt8.ofNat n ≤ 0xf4) ↔ 240 ≤ n ∧ n ≤ 244) := by
  refine ⟨?_, @between_iff n 194 223 hn (by omega) (by omega), @between_iff n 224 239 hn (by omega)
    (by omega), @between_iff n 240 244 hn (by omega) (by omega)⟩
  rw [UInt8.lt_iff_toNat_lt, UInt8.toNat_ofNat', Nat.mod_eq_of_lt hn]
  rfl

theorem decodeChar_two {k n : Nat} (hlow : 2 ≤ k) (hk : k < 32) (hn : n < 64) (rest : Bytes) :
    decodeChar (UInt8.ofNat (k + 192)) (UInt8.ofNat (n + 128) :: rest) = (Char.ofNat (k * 64 + n),
      rest) := by
  obtain ⟨hone, htwo, -, -⟩ := @lead_iff (k + 192) (by omega)
  have hmask : (UInt8.ofNat (k + 192) &&& 0x1f).toNat = k :=
    and_mask 5 (by omega) (by decide) (by omega) (by omega)
  rw [decodeChar, if_neg (by rw [hone]; omega), if_pos (htwo.2 (by omega)), continuation_any hn]
  dsimp only
  rw [hmask, low6_continuation hn]

theorem decodeChar_three {k m n : Nat} (hk : k < 16) (hm : m < 64) (hn : n < 64)
    (hzero : k = 0 → 32 ≤ m) (hsurrogate : k = 13 → m < 32) (rest : Bytes) :
    decodeChar (UInt8.ofNat (k + 224)) (UInt8.ofNat (m + 128) :: UInt8.ofNat (n + 128) :: rest) =
      (Char.ofNat ((k * 64 + m) * 64 + n), rest) := by
  obtain ⟨hone, htwo, hthree, -⟩ := @lead_iff (k + 224) (by omega)
  have hmask : (UInt8.ofNat (k + 224) &&& 0x0f).toNat = k :=
    and_mask 4 (by omega) (by decide) (by omega) (by omega)
  have hsecond : continuation (secondBounds (UInt8.ofNat (k + 224))).1
      (secondBounds (UInt8.ofNat (k + 224))).2
      (UInt8.ofNat (m + 128) :: UInt8.ofNat (n + 128) :: rest) =
        some (UInt8.ofNat (m + 128), UInt8.ofNat (n + 128) :: rest) := by
    rw [secondBounds_three hk]
    split_ifs with h0 h13
    · have := hzero h0
      exact @continuation_some m 160 191 (by omega) (by omega) (by omega) _
    · have := hsurrogate h13
      exact @continuation_some m 128 159 (by omega) (by omega) (by omega) _
    · exact continuation_any hm _
  rw [decodeChar, if_neg (by rw [hone]; omega), if_neg (by rw [htwo]; omega),
    if_pos (hthree.2 (by omega)), hsecond]
  dsimp only
  rw [continuation_any hn]
  dsimp only
  rw [hmask, low6_continuation hm, low6_continuation hn]

theorem decodeChar_four {k l m n : Nat} (hk : k < 5) (hl : l < 64) (hm : m < 64) (hn : n < 64)
    (hzero : k = 0 → 16 ≤ l) (hlast : k = 4 → l < 16) (rest : Bytes) :
    decodeChar (UInt8.ofNat (k + 240))
        (UInt8.ofNat (l + 128) :: UInt8.ofNat (m + 128) :: UInt8.ofNat (n + 128) :: rest) =
      (Char.ofNat (((k * 64 + l) * 64 + m) * 64 + n), rest) := by
  obtain ⟨hone, htwo, hthree, hfour⟩ := @lead_iff (k + 240) (by omega)
  have hmask : (UInt8.ofNat (k + 240) &&& 0x07).toNat = k :=
    and_mask 3 (by omega) (by decide) (by omega) (by omega)
  have hsecond : continuation (secondBounds (UInt8.ofNat (k + 240))).1
      (secondBounds (UInt8.ofNat (k + 240))).2
      (UInt8.ofNat (l + 128) :: UInt8.ofNat (m + 128) :: UInt8.ofNat (n + 128) :: rest) =
        some (UInt8.ofNat (l + 128), UInt8.ofNat (m + 128) :: UInt8.ofNat (n + 128) :: rest) := by
    rw [secondBounds_four hk]
    split_ifs with h0 h4
    · have := hzero h0
      exact @continuation_some l 144 191 (by omega) (by omega) (by omega) _
    · have := hlast h4
      exact @continuation_some l 128 143 (by omega) (by omega) (by omega) _
    · exact continuation_any hl _
  rw [decodeChar, if_neg (by rw [hone]; omega), if_neg (by rw [htwo]; omega),
    if_neg (by rw [hthree]; omega), if_pos (hfour.2 (by omega)), hsecond]
  dsimp only
  rw [continuation_any hm]
  dsimp only
  rw [continuation_any hn]
  dsimp only
  rw [hmask, low6_continuation hl, low6_continuation hm, low6_continuation hn]

/-- A character is decoded from its bytes, whatever follows them. -/
theorem decodeChar_encodeChar (c : Char) (rest : Bytes) :
    ∃ b bytes, String.utf8EncodeChar c = b :: bytes ∧ decodeChar b (bytes ++ rest) = (c, rest) := by
  have hvalid : c.toNat < 0xd800 ∨ (0xdfff < c.toNat ∧ c.toNat < 0x110000) := c.valid
  have hback : Char.ofNat c.toNat = c := Char.ofNat_toNat c
  have hencode : String.utf8EncodeChar c =
      if c.toNat ≤ 127 then [UInt8.ofNat c.toNat]
      else if c.toNat ≤ 2047 then [UInt8.ofNat (c.toNat / 64 % 32 + 192),
        UInt8.ofNat (c.toNat % 64 + 128)]
      else if c.toNat ≤ 65535 then
        [UInt8.ofNat (c.toNat / 4096 % 16 + 224), UInt8.ofNat (c.toNat / 64 % 64 + 128),
          UInt8.ofNat (c.toNat % 64 + 128)]
      else
        [UInt8.ofNat (c.toNat / 262144 % 8 + 240), UInt8.ofNat (c.toNat / 4096 % 64 + 128),
          UInt8.ofNat (c.toNat / 64 % 64 + 128), UInt8.ofNat (c.toNat % 64 + 128)] := rfl
  rw [hencode]
  split_ifs with h1 h2 h3
  · refine ⟨_, _, rfl, ?_⟩
    rw [nil_append, decodeChar_one (by omega), hback]
  · refine ⟨_, _, rfl, ?_⟩
    rw [singleton_append, decodeChar_two (by omega) (by omega) (by omega)]
    rw [show c.toNat / 64 % 32 * 64 + c.toNat % 64 = c.toNat by omega, hback]
  · refine ⟨_, _, rfl, ?_⟩
    rw [cons_append, singleton_append,
      decodeChar_three (by omega) (by omega) (by omega) (by omega) (by omega)]
    rw [show (c.toNat / 4096 % 16 * 64 + c.toNat / 64 % 64) * 64 + c.toNat % 64 = c.toNat by omega,
      hback]
  · refine ⟨_, _, rfl, ?_⟩
    rw [cons_append, cons_append, singleton_append,
      decodeChar_four (by omega) (by omega) (by omega) (by omega) (by omega) (by omega)]
    rw [show ((c.toNat / 262144 % 8 * 64 + c.toNat / 4096 % 64) * 64 + c.toNat / 64 % 64) * 64 +
        c.toNat % 64 =
      c.toNat by omega, hback]

/-! ## Texts -/

/-- A text is decoded from its bytes. -/
theorem decodeChars_utf8Bytes (fuel : Nat) (h : text.length ≤ fuel) :
    decodeChars fuel (utf8Bytes text) = text := by
  induction text generalizing fuel with
  | nil => cases fuel <;> rfl
  | cons c text ih =>
    obtain ⟨b, bytes, hencode, hdecode⟩ := decodeChar_encodeChar c (utf8Bytes text)
    cases fuel with
    | zero => simp at h
    | succ fuel =>
      rw [utf8Bytes_cons, hencode, cons_append, decodeChars, hdecode]
      rw [ih fuel (by simpa using h)]

theorem length_le_utf8Bytes : text.length ≤ (utf8Bytes text).length := by
  induction text with
  | nil => exact Nat.le_refl 0
  | cons c text ih =>
    have hpos := c.utf8Size_pos
    rw [utf8Bytes_cons, length_append, String.length_utf8EncodeChar, length_cons]
    omega

@[simp] theorem fromUtf8Lossy_utf8Bytes : fromUtf8Lossy (utf8Bytes text) = text :=
  decodeChars_utf8Bytes text _ (length_le_utf8Bytes text)

@[simp] theorem fromUtf8_utf8Bytes : fromUtf8 (utf8Bytes text) = some text := by
  simp [fromUtf8]

/-- Strict decoding accepts the bytes of texts only. -/
theorem fromUtf8_eq_some_iff {bytes : Bytes} {text : Text} :
    fromUtf8 bytes = some text ↔ bytes = utf8Bytes text := by
  constructor
  · intro h
    simp only [fromUtf8] at h
    split at h
    next hback => rw [← Option.some.inj h, hback]
    next => cases h
  · rintro rfl
    exact fromUtf8_utf8Bytes text

/-! ## ASCII -/

theorem encodeChar_ascii {c : Char} (h : c.toNat < 128) :
    String.utf8EncodeChar c = [UInt8.ofNat c.toNat] :=
  if_pos (show c.toNat ≤ 127 by omega)

/-- An ASCII text has one byte for each character. -/
theorem utf8Bytes_ascii {text : Text} (h : ∀ c ∈ text, c.toNat < 128) :
    utf8Bytes text = text.map fun c => UInt8.ofNat c.toNat := by
  induction text with
  | nil => rfl
  | cons c text ih =>
    rw [utf8Bytes_cons, encodeChar_ascii (h c mem_cons_self),
      ih fun d hd => h d (mem_cons_of_mem _ hd)]
    rfl

end GamePath.Engine.Utf8
