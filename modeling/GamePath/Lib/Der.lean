import GamePath.Lib.BigEndian

/-!
# Elements of DER

An element is a tag, a length and contents of that length. The length is definite: one byte below
128, or a byte that counts the bytes of a big-endian number. DER asks for the shortest of these
forms; nothing here depends on that, so `Spells` allows every one of at most four length bytes.

`split` takes the first element off a byte string. Elements are read back from whatever follows them
(`split_append`), and no element is read from a front of another (`split_front`).
-/

namespace GamePath.Lib.Der

open BigEndian List

/-- Bytes that spell the length `n`. -/
inductive Spells : List UInt8 → Nat → Prop
  | short {n : Nat} (hn : n < 128) : Spells [UInt8.ofNat n] n
  | long {bytes : List UInt8} (hne : bytes ≠ []) (hle : bytes.length ≤ 4) :
      Spells (UInt8.ofNat (128 + bytes.length) :: bytes) (ofBytes bytes)

/-- An element with its tag and contents. -/
def Element (tag : UInt8) (contents bytes : List UInt8) : Prop :=
  ∃ length, Spells length contents.length ∧ bytes = tag :: (length ++ contents)

/-- The length at the front, and what follows it. -/
def splitLength : List UInt8 → Option (Nat × List UInt8)
  | [] => none
  | first :: rest =>
    if first < 0x80 then some (first.toNat, rest)
    else
      let count := (first &&& 0x7f).toNat
      if count = 0 ∨ 4 < count ∨ rest.length < count then none
      else some (ofBytes (rest.take count), rest.drop count)

/-- The tag and the contents of the element at the front, and what follows it. -/
def split : List UInt8 → Option (UInt8 × List UInt8 × List UInt8)
  | [] => none
  | tag :: rest =>
    match splitLength rest with
    | none => none
    | some (length, rest) =>
      if length ≤ rest.length then some (tag, rest.take length, rest.drop length) else none

/-! ## Lengths -/

variable {n : Nat} {tag : UInt8}

theorem toNat_short (hn : n < 128) : UInt8.ofNat n < 0x80 ∧ (UInt8.ofNat n).toNat = n := by
  have htoNat : (UInt8.ofNat n).toNat = n := by
    rw [UInt8.toNat_ofNat', Nat.mod_eq_of_lt (by omega)]
  refine ⟨?_, htoNat⟩
  rw [UInt8.lt_iff_toNat_lt, htoNat]
  exact hn

theorem toNat_long (hn : n < 128) :
    ¬ UInt8.ofNat (128 + n) < 0x80 ∧ (UInt8.ofNat (128 + n) &&& 0x7f).toNat = n := by
  have htoNat : (UInt8.ofNat (128 + n)).toNat = 128 + n := by
    rw [UInt8.toNat_ofNat', Nat.mod_eq_of_lt (by omega)]
  constructor
  · rw [UInt8.lt_iff_toNat_lt, htoNat]
    show ¬ 128 + n < 128
    omega
  · rw [UInt8.toNat_and, htoNat]
    show 128 + n &&& 2 ^ 7 - 1 = n
    rw [Nat.and_two_pow_sub_one_eq_mod]
    omega

theorem splitLength_append {length : List UInt8} (h : Spells length n) (rest : List UInt8) :
    splitLength (length ++ rest) = some (n, rest) := by
  cases h with
  | short hn =>
    obtain ⟨hlow, htoNat⟩ := toNat_short hn
    rw [singleton_append, splitLength, if_pos hlow, htoNat]
  | @long bytes hne hle =>
    obtain ⟨hhigh, hcount⟩ := @toNat_long bytes.length (by omega)
    have hpos := length_pos_of_ne_nil hne
    rw [cons_append, splitLength, if_neg hhigh]
    rw [hcount, if_neg, take_left, drop_left]
    rw [length_append]
    omega

/-- A front of the length bytes is no length. -/
theorem splitLength_front {length front : List UInt8} (h : Spells length n)
    (hfront : front <+: length) (hshort : front.length < length.length) :
    splitLength front = none := by
  cases front with
  | nil => rfl
  | cons first front =>
    cases h with
    | short hn =>
      simp only [length_cons, length_nil] at hshort
      omega
    | @long bytes hne hle =>
      obtain ⟨hhigh, hcount⟩ := @toNat_long bytes.length (by omega)
      obtain ⟨rfl, -⟩ := cons_prefix_cons.1 hfront
      simp only [length_cons] at hshort
      rw [splitLength, if_neg hhigh]
      rw [if_pos]
      omega

theorem length_of_splitLength {input rest : List UInt8} (h : splitLength input = some (n, rest)) :
    rest.length < input.length := by
  cases input with
  | nil => cases h
  | cons first input =>
    rw [splitLength] at h
    dsimp only at h
    split at h
    · cases h
      simp
    · split at h
      · cases h
      · cases h
        rw [length_drop, length_cons]
        omega

/-! ## Elements -/

/-- An element is read back, whatever follows it. -/
theorem split_append {contents bytes : List UInt8} (h : Element tag contents bytes)
    (rest : List UInt8) : split (bytes ++ rest) = some (tag, contents, rest) := by
  obtain ⟨length, hlength, rfl⟩ := h
  rw [cons_append, append_assoc, split, splitLength_append hlength]
  dsimp only
  rw [if_pos (by simp), take_left, drop_left]

/-- No element is read from a strict front of one. -/
theorem split_front {contents bytes front : List UInt8} (h : Element tag contents bytes)
    (hfront : front <+: bytes) (hne : front ≠ bytes) : split front = none := by
  obtain ⟨length, hlength, rfl⟩ := h
  cases front with
  | nil => rfl
  | cons first front =>
    obtain ⟨rfl, hrest⟩ := cons_prefix_cons.1 hfront
    rw [split]
    by_cases hshort : front.length < length.length
    · -- The length is cut.
      rw [splitLength_front hlength _ hshort]
      exact prefix_of_prefix_length_le hrest (prefix_append _ _) (Nat.le_of_lt hshort)
    -- The contents are cut.
    obtain ⟨part, rfl⟩ : length <+: front :=
      prefix_of_prefix_length_le (prefix_append _ _) hrest (Nat.le_of_not_lt hshort)
    have hpart : part <+: contents := (prefix_append_right_inj length).1 hrest
    rw [splitLength_append hlength]
    dsimp only
    rw [if_neg]
    intro hle
    exact hne (by rw [hpart.eq_of_length_le hle])

/-- What is read is shorter than what it is read from. -/
theorem length_of_split {input contents rest : List UInt8}
    (h : split input = some (tag, contents, rest)) :
    contents.length < input.length ∧ rest.length < input.length := by
  cases input with
  | nil => cases h
  | cons first input =>
    rw [split] at h
    split at h
    · cases h
    next hlength =>
      have hless := length_of_splitLength hlength
      split at h
      · cases h
        rw [length_take, length_drop, length_cons]
        omega
      · cases h

end GamePath.Lib.Der
