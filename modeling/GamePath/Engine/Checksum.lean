import GamePath.Lib.OnesComplement
import GamePath.Engine.Basic

/-!
# Header fields and the internet checksum

Reading and writing the 16-bit fields of a header, and `internet_checksum` of `engine/src/icmp.rs`.
The checksum's `u32` sum is a natural number: no packet is long enough to overflow it.
-/

namespace GamePath.Engine

open Lib List OnesComplement

/-! ## Sixteen-bit fields -/

/-- The high byte of `u16::to_be_bytes`. -/
def hiByte (v : UInt16) : UInt8 := (v >>> 8).toUInt8

/-- The low byte of `u16::to_be_bytes`. -/
def loByte (v : UInt16) : UInt8 := v.toUInt8

/-- `u16::to_be_bytes`. -/
def beU16 (v : UInt16) : Bytes := [hiByte v, loByte v]

/-- `bytes[at..at + 2].copy_from_slice(&v.to_be_bytes())`. -/
def setU16 (bytes : Bytes) (i : Nat) (v : UInt16) : Bytes :=
  (bytes.set i (hiByte v)).set (i + 1) (loByte v)

theorem u16OfBe_toNat (hi lo : UInt8) : (u16OfBe hi lo).toNat = hi.toNat * 256 + lo.toNat := by
  have hhi := hi.toNat_lt
  have hlo := lo.toNat_lt
  have hshift : (hi.toUInt16 <<< 8).toNat = hi.toNat * 256 := by
    show hi.toNat <<< 8 % 2 ^ 16 = hi.toNat * 256
    rw [Nat.shiftLeft_eq]
    exact Nat.mod_eq_of_lt (by omega)
  rw [u16OfBe, UInt16.toNat_or, hshift, UInt8.toNat_toUInt16,
    show hi.toNat * 256 = hi.toNat <<< 8 from (Nat.shiftLeft_eq _ 8).symm,
    ← Nat.shiftLeft_add_eq_or_of_lt hlo]

theorem hiByte_toNat (v : UInt16) : (hiByte v).toNat = v.toNat / 256 := by
  have hv := v.toNat_lt
  show v.toNat >>> 8 % 2 ^ 8 = v.toNat / 256
  omega

theorem loByte_toNat (v : UInt16) : (loByte v).toNat = v.toNat % 256 :=
  UInt16.toNat_toUInt8 v

@[simp] theorem u16OfBe_bytes (v : UInt16) : u16OfBe (hiByte v) (loByte v) = v := by
  rw [← UInt16.toNat_inj, u16OfBe_toNat, hiByte_toNat, loByte_toNat]
  omega

@[simp] theorem hiByte_u16OfBe (hi lo : UInt8) : hiByte (u16OfBe hi lo) = hi := by
  have hlo := lo.toNat_lt
  rw [← UInt8.toNat_inj, hiByte_toNat, u16OfBe_toNat]
  omega

@[simp] theorem loByte_u16OfBe (hi lo : UInt8) : loByte (u16OfBe hi lo) = lo := by
  have hlo := lo.toNat_lt
  rw [← UInt8.toNat_inj, loByte_toNat, u16OfBe_toNat]
  omega

/-! ## The checksum -/

/-- The sum of the big-endian words of a byte string, an odd last byte being a high one. -/
def wordSum : Bytes → Nat
  | hi :: lo :: rest => (u16OfBe hi lo).toNat + wordSum rest
  | [last] => last.toNat * 256
  | [] => 0

/-- `internet_checksum`. Its loop ends after two rounds, whatever the sum (`fold_le`). -/
def internetChecksum (bytes : Bytes) : UInt16 :=
  ~~~ (UInt16.ofNat (fold 16 (wordSum bytes)))

theorem internetChecksum_toNat {bytes : Bytes} (h : wordSum bytes < 2 ^ 32) :
    (internetChecksum bytes).toNat = 65535 - fold 16 (wordSum bytes) := by
  have hle : fold 16 (wordSum bytes) ≤ 65535 := fold_le (by decide) h
  rw [internetChecksum, UInt16.toNat_not, UInt16.toNat_ofNat', Nat.mod_eq_of_lt (by omega)]
  rfl

theorem internetChecksum_eq_zero_iff {bytes : Bytes} (h : wordSum bytes < 2 ^ 32) :
    internetChecksum bytes = 0 ↔ fold 16 (wordSum bytes) = 65535 := by
  have hle : fold 16 (wordSum bytes) ≤ 65535 := fold_le (by decide) h
  rw [← UInt16.toNat_inj, internetChecksum_toNat h, show (0 : UInt16).toNat = 0 from rfl]
  omega

theorem wordSum_append {front : Bytes} (h : front.length % 2 = 0) (rest : Bytes) :
    wordSum (front ++ rest) = wordSum front + wordSum rest := by
  induction front using wordSum.induct with
  | case1 hi lo front ih =>
    have heven : front.length % 2 = 0 := by
      rw [length_cons, length_cons] at h
      omega
    rw [cons_append, cons_append, wordSum, wordSum, ih heven, Nat.add_assoc]
  | case2 last => simp at h
  | case3 => rw [nil_append, wordSum, Nat.zero_add]

theorem wordSum_le (bytes : Bytes) : wordSum bytes ≤ 65535 * ((bytes.length + 1) / 2) := by
  induction bytes using wordSum.induct with
  | case1 hi lo rest ih =>
    have hword : (u16OfBe hi lo).toNat < 65536 := (u16OfBe hi lo).toNat_lt
    rw [wordSum, length_cons, length_cons]
    omega
  | case2 last =>
    have hbyte := last.toNat_lt
    rw [wordSum, length_singleton]
    omega
  | case3 => simp [wordSum]

/-- Overwriting a word of the string changes the sum by what the word changes. -/
theorem wordSum_setU16 {bytes : Bytes} {i : Nat} (heven : i % 2 = 0) (hin : i + 2 ≤ bytes.length)
    (v : UInt16) :
    wordSum (setU16 bytes i v) + (u16OfBe (bytes.getD i 0) (bytes.getD (i + 1) 0)).toNat =
      wordSum bytes + v.toNat := by
  obtain ⟨front, hi, lo, rest, rfl, rfl⟩ : ∃ front hi lo rest,
      bytes = front ++ hi :: lo :: rest ∧ i = front.length := by
    have hdrop : 2 ≤ (bytes.drop i).length := by
      rw [length_drop]
      omega
    match hbytes : bytes.drop i, hdrop with
    | hi :: lo :: rest, _ =>
      refine ⟨bytes.take i, hi, lo, rest, ?_, ?_⟩
      · rw [← hbytes, take_append_drop]
      · rw [length_take]
        omega
  have hset : setU16 (front ++ hi :: lo :: rest) front.length v =
      front ++ hiByte v :: loByte v :: rest := by
    simp [setU16]
  have hhi : (front ++ hi :: lo :: rest).getD front.length 0 = hi := by simp
  have hlo : (front ++ hi :: lo :: rest).getD (front.length + 1) 0 = lo := by simp
  rw [hset, hhi, hlo, wordSum_append heven, wordSum_append heven, wordSum, wordSum, u16OfBe_bytes]
  omega

end GamePath.Engine
