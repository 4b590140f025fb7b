import Mathlib.Tactic

/-!
# Big-endian numbers

The bytes of a number, most significant first, in a fixed width, and the number a byte string
spells. `toBytes` drops what does not fit the width, as the machine's conversions do.
-/

namespace GamePath.Lib.BigEndian

/-- The low `width` bytes of a number, most significant first. -/
def toBytes : Nat → Nat → List UInt8
  | 0, _ => []
  | width + 1, n => UInt8.ofNat (n / 256 ^ width) :: toBytes width n

/-- The number a byte string spells. -/
def ofBytes : List UInt8 → Nat
  | [] => 0
  | b :: bs => b.toNat * 256 ^ bs.length + ofBytes bs

@[simp] theorem length_toBytes (width n : Nat) : (toBytes width n).length = width := by
  induction width with
  | zero => rfl
  | succ width ih => rw [toBytes, List.length_cons, ih]

/-- Reading the bytes back gives the number, up to what the width holds. -/
theorem ofBytes_toBytes (width n : Nat) : ofBytes (toBytes width n) = n % 256 ^ width := by
  induction width with
  | zero => simp [toBytes, ofBytes, Nat.mod_one]
  | succ width ih =>
    rw [toBytes, ofBytes, length_toBytes, ih, UInt8.toNat_ofNat']
    rw [pow_succ 256 width, Nat.mod_mul, Nat.mul_comm, Nat.add_comm]

end GamePath.Lib.BigEndian
