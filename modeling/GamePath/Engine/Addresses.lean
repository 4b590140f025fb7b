import GamePath.Engine.Basic

/-!
# IPv4 addresses as numbers

`u32::from(Ipv4Addr)` reads the four octets as one number, and ranges of addresses are compared as
such numbers.
-/

namespace GamePath.Engine

namespace Addresses

/-- The order of `u32`. -/
scoped instance linearOrderUInt32 : LinearOrder UInt32 where
  le_refl := UInt32.le_refl
  le_trans _ _ _ := UInt32.le_trans
  lt_iff_le_not_ge a b := by grind
  le_antisymm _ _ := UInt32.le_antisymm
  le_total := UInt32.le_total
  toDecidableLE := inferInstance
  toDecidableLT := inferInstance
  toDecidableEq := inferInstance

end Addresses

/-- `u32::from(Ipv4Addr)`. -/
def u32OfOctets (address : Octets) : UInt32 :=
  address.1.toUInt32 <<< 24 ||| address.2.1.toUInt32 <<< 16 |||
    address.2.2.1.toUInt32 <<< 8 ||| address.2.2.2.toUInt32

def saturatingAdd (a b : UInt32) : UInt32 :=
  if a.toNat + b.toNat < 2 ^ 32 then a + b else UInt32.ofNat (2 ^ 32 - 1)

theorem saturatingAdd_one_of_lt {a b : UInt32} (h : a < b) : saturatingAdd a 1 = a + 1 := by
  have hroom : a.toNat + (1 : UInt32).toNat < 2 ^ 32 := by
    have hlt := UInt32.lt_iff_toNat_lt.1 h
    have hbound := b.toNat_lt
    simp only [UInt32.toNat_one]
    omega
  rw [saturatingAdd, if_pos hroom]

end GamePath.Engine
