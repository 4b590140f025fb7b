import GamePath.Engine.OpenVpn.DataChannel
import GamePath.Lib.WordBitmap

/-!
# The replay window of the data channel

`ReplayWindow` of `engine/src/openvpn/crypto.rs` is the set of the packet ids that came, as far as
they are less than 64 below the highest of them (`Represents`). `accept` says yes to an id exactly
when it is new to that set and in reach (`accept_represents`).
-/

namespace GamePath.Engine.OpenVpn.ReplayWindow

open Lib List

/-- The window after the ids `arrived`, accepted or not. -/
structure Represents (window : ReplayWindow) (arrived : List UInt32) : Prop where
  positive : ∀ id ∈ arrived, 0 < id.toNat
  le_highest : ∀ id ∈ arrived, id.toNat ≤ window.highest.toNat
  highest_mem : window.highest = 0 ∨ window.highest ∈ arrived
  bit_iff : ∀ k < 64, window.seen.toBitVec.getLsbD k = true ↔
    ∃ id ∈ arrived, id.toNat + k = window.highest.toNat

/-- An id that the window has not seen and that is in reach. -/
def Fresh (arrived : List UInt32) (packetId : UInt32) : Prop :=
  packetId ∉ arrived ∧ ∀ id ∈ arrived, id.toNat < packetId.toNat + 64

instance (arrived : List UInt32) (packetId : UInt32) : Decidable (Fresh arrived packetId) :=
  inferInstanceAs (Decidable (_ ∧ _))

theorem represents_new : Represents new [] where
  positive := nofun
  le_highest := nofun
  highest_mem := .inl rfl
  bit_iff := by
    intro k _
    refine iff_of_false (by simp [new]) ?_
    rintro ⟨_, h, -⟩
    exact absurd h not_mem_nil

theorem getLsbD_one {k : Nat} : (1 : UInt64).toBitVec.getLsbD k = decide (k = 0) :=
  WordBitmap.getLsbD_mask (k := 0) (j := k) (by decide)

/-- The bits after the window has moved up by `shift`. -/
theorem getLsbD_moved (seen : UInt64) (shift : UInt32) {k : Nat} (hk : k < 64) :
    ((if 64 ≤ shift then 0 else seen <<< shift.toUInt64) ||| 1).toBitVec.getLsbD k =
      (decide (shift.toNat ≤ k) && seen.toBitVec.getLsbD (k - shift.toNat) || decide (k = 0)) := by
  rw [UInt64.toBitVec_or, BitVec.getLsbD_or, getLsbD_one]
  congr 1
  by_cases hfar : 64 ≤ shift
  · have hle : ¬ shift.toNat ≤ k := by
      have := UInt32.le_iff_toNat_le.1 hfar
      have h64 : (64 : UInt32).toNat = 64 := rfl
      omega
    rw [if_pos hfar, decide_eq_false hle]
    simp
  have hless : shift.toNat < 64 := by
    have := mt UInt32.le_iff_toNat_le.2 hfar
    have h64 : (64 : UInt32).toNat = 64 := rfl
    omega
  have hshift : (shift.toUInt64.toBitVec % 64).toNat = shift.toNat := by
    show shift.toUInt64.toNat % 64 = _
    rw [UInt32.toNat_toUInt64]
    omega
  rw [if_neg hfar, UInt64.toBitVec_shiftLeft]
  rw [show seen.toBitVec <<< (shift.toUInt64.toBitVec % 64) =
    seen.toBitVec <<< (shift.toUInt64.toBitVec % 64).toNat from rfl, hshift,
    BitVec.getLsbD_shiftLeft]
  simp only [hk, decide_true, Bool.true_and]
  by_cases hle : shift.toNat ≤ k
  · simp [hle]
  · simp [hle, Nat.lt_of_not_le hle]

section Accept

variable {window : ReplayWindow} {arrived : List UInt32} {packetId : UInt32}

section

variable (h : Represents window arrived) (hpositive : 0 < packetId.toNat)
include h hpositive

theorem positive_concat :
    ∀ id ∈ arrived ++ [packetId], 0 < id.toNat := by
  intro id hid
  rcases mem_append.1 hid with hold | hnew
  · exact h.positive id hold
  · rw [mem_singleton.1 hnew]
    exact hpositive

omit h hpositive in
theorem le_highest_concat (h : Represents window arrived)
    (hle : packetId.toNat ≤ window.highest.toNat) :
    ∀ id ∈ arrived ++ [packetId], id.toNat ≤ window.highest.toNat := by
  intro id hid
  rcases mem_append.1 hid with hold | hnew
  · exact h.le_highest id hold
  · rw [mem_singleton.1 hnew]
    exact hle

/-- An id above the others moves the window up. -/
theorem Represents.moved (hup : window.highest < packetId) :
    Represents ⟨packetId, (if 64 ≤ packetId - window.highest then 0
      else window.seen <<< (packetId - window.highest).toUInt64) ||| 1⟩
        (arrived ++ [packetId]) := by
  have hless := UInt32.lt_iff_toNat_lt.1 hup
  have hshift : (packetId - window.highest).toNat = packetId.toNat - window.highest.toNat :=
    UInt32.toNat_sub_of_le _ _ (UInt32.le_iff_toNat_le.2 (Nat.le_of_lt hless))
  refine ⟨positive_concat h hpositive, ?_, ?_, ?_⟩
  · intro id hid
    show id.toNat ≤ packetId.toNat
    rcases mem_append.1 hid with hold | hnew
    · have := h.le_highest id hold
      omega
    · rw [mem_singleton.1 hnew]
  · exact .inr (mem_append_right _ (mem_singleton_self _))
  intro k hk
  rw [getLsbD_moved _ _ hk, Bool.or_eq_true, Bool.and_eq_true, decide_eq_true_iff,
    decide_eq_true_iff, h.bit_iff _ (by omega)]
  dsimp only
  constructor
  · rintro (⟨hle, id, hid, hsum⟩ | rfl)
    · exact ⟨id, mem_append_left _ hid, by omega⟩
    · exact ⟨packetId, mem_append_right _ (mem_singleton_self _), rfl⟩
  rintro ⟨id, hid, hsum⟩
  rcases mem_append.1 hid with hold | hnew
  · have := h.le_highest id hold
    exact .inl ⟨by omega, id, hold, by omega⟩
  · rw [mem_singleton.1 hnew] at hsum
    exact .inr (by omega)

theorem Represents.refused (hle : packetId.toNat ≤ window.highest.toNat)
    (hold : packetId ∈ arrived ∨ packetId.toNat + 64 ≤ window.highest.toNat) :
    Represents window (arrived ++ [packetId]) := by
  refine ⟨positive_concat h hpositive, le_highest_concat h hle, ?_, ?_⟩
  · exact h.highest_mem.imp_right fun hmem => mem_append_left _ hmem
  intro k hk
  rw [h.bit_iff k hk]
  constructor
  · rintro ⟨id, hid, hsum⟩
    exact ⟨id, mem_append_left _ hid, hsum⟩
  rintro ⟨id, hid, hsum⟩
  rcases mem_append.1 hid with hin | hnew
  · exact ⟨id, hin, hsum⟩
  · rw [mem_singleton.1 hnew] at hsum
    rcases hold with hmem | hfar
    · exact ⟨packetId, hmem, hsum⟩
    · omega

omit h hpositive in
theorem mask_eq (hle : packetId.toNat ≤ window.highest.toNat) :
    ((1 : UInt64) <<< (window.highest - packetId).toUInt64) =
      1 <<< UInt64.ofNat (window.highest.toNat - packetId.toNat) := by
  have hbehind := UInt32.toNat_sub_of_le _ _ (UInt32.le_iff_toNat_le.2 hle)
  congr 1
  rw [← UInt64.toNat_inj, UInt32.toNat_toUInt64, hbehind, UInt64.toNat_ofNat']
  have := window.highest.toNat_lt
  omega

omit h hpositive in
/-- The bit of an id in reach says whether it came before. -/
theorem Represents.mask_iff (h : Represents window arrived)
    (hle : packetId.toNat ≤ window.highest.toNat)
    (hnear : window.highest.toNat - packetId.toNat < 64) :
    window.seen &&& (1 <<< (window.highest - packetId).toUInt64) ≠ 0 ↔ packetId ∈ arrived := by
  rw [mask_eq hle, ← bne_iff_ne, WordBitmap.and_mask_ne_zero _ hnear, h.bit_iff _ hnear]
  constructor
  · rintro ⟨id, hid, hsum⟩
    have heq : id = packetId := by
      rw [← UInt32.toNat_inj]
      omega
    rw [← heq]
    exact hid
  · exact fun hmem => ⟨packetId, hmem, by omega⟩

/-- The bit of an id in reach is set. -/
theorem Represents.marked (hle : packetId.toNat ≤ window.highest.toNat)
    (hnear : window.highest.toNat - packetId.toNat < 64) :
    Represents { window with
      seen := window.seen ||| 1 <<< (window.highest - packetId).toUInt64 }
        (arrived ++ [packetId]) := by
  have hbounds : ∀ id ∈ arrived ++ [packetId], id.toNat ≤ window.highest.toNat :=
    le_highest_concat h hle
  refine ⟨positive_concat h hpositive, hbounds, ?_, ?_⟩
  · exact h.highest_mem.imp_right fun hmem => mem_append_left _ hmem
  intro k hk
  rw [mask_eq hle, UInt64.toBitVec_or, BitVec.getLsbD_or, Bool.or_eq_true,
    WordBitmap.getLsbD_mask hnear, decide_eq_true_iff, h.bit_iff k hk]
  dsimp only
  constructor
  · rintro (⟨id, hid, hsum⟩ | rfl)
    · exact ⟨id, mem_append_left _ hid, hsum⟩
    · exact ⟨packetId, mem_append_right _ (mem_singleton_self _), by omega⟩
  · rintro ⟨id, hid, hsum⟩
    rcases mem_append.1 hid with hold | hlast
    · exact .inl ⟨id, hold, hsum⟩
    · rw [mem_singleton.1 hlast] at hsum
      exact .inr (by omega)

/-- `accept` answers whether the id is fresh, and the window stands for one more id after it. -/
theorem accept_represents :
    (window.accept packetId).1 = decide (Fresh arrived packetId) ∧
      Represents (window.accept packetId).2 (arrived ++ [packetId]) := by
  have hzero : packetId ≠ 0 := by
    rintro rfl
    exact absurd hpositive (Nat.lt_irrefl _)
  rw [accept, if_neg hzero]
  by_cases hup : window.highest < packetId
  · have hless := UInt32.lt_iff_toNat_lt.1 hup
    rw [if_pos hup]
    refine ⟨?_, h.moved hpositive hup⟩
    rw [eq_comm, decide_eq_true_iff]
    constructor
    · intro hmem
      exact absurd (h.le_highest _ hmem) (by omega)
    · intro id hid
      have := h.le_highest id hid
      omega
  have hle : packetId.toNat ≤ window.highest.toNat := by
    have := mt UInt32.lt_iff_toNat_lt.2 hup
    omega
  have hbehind := UInt32.toNat_sub_of_le _ _ (UInt32.le_iff_toNat_le.2 hle)
  have hhighest : window.highest ∈ arrived := by
    rcases h.highest_mem with hnone | hmem
    · rw [hnone] at hle
      exact absurd hpositive (Nat.not_lt.2 hle)
    · exact hmem
  have hreach : 64 ≤ window.highest - packetId ↔ packetId.toNat + 64 ≤ window.highest.toNat := by
    rw [UInt32.le_iff_toNat_le, show (64 : UInt32).toNat = 64 from rfl]
    omega
  rw [if_neg hup]
  by_cases hfar : 64 ≤ window.highest - packetId
  · have hold := hreach.1 hfar
    rw [if_pos hfar]
    refine ⟨?_, h.refused hpositive hle (.inr hold)⟩
    rw [eq_comm, decide_eq_false_iff_not]
    intro hfresh
    exact absurd (hfresh.2 _ hhighest) (by omega)
  have hnear : window.highest.toNat - packetId.toNat < 64 := by
    have := mt hreach.2 hfar
    omega
  have hmask := h.mask_iff hle hnear
  rw [if_neg hfar]
  by_cases hseen : window.seen &&& (1 <<< (window.highest - packetId).toUInt64) ≠ 0
  · have hmem := hmask.1 hseen
    rw [if_pos hseen]
    refine ⟨?_, h.refused hpositive hle (.inl hmem)⟩
    rw [eq_comm, decide_eq_false_iff_not]
    exact fun hfresh => hfresh.1 hmem
  rw [if_neg hseen]
  refine ⟨?_, h.marked hpositive hle hnear⟩
  rw [eq_comm, decide_eq_true_iff]
  refine ⟨mt hmask.2 hseen, ?_⟩
  intro id hid
  have := h.le_highest id hid
  omega

end

end Accept

end GamePath.Engine.OpenVpn.ReplayWindow
