import Mathlib.Data.Multiset.Basic
import GamePath.Engine.Ipv4Fragments

/-!
# Where a rebuilt datagram comes from

Every piece the reassembler keeps carries a tag. A fragment that is pushed brings one tag in, a
datagram that comes out takes the tags of its pieces along, and tags of pieces that are given up
vanish: no tag is ever there twice that was pushed once (`push_tags_le`).
-/

namespace GamePath.Engine.Ipv4Fragments

open Lib List
open Multiset (le_add_left le_add_right ofList)

universe u

variable {τ : Type u}

/-- The tags of an entry's pieces. -/
def Partial.tags (entry : Partial τ) : Multiset τ := ofList (entry.pieces.map Piece.tag)

/-- The tags of all pieces that wait. -/
def waiting (partials : KeyedMap DatagramKey (Partial τ)) : Multiset τ :=
  (partials.entries.map fun e => e.2.tags).sum

/-- The tags of what `push` returns. -/
def tagsOut (output : Option (Bytes × List τ)) : Multiset τ :=
  ofList ((output.map Prod.snd).getD [])

@[simp] theorem tagsOut_none : tagsOut (none : Option (Bytes × List τ)) = 0 := rfl

variable {partials : KeyedMap DatagramKey (Partial τ)}

/-- A datagram that is taken out takes its tags with it. -/
theorem waiting_erase {key : DatagramKey} {entry : Partial τ} (h : partials.get? key = some entry) :
    waiting partials = entry.tags + waiting (partials.erase key) := by
  have hperm := (KeyedMap.perm_cons_erase h).map fun e => e.2.tags
  rw [waiting, hperm.sum_eq, map_cons]
  rfl

/-- What is not held leaves nothing behind. -/
theorem waiting_erase_of_none {key : DatagramKey}
    (h : partials.get? key = none) : waiting (partials.erase key) = waiting partials := by
  rw [waiting, KeyedMap.entries_erase_of_get?_none h]
  rfl

/-- A datagram that is put in counts in place of the one it replaces. -/
theorem waiting_insert (partials : KeyedMap DatagramKey (Partial τ)) (key : DatagramKey)
    (entry : Partial τ) :
    waiting (partials.insert key entry) = entry.tags + waiting (partials.erase key) :=
  sum_cons

theorem waiting_erase_le (partials : KeyedMap DatagramKey (Partial τ)) (key : DatagramKey) :
    waiting (partials.erase key) ≤ waiting partials := by
  cases hget : partials.get? key with
  | none => exact le_of_eq (waiting_erase_of_none hget)
  | some entry =>
    rw [waiting_erase hget]
    exact le_add_left _ _

/-- Fewer datagrams have no more tags. -/
theorem sum_tags_le_of_sublist {entries entries' : List (DatagramKey × Partial τ)}
    (h : entries'.Sublist entries) :
    (entries'.map fun e => e.2.tags).sum ≤ (entries.map fun e => e.2.tags).sum := by
  induction h with
  | slnil => exact le_refl _
  | cons e _ ih =>
    exact le_trans ih (le_add_left _ _)
  | cons_cons e _ ih =>
    exact add_le_add_right ih _

namespace Reassembler

/-- Expiry loses tags and makes none. -/
theorem waiting_expire_le (r : Reassembler τ) (now : Instant) :
    waiting (r.expire now).partials ≤ waiting r.partials :=
  sum_tags_le_of_sublist filter_sublist

section

variable (r : Reassembler τ) (key : DatagramKey)
include r key

theorem waiting_discard_le :
    waiting (r.discard key).partials ≤ waiting r.partials := by
  unfold discard
  split
  · exact waiting_erase_le _ _
  · exact le_refl _

/-- So does the eviction that makes room. -/
theorem waiting_makeRoom_le (pick : Nat) :
    waiting (r.makeRoom key pick).partials ≤ waiting r.partials := by
  unfold makeRoom
  split
  · split
    · exact waiting_discard_le _ _
    · exact le_refl _
  · exact le_refl _

variable (entry : Partial τ)

/-- A datagram that is given up leaves no tag more than there was. -/
theorem waiting_store_discard_le :
    waiting ((r.store key entry).discard key).partials ≤
      entry.tags + waiting (r.partials.erase key) := by
  refine le_trans (waiting_discard_le _ _) (le_of_eq ?_)
  exact waiting_insert _ _ _

/-- A finished datagram gives its own tags out, and the rest stay. -/
theorem complete_tags_le :
    tagsOut (r.complete key entry).2 + waiting (r.complete key entry).1.partials ≤
      entry.tags + waiting (r.partials.erase key) := by
  have hsort : ({ entry with pieces := sortPieces entry.pieces } : Partial τ).tags = entry.tags :=
    Multiset.coe_eq_coe.2 ((perm_insertionSort _ _).map Piece.tag)
  -- An entry that is stored keeps its tags, one that is discarded loses them.
  have hstored : ∀ entry : Partial τ, tagsOut (none : Option (Bytes × List τ)) +
      waiting (r.store key entry).partials ≤ entry.tags + waiting (r.partials.erase key) := by
    intro entry
    rw [tagsOut_none, zero_add]
    exact le_of_eq (waiting_insert _ _ _)
  have hdropped : ∀ entry : Partial τ, tagsOut (none : Option (Bytes × List τ)) +
      waiting ((r.store key entry).discard key).partials ≤
        entry.tags + waiting (r.partials.erase key) := by
    intro entry
    rw [tagsOut_none, zero_add]
    exact waiting_store_discard_le _ _ _
  unfold complete
  split
  · split
    · exact hdropped entry
    dsimp only
    split
    · rw [← hsort]
      exact hstored _
    · rw [← hsort]
      exact hdropped _
    split
    · rw [← hsort]
      exact hdropped _
    · -- The datagram takes the tags along and its entry goes.
      rw [← hsort]
      exact le_refl _
  · exact hstored entry

/-- One piece brings one tag. -/
theorem take_tags_le (packet : Ipv4Packet) (piece : Piece τ) :
    tagsOut (r.take key entry packet piece).2 + waiting (r.take key entry packet piece).1.partials ≤
      entry.tags + waiting (r.partials.erase key) + {piece.tag} := by
  have hadded : ∀ (header : Option Bytes) (ending : Option Nat),
      (⟨entry.started, header, entry.pieces ++ [piece], ending⟩ : Partial τ).tags =
        entry.tags + {piece.tag} := by
    intro header ending
    show ofList ((entry.pieces ++ [piece]).map Piece.tag) = _
    rw [map_append]
    rfl
  have hmore : entry.tags + {piece.tag} + waiting (r.partials.erase key) =
      entry.tags + waiting (r.partials.erase key) + {piece.tag} := add_right_comm _ _ _
  unfold take
  dsimp only
  generalize (!hasMore packet && _) = conflicting
  cases conflicting with
  | true =>
    rw [if_pos rfl, tagsOut_none, zero_add]
    exact le_trans (waiting_store_discard_le _ _ _) (le_add_right _ _)
  | false =>
    rw [if_neg Bool.false_ne_true]
    split
    · rw [tagsOut_none, zero_add, ← hmore, ← hadded]
      exact waiting_store_discard_le _ _ _
    · rw [← hmore, ← hadded]
      exact complete_tags_le _ _ _

end

/-- Pushing a fragment brings in its own tag and no other. -/
theorem push_tags_le (r : Reassembler τ) (packet : Ipv4Packet) (tag : τ) (now : Instant)
    (pick : Nat) :
    tagsOut (r.push packet tag now pick).2 + waiting (r.push packet tag now pick).1.partials ≤
      waiting r.partials + {tag} := by
  have hexpired := waiting_expire_le r now
  unfold push
  dsimp only
  split
  · -- Not a fragment that can be read.
    rw [tagsOut_none, zero_add]
    exact le_trans hexpired (le_add_right _ _)
  split
  · -- A malformed fragment takes its datagram with it.
    rw [tagsOut_none, zero_add]
    exact le_trans (le_trans (waiting_discard_le _ _) hexpired) (le_add_right _ _)
  generalize hroom : (r.expire now).makeRoom (DatagramKey.of packet) pick = room
  have hle : waiting room.partials ≤ waiting r.partials := by
    rw [← hroom]
    exact le_trans (waiting_makeRoom_le _ _ _) hexpired
  -- The entry is the one that is kept, or a new one without pieces.
  have hentry : ((room.partials.get? (DatagramKey.of packet)).getD ⟨now, none, [], none⟩).tags +
      waiting (room.partials.erase (DatagramKey.of packet)) = waiting room.partials := by
    cases hget : room.partials.get? (DatagramKey.of packet) with
    | none =>
      rw [waiting_erase_of_none hget]
      exact zero_add _
    | some entry => exact (waiting_erase hget).symm
  split
  · split
    · -- A conflict: the datagram goes.
      rw [tagsOut_none, zero_add]
      refine le_trans (waiting_store_discard_le _ _ _) ?_
      rw [hentry]
      exact le_trans hle (le_add_right _ _)
    · -- A copy: its tag is not kept.
      rw [tagsOut_none, zero_add]
      refine le_trans (le_of_eq (waiting_insert _ _ _)) ?_
      rw [hentry]
      exact le_trans hle (le_add_right _ _)
  · refine le_trans (take_tags_le _ _ _ _ _) ?_
    rw [hentry]
    exact add_le_add_left hle _

end Reassembler

end GamePath.Engine.Ipv4Fragments
