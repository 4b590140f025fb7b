import GamePath.Engine.Ipv4Fragments
import GamePath.Engine.Ipv4Header

/-!
# Where a rebuilt datagram says it comes from

A datagram the reassembler returns starts with the header of its first fragment, of which only the
length, the flags and the checksum are written anew. What holds of the header of every fragment that
is kept, holds of the header a datagram is made from (`Headed.push`), and version and addresses are
those of that header (`assemble_header`).
-/

namespace GamePath.Engine.Ipv4Fragments

open Lib Header

universe u

variable {τ : Type u}

/-- A datagram has the version and the addresses of the header it is assembled from. -/
theorem assemble_header (packet : Ipv4Packet) (pieces : List (Piece τ)) :
    ∃ header rest, assemble packet.bytes pieces = bytes header ++ rest ∧
      header.version = (of packet).version ∧ header.source = (of packet).source ∧
      header.destination = (of packet).destination := by
  have hbytes : packet.bytes ++ pieces.flatMap Piece.data =
      (of packet).bytes ++ (packet.bytes.drop 20 ++ pieces.flatMap Piece.data) := by
    rw [← List.append_assoc, bytes_of_append_drop]
  unfold assemble
  dsimp only
  rw [hbytes, setU16_length, setU16_flags, setU16_checksum,
    setU16_checksum]
  exact ⟨_, _, rfl, rfl, rfl, rfl⟩

/-- The headers an entry or a whole reassembler keeps satisfy `P`. -/
def Partial.Headed (P : Bytes → Prop) (entry : Partial τ) : Prop :=
  ∀ header, entry.header = some header → P header

namespace Reassembler

/-! ## What holds of every entry -/

section Each

variable {P : DatagramKey → Partial τ → Prop} {r : Reassembler τ}

/-- Every entry satisfies `P`. -/
def Each (P : DatagramKey → Partial τ → Prop) (r : Reassembler τ) : Prop :=
  ∀ key entry, r.partials.get? key = some entry → P key entry

/-- A new reassembler holds nothing. -/
theorem each_default : (default : Reassembler τ).Each P := by
  intro key entry hget
  cases hget

theorem Each.imp {Q : DatagramKey → Partial τ → Prop} (h : r.Each P)
    (hPQ : ∀ key entry, P key entry → Q key entry) : r.Each Q :=
  fun key entry hget => hPQ key entry (h key entry hget)

/-- What is left has another key than what was taken out. -/
theorem Each.erase (h : r.Each P) (key : DatagramKey) :
    Each (fun other entry => other ≠ key ∧ P other entry)
      { r with partials := r.partials.erase key } := by
  intro other found hget
  rw [KeyedMap.get?_erase] at hget
  split at hget
  · cases hget
  next hne => exact ⟨hne, h other found hget⟩

theorem Each.discard (h : r.Each P) (key : DatagramKey) :
    (r.discard key).Each fun other entry => other ≠ key ∧ P other entry := by
  unfold Reassembler.discard
  split
  · exact h.erase key
  next hnone =>
    intro other found hget
    refine ⟨?_, h other found hget⟩
    rintro rfl
    rw [hget] at hnone
    exact hnone rfl

/-- What outlives expiry is not too old. -/
theorem Each.expire (h : r.Each P) (now : Instant) :
    (r.expire now).Each fun key entry => now - entry.started < fragmentTimeout ∧ P key entry := by
  intro key entry hget
  have hkept : ((r.partials.get? key).filter _) = some entry :=
    (KeyedMap.get?_retain r.partials _ key).symm.trans hget
  obtain ⟨hold, hyoung⟩ := Option.filter_eq_some_iff.1 hkept
  exact ⟨of_decide_eq_true hyoung, h key entry hold⟩

theorem Each.makeRoom (h : r.Each P) (key : DatagramKey) (pick : Nat) :
    (r.makeRoom key pick).Each P := by
  unfold Reassembler.makeRoom
  split
  · split
    · exact (h.discard _).imp fun _ _ hkept => hkept.2
    · exact h
  · exact h

/-- Only the stored datagram has to be looked at again. -/
theorem Each.store {key : DatagramKey} {entry : Partial τ}
    (h : r.Each fun other found => other ≠ key → P other found) (hentry : P key entry) :
    (r.store key entry).Each P := by
  intro other found hget
  change (r.partials.insert key entry).get? other = some found at hget
  rw [KeyedMap.get?_insert] at hget
  split at hget
  next heq =>
    rw [← Option.some.inj hget, heq]
    exact hentry
  next hne => exact h other found hget hne

end Each

/-! ## Headers -/

/-- The headers of all entries satisfy `P`. -/
def Headed (P : Bytes → Prop) (r : Reassembler τ) : Prop :=
  ∀ key entry, r.partials.get? key = some entry → entry.Headed P

section Headed

variable {P : Bytes → Prop} {r : Reassembler τ} {key : DatagramKey} {entry : Partial τ}

theorem headed_default : (default : Reassembler τ).Headed P :=
  each_default

theorem Headed.erase (h : r.Headed P) (key : DatagramKey) :
    Headed P { r with partials := r.partials.erase key } :=
  (Each.erase h key).imp fun _ _ hkept => hkept.2

theorem Headed.discard (h : r.Headed P) (key : DatagramKey) : (r.discard key).Headed P :=
  (Each.discard h key).imp fun _ _ hkept => hkept.2

theorem Headed.expire (h : r.Headed P) (now : Instant) : (r.expire now).Headed P :=
  (Each.expire h now).imp fun _ _ hkept => hkept.2

theorem Headed.makeRoom (h : r.Headed P) (key : DatagramKey) (pick : Nat) :
    (r.makeRoom key pick).Headed P :=
  Each.makeRoom h key pick

theorem Headed.store (h : r.Headed P) (key : DatagramKey) (hentry : entry.Headed P) :
    (r.store key entry).Headed P :=
  Each.store (Each.imp h fun _ _ hfound _ => hfound) hentry

/-- A reassembler with good headers, and a datagram that is made from one. -/
def Rebuilds (P : Bytes → Prop) (result : Reassembler τ × Option (Bytes × List τ)) : Prop :=
  result.1.Headed P ∧ ∀ datagram tags, result.2 = some (datagram, tags) →
    ∃ (header : Bytes) (pieces : List (Piece τ)), P header ∧ datagram = assemble header pieces

theorem Headed.rebuilds_none (h : r.Headed P) : Rebuilds P (r, none) := by
  refine ⟨h, ?_⟩
  intro datagram tags heq
  cases heq

/-- What is handed over has the header that was kept for it. -/
theorem Headed.complete (h : r.Headed P) (key : DatagramKey) (hentry : entry.Headed P) :
    Rebuilds P (r.complete key entry) := by
  unfold Reassembler.complete
  split
  next header ending hheader _ =>
    split
    · exact ((h.store key hentry).discard key).rebuilds_none
    dsimp only
    have hsorted : Partial.Headed P { entry with pieces := sortPieces entry.pieces } := hentry
    split
    · exact (h.store key hsorted).rebuilds_none
    · exact ((h.store key hsorted).discard key).rebuilds_none
    split
    · exact ((h.store key hsorted).discard key).rebuilds_none
    · refine ⟨h.erase key, ?_⟩
      intro datagram tags heq
      cases heq
      exact ⟨header, _, hentry header hheader, rfl⟩
  next => exact (h.store key hentry).rebuilds_none

/-- The first piece brings the header, and the others keep it. -/
theorem Headed.take (h : r.Headed P) (key : DatagramKey) (hentry : entry.Headed P)
    {packet : Ipv4Packet} (hpacket : P (packet.bytes.take (headerLength packet)))
    (piece : Piece τ) : Rebuilds P (r.take key entry packet piece) := by
  unfold Reassembler.take
  dsimp only
  generalize (!hasMore packet && _) = conflicting
  cases conflicting with
  | true => exact ((h.store key hentry).discard key).rebuilds_none
  | false =>
    rw [if_neg Bool.false_ne_true]
    have hjoined : ∀ (ending : Option Nat) (pieces : List (Piece τ)), Partial.Headed P
        { entry with
          ending := ending
          header := if piece.start = 0 then some (packet.bytes.take (headerLength packet))
            else entry.header
          pieces := pieces } := by
      intro ending pieces header heq
      split at heq
      · rw [← Option.some.inj heq]
        exact hpacket
      · exact hentry header heq
    split
    · exact ((h.store key (hjoined _ _)).discard key).rebuilds_none
    · exact h.complete key (hjoined _ _)

/-- Pushing a fragment keeps the headers good, and a datagram is made from a good header. -/
theorem Headed.push (h : r.Headed P) (packet : Ipv4Packet)
    (hpacket : 20 ≤ headerLength packet → headerLength packet ≤ packet.length →
      P (packet.bytes.take (headerLength packet)))
    (tag : τ) (now : Instant) (pick : Nat) : Rebuilds P (r.push packet tag now pick) := by
  have hexpired := h.expire now
  unfold Reassembler.push
  dsimp only
  split
  · exact Headed.rebuilds_none hexpired
  next hread =>
    have hpacket := hpacket (by omega) (by omega)
    split
    · exact (hexpired.discard _).rebuilds_none
    have hroom := hexpired.makeRoom (DatagramKey.of packet) pick
    have hentry : Partial.Headed P ((((r.expire now).makeRoom (DatagramKey.of packet)
        pick).partials.get? (DatagramKey.of packet)).getD ⟨now, none, [], none⟩) := by
      cases hget : ((r.expire now).makeRoom (DatagramKey.of packet) pick).partials.get?
          (DatagramKey.of packet) with
      | none =>
        intro header heq
        cases heq
      | some entry => exact hroom _ _ hget
    split
    · split
      · exact ((hroom.store _ hentry).discard _).rebuilds_none
      · exact (hroom.store _ hentry).rebuilds_none
    · exact hroom.take _ hentry hpacket _

end Headed

end Reassembler

end GamePath.Engine.Ipv4Fragments
