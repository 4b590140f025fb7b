import GamePath.Engine.FragmentSources

/-!
# What a push does

`push_cases` says once what `Reassembler::push` can do: which entries stay, what becomes of the
entry of the fragment's own datagram, and when a datagram is returned. Everything that is said of a
run of the reassembler is derived from it.
-/

namespace GamePath.Engine.Ipv4Fragments

open Lib KeyedMap DatagramKey

universe u

variable {τ : Type u}

/-- The data of a fragment: what stands between its header and its total length. -/
def payload (packet : Ipv4Packet) : Bytes :=
  (packet.bytes.take (totalLength packet)).drop (headerLength packet)

/-- The length fields describe bytes that are there. -/
structure Legible (packet : Ipv4Packet) : Prop where
  header : 20 ≤ headerLength packet
  total : headerLength packet ≤ totalLength packet
  inside : totalLength packet ≤ packet.length

/-- The piece a fragment is kept as. -/
def pieceFrom (packet : Ipv4Packet) (tag : τ) : Piece τ :=
  ⟨fragmentOffset packet, payload packet, tag⟩

/-- The entry with one more piece. -/
def Partial.join (entry : Partial τ) (packet : Ipv4Packet) (tag : τ) : Partial τ :=
  { entry with
    ending := if hasMore packet then entry.ending
      else some (fragmentOffset packet + (payload packet).length)
    header := if fragmentOffset packet = 0 then some (packet.bytes.take (headerLength packet))
      else entry.header
    pieces := entry.pieces ++ [pieceFrom packet tag] }

/-- The entry a push works on: the one there is, or a new one. -/
def entryFor (r : Reassembler τ) (packet : Ipv4Packet) (now : Instant) : Partial τ :=
  (r.partials.get? (of packet)).getD ⟨now, none, [], none⟩

theorem cover_tiling (pieces : List (Piece τ)) :
    ∀ {start finish : Nat}, cover start pieces = .upTo finish →
      Tiles.Tiling Piece.start (fun piece => piece.data.length) start pieces finish := by
  induction pieces with
  | nil =>
    intro start finish h
    exact Coverage.upTo.inj h
  | cons piece pieces ih =>
    intro start finish h
    rw [cover] at h
    split at h
    · cases h
    · split at h
      · cases h
      · exact ⟨by omega, ih h⟩

namespace Reassembler

/-- What a push does with the entry of the fragment's own datagram, after making room for it. -/
inductive Outcome (r : Reassembler τ) (packet : Ipv4Packet) (tag : τ) (now : Instant) :
    Reassembler τ × Option (Bytes × List τ) → Prop where
  /-- The datagram is given up. -/
  | dropped {entry : Partial τ} :
      Outcome r packet tag now
        ((r.store (of packet) entry).discard (of packet), none)
  /-- The fragment was there already. -/
  | known {piece : Piece τ} (hmem : piece ∈ (entryFor r packet now).pieces)
      (hstart : piece.start = fragmentOffset packet) (hdata : piece.data = payload packet) :
      Outcome r packet tag now
        (r.store (of packet) (entryFor r packet now), none)
  /-- The fragment joins the others, which may be sorted at that. -/
  | joined {pieces : List (Piece τ)}
      (hnew : ∀ piece ∈ (entryFor r packet now).pieces, piece.start ≠ fragmentOffset packet)
      (hperm : pieces.Perm ((entryFor r packet now).join packet tag).pieces)
      (hroom : pieces.length ≤ maxFragmentsPerDatagram) :
      Outcome r packet tag now
        (r.store (of packet)
          { (entryFor r packet now).join packet tag with pieces := pieces }, none)
  /-- The fragment completes its datagram. -/
  | completed {header : Bytes} {finish : Nat} {pieces : List (Piece τ)}
      (hnew : ∀ piece ∈ (entryFor r packet now).pieces, piece.start ≠ fragmentOffset packet)
      (hperm : pieces.Perm ((entryFor r packet now).join packet tag).pieces)
      (hheader : ((entryFor r packet now).join packet tag).header = some header)
      (hending : ((entryFor r packet now).join packet tag).ending = some finish)
      (hlength : header.length + finish ≤ maxDatagramLength)
      (hcover : cover 0 pieces = .upTo finish) :
      Outcome r packet tag now
        ({ r with partials := r.partials.erase (of packet) },
          some (assemble header pieces, pieces.map Piece.tag))

section

variable {r : Reassembler τ} {packet : Ipv4Packet} {tag : τ} {now : Instant}
  (hnew : ∀ piece ∈ (entryFor r packet now).pieces, piece.start ≠ fragmentOffset packet)
include hnew

theorem complete_outcome
    (hroom : ((entryFor r packet now).join packet tag).pieces.length ≤ maxFragmentsPerDatagram) :
    Outcome r packet tag now
      (r.complete (of packet) ((entryFor r packet now).join packet tag)) := by
  have hperm : (sortPieces ((entryFor r packet now).join packet tag).pieces).Perm
      ((entryFor r packet now).join packet tag).pieces := List.perm_insertionSort _ _
  unfold complete
  split
  next header finish hheader hending =>
    split
    · exact .dropped
    next hlength =>
      dsimp only
      split
      · exact .joined hnew hperm (hperm.length_eq.trans_le hroom)
      · exact .dropped
      next covered hcover =>
        split
        · exact .dropped
        next hcovered =>
          rw [not_not] at hcovered
          rw [hcovered] at hcover
          exact .completed hnew hperm hheader hending (Nat.le_of_not_lt hlength) hcover
  next => exact .joined hnew (List.Perm.refl _) hroom

theorem take_outcome :
    Outcome r packet tag now
      (r.take (of packet) (entryFor r packet now) packet (pieceFrom packet tag)) := by
  unfold take
  dsimp only
  -- Whether the fragment contradicts a last fragment that came before it.
  generalize (!hasMore packet && _) = conflicting
  cases conflicting with
  | true => exact .dropped
  | false =>
    rw [if_neg Bool.false_ne_true]
    split
    · exact .dropped
    next hroom => exact complete_outcome hnew (Nat.le_of_not_lt hroom)

end

/-- All that a push can do: the fragment cannot be read; it cannot be a fragment of any datagram,
and the one it names is given up; or it is looked at with the entry of its datagram. -/
theorem push_cases (r : Reassembler τ) (packet : Ipv4Packet) (tag : τ) (now : Instant)
    (pick : Nat) :
    (¬ Legible packet ∧ r.push packet tag now pick =
      ({ r.expire now with discarded := (r.expire now).discarded + 1 }, none)) ∨
    (r.push packet tag now pick = ((r.expire now).discard (of packet), none)) ∨
    (Legible packet ∧ Outcome ((r.expire now).makeRoom (of packet) pick) packet tag now
      (r.push packet tag now pick)) := by
  unfold push
  dsimp only
  split
  next hbad =>
    refine .inl ⟨?_, rfl⟩
    rintro ⟨hheader, htotal, hinside⟩
    omega
  next hlegible =>
    have hlegible : Legible packet := ⟨by omega, by omega, by omega⟩
    split
    · exact .inr (.inl rfl)
    refine .inr (.inr ⟨hlegible, ?_⟩)
    split
    next piece hfound =>
      have hmem := List.mem_of_find?_eq_some hfound
      have hstart : piece.start = fragmentOffset packet := by
        have := List.find?_some hfound
        simpa using this
      split
      · exact .dropped
      next hdata => exact .known hmem hstart (not_not.1 hdata)
    next hnone =>
      apply take_outcome
      intro piece hmem hstart
      exact List.find?_eq_none.1 hnone piece hmem (decide_eq_true hstart)

/-! ## How much is held -/

section Size

variable {r : Reassembler τ} {key : DatagramKey}

theorem size_discard_le (r : Reassembler τ) (key : DatagramKey) :
    (r.discard key).partials.size ≤ r.partials.size := by
  unfold discard
  split
  · exact size_erase_le _ _
  · exact Nat.le_refl _

theorem size_expire_le (r : Reassembler τ) (now : Instant) :
    (r.expire now).partials.size ≤ r.partials.size :=
  size_retain_le _ _

theorem size_makeRoom (h : r.partials.size ≤ maxDatagrams) (key : DatagramKey) (pick : Nat) :
    (r.makeRoom key pick).partials.size ≤ maxDatagrams ∧
      ((r.makeRoom key pick).partials.get? key = none →
        (r.makeRoom key pick).partials.size < maxDatagrams) := by
  unfold makeRoom
  split
  next hfull =>
    have hmany : maxDatagrams ≤ r.partials.size :=
      of_decide_eq_true (Bool.and_eq_true _ _ ▸ hfull).2
    have hsome : r.partials.entries ≠ [] := by
      intro hnil
      rw [KeyedMap.size, hnil] at hmany
      exact Nat.not_succ_le_zero _ hmany
    obtain ⟨⟨oldest, entry⟩, holdest⟩ :=
      Option.isSome_iff_exists.1 (minBy_isSome hsome (fun entry => entry.started) pick)
    rw [holdest]
    have hget := get?_eq_some_iff.2 (mem_of_minBy holdest)
    have hless : (r.discard oldest).partials.size + 1 = r.partials.size := by
      unfold discard
      rw [hget]
      exact size_erase_of_get?_some hget
    dsimp only
    omega
  next hroom =>
    refine ⟨h, ?_⟩
    intro hnone
    rw [hnone] at hroom
    simpa using hroom

theorem size_store_le (h : r.partials.size ≤ maxDatagrams)
    (hroom : r.partials.get? key = none → r.partials.size < maxDatagrams) (entry : Partial τ) :
    (r.store key entry).partials.size ≤ maxDatagrams := by
  show (r.partials.insert key entry).size ≤ maxDatagrams
  rw [size_insert]
  cases hget : r.partials.get? key with
  | none =>
    have hless := hroom hget
    have herase := size_erase_le r.partials key
    omega
  | some found =>
    have herase := size_erase_of_get?_some hget
    omega

theorem size_push (h : r.partials.size ≤ maxDatagrams) (packet : Ipv4Packet) (tag : τ)
    (now : Instant) (pick : Nat) : (r.push packet tag now pick).1.partials.size ≤ maxDatagrams := by
  have hexpired := (size_expire_le r now).trans h
  obtain ⟨hsize, hroom⟩ := size_makeRoom hexpired (of packet) pick
  rcases push_cases r packet tag now pick with ⟨-, heq⟩ | heq | ⟨-, houtcome⟩
  · rw [heq]
    exact hexpired
  · rw [heq]
    exact (size_discard_le _ _).trans hexpired
  generalize r.push packet tag now pick = result at houtcome ⊢
  cases houtcome with
  | dropped => exact (size_discard_le _ _).trans (size_store_le hsize hroom _)
  | known | joined => exact size_store_le hsize hroom _
  | completed => exact (size_erase_le _ _).trans hsize

end Size

end Reassembler

end GamePath.Engine.Ipv4Fragments
