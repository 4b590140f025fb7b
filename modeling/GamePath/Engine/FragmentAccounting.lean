import GamePath.Engine.FragmentRouter

/-!
# Accounting of the fragment router

Five places take waiting pieces out of the router: expiry, eviction, a second `begin`, overflow and
`finish`. `Sound` states the bounds and the byte total; `Accounts` states what one call does with
pieces: those that waited before the call and those it held are, after it, still waiting, returned
or discarded. Each operation has one lemma; `router_accounting` adds them up over every run.
-/

namespace GamePath.Engine.FragmentRouter

open Lib List KeyedMap

universe u

variable {A : Type u}

/-- All waiting pieces of a map of datagrams. -/
def flat (m : KeyedMap Key (Datagram A)) : List (Ipv4Packet × A) :=
  m.entries.flatMap fun e => e.2.waiting

/-- The pieces waiting under a key. -/
def waitingAt (m : KeyedMap Key (Datagram A)) (key : Key) : List (Ipv4Packet × A) :=
  ((m.get? key).map Datagram.waiting).getD []

theorem bytesOf_append (xs ys : List (Ipv4Packet × A)) :
    bytesOf (xs ++ ys) = bytesOf xs + bytesOf ys := by
  simp [bytesOf]

variable {xs ys : List (Ipv4Packet × A)}

theorem bytesOf_perm (h : xs.Perm ys) :
    bytesOf xs = bytesOf ys :=
  (h.map _).sum_eq

variable (m : KeyedMap Key (Datagram A))

theorem flat_perm_erase (key : Key) :
    (flat m).Perm (waitingAt m key ++ flat (m.erase key)) := by
  unfold waitingAt
  cases hget : m.get? key with
  | none =>
    have herase := entries_erase_of_get?_none hget
    simp [flat, herase]
  | some d =>
    have hperm := (perm_cons_erase hget).flatMap_right fun e => e.2.waiting
    simpa [flat] using hperm

@[simp] theorem flat_insert (key : Key) (d : Datagram A) :
    flat (m.insert key d) = d.waiting ++ flat (m.erase key) := rfl

theorem flat_retain_perm (keep : Datagram A → Bool) :
    (flat m).Perm ((m.entries.filter fun e => !keep e.2).flatMap (fun e => e.2.waiting) ++
      flat (m.retain fun _ d => keep d)) := by
  have hsplit := (filter_append_perm (fun e : Key × Datagram A => !keep e.2) m.entries).symm
  have hflat := hsplit.flatMap_right fun e => e.2.waiting
  simpa [flat, KeyedMap.retain] using hflat

/-! ## The byte total -/

/-- The byte total is the bytes of `pieces`, and no subtraction has gone below zero. -/
def Tally (r : FragmentRouter A) (pieces : List (Ipv4Packet × A)) : Prop :=
  r.pendingBytes = bytesOf pieces ∧ r.underflow = false

variable {r : FragmentRouter A}

theorem Tally.perm (h : Tally r xs) (hperm : xs.Perm ys) : Tally r ys :=
  ⟨h.1.trans (bytesOf_perm hperm), h.2⟩

theorem Tally.release {gone rest : List (Ipv4Packet × A)} (h : Tally r (gone ++ rest)) :
    Tally (r.release gone) rest := by
  obtain ⟨hbytes, hunder⟩ := h
  rw [bytesOf_append] at hbytes
  refine ⟨?_, ?_⟩
  · show r.pendingBytes - bytesOf gone = bytesOf rest
    omega
  · show (r.underflow || decide (r.pendingBytes < bytesOf gone)) = false
    simp [hunder, hbytes]

theorem foldl_discard_spec (dead : List (Key × Datagram A)) :
    ∀ (r : FragmentRouter A) (rest : List (Ipv4Packet × A)),
      Tally r (dead.flatMap (fun e => e.2.waiting) ++ rest) →
        Tally (dead.foldl (fun r e => r.discard e.2.waiting) r) rest ∧
          (dead.foldl (fun r e => r.discard e.2.waiting) r).discarded =
            r.discarded + (dead.flatMap fun e => e.2.waiting).length := by
  induction dead with
  | nil => exact fun r rest h => ⟨h, by simp⟩
  | cons e es ih =>
    intro r rest h
    rw [flatMap_cons, append_assoc] at h
    obtain ⟨htally, hcount⟩ := ih (r.discard e.2.waiting) rest h.release
    refine ⟨htally, ?_⟩
    rw [foldl_cons, hcount, flatMap_cons, length_append]
    show r.discarded + e.2.waiting.length + _ = _
    omega

/-! ## One call -/

/-- The bounds every reachable router keeps. -/
structure Sound (r : FragmentRouter A) : Prop where
  tally : Tally r (flat r.datagrams)
  bytes_le : r.pendingBytes ≤ maxPendingBytes
  size_le : r.datagrams.size ≤ maxDatagrams
  pieces_le : ∀ e ∈ r.datagrams.entries, e.2.waiting.length ≤ maxPieces
  settled : ∀ e ∈ r.datagrams.entries, e.2.route.isSome = true → e.2.waiting = []

/-- What a call does with pieces: what waited before it and what it held is, after it, waiting,
returned or discarded, and the discard counter grows by the discarded ones. -/
def Accounts (r : FragmentRouter A) (held : List (Ipv4Packet × A)) (r' : FragmentRouter A)
    (returned : List (Ipv4Packet × A)) : Prop :=
  ∃ dropped : List (Ipv4Packet × A),
    (flat r.datagrams ++ held).Perm (flat r'.datagrams ++ returned ++ dropped) ∧
      r'.discarded = r.discarded + dropped.length

theorem sound_default : Sound (default : FragmentRouter A) where
  tally := ⟨rfl, rfl⟩
  bytes_le := Nat.zero_le _
  size_le := Nat.zero_le _
  pieces_le := nofun
  settled := nofun

theorem Accounts.trans {r₁ r₂ r₃ : FragmentRouter A} {held returned : List (Ipv4Packet × A)}
    (h₁ : Accounts r₁ [] r₂ []) (h₂ : Accounts r₂ held r₃ returned) :
    Accounts r₁ held r₃ returned := by
  obtain ⟨d₁, hp₁, hc₁⟩ := h₁
  obtain ⟨d₂, hp₂, hc₂⟩ := h₂
  refine ⟨d₂ ++ d₁, ?_, ?_⟩
  · simp only [append_nil] at hp₁
    have h1 : (flat r₁.datagrams ++ held).Perm (flat r₂.datagrams ++ held ++ d₁) := by
      refine (hp₁.append_right held).trans ?_
      simp only [append_assoc]
      exact List.Perm.append_left _ perm_append_comm
    refine h1.trans ((hp₂.append_right d₁).trans ?_)
    simp [append_assoc]
  · rw [hc₂, length_append]
    omega

theorem bytes_le_of_perm (h : Sound r) (hperm : (flat r.datagrams).Perm (xs ++ ys)) :
    bytesOf ys ≤ maxPendingBytes := by
  have hsum := bytesOf_perm hperm
  rw [bytesOf_append] at hsum
  have hbytes := h.tally.1
  have hle := h.bytes_le
  omega

theorem expire_spec (h : Sound r) (now : Instant) :
    Sound (r.expire now) ∧ Accounts r [] (r.expire now) [] := by
  have hperm := flat_retain_perm r.datagrams fun d => !expired now d
  simp only [Bool.not_not] at hperm
  obtain ⟨htally, hcount⟩ := foldl_discard_spec _ r _ (h.tally.perm hperm)
  refine ⟨⟨htally, ?_, ?_, ?_, ?_⟩, ⟨_, ?_, hcount⟩⟩
  · exact Nat.le_trans (Nat.le_of_eq htally.1) (bytes_le_of_perm h hperm)
  · exact Nat.le_trans (size_retain_le _ _) h.size_le
  · exact fun e he => h.pieces_le e (mem_retain.1 he).1
  · exact fun e he => h.settled e (mem_retain.1 he).1
  · simp only [append_nil]
    exact hperm.trans perm_append_comm

/-- Eviction keeps the bounds, discards the pieces of the entry it removes, and leaves room for
the key it was made for. -/
theorem makeRoom_spec (h : Sound r) (key : Key) (pick : Nat) :
    Sound (r.makeRoom key pick) ∧ Accounts r [] (r.makeRoom key pick) [] ∧
      ((r.makeRoom key pick).datagrams.get? key = none →
        (r.makeRoom key pick).datagrams.size < maxDatagrams) := by
  unfold makeRoom
  split
  · -- Full: a full map is not empty, so there is an oldest entry to evict.
    rename_i hfull
    rw [Bool.and_eq_true] at hfull
    have hne : r.datagrams.entries ≠ [] := by
      intro hnil
      have hsize : r.datagrams.size = 0 := by rw [KeyedMap.size, hnil, length_nil]
      have := hfull.2
      rw [hsize] at this
      cases this
    obtain ⟨⟨oldest, old⟩, hmin⟩ :=
      Option.isSome_iff_exists.1 (minBy_isSome hne (fun d => d.started) pick)
    rw [hmin]
    have hget := get?_eq_some_iff.2 (mem_of_minBy hmin)
    have hperm : (flat r.datagrams).Perm (old.waiting ++ flat (r.datagrams.erase oldest)) := by
      have := flat_perm_erase r.datagrams oldest
      simpa [waitingAt, hget] using this
    have hsize := size_erase_of_get?_some hget
    have htally := (h.tally.perm hperm).release
    have hle := h.size_le
    refine ⟨⟨htally, ?_, ?_, ?_, ?_⟩, ⟨old.waiting, ?_, rfl⟩, fun _ => ?_⟩
    · exact Nat.le_trans (Nat.le_of_eq htally.1) (bytes_le_of_perm h hperm)
    · show (r.datagrams.erase oldest).size ≤ _
      omega
    · exact fun e he => h.pieces_le e (mem_erase.1 he).1
    · exact fun e he => h.settled e (mem_erase.1 he).1
    · simp only [append_nil]
      exact hperm.trans perm_append_comm
    · show (r.datagrams.erase oldest).size < _
      omega
  · -- Nothing is evicted: the key is there already, or there was room.
    rename_i hroom
    refine ⟨h, ⟨[], by simp, rfl⟩, fun hnone => ?_⟩
    simp only [hnone, Option.isNone_none, Bool.true_and, decide_eq_true_eq] at hroom
    omega

theorem prepare_spec (h : Sound r) (key : Key) (now : Instant) (pick : Nat) :
    Sound (r.prepare key now pick) ∧ Accounts r [] (r.prepare key now pick) [] ∧
      ((r.prepare key now pick).datagrams.get? key = none →
        (r.prepare key now pick).datagrams.size < maxDatagrams) := by
  obtain ⟨hexp, haexp⟩ := expire_spec h now
  obtain ⟨hroom, haroom, hsize⟩ := makeRoom_spec hexp key pick
  exact ⟨hroom, haexp.trans haroom, hsize⟩

/-- Storing an entry keeps the bounds when the total follows the new list of pieces. -/
theorem sound_insert {r r' : FragmentRouter A} {key : Key} {d : Datagram A} (h : Sound r)
    (hdata : r'.datagrams = r.datagrams.insert key d)
    (htally : Tally r' (d.waiting ++ flat (r.datagrams.erase key)))
    (hbytes : r'.pendingBytes ≤ maxPendingBytes)
    (hroom : r.datagrams.get? key = none → r.datagrams.size < maxDatagrams)
    (hpieces : d.waiting.length ≤ maxPieces) (hsettled : d.route.isSome = true → d.waiting = []) :
    Sound r' := by
  refine ⟨?_, hbytes, ?_, ?_, ?_⟩
  · rw [hdata]
    exact htally
  · rw [hdata, size_insert]
    cases hget : r.datagrams.get? key with
    -- A new key takes one of the places left.
    | none =>
      have := size_erase_le r.datagrams key
      have := hroom hget
      omega
    -- A known key takes its own place again.
    | some old =>
      rw [size_erase_of_get?_some hget]
      exact h.size_le
  · rw [hdata]
    intro e he
    rcases mem_insert.1 he with rfl | ⟨he, -⟩
    · exact hpieces
    · exact h.pieces_le e he
  · rw [hdata]
    intro e he
    rcases mem_insert.1 he with rfl | ⟨he, -⟩
    · exact hsettled
    · exact h.settled e he

theorem waitingAt_of_some {m : KeyedMap Key (Datagram A)} {key : Key} {d : Datagram A}
    (h : m.get? key = some d) : waitingAt m key = d.waiting := by
  simp [waitingAt, h]

theorem waitingAt_of_none {m : KeyedMap Key (Datagram A)} {key : Key} (h : m.get? key = none) :
    waitingAt m key = [] := by
  simp [waitingAt, h]

theorem begin_spec (h : Sound r) (first : Ipv4Packet) (now : Instant) (pick : Nat) :
    Sound (r.begin first now pick).1 ∧ Accounts r [] (r.begin first now pick).1 [] := by
  obtain ⟨hprep, haprep, hroom⟩ := prepare_spec h (Key.of first) now pick
  unfold begin
  dsimp only
  generalize r.prepare (Key.of first) now pick = r₁ at hprep haprep hroom ⊢
  have hperm := flat_perm_erase r₁.datagrams (Key.of first)
  obtain ⟨-, hcases⟩ := reserve_cases r₁ (Key.of first) now
  rcases hcases with ⟨hget, heq⟩ | ⟨old, hget, -, heq⟩ | ⟨old, hget, -, heq⟩
  · -- Nothing was there.
    rw [waitingAt_of_none hget] at hperm
    rw [heq]
    refine ⟨sound_insert hprep rfl (hprep.tally.perm hperm) hprep.bytes_le hroom
      (Nat.zero_le _) fun _ => rfl, haprep.trans ⟨[], ?_, rfl⟩⟩
    simpa [store] using hperm
  · -- Later fragments came first: their pieces go on waiting.
    rw [waitingAt_of_some hget] at hperm
    rw [heq]
    refine ⟨sound_insert hprep rfl (hprep.tally.perm hperm) hprep.bytes_le hroom
      (hprep.pieces_le _ (get?_eq_some_iff.1 hget))
      (nofun), haprep.trans ⟨[], ?_, rfl⟩⟩
    simpa [store] using hperm
  · -- An earlier datagram of the same key: its pieces are discarded.
    rw [waitingAt_of_some hget] at hperm
    rw [heq]
    have hgone := (hprep.tally.perm hperm).release
    refine ⟨sound_insert hprep rfl hgone
      (Nat.le_trans (Nat.le_of_eq hgone.1) (bytes_le_of_perm hprep hperm)) hroom
      (Nat.zero_le _) fun _ => rfl, haprep.trans ⟨old.waiting, ?_, rfl⟩⟩
    simp only [append_nil]
    exact hperm.trans perm_append_comm

theorem entry_spec (h : Sound r) (key : Key) (now : Instant) :
    waitingAt r.datagrams key = (r.entry key now).waiting ∧
      (r.entry key now).waiting.length ≤ maxPieces ∧
        ((r.entry key now).route.isSome = true → (r.entry key now).waiting = []) := by
  unfold entry
  cases hget : r.datagrams.get? key with
  | none => exact ⟨waitingAt_of_none hget, Nat.zero_le _, fun _ => rfl⟩
  | some d =>
    have hmem := get?_eq_some_iff.1 hget
    exact ⟨waitingAt_of_some hget, h.pieces_le _ hmem, h.settled _ hmem⟩

/-- `later` routes, discards the datagram's pieces on overflow, or holds one more piece. -/
theorem later_spec (h : Sound r) (packet : Ipv4Packet) (address : A) (now : Instant) (pick : Nat) :
    Sound (r.later packet address now pick).1 ∧
      Accounts r (if (r.later packet address now pick).2 = .held then [(packet, address)] else [])
        (r.later packet address now pick).1 [] := by
  obtain ⟨hprep, haprep, hroom⟩ := prepare_spec h (Key.of packet) now pick
  obtain ⟨hwait, hpieces, hsettled⟩ := entry_spec hprep (Key.of packet) now
  unfold later
  set r₁ := r.prepare (Key.of packet) now pick
  set d := r₁.entry (Key.of packet) now
  have hperm := flat_perm_erase r₁.datagrams (Key.of packet)
  rw [hwait] at hperm
  have htally := hprep.tally.perm hperm
  rcases hold_cases r₁ (Key.of packet) d packet address with
    ⟨route, hroute, heq⟩ | ⟨hroute, hover, heq⟩ | ⟨hroute, hover, heq⟩
  · -- Settled: nothing waits and nothing is added.
    rw [heq]
    refine ⟨sound_insert hprep rfl htally hprep.bytes_le hroom hpieces hsettled,
      haprep.trans ⟨[], ?_, rfl⟩⟩
    simpa [store] using hperm
  · -- Overflow: everything that waited is discarded, this piece was never held.
    rw [heq]
    have hgone := htally.release
    refine ⟨sound_insert hprep rfl hgone
      (Nat.le_trans (Nat.le_of_eq hgone.1) (bytes_le_of_perm hprep hperm)) hroom
      (Nat.zero_le _) fun _ => rfl, haprep.trans ⟨d.waiting, ?_, rfl⟩⟩
    simp only [reduceCtorEq, ↓reduceIte, append_nil]
    exact hperm.trans perm_append_comm
  · -- Held: both bounds follow from the test for overflow.
    rw [heq]
    simp only [overflows, Bool.or_eq_false_iff, decide_eq_false_iff_not, not_le, not_lt] at hover
    refine ⟨sound_insert hprep rfl ⟨?_, htally.2⟩ hover.2 hroom ?_ (fun hs => ?_),
      haprep.trans ⟨[], ?_, rfl⟩⟩
    · show r₁.pendingBytes + packet.length = _
      rw [htally.1]
      simp only [bytesOf_append]
      simp only [bytesOf, map_cons, map_nil, sum_cons, sum_nil]
      omega
    · simp only [length_append, length_singleton]
      omega
    · rw [hroute] at hs
      cases hs
    · simp only [↓reduceIte, store, flat_insert, append_nil]
      refine (hperm.append_right _).trans ?_
      simp only [append_assoc]
      exact List.Perm.append_left _ perm_append_comm

theorem finish_spec (h : Sound r) (ticket : Ticket) (route : Route) (now : Instant) :
    Sound (r.finish ticket route now).1 ∧
      Accounts r [] (r.finish ticket route now).1 (r.finish ticket route now).2 := by
  rcases finish_cases r ticket route now with ⟨-, heq⟩ | ⟨d, hget, -, hcases⟩
  · -- A stale ticket.
    rw [heq]
    exact ⟨h, [], by simp, rfl⟩
  have hperm := flat_perm_erase r.datagrams ticket.key
  rw [waitingAt_of_some hget] at hperm
  have hgone := (h.tally.perm hperm).release
  have hbytes := Nat.le_trans (Nat.le_of_eq hgone.1) (bytes_le_of_perm h hperm)
  have hroom : r.datagrams.get? ticket.key = none → r.datagrams.size < maxDatagrams :=
    fun hnone => nomatch (hget.symm.trans hnone)
  rcases hcases with ⟨-, heq⟩ | ⟨-, -, heq⟩
  · rw [heq]
    refine ⟨sound_insert h rfl hgone hbytes hroom (Nat.zero_le _) fun _ => rfl,
      d.waiting, ?_, rfl⟩
    simp only [append_nil]
    exact hperm.trans perm_append_comm
  · rw [heq]
    refine ⟨sound_insert h rfl hgone hbytes hroom (Nat.zero_le _) fun _ => rfl, [], ?_, rfl⟩
    simp only [append_nil]
    exact hperm.trans perm_append_comm

/-! ## Whole runs -/

/-- The piece a call held. -/
def heldBy : Call A × Answer A → List (Ipv4Packet × A)
  | (.later packet address _ _, .action .held) => [(packet, address)]
  | _ => []

/-- The pieces a call returned. -/
def returnedBy : Call A × Answer A → List (Ipv4Packet × A)
  | (_, .released pieces) => pieces
  | _ => []

/-- The discards a call reported and reset. -/
def takenBy : Call A × Answer A → Nat
  | (_, .discarded count) => count
  | _ => 0

/-- Every piece a run held, in order. -/
def heldIn (log : List (Call A × Answer A)) : List (Ipv4Packet × A) := log.flatMap heldBy

/-- Every piece a run returned, in order. -/
def returnedIn (log : List (Call A × Answer A)) : List (Ipv4Packet × A) := log.flatMap returnedBy

/-- The discards a run has reported. -/
def takenIn (log : List (Call A × Answer A)) : Nat := (log.map takenBy).sum

theorem step_accounts (h : Sound r) (call : Call A) :
    Sound (r.step call).1 ∧
      ∃ dropped : List (Ipv4Packet × A),
        (flat r.datagrams ++ heldBy (call, (r.step call).2)).Perm
            (flat (r.step call).1.datagrams ++ returnedBy (call, (r.step call).2) ++ dropped) ∧
          takenBy (call, (r.step call).2) + (r.step call).1.discarded =
            r.discarded + dropped.length := by
  cases call with
  | expire now =>
    obtain ⟨hsound, dropped, hperm, hcount⟩ := expire_spec h now
    exact ⟨hsound, dropped, hperm, (Nat.zero_add _).trans hcount⟩
  | begin first now pick =>
    obtain ⟨hsound, dropped, hperm, hcount⟩ := begin_spec h first now pick
    exact ⟨hsound, dropped, hperm, (Nat.zero_add _).trans hcount⟩
  | later packet address now pick =>
    obtain ⟨hsound, dropped, hperm, hcount⟩ := later_spec h packet address now pick
    refine ⟨hsound, dropped, ?_, (Nat.zero_add _).trans hcount⟩
    have hheld : heldBy (Call.later packet address now pick,
        (r.step (Call.later packet address now pick)).2) =
        if (r.later packet address now pick).2 = .held then [(packet, address)] else [] := by
      show heldBy (_, Answer.action (r.later packet address now pick).2) = _
      cases (r.later packet address now pick).2 with
      | route | held => rfl
    rw [hheld]
    exact hperm
  | finish ticket route now =>
    obtain ⟨hsound, dropped, hperm, hcount⟩ := finish_spec h ticket route now
    exact ⟨hsound, dropped, hperm, (Nat.zero_add _).trans hcount⟩
  | takeDiscarded =>
    refine ⟨⟨h.tally, h.bytes_le, h.size_le, h.pieces_le, h.settled⟩, [], ?_, rfl⟩
    simp [step, takeDiscarded, heldBy, returnedBy]

/-- The books of a run: the bounds, and where every held piece is. -/
def Balanced (c : Run.Config (FragmentRouter A) (Call A) (Answer A)) : Prop :=
  Sound c.state ∧
    ∃ dropped : List (Ipv4Packet × A),
      (heldIn c.log).Perm (flat c.state.datagrams ++ returnedIn c.log ++ dropped) ∧
        takenIn c.log + c.state.discarded = dropped.length

theorem balanced_advance (c : Run.Config (FragmentRouter A) (Call A) (Answer A)) (call : Call A)
    (h : Balanced c) : Balanced (Run.advance step c call) := by
  obtain ⟨hsound, dropped, hperm, hcount⟩ := h
  obtain ⟨hsound', dropped', hperm', hcount'⟩ := step_accounts hsound call
  refine ⟨hsound', dropped' ++ dropped, ?_, ?_⟩
  · simp only [Run.advance_log, Run.advance_state, heldIn, returnedIn, flatMap_append,
      flatMap_cons, flatMap_nil, append_nil] at hperm ⊢
    -- Move what the call held next to what was waiting, then use what the call did with both.
    refine (hperm.append_right _).trans ?_
    rw [← Multiset.coe_eq_coe] at hperm' ⊢
    simp only [← Multiset.coe_add] at hperm' ⊢
    calc _ = (flat c.state.datagrams : Multiset (Ipv4Packet × A)) +
            (heldBy (call, (c.state.step call).2) : Multiset (Ipv4Packet × A)) +
            (c.log.flatMap returnedBy : Multiset (Ipv4Packet × A)) + dropped := by abel
      _ = _ := by rw [hperm']; abel
  · simp only [Run.advance_log, Run.advance_state, takenIn, map_append, map_cons,
      map_nil, sum_append, sum_cons, sum_nil, length_append] at hcount ⊢
    omega

/-- In every reachable state the byte total is the bytes of the waiting pieces and within its
limit, no subtraction from it has gone below zero, the limits on keys and pieces hold and a settled
entry has nothing waiting; over the run, every piece ever held is exactly once waiting, returned,
or counted as discarded. -/
theorem router_accounting (calls : List (Call A)) :
    (routerRun calls).state.pendingBytes =
        ((flat (routerRun calls).state.datagrams).map fun piece => piece.1.length).sum ∧
      (routerRun calls).state.pendingBytes ≤ maxPendingBytes ∧
      (routerRun calls).state.underflow = false ∧
      (routerRun calls).state.datagrams.size ≤ maxDatagrams ∧
      (∀ e ∈ (routerRun calls).state.datagrams.entries,
        e.2.waiting.length ≤ maxPieces ∧ (e.2.route.isSome = true → e.2.waiting = [])) ∧
      ∃ dropped : List (Ipv4Packet × A),
        (heldIn (routerRun calls).log).Perm
            (flat (routerRun calls).state.datagrams ++ returnedIn (routerRun calls).log ++
              dropped) ∧
          takenIn (routerRun calls).log + (routerRun calls).state.discarded = dropped.length := by
  have hinit : Balanced (⟨default, []⟩ : Run.Config (FragmentRouter A) (Call A) (Answer A)) :=
    ⟨sound_default, [], List.Perm.refl _, rfl⟩
  obtain ⟨hsound, hbooks⟩ := Run.exec_invariant hinit balanced_advance calls
  exact ⟨hsound.tally.1, hsound.bytes_le, hsound.tally.2, hsound.size_le,
    fun e he => ⟨hsound.pieces_le e he, hsound.settled e he⟩, hbooks⟩

end GamePath.Engine.FragmentRouter
