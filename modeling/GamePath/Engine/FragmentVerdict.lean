import GamePath.Engine.FragmentRouter

/-!
# Verdicts of the fragment router

Which route a fragment can get. `mem_step_entries` says where every entry of the router after a
call comes from; the rest is derived from it. An entry with a non-zero generation belongs to the
most recent `begin` of its key, its verdict is the one that `begin`'s ticket was finished with
(`verdict_fidelity`), and a ticket whose entry is gone or has been replaced is dead for good
(`dead_step`).

What an overflow does to later verdicts is the subject of `FragmentOverflow`.
-/

namespace GamePath.Engine.FragmentRouter

open Lib List KeyedMap Key Run

universe u

variable {A : Type u}

/-- The state of a run of the router. -/
abbrev RouterConfig (A : Type u) := Config (FragmentRouter A) (Call A) (Answer A)

/-! ## Where entries come from -/

/-- The expiry and eviction a call starts with. -/
def housekeep (r : FragmentRouter A) : Call A → FragmentRouter A
  | .expire now => r.expire now
  | .begin first now pick => r.prepare (of first) now pick
  | .later packet _ now pick => r.prepare (of packet) now pick
  | .finish _ _ _ => r
  | .takeDiscarded => r

/-- The call expires or evicts the entry of the key. -/
def Removes (r : FragmentRouter A) (call : Call A) (key : Key) : Prop :=
  (r.datagrams.get? key).isSome = true ∧ (r.housekeep call).datagrams.get? key = none

/-- The call is a first fragment of the key. -/
def BeginsFor (key : Key) : Call A → Prop
  | .begin first _ _ => of first = key
  | _ => False

instance (key : Key) : DecidablePred (BeginsFor (A := A) key)
  | .begin first _ _ => inferInstanceAs (Decidable (of first = key))
  | .expire _ => isFalse id
  | .later _ _ _ _ => isFalse id
  | .finish _ _ _ => isFalse id
  | .takeDiscarded => isFalse id

theorem generation_foldl_discard (dead : List (Key × Datagram A)) (r : FragmentRouter A) :
    (dead.foldl (fun r e => r.discard e.2.waiting) r).generation = r.generation := by
  induction dead generalizing r with
  | nil => rfl
  | cons e es ih => exact ih (r.discard e.2.waiting)

theorem makeRoom_generation (r : FragmentRouter A) (key : Key) (pick : Nat) :
    (r.makeRoom key pick).generation = r.generation := by
  unfold makeRoom
  split
  · split <;> rfl
  · rfl

theorem prepare_generation (r : FragmentRouter A) (key : Key) (now : Instant) (pick : Nat) :
    (r.prepare key now pick).generation = r.generation :=
  (makeRoom_generation _ key pick).trans (generation_foldl_discard _ r)

variable {r : FragmentRouter A} {now : Instant} {e : Key × Datagram A}

theorem mem_of_mem_expire (h : e ∈ (r.expire now).datagrams.entries) : e ∈ r.datagrams.entries :=
  (mem_retain.1 h).1

variable {key : Key}

theorem mem_of_mem_makeRoom {pick : Nat} (h : e ∈ (r.makeRoom key pick).datagrams.entries) :
    e ∈ r.datagrams.entries := by
  unfold makeRoom at h
  split at h
  · split at h
    · exact (mem_erase.1 h).1
    · exact h
  · exact h

variable {call : Call A}

theorem mem_of_mem_housekeep (h : e ∈ (r.housekeep call).datagrams.entries) :
    e ∈ r.datagrams.entries := by
  cases call with
  | expire now => exact mem_of_mem_expire h
  | begin | later => exact mem_of_mem_expire (mem_of_mem_makeRoom h)
  | finish | takeDiscarded => exact h

/-- The entry a `begin` leaves under its key. -/
structure BeginEntry (r : FragmentRouter A) (call : Call A) (key : Key) (d : Datagram A) :
    Prop where
  begins : BeginsFor key call
  generation : d.generation = max (r.generation + 1) 1
  route : d.route = none
  waiting : d.waiting = [] ∨
    ∃ old, (key, old) ∈ (r.housekeep call).datagrams.entries ∧ d.waiting = old.waiting

/-- The entry a `later` leaves under its key. -/
def LaterEntry (r : FragmentRouter A) (call : Call A) (key : Key) (d : Datagram A) : Prop :=
  ∃ packet address now pick, call = .later packet address now pick ∧ key = of packet ∧
    d.generation = ((r.housekeep call).entry key now).generation ∧
    (d.route = ((r.housekeep call).entry key now).route ∨ d.route = some .drop) ∧
    ∀ piece ∈ d.waiting,
      piece ∈ ((r.housekeep call).entry key now).waiting ∨ piece = (packet, address)

/-- The entry a `finish` leaves under its key. -/
def FinishEntry (r : FragmentRouter A) (call : Call A) (key : Key) (d : Datagram A) : Prop :=
  ∃ ticket route now old, call = .finish ticket route now ∧ key = ticket.key ∧
    (key, old) ∈ r.datagrams.entries ∧ old.generation = ticket.generation ∧
    d.generation = old.generation ∧ d.waiting = [] ∧
    (d.route = some .drop ∨ (d.route = some route ∧ old.route ≠ some .drop))

theorem mem_store {key key' : Key} {d d' : Datagram A}
    (h : (key', d') ∈ (r.store key d).datagrams.entries) :
    (key' = key ∧ d' = d) ∨ ((key', d') ∈ r.datagrams.entries ∧ key' ≠ key) := by
  rcases mem_insert.1 h with he | hother
  · exact .inl (Prod.mk.inj he)
  · exact .inr hother

variable {d : Datagram A}

theorem mem_begin_entries {first : Ipv4Packet} {pick : Nat}
    (h : (key, d) ∈ (r.begin first now pick).1.datagrams.entries) :
    ((key, d) ∈ (r.prepare (of first) now pick).datagrams.entries ∧ key ≠ of first) ∨
      BeginEntry r (.begin first now pick) key d := by
  have hgen : (r.prepare (of first) now pick).generation = r.generation :=
    prepare_generation r _ now pick
  change (key, d) ∈ ((r.prepare (of first) now pick).reserve
    (of first) now).1.datagrams.entries at h
  obtain ⟨-, hcases⟩ := reserve_cases (r.prepare (of first) now pick) (of first) now
  rw [hgen] at hcases
  rcases hcases with ⟨-, heq⟩ | ⟨old, hget, -, heq⟩ | ⟨old, -, -, heq⟩
  · rw [heq] at h
    rcases mem_store h with ⟨rfl, rfl⟩ | hkept
    · exact .inr ⟨rfl, rfl, rfl, .inl rfl⟩
    · exact .inl hkept
  · -- Only pieces that waited without a first fragment are taken over.
    rw [heq] at h
    rcases mem_store h with ⟨rfl, rfl⟩ | hkept
    · exact .inr ⟨rfl, rfl, rfl, .inr ⟨old, get?_eq_some_iff.1 hget, rfl⟩⟩
    · exact .inl hkept
  · rw [heq] at h
    rcases mem_store h with ⟨rfl, rfl⟩ | hkept
    · exact .inr ⟨rfl, rfl, rfl, .inl rfl⟩
    · exact .inl hkept

theorem mem_later_entries {packet : Ipv4Packet} {address : A} {pick : Nat}
    (h : (key, d) ∈ (r.later packet address now pick).1.datagrams.entries) :
    (key, d) ∈ (r.prepare (of packet) now pick).datagrams.entries ∨
      LaterEntry r (.later packet address now pick) key d := by
  change (key, d) ∈ ((r.prepare (of packet) now pick).hold (of packet)
    ((r.prepare (of packet) now pick).entry (of packet) now)
    packet address).1.datagrams.entries at h
  rcases hold_cases (r.prepare (of packet) now pick) (of packet)
    ((r.prepare (of packet) now pick).entry (of packet) now) packet address with
    ⟨route, -, heq⟩ | ⟨-, -, heq⟩ | ⟨-, -, heq⟩
  · -- The verdict is read and the entry stored as it was.
    rw [heq] at h
    rcases mem_store h with ⟨rfl, rfl⟩ | ⟨hkept, -⟩
    · exact .inr ⟨packet, address, now, pick, rfl, rfl, rfl, .inl rfl,
        fun piece hp => .inl hp⟩
    · exact .inl hkept
  · -- Overflow: nothing waits any more.
    rw [heq] at h
    rcases mem_store h with ⟨rfl, rfl⟩ | ⟨hkept, -⟩
    · exact .inr ⟨packet, address, now, pick, rfl, rfl, rfl, .inr rfl,
        nofun⟩
    · exact .inl hkept
  · -- Held: one more piece, of this key.
    rw [heq] at h
    rcases mem_store h with ⟨rfl, rfl⟩ | ⟨hkept, -⟩
    · refine .inr ⟨packet, address, now, pick, rfl, rfl, rfl, .inl rfl, fun piece hp => ?_⟩
      exact (mem_append.1 hp).imp_right mem_singleton.1
    · exact .inl hkept

theorem mem_finish_entries {ticket : Ticket} {route : Route}
    (h : (key, d) ∈ (r.finish ticket route now).1.datagrams.entries) :
    (key, d) ∈ r.datagrams.entries ∨ FinishEntry r (.finish ticket route now) key d := by
  rcases finish_cases r ticket route now with ⟨-, heq⟩ | ⟨old, hget, hgen, hcases⟩
  · rw [heq] at h
    exact .inl h
  have hold := get?_eq_some_iff.1 hget
  rcases hcases with ⟨-, heq⟩ | ⟨hroute, -, heq⟩
  · rw [heq] at h
    rcases mem_store h with ⟨rfl, rfl⟩ | ⟨hkept, -⟩
    · exact .inr ⟨ticket, route, now, old, rfl, rfl, hold, hgen, rfl, rfl, .inl rfl⟩
    · exact .inl hkept
  · rw [heq] at h
    rcases mem_store h with ⟨rfl, rfl⟩ | ⟨hkept, -⟩
    · exact .inr ⟨ticket, route, now, old, rfl, rfl, hold, hgen, rfl, rfl,
        .inr ⟨rfl, hroute⟩⟩
    · exact .inl hkept

theorem mem_step_entries (h : (key, d) ∈ (r.step call).1.datagrams.entries) :
    ((key, d) ∈ (r.housekeep call).datagrams.entries ∧ ¬ BeginsFor key call) ∨
      BeginEntry r call key d ∨ LaterEntry r call key d ∨ FinishEntry r call key d := by
  cases call with
  | expire | takeDiscarded => exact .inl ⟨h, id⟩
  | begin first now pick =>
    rcases mem_begin_entries h with ⟨hkept, hne⟩ | hbegin
    · exact .inl ⟨hkept, fun hb => hne hb.symm⟩
    · exact .inr (.inl hbegin)
  | later packet address now pick =>
    rcases mem_later_entries h with hkept | hlater
    · exact .inl ⟨hkept, id⟩
    · exact .inr (.inr (.inl hlater))
  | finish ticket route now =>
    rcases mem_finish_entries h with hkept | hfinish
    · exact .inl ⟨hkept, id⟩
    · exact .inr (.inr (.inr hfinish))

/-! ## Pieces wait under their own key -/

/-- Every waiting piece waits under its own key. -/
def Keyed (r : FragmentRouter A) : Prop :=
  ∀ e ∈ r.datagrams.entries, ∀ piece ∈ e.2.waiting, of piece.1 = e.1

theorem keyed_step (h : Keyed r) (call : Call A) :
    Keyed (r.step call).1 := by
  rintro ⟨key, d⟩ hmem piece hp
  rcases mem_step_entries hmem with ⟨hkept, -⟩ | hbegin | hlater | hfinish
  · exact h _ (mem_of_mem_housekeep hkept) piece hp
  · rcases hbegin.waiting with hnil | ⟨old, hold, heq⟩
    · rw [hnil] at hp
      exact absurd hp not_mem_nil
    · rw [heq] at hp
      exact h _ (mem_of_mem_housekeep hold) piece hp
  · obtain ⟨packet, address, now, pick, rfl, rfl, -, -, hwaiting⟩ := hlater
    rcases hwaiting piece hp with hp | rfl
    · unfold entry at hp
      cases hget : (r.housekeep (.later packet address now pick)).datagrams.get?
          (of packet) with
      | none =>
        rw [hget] at hp
        exact absurd hp not_mem_nil
      | some old =>
        rw [hget] at hp
        exact h _ (mem_of_mem_housekeep (get?_eq_some_iff.1 hget)) piece hp
    · rfl
  · obtain ⟨ticket, route, now, old, -, -, -, -, -, hwaiting, -⟩ := hfinish
    rw [hwaiting] at hp
    exact absurd hp not_mem_nil

variable (calls : List (Call A))

theorem keyed_run : Keyed (routerRun calls).state :=
  exec_invariant (I := fun c : RouterConfig A => Keyed c.state)
    (fun _ he => absurd he not_mem_nil) (fun _ call h => keyed_step h call) calls

/-! ## The most recent first fragment of a key -/

/-- `t` is the ticket of the most recent `begin` for `key` in the log, and `after` is what was
called since. -/
def NewestAt (log : List (Call A × Answer A)) (key : Key) (t : Ticket)
    (after : List (Call A × Answer A)) : Prop :=
  ∃ before first now pick, log = before ++ (.begin first now pick, .ticket t) :: after ∧
    of first = key ∧ ∀ x ∈ after, ¬ BeginsFor key x.1

/-- `t` is the ticket of the most recent `begin` for `key`. -/
def Newest (log : List (Call A × Answer A)) (key : Key) (t : Ticket) : Prop :=
  ∃ after, NewestAt log key t after

/-- The ticket of the most recent `begin` for `key` was finished with the route `r`. -/
def NewestFinished (log : List (Call A × Answer A)) (key : Key) (r : Route) : Prop :=
  ∃ t after, NewestAt log key t after ∧ ∃ now answer, (.finish t r now, answer) ∈ after

/-- `t` was handed out by a call of the log. -/
def Issued (log : List (Call A × Answer A)) (t : Ticket) : Prop := ∃ x ∈ log, x.2 = .ticket t

variable {t : Ticket} {log : List (Call A × Answer A)} {x : Call A × Answer A}

theorem NewestAt.concat {after : List (Call A × Answer A)} (h : NewestAt log key t after)
    (hx : ¬ BeginsFor key x.1) : NewestAt (log ++ [x]) key t (after ++ [x]) := by
  obtain ⟨before, first, now, pick, rfl, hkey, hafter⟩ := h
  refine ⟨before, first, now, pick, by simp, hkey, fun y hy => ?_⟩
  rcases mem_snoc.1 hy with hy | rfl
  · exact hafter y hy
  · exact hx

theorem NewestFinished.concat {r : Route} (h : NewestFinished log key r)
    (hx : ¬ BeginsFor key x.1) :
    NewestFinished (log ++ [x]) key r := by
  obtain ⟨t, after, hnewest, now, answer, hmem⟩ := h
  exact ⟨t, after ++ [x], hnewest.concat hx, now, answer, mem_append_left _ hmem⟩

theorem newest_concat_begin (log : List (Call A × Answer A)) (first : Ipv4Packet)
    (now : Instant) (pick : Nat) (t : Ticket) :
    Newest (log ++ [(.begin first now pick, .ticket t)]) (of first) t :=
  ⟨[], log, first, now, pick, rfl, rfl, nofun⟩

/-! ## Entries and verdicts over a run -/

/-- What every entry of a reachable router satisfies. -/
structure EntryFaithful (log : List (Call A × Answer A)) (key : Key) (d : Datagram A) : Prop where
  newest : d.generation = 0 ∨ ∃ t, Newest log key t ∧ t = ⟨key, d.generation⟩
  finished : ∀ r, d.route = some r → r ≠ .drop → NewestFinished log key r

/-- What every reachable router satisfies, tickets being only those the router handed out. -/
structure Faithful (c : RouterConfig A) : Prop where
  entries : ∀ e ∈ c.state.datagrams.entries, EntryFaithful c.log e.1 e.2
  tickets : ∀ t, Issued c.log t → t.generation ≠ 0

/-- `finish` is only called with a ticket an earlier `begin` of the run returned: the fields of a
ticket are private to the module. -/
def UsesIssued (c : RouterConfig A) : Call A → Prop
  | .finish t _ _ => Issued c.log t
  | _ => True

theorem EntryFaithful.concat (h : EntryFaithful log key d) (hx : ¬ BeginsFor key x.1) :
    EntryFaithful (log ++ [x]) key d where
  newest := h.newest.imp_right fun ⟨t, ⟨after, hat⟩, ht⟩ => ⟨t, ⟨after ++ [x], hat.concat hx⟩, ht⟩
  finished := fun r hr hdrop => (h.finished r hr hdrop).concat hx

theorem nextGeneration_ne_zero (g : UInt64) : max (g + 1) 1 ≠ 0 := by
  intro h
  have hle : (1 : UInt64) ≤ max (g + 1) 1 := by
    show (1 : UInt64) ≤ if g + 1 ≤ 1 then 1 else g + 1
    split
    · exact UInt64.le_refl 1
    · rename_i hnot
      rw [UInt64.le_iff_toNat_le] at hnot ⊢
      omega
  rw [h] at hle
  cases hle

variable {c : RouterConfig A}

theorem entryFaithful_entry (h : Faithful c) (call : Call A) (key : Key) (now : Instant) :
    EntryFaithful c.log key ((c.state.housekeep call).entry key now) := by
  unfold entry
  cases hget : (c.state.housekeep call).datagrams.get? key with
  | none => exact ⟨.inl rfl, nofun⟩
  | some d => exact h.entries (key, d) (mem_of_mem_housekeep (get?_eq_some_iff.1 hget))

theorem begin_ticket (r : FragmentRouter A) (first : Ipv4Packet) (now : Instant) (pick : Nat) :
    (r.begin first now pick).2 = ⟨of first, max (r.generation + 1) 1⟩ := by
  rw [← prepare_generation r (of first) now pick]
  exact (reserve_cases _ _ now).1

theorem entryFaithful_of_begin (hbegin : BeginEntry c.state call key d) :
    EntryFaithful (advance step c call).log key d := by
  obtain ⟨hb, hgen, hroute, -⟩ := hbegin
  cases call with
  | begin first now pick =>
    have hkey : of first = key := hb
    subst hkey
    have hticket : (c.state.begin first now pick).2 = ⟨of first, d.generation⟩ := by
      rw [hgen, begin_ticket]
    refine ⟨.inr ⟨_, newest_concat_begin c.log first now pick _, hticket⟩, ?_⟩
    intro r hr
    rw [hroute] at hr
    cases hr
  | expire | later | finish | takeDiscarded => exact hb.elim

theorem entryFaithful_of_later (h : Faithful c) (hlater : LaterEntry c.state call key d) :
    EntryFaithful (advance step c call).log key d := by
  obtain ⟨packet, address, now, pick, rfl, rfl, hgen, hroute, -⟩ := hlater
  have hentry := (entryFaithful_entry h (.later packet address now pick) (of packet)
    now).concat (x := (.later packet address now pick,
      (c.state.step (.later packet address now pick)).2)) id
  refine ⟨?_, ?_⟩
  · rw [hgen]
    exact hentry.newest
  · intro r hr hdrop
    rcases hroute with hroute | hroute
    · exact hentry.finished r (hroute ▸ hr) hdrop
    · rw [hroute, Option.some.injEq] at hr
      exact absurd hr.symm hdrop

/-- A `finish` settles the entry of the newest `begin` with the route it was given. -/
theorem entryFaithful_of_finish (h : Faithful c) (hok : UsesIssued c call)
    (hfinish : FinishEntry c.state call key d) :
    EntryFaithful (advance step c call).log key d := by
  obtain ⟨ticket, route, now, old, rfl, rfl, hold, hgen, hgen', -, hroute⟩ := hfinish
  have hne : old.generation ≠ 0 := by
    rw [hgen]
    exact h.tickets ticket hok
  obtain ⟨t, ⟨after, hat⟩, ht⟩ := (h.entries _ hold).newest.resolve_left hne
  -- The entry's generation is the ticket's, so the newest ticket is this one.
  have hticket : t = ticket := by rw [ht, hgen]
  rw [hticket] at hat
  have hat' := hat.concat (x := (.finish ticket route now,
    (c.state.step (.finish ticket route now)).2)) id
  refine ⟨.inr ⟨ticket, ⟨_, hat'⟩, ?_⟩, ?_⟩
  · rw [hgen', hgen]
  intro r hr hdrop
  rcases hroute with hroute | ⟨hroute, -⟩
  · rw [hroute, Option.some.injEq] at hr
    exact absurd hr.symm hdrop
  · rw [hroute, Option.some.injEq] at hr
    subst hr
    exact ⟨ticket, _, hat', now, _, mem_append_right _ (mem_singleton.2 rfl)⟩

theorem generation_ne_zero_of_answer (h : (r.step call).2 = .ticket t) : t.generation ≠ 0 := by
  cases call with
  | begin first now pick =>
    change Answer.ticket (r.begin first now pick).2 = _ at h
    rw [begin_ticket, Answer.ticket.injEq] at h
    rw [← h]
    exact nextGeneration_ne_zero _
  | expire | later | finish | takeDiscarded => simp [step] at h

theorem faithful_advance (c : RouterConfig A) (call : Call A) (hok : UsesIssued c call)
    (h : Faithful c) : Faithful (advance step c call) := by
  refine ⟨?_, ?_⟩
  · rintro ⟨key, d⟩ hmem
    rcases mem_step_entries hmem with ⟨hkept, hb⟩ | hbegin | hlater | hfinish
    · exact (h.entries (key, d) (mem_of_mem_housekeep hkept)).concat hb
    · exact entryFaithful_of_begin hbegin
    · exact entryFaithful_of_later h hlater
    · exact entryFaithful_of_finish h hok hfinish
  · rintro t ⟨x, hx, ht⟩
    rcases mem_snoc.1 hx with hx | rfl
    · exact h.tickets t ⟨x, hx, ht⟩
    · exact generation_ne_zero_of_answer ht

theorem faithful_run {calls : List (Call A)}
    (hissued : Meets step UsesIssued (⟨default, []⟩ : RouterConfig A) calls) :
    Faithful (routerRun calls) := by
  refine execFrom_invariant_of_meets faithful_advance calls _ hissued ⟨?_, ?_⟩
  · exact nofun
  · rintro t ⟨x, hx, -⟩
    exact absurd hx not_mem_nil

/-! ## Dead tickets -/

/-- Whether a call is a `begin`. -/
def isBegin : Call A → Bool
  | .begin _ _ _ => true
  | _ => false

theorem step_generation (r : FragmentRouter A) (call : Call A) :
    (r.step call).1.generation = if isBegin call then
      max (r.generation + 1) 1 else r.generation := by
  cases call with
  | expire now => exact generation_foldl_discard _ r
  | takeDiscarded => rfl
  | begin first now pick =>
    rw [← prepare_generation r (of first) now pick]
    obtain ⟨-, ⟨-, heq⟩ | ⟨old, -, -, heq⟩ | ⟨old, -, -, heq⟩⟩ :=
      reserve_cases (r.prepare (of first) now pick) (of first) now
    · exact congrArg generation heq
    · exact congrArg generation heq
    · exact congrArg generation heq
  | later packet address now pick =>
    rw [← prepare_generation r (of packet) now pick]
    rcases hold_cases (r.prepare (of packet) now pick) (of packet)
      ((r.prepare (of packet) now pick).entry (of packet) now) packet address with
      ⟨route, -, heq⟩ | ⟨-, -, heq⟩ | ⟨-, -, heq⟩
    · exact congrArg (fun x => x.1.generation) heq
    · exact congrArg (fun x => x.1.generation) heq
    · exact congrArg (fun x => x.1.generation) heq
  | finish ticket route now =>
    rcases finish_cases r ticket route now with ⟨-, heq⟩ | ⟨d, -, -, ⟨-, heq⟩ | ⟨-, -, heq⟩⟩
    · exact congrArg (fun x => x.1.generation) heq
    · exact congrArg (fun x => x.1.generation) heq
    · exact congrArg (fun x => x.1.generation) heq

theorem toNat_nextGeneration {g : UInt64} (h : g.toNat + 1 < 2 ^ 64) :
    (max (g + 1) 1).toNat = g.toNat + 1 := by
  have hadd : (g + 1).toNat = g.toNat + 1 := by
    exact Nat.mod_eq_of_lt h
  show (if g + 1 ≤ 1 then 1 else g + 1 : UInt64).toNat = _
  split
  · rename_i hle
    rw [UInt64.le_iff_toNat_le, UInt64.toNat_one] at hle
    rw [UInt64.toNat_one]
    omega
  · exact hadd

theorem generation_execFrom :
    ∀ c : RouterConfig A, c.state.generation.toNat + calls.countP isBegin < 2 ^ 64 →
      (execFrom step c calls).state.generation.toNat =
        c.state.generation.toNat + calls.countP isBegin := by
  induction calls with
  | nil => exact fun c _ => rfl
  | cons call calls ih =>
    intro c hbound
    rw [countP_cons] at hbound ⊢
    have hnext : (advance step c call).state.generation.toNat =
        c.state.generation.toNat + if isBegin call then 1 else 0 := by
      rw [advance_state, step_generation]
      cases hb : isBegin call with
      | true =>
        simp only [hb, ↓reduceIte] at hbound ⊢
        exact toNat_nextGeneration (by omega)
      | false => simp
    rw [execFrom_cons, ih _ (by rw [hnext]; omega)]
    omega

/-- No entry of the router belongs to the ticket, and none will: its generation is used up. -/
structure Dead (t : Ticket) (r : FragmentRouter A) : Prop where
  absent : ∀ d, (t.key, d) ∈ r.datagrams.entries → d.generation ≠ t.generation
  used : t.generation ≠ 0 ∧ t.generation.toNat ≤ r.generation.toNat

theorem nextGeneration_ne_used {g : UInt64} (hle : t.generation.toNat ≤ g.toNat)
    (hbound : g.toNat + 1 < 2 ^ 64) : max (g + 1) 1 ≠ t.generation := by
  intro h
  have := toNat_nextGeneration hbound
  rw [h] at this
  omega

theorem generation_le_step (hbound : r.generation.toNat + (if isBegin call then 1 else 0) <
    2 ^ 64) :
    r.generation.toNat ≤ (r.step call).1.generation.toNat := by
  rw [step_generation]
  cases hb : isBegin call with
  | true =>
    simp only [hb, ↓reduceIte] at hbound ⊢
    rw [toNat_nextGeneration hbound]
    omega
  | false => simp

/-- A ticket's entry is replaced by a second `begin`, or removed by expiry or eviction. -/
theorem dead_of_replaced (hused : t.generation ≠ 0 ∧ t.generation.toNat ≤ r.generation.toNat)
    (hbound : r.generation.toNat + (if isBegin call then 1 else 0) < 2 ^ 64)
    (hgone : BeginsFor t.key call ∨ Removes r call t.key) : Dead t (r.step call).1 := by
  have hnext : BeginsFor t.key call → max (r.generation + 1) 1 ≠ t.generation := by
    intro hb
    cases call with
    | begin first now pick => exact nextGeneration_ne_used hused.2 hbound
    | expire | later | finish | takeDiscarded => exact hb.elim
  refine ⟨fun d hd => ?_, hused.1, Nat.le_trans hused.2 (generation_le_step hbound)⟩
  rcases mem_step_entries hd with ⟨hkept, hnb⟩ | hbegin | hlater | hfinish
  · obtain ⟨-, hnone⟩ := hgone.resolve_left hnb
    exact absurd rfl (get?_eq_none_iff.1 hnone _ hkept)
  · rw [hbegin.generation]
    exact hnext hbegin.begins
  · obtain ⟨packet, address, now, pick, rfl, hkey, hgen, -, -⟩ := hlater
    obtain ⟨-, hnone⟩ := hgone.resolve_left id
    rw [hgen, entry, hnone]
    exact hused.1.symm
  · obtain ⟨ticket, route, now, old, rfl, -, hold, -, -, -, -⟩ := hfinish
    obtain ⟨-, hnone⟩ := hgone.resolve_left id
    exact absurd rfl (get?_eq_none_iff.1 hnone _ hold)

theorem dead_step (h : Dead t r) (call : Call A)
    (hbound : r.generation.toNat + (if isBegin call then 1 else 0) < 2 ^ 64) :
    Dead t (r.step call).1 := by
  by_cases hb : BeginsFor t.key call
  · exact dead_of_replaced h.used hbound (.inl hb)
  refine ⟨fun d hd => ?_, h.used.1, Nat.le_trans h.used.2 (generation_le_step hbound)⟩
  rcases mem_step_entries hd with ⟨hkept, -⟩ | hbegin | hlater | hfinish
  · exact h.absent d (mem_of_mem_housekeep hkept)
  · exact absurd hbegin.begins hb
  · obtain ⟨packet, address, now, pick, rfl, hkey, hgen, -, -⟩ := hlater
    rw [hgen, entry]
    cases hget : (r.housekeep (.later packet address now pick)).datagrams.get? t.key with
    | none => exact h.used.1.symm
    | some old =>
      exact h.absent old (mem_of_mem_housekeep (get?_eq_some_iff.1 hget))
  · obtain ⟨ticket, route, now, old, rfl, -, hold, -, hgen, -, -⟩ := hfinish
    rw [hgen]
    exact h.absent old hold

theorem dead_execFrom :
    ∀ c : RouterConfig A, c.state.generation.toNat + calls.countP isBegin < 2 ^ 64 →
      Dead t c.state → Dead t (execFrom step c calls).state := by
  induction calls with
  | nil => exact fun c _ h => h
  | cons call calls ih =>
    intro c hbound h
    have hsplit : (call :: calls).countP isBegin =
        calls.countP isBegin + if isBegin call then 1 else 0 := countP_cons
    have hone := generation_execFrom [call] c (by
      rw [countP_cons, countP_nil]
      omega)
    rw [countP_cons, countP_nil] at hone
    refine ih (advance step c call) ?_ (dead_step h call (by omega))
    change (advance step c call).state.generation.toNat = _ at hone
    omega

theorem finish_of_dead (h : Dead t r) (route : Route) (now : Instant) :
    r.finish t route now = (r, []) := by
  rcases finish_cases r t route now with ⟨-, heq⟩ | ⟨d, hget, hgen, -⟩
  · exact heq
  · exact absurd hgen (h.absent d (get?_eq_some_iff.1 hget))

/-- `t` was returned by a `begin` of the run, and since then a further `begin` for its key was made
or its entry was expired or evicted. -/
def Stale (calls : List (Call A)) (t : Ticket) : Prop :=
  ∃ before first now pick mid call rest,
    calls = before ++ .begin first now pick :: mid ++ call :: rest ∧
    t = ((routerRun before).state.begin first now pick).2 ∧
    (BeginsFor t.key call ∨
      Removes (routerRun (before ++ .begin first now pick :: mid)).state call t.key)

theorem routerRun_append (before after : List (Call A)) :
    routerRun (before ++ after) = execFrom step (routerRun before) after :=
  execFrom_append _ before after

theorem used_after_begin (r : FragmentRouter A) (first : Ipv4Packet) (now : Instant) (pick : Nat) :
    (r.begin first now pick).2.generation ≠ 0 ∧
      (r.begin first now pick).2.generation = (r.step (.begin first now pick)).1.generation := by
  rw [begin_ticket]
  exact ⟨nextGeneration_ne_zero _, (step_generation r (.begin first now pick)).symm⟩

theorem dead_of_stale {calls : List (Call A)} (hbegins : calls.countP isBegin < 2 ^ 64)
    (h : Stale calls t) : Dead t (routerRun calls).state := by
  obtain ⟨before, first, now, pick, mid, call, rest, rfl, rfl, hgone⟩ := h
  simp only [countP_append, countP_cons] at hbegins
  have hzero : (routerRun ([] : List (Call A))).state.generation.toNat = 0 := rfl
  -- With fewer than `2 ^ 64` of them, generations count the calls of `begin`.
  have hbefore := generation_execFrom before (routerRun []) (by rw [hzero]; omega)
  have hrun : ∀ xs : List (Call A), execFrom step (routerRun []) xs = routerRun xs :=
    fun xs => rfl
  rw [hrun] at hbefore
  obtain ⟨hne, hgen⟩ := used_after_begin (routerRun before).state first now pick
  -- The generation counter never falls below the ticket's own generation.
  have hbegin := generation_execFrom [.begin first now pick] (routerRun before) (by
    rw [countP_cons, countP_nil]
    omega)
  rw [countP_cons, countP_nil] at hbegin
  have hmid := generation_execFrom mid (execFrom step (routerRun before)
    [.begin first now pick]) (by rw [hbegin]; omega)
  have hmid' : execFrom step (execFrom step (routerRun before) [.begin first now pick]) mid =
      routerRun (before ++ .begin first now pick :: mid) := by
    rw [routerRun_append]
    rfl
  rw [hmid'] at hmid
  have hused : ((routerRun before).state.begin first now pick).2.generation.toNat ≤
      (routerRun (before ++ .begin first now pick :: mid)).state.generation.toNat := by
    rw [hgen]
    change (execFrom step (routerRun before) [.begin first now pick]).state.generation.toNat ≤ _
    omega
  have hdead := dead_of_replaced ⟨hne, hused⟩ (by rw [hmid]; omega) hgone
  rw [routerRun_append]
  have hcall := generation_execFrom [call] (routerRun (before ++ .begin first now pick :: mid)) (by
    rw [countP_cons, countP_nil]
    omega)
  rw [countP_cons, countP_nil] at hcall
  change (advance step (routerRun (before ++ .begin first now pick ::
    mid)) call).state.generation.toNat
    = _ at hcall
  exact dead_execFrom rest _ (by rw [hcall]; omega) hdead

/-- Over every run: a fragment is routed other than dropped only by the route the most recent first
fragment of its key was finished with; `finish` releases pieces only of its own key and only to the
ticket of the most recent `begin`; and `finish` with any other ticket changes nothing. -/
theorem verdict_fidelity (calls : List (Call A)) (hbegins : calls.countP isBegin < 2 ^ 64)
    (hissued : Meets step UsesIssued (⟨default, []⟩ : RouterConfig A) calls) :
    (∀ packet address now pick r,
      ((routerRun calls).state.later packet address now pick).2 = .route r → r ≠ .drop →
        NewestFinished (routerRun calls).log (of packet) r) ∧
    (∀ t r now, Issued (routerRun calls).log t →
      ((routerRun calls).state.finish t r now).2 ≠ [] →
        r ≠ .drop ∧ Newest (routerRun calls).log t.key t ∧
          ∀ piece ∈ ((routerRun calls).state.finish t r now).2, of piece.1 = t.key) ∧
    (∀ t r now, Stale calls t →
      (routerRun calls).state.finish t r now = ((routerRun calls).state, [])) := by
  have hfaithful := faithful_run hissued
  refine ⟨?_, ?_, fun t r now hstale => finish_of_dead (dead_of_stale hbegins hstale) r now⟩
  · intro packet address now pick r hroute hdrop
    have hentry := entryFaithful_entry hfaithful (.later packet address now pick) (of packet) now
    rcases hold_cases ((routerRun calls).state.prepare (of packet) now pick) (of packet)
      (((routerRun calls).state.prepare (of packet) now pick).entry (of packet) now)
      packet address with ⟨route, hd, heq⟩ | ⟨-, -, heq⟩ | ⟨-, -, heq⟩
    · -- The verdict of the entry, which the newest `finish` of the key has set.
      have : Action.route route = .route r := (congrArg Prod.snd heq).symm.trans hroute
      rw [Action.route.injEq] at this
      subst this
      exact hentry.finished route hd hdrop
    · -- The overflow answers with `drop`.
      have : Action.route .drop = .route r := (congrArg Prod.snd heq).symm.trans hroute
      rw [Action.route.injEq] at this
      exact absurd this.symm hdrop
    · have : Action.held = .route r := (congrArg Prod.snd heq).symm.trans hroute
      cases this
  · intro t r now ht hreleased
    rcases finish_cases (routerRun calls).state t r now with
      ⟨-, heq⟩ | ⟨d, hget, hgen, ⟨-, heq⟩ | ⟨-, hr, heq⟩⟩
    · exact absurd (congrArg Prod.snd heq) hreleased
    · exact absurd (congrArg Prod.snd heq) hreleased
    -- The entry carries the ticket's generation, which is the newest of the key.
    have hentry := hfaithful.entries _ (KeyedMap.get?_eq_some_iff.1 hget)
    have hne : d.generation ≠ 0 := by
      rw [hgen]
      exact hfaithful.tickets t ht
    obtain ⟨t', hnewest, ht'⟩ := hentry.newest.resolve_left hne
    have hsame : t' = t := by rw [ht', hgen]
    refine ⟨hr, hsame ▸ hnewest, fun piece hp => ?_⟩
    rw [heq] at hp
    exact keyed_run calls _ (KeyedMap.get?_eq_some_iff.1 hget) piece hp

/-- A UDP fragment with 8 bytes of data, with the given flags and offset bytes. -/
def fragment (flags offset : UInt8) : Ipv4Packet :=
  ⟨[0x45, 0, 0, 28, 0, 1, flags, offset, 64, 17, 0, 0, 10, 0, 0, 2, 9, 9, 9, 9] ++
    List.replicate 8 0, by simp⟩

/-- The first fragment of a datagram: more follow. -/
def first : Ipv4Packet := fragment 0x20 0

/-- Its last fragment. -/
def second : Ipv4Packet := fragment 0 1

/-- A first fragment that was bypassed, and a later one that follows it. -/
theorem verdict_fidelity_bypassed :
    ((routerRun [.begin first 0 0, .finish ⟨of first, 1⟩ .bypass 0] :
        RouterConfig Unit).state.later second () 0 0).2 = .route .bypass ∧
      NewestFinished (routerRun ([.begin first 0 0, .finish ⟨of first, 1⟩ .bypass 0] :
        List (Call Unit))).log (of second) .bypass :=
  ⟨by decide, (verdict_fidelity [.begin first 0 0, .finish ⟨of first, 1⟩ .bypass 0]
    (by decide) ⟨trivial, ⟨_, List.mem_singleton.2 rfl, rfl⟩, trivial⟩).1
      second () 0 0 .bypass (by decide) (by decide)⟩

end GamePath.Engine.FragmentRouter
