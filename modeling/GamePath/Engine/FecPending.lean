import GamePath.Engine.FecDecoder

/-!
# Repairs that wait

What becomes of the repairs the decoder takes: `balanced_run` accounts for every one of them over
every run. `retryLoop` is the loop both callers make over `retry_pending`; it takes at most one turn
for each repair that waits (`retryLoop_ends`).

`retry_pending` returns nothing when there is nothing to do, and also when the first repair that is
ready could not be rebuilt. The callers stop either way, so a ready repair behind that one is left:
`Blocked` says when, and `blocked_repair_is_left` is a run.
-/

namespace GamePath.Engine.Fec

open Lib List Decoder Repair

/-! ## What becomes of a repair -/

/-- One call on the decoder. -/
inductive DecoderOp where
  | remember (sequence : UInt64) (packet : Bytes)
  | acceptRepair (payload : Bytes) (now : Instant) (delivered : UInt64 → Bool)
  | retryPending (now : Instant) (delivered : UInt64 → Bool)

variable (d : Decoder)

/-- One call, with the packet it rebuilds. -/
def Decoder.step : DecoderOp → Decoder × Option Sent
  | .remember sequence packet => (d.remember sequence packet, none)
  | .acceptRepair payload now delivered => d.acceptRepair payload now delivered
  | .retryPending now delivered => d.retryPending now delivered

/-- How many repairs a call finds with all their members delivered. -/
def settledBy : DecoderOp → Nat
  | .remember _ _ => 0
  | .acceptRepair payload now delivered =>
    match parse payload now with
    | some repair => if repair.missing delivered = 0 then 1 else 0
    | none => 0
  | .retryPending _ delivered => d.pending.countP fun repair =>
    decide (repair.missing delivered = 0)

/-- A decoder with what became of its repairs: how many rebuilt a packet, and how many were found
with all their members delivered. -/
structure Ledger where
  decoder : Decoder
  rebuilt : Nat
  settled : Nat

/-- One call, entered in the ledger. -/
def Ledger.step (l : Ledger) (op : DecoderOp) : Ledger × Option Sent :=
  (⟨(l.decoder.step op).1, l.rebuilt + (l.decoder.step op).2.toList.length,
    l.settled + settledBy l.decoder op⟩, (l.decoder.step op).2)

/-- A run of calls on a new decoder. -/
def ledgerRun (ops : List DecoderOp) : Run.Config Ledger DecoderOp (Option Sent) :=
  Run.exec Ledger.step ⟨default, 0, 0⟩ ops

/-- The repairs that parsed are those that rebuilt a packet, those whose members were all delivered,
those given up, and those that wait. -/
def Ledger.Balanced (l : Ledger) : Prop :=
  l.decoder.repairsReceived =
    l.rebuilt + l.settled + l.decoder.unrecoverable + l.decoder.pending.length

theorem counts_remember (sequence : UInt64) (packet : Bytes) :
    (d.remember sequence packet).repairsReceived = d.repairsReceived ∧
      (d.remember sequence packet).unrecoverable = d.unrecoverable := by
  rw [remember]
  split <;> exact ⟨rfl, rfl⟩

theorem counts_postpone (repair : Repair) :
    (d.postpone repair).repairsReceived = d.repairsReceived ∧
      (d.postpone repair).unrecoverable + (d.postpone repair).pending.length =
        d.unrecoverable + d.pending.length + 1 := by
  rw [postpone]
  split
  next hfull =>
    have hcapacity : 0 < pendingCapacity := by decide
    refine ⟨rfl, ?_⟩
    dsimp only
    rw [length_append, length_drop, length_singleton]
    omega
  · refine ⟨rfl, ?_⟩
    rw [length_append]
    rfl

theorem counts_resolve (repair : Repair) (delivered : UInt64 → Bool) :
    (d.resolve repair delivered).1.repairsReceived = d.repairsReceived ∧
      (d.resolve repair delivered).2.toList.length +
          (if repair.missing delivered = 0 then 1 else 0) +
          (d.resolve repair delivered).1.unrecoverable +
          (d.resolve repair delivered).1.pending.length =
        d.unrecoverable + d.pending.length + 1 := by
  rcases resolve_cases d repair delivered with
    ⟨hlost, heq⟩ | ⟨lost, packet, hlost, -, heq⟩ | ⟨lost, hlost, -, heq⟩ | ⟨htwo, heq⟩
  · rw [heq, missing, hlost]
    refine ⟨rfl, ?_⟩
    simp
    omega
  · rw [heq, missing, hlost]
    refine ⟨rfl, ?_⟩
    simp
    omega
  · rw [heq, missing, hlost]
    refine ⟨rfl, ?_⟩
    simp
    omega
  · obtain ⟨hreceived, hcounts⟩ := counts_postpone d repair
    rw [heq, if_neg (by omega)]
    refine ⟨hreceived, ?_⟩
    simpa using hcounts

theorem length_filter_and {α : Type} (p q : α → Bool) (xs : List α) :
    ((xs.filter p).filter q).length + (xs.filter p).countP (fun x => !q x) =
      (xs.filter p).length := by
  rw [← countP_eq_length_filter, length_eq_countP_add_countP q (l := xs.filter p)]
  congr 1
  apply countP_congr
  intro x _
  simp

theorem counts_prune (now : Instant) (delivered : UInt64 → Bool) :
    (d.prune now delivered).repairsReceived = d.repairsReceived ∧
      (d.pending.countP fun repair => decide (repair.missing delivered = 0)) +
          (d.prune now delivered).unrecoverable + (d.prune now delivered).pending.length =
        d.unrecoverable + d.pending.length := by
  refine ⟨rfl, ?_⟩
  rw [prune]
  dsimp only
  have hkept := length_filter_le (fun repair : Repair =>
    decide (now - repair.receivedAt < pendingMaxAge) || decide (repair.missing delivered = 0))
    d.pending
  have hsplit := length_filter_and (fun repair : Repair =>
    decide (now - repair.receivedAt < pendingMaxAge) || decide (repair.missing delivered = 0))
    (fun repair => decide (0 < repair.missing delivered)) d.pending
  -- What the second filter takes out is what has nothing left, of whatever age.
  have hsettled : (d.pending.filter fun repair =>
      decide (now - repair.receivedAt < pendingMaxAge) ||
        decide (repair.missing delivered = 0)).countP
        (fun repair => !decide (0 < repair.missing delivered)) =
      d.pending.countP fun repair => decide (repair.missing delivered = 0) := by
    rw [countP_filter]
    apply countP_congr
    intro repair _
    simp
    omega
  omega

theorem Ledger.Balanced.step {l : Ledger} (h : l.Balanced) (op : DecoderOp) :
    (l.step op).1.Balanced := by
  rw [Ledger.Balanced] at h
  cases op with
  | remember sequence packet =>
    obtain ⟨hreceived, hgiven⟩ := counts_remember l.decoder sequence packet
    show (l.decoder.remember sequence packet).repairsReceived =
      l.rebuilt + 0 + (l.settled + 0) + (l.decoder.remember sequence packet).unrecoverable +
        (l.decoder.remember sequence packet).pending.length
    rw [hgiven, pending_remember]
    omega
  | acceptRepair payload now delivered =>
    show (l.decoder.acceptRepair payload now delivered).1.repairsReceived =
      l.rebuilt + (l.decoder.acceptRepair payload now delivered).2.toList.length +
        (l.settled + settledBy l.decoder (.acceptRepair payload now delivered)) +
        (l.decoder.acceptRepair payload now delivered).1.unrecoverable +
        (l.decoder.acceptRepair payload now delivered).1.pending.length
    rw [acceptRepair, settledBy]
    cases parse payload now with
    | none => exact h
    | some repair =>
      obtain ⟨hreceived, hcounts⟩ := counts_resolve
        { l.decoder with
          repairsReceived := l.decoder.repairsReceived + 1
          storing := l.decoder.storing || decide (1 < repair.members.length) } repair delivered
      dsimp only at hreceived hcounts ⊢
      omega
  | retryPending now delivered =>
    show (l.decoder.retryPending now delivered).1.repairsReceived =
      l.rebuilt + (l.decoder.retryPending now delivered).2.toList.length +
        (l.settled + settledBy l.decoder (.retryPending now delivered)) +
        (l.decoder.retryPending now delivered).1.unrecoverable +
        (l.decoder.retryPending now delivered).1.pending.length
    obtain ⟨hpruned, hprune⟩ := counts_prune l.decoder now delivered
    rw [settledBy]
    rcases retryPending_cases l.decoder now delivered with
      ⟨-, heq⟩ | ⟨ready, repair, hget, hone, heq⟩
    · rw [heq]
      dsimp only [Option.toList_none, length_nil]
      omega
    have hne : (l.decoder.prune now delivered).pending ≠ [] := by
      intro hnil
      rw [hnil] at hget
      cases hget
    have hlength := length_swapRemove ready hne
    obtain ⟨hreceived, hcounts⟩ := counts_resolve
      { l.decoder.prune now delivered with
        pending := swapRemove (l.decoder.prune now delivered).pending ready } repair delivered
    rw [if_neg (by omega)] at hcounts
    rw [heq]
    dsimp only at hreceived hcounts ⊢
    omega

theorem balanced_run (ops : List DecoderOp) : (ledgerRun ops).state.Balanced :=
  @Run.exec_invariant _ _ _ Ledger.step ⟨default, 0, 0⟩ (fun c => c.state.Balanced) rfl
    (fun _ op h => h.step op) ops

/-! ## Repairs that are ready -/

/-- A repair that has not waited too long and misses exactly one member. -/
def Repair.ready (repair : Repair) (now : Instant) (delivered : UInt64 → Bool) : Bool :=
  decide (now - repair.receivedAt < pendingMaxAge) && decide (repair.missing delivered = 1)

/-- All members of the repair are stored but those that are not delivered. -/
def Decoder.holdsOthers (repair : Repair) (delivered : UInt64 → Bool) : Bool :=
  repair.members.all fun member => !delivered member || (d.stored member).isSome

/-- No repair that waits, and is young enough, misses exactly one member while the others are
stored. -/
def NoneLeft (now : Instant) (delivered : UInt64 → Bool) : Prop :=
  ∀ repair ∈ d.pending, repair.ready now delivered = true → d.holdsOthers repair delivered = false

/-- The repairs that are ready, in the order they wait. -/
def Decoder.readyList (now : Instant) (delivered : UInt64 → Bool) : List Repair :=
  d.pending.filter fun repair => repair.ready now delivered

/-- The first repair that is ready cannot be rebuilt, and one behind it has its other members
stored. -/
def Blocked (now : Instant) (delivered : UInt64 → Bool) : Prop :=
  ∃ first later, d.readyList now delivered = first :: later ∧
    (∀ lost ∈ first.lost delivered, d.rebuild first lost = none) ∧
    ∃ repair ∈ later, d.holdsOthers repair delivered = true

theorem stored_congr {d d' : Decoder} (h : d'.recent = d.recent) (sequence : UInt64) :
    d'.stored sequence = d.stored sequence := by
  rw [stored, stored, h]

theorem xorOut_congr {d d' : Decoder} (h : d'.recent = d.recent) (members : List UInt64) :
    ∀ parity : Bytes, d'.xorOut members parity = d.xorOut members parity := by
  induction members with
  | nil => exact fun parity => rfl
  | cons member members ih =>
    intro parity
    simp only [xorOut, stored_congr h, ih]

theorem rebuild_congr {d d' : Decoder} (h : d'.recent = d.recent) (repair : Repair)
    (lost : UInt64) : d'.rebuild repair lost = d.rebuild repair lost := by
  rw [rebuild, rebuild, xorOut_congr h]

theorem filter_pending_prune (now : Instant) (delivered : UInt64 → Bool) :
    ((d.prune now delivered).pending.filter fun repair => decide (repair.missing delivered = 1)) =
      d.readyList now delivered := by
  rw [prune, filter_filter, filter_filter]
  apply filter_congr
  intro repair _
  rw [ready]
  by_cases hone : repair.missing delivered = 1 <;> simp [hone]

theorem swapRemove_perm {α : Type} {xs : List α} {i : Nat} {x : α} (h : xs[i]? = some x) :
    (x :: swapRemove xs i).Perm xs := by
  obtain ⟨init, last, rfl⟩ : ∃ init last, xs = init ++ [last] := by
    rcases eq_nil_or_concat xs with rfl | ⟨init, last, rfl⟩
    · cases h
    · exact ⟨init, last, concat_eq_append⟩
  rw [swapRemove, getLast?_append]
  dsimp only [getLast?_singleton, Option.some_or]
  by_cases hi : i < init.length
  · -- The last element takes the place of the one that goes.
    rw [getElem?_append_left hi] at h
    obtain ⟨front, back, rfl, rfl⟩ : ∃ front back, init = front ++ x :: back ∧
      i = front.length := by
      refine ⟨init.take i, init.drop (i + 1), ?_, ?_⟩
      · obtain ⟨hlt, rfl⟩ := List.getElem?_eq_some_iff.1 h
        rw [cons_getElem_drop_succ, take_append_drop]
      · rw [length_take]
        omega
    have hset : (front ++ x :: back ++ [last]).set front.length last =
        front ++ last :: back ++ [last] := by simp
    rw [hset, dropLast_concat]
    have hfirst : (x :: (front ++ last :: back)).Perm (front ++ x :: last :: back) :=
      perm_middle.symm
    refine hfirst.trans ?_
    rw [append_assoc]
    apply List.Perm.append_left
    exact (perm_append_singleton last back).symm.cons x
  · have hlength : i = init.length := by
      have hlt := (List.getElem?_eq_some_iff.1 h).1
      rw [length_append, length_singleton] at hlt
      omega
    subst hlength
    rw [getElem?_append_right (Nat.le_refl _), Nat.sub_self] at h
    obtain rfl : last = x := Option.some.inj h
    have hset : (init ++ [last]).set init.length last = init ++ [last] := by simp
    rw [hset, dropLast_concat]
    exact (perm_append_singleton last init).symm

/-- A call of `retry_pending` takes the first repair that is ready, if there is one. -/
theorem retryPending_ready (now : Instant) (delivered : UInt64 → Bool) :
    (d.readyList now delivered = [] ∧ d.retryPending now delivered =
      (d.prune now delivered, none)) ∨
    ∃ i first later, d.readyList now delivered = first :: later ∧
      (d.prune now delivered).pending[i]? = some first ∧ first.missing delivered = 1 ∧
      d.retryPending now delivered =
        { d.prune now delivered with
          pending := swapRemove (d.prune now delivered).pending i }.resolve first delivered := by
  rw [← filter_pending_prune, retryPending]
  cases hready : (d.prune now delivered).pending.findIdx?
      fun repair => decide (repair.missing delivered = 1) with
  | none =>
    refine .inl ⟨?_, rfl⟩
    rw [filter_eq_nil_iff]
    intro repair hmem
    have hnone := findIdx?_eq_none_iff.1 hready repair hmem
    rw [hnone]
    exact Bool.false_ne_true
  | some i =>
    obtain ⟨hlt, hone, hbefore⟩ := findIdx?_eq_some_iff_getElem.1 hready
    have hget : (d.prune now delivered).pending[i]? =
        some (d.prune now delivered).pending[i] := getElem?_eq_getElem hlt
    refine .inr ⟨i, _, ((d.prune now delivered).pending.drop (i + 1)).filter
      fun repair => decide (repair.missing delivered = 1), ?_, hget, of_decide_eq_true hone, ?_⟩
    · -- Nothing before the index is ready.
      have htake : ((d.prune now delivered).pending.take i).filter
          (fun repair => decide (repair.missing delivered = 1)) = [] := by
        rw [filter_eq_nil_iff]
        intro repair hmem
        obtain ⟨j, hj, rfl⟩ := mem_take_iff_getElem.1 hmem
        have hji : j < i := by omega
        exact hbefore j hji
      conv_lhs => rw [← take_append_drop i (d.prune now delivered).pending]
      rw [filter_append, htake, nil_append, ← cons_getElem_drop_succ (h := hlt)]
      exact filter_cons_of_pos hone
    · simp only [hget]

/-- What one call of `retry_pending` that returns nothing leaves. -/
theorem noneLeft_iff_of_none {d : Decoder} {now : Instant} {delivered : UInt64 → Bool}
    (h : (d.retryPending now delivered).2 = none) :
    NoneLeft (d.retryPending now delivered).1 now delivered ↔ ¬ Blocked d now delivered := by
  have hready := filter_pending_prune d now delivered
  rcases retryPending_ready d now delivered with ⟨hempty, heq⟩ | ⟨i, first, later, hlist, hget,
    hone, heq⟩
  · -- Nothing was ready.
    rw [heq]
    refine iff_of_true ?_ ?_
    · intro repair hmem hrepair
      rw [ready, Bool.and_eq_true] at hrepair
      have hin : repair ∈ d.readyList now delivered := by
        rw [← hready]
        exact mem_filter.2 ⟨hmem, hrepair.2⟩
      rw [hempty] at hin
      exact absurd hin not_mem_nil
    · rintro ⟨first, later, hfirst, -⟩
      rw [hempty] at hfirst
      cases hfirst
  · -- The first ready repair could not be rebuilt; it is given up, the others stay.
    rw [heq] at h ⊢
    have hstay : ∀ repair, repair ∈ later ↔
        repair ∈ swapRemove (d.prune now delivered).pending i ∧ repair.missing delivered = 1 := by
      have hperm := (swapRemove_perm hget).filter fun repair =>
        decide (repair.missing delivered = 1)
      rw [hready, hlist, filter_cons_of_pos (by simpa using hone), perm_cons] at hperm
      intro repair
      rw [← hperm.mem_iff, mem_filter, decide_eq_true_iff]
    have hyoung : ∀ repair ∈ later, repair.ready now delivered = true := by
      intro repair hmem
      have hin : repair ∈ d.readyList now delivered := by
        rw [hlist]
        exact mem_cons_of_mem _ hmem
      exact (mem_filter.1 hin).2
    rcases resolve_cases { d.prune now delivered with
        pending := swapRemove (d.prune now delivered).pending i } first delivered with
      ⟨hlost, -⟩ | ⟨lost, packet, -, -, hres⟩ | ⟨lost, hlost, hrebuild, hres⟩ | ⟨htwo, -⟩
    · rw [missing, hlost] at hone
      cases hone
    · rw [hres] at h
      cases h
    · rw [hres]
      constructor
      · rintro hnone ⟨first', later', hlist', -, repair, hmem, hholds⟩
        rw [hlist] at hlist'
        cases hlist'
        have hfalse := hnone repair ((hstay repair).1 hmem).1 (hyoung repair hmem)
        have hsame : d.holdsOthers repair delivered = false := hfalse
        rw [hholds] at hsame
        cases hsame
      intro hblocked repair hmem hrepair
      rw [ready, Bool.and_eq_true, decide_eq_true_iff, decide_eq_true_iff] at hrepair
      by_contra hholds
      rw [Bool.not_eq_false] at hholds
      refine hblocked ⟨first, later, hlist, ?_, repair, (hstay repair).2 ⟨hmem, hrepair.2⟩, hholds⟩
      intro other hother
      rw [hlost] at hother
      have hsame : ∀ d' : Decoder, d'.recent = d.recent →
          d'.rebuild first lost = d.rebuild first lost :=
        fun d' hrecent => rebuild_congr hrecent first lost
      rw [mem_singleton.1 hother, ← hsame _ ?_]
      · exact hrebuild
      · rfl
    · omega

/-! ## The callers' loop -/

/-- How the loop ends: the calls it made, the decoder and what counts as delivered before and after
the call that returned nothing, when that was, and what was rebuilt on the way. -/
structure LoopEnd where
  calls : Nat
  before : Decoder
  after : Decoder
  delivered : UInt64 → Bool
  now : Instant
  rebuilt : List Sent

/-- The loop of `retry_pending` and `retry_pending_repairs`, for at most `fuel` turns: a rebuilt
packet is delivered and kept, and the decoder is asked again. `clock` is the time at the `n`-th
call. -/
def retryLoop (clock : Nat → Instant) :
    Nat → Nat → Decoder → (UInt64 → Bool) → List Sent → Option LoopEnd
  | 0, _, _, _, _ => none
  | fuel + 1, n, d, delivered, rebuilt =>
    if d.hasPending then
      match d.retryPending (clock n) delivered with
      | (after, none) => some ⟨n + 1, d, after, delivered, clock n, rebuilt⟩
      | (after, some sent) =>
        retryLoop clock fuel (n + 1) (after.remember sent.1 sent.2)
          (fun sequence => delivered sequence || decide (sequence = sent.1)) (rebuilt ++ [sent])
    else some ⟨n, d, d, delivered, clock n, rebuilt⟩

/-- The loop ends, after at most one call for each repair that waited, and what it leaves depends on
the last call only. -/
theorem retryLoop_ends (clock : Nat → Instant) (fuel : Nat) :
    ∀ (n : Nat) (d : Decoder) (delivered : UInt64 → Bool) (rebuilt : List Sent),
      d.pending.length < fuel →
      ∃ e, retryLoop clock fuel n d delivered rebuilt = some e ∧
        e.calls ≤ n + d.pending.length ∧
        (NoneLeft e.after e.now e.delivered ↔ ¬ Blocked e.before e.now e.delivered) := by
  induction fuel with
  | zero => exact fun n d delivered rebuilt h => absurd h (Nat.not_lt_zero _)
  | succ fuel ih =>
    intro n d delivered rebuilt hfuel
    rw [retryLoop]
    by_cases hpending : d.hasPending = true
    · rw [if_pos hpending]
      cases hcall : d.retryPending (clock n) delivered with
      | mk after result =>
        cases result with
        | none =>
          have hsome : 0 < d.pending.length := by
            rw [length_pos_iff]
            intro hnil
            rw [hasPending, hnil] at hpending
            cases hpending
          refine ⟨_, rfl, by dsimp only; omega, ?_⟩
          have hiff := @noneLeft_iff_of_none d (clock n) delivered (by rw [hcall])
          rw [hcall] at hiff
          exact hiff
        | some sent =>
          -- The repair that was used is gone.
          have hless := @length_pending_retryPending d delivered (clock n) sent (by rw [hcall])
          rw [hcall] at hless
          dsimp only at hless ⊢
          obtain ⟨e, he, hlength, hiff⟩ := ih (n + 1) (after.remember sent.1 sent.2)
            (fun sequence => delivered sequence || decide (sequence = sent.1))
            (rebuilt ++ [sent]) (by rw [pending_remember]; omega)
          refine ⟨e, he, ?_, hiff⟩
          rw [pending_remember] at hlength
          omega
    · rw [if_neg hpending]
      have hnil : d.pending = [] := by
        rw [hasPending] at hpending
        simpa using hpending
      refine ⟨_, rfl, Nat.le_add_right _ _, iff_of_true ?_ ?_⟩
      · intro repair hmem
        rw [hnil] at hmem
        exact absurd hmem not_mem_nil
      · rintro ⟨first, later, hlist, -⟩
        rw [readyList, hnil] at hlist
        cases hlist

/-- From every state the decoder can reach the callers' loop ends in time, and leaves no repair that
could be rebuilt exactly when its last call was not blocked; and every repair is accounted for. -/
theorem retry_leaves_none_iff (ops : List DecoderOp) (clock : Nat → Instant)
    (delivered : UInt64 → Bool) :
    (ledgerRun ops).state.Balanced ∧
      ∃ e, retryLoop clock ((ledgerRun ops).state.decoder.pending.length + 1) 0
          (ledgerRun ops).state.decoder delivered [] = some e ∧
        e.calls ≤ (ledgerRun ops).state.decoder.pending.length ∧
        (NoneLeft e.after e.now e.delivered ↔ ¬ Blocked e.before e.now e.delivered) := by
  obtain ⟨e, he, hlength, hiff⟩ := retryLoop_ends clock
    ((ledgerRun ops).state.decoder.pending.length + 1) 0 (ledgerRun ops).state.decoder delivered []
    (Nat.lt_succ_self _)
  refine ⟨balanced_run ops, e, he, ?_, hiff⟩
  rwa [Nat.zero_add] at hlength

instance (d : Decoder) (now : Instant) (delivered : UInt64 → Bool) :
    Decidable (NoneLeft d now delivered) :=
  inferInstanceAs (Decidable (∀ repair ∈ d.pending, _))

/-- Two groups of two packets. Of the first one packet is delivered but not stored, of the second
one is delivered and stored. -/
def twoGroups : List DecoderOp :=
  [.acceptRepair [1, 0, 0, 0, 0, 0, 0, 0, 10, 2, 1, 0, 0, 5] 0 (fun _ => false),
    .acceptRepair [1, 0, 0, 0, 0, 0, 0, 0, 20, 2, 1, 0, 0, 12] 0 (fun _ => false),
    .remember 21 [9]]

/-- The first group cannot be rebuilt, and the loop stops there: the second one, whose missing
packet could be rebuilt, is left waiting. -/
theorem blocked_repair_is_left :
    ∃ e, retryLoop (fun _ => 0) 3 0 (ledgerRun twoGroups).state.decoder
        (fun sequence => decide (sequence = 11 ∨ sequence = 21)) [] = some e ∧
      e.rebuilt = [] ∧ ¬ NoneLeft e.after e.now e.delivered := by
  refine ⟨_, rfl, rfl, ?_⟩
  decide +kernel

end GamePath.Engine.Fec
