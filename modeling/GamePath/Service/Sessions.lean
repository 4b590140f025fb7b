import GamePath.Service.Slot

/-!
# Two slots at work (`registry.rs`, `session.rs`)

Requests, leases that run out and notifications are threads of the service. A thread that works on a
slot holds the lock of the slot from its first look at it to its end, and takes the lock of the
summaries for one copy at a time. Between two of these any other thread may run. A summary that is
published is seen by everyone at once; whether the other slot has to hear of it is settled in the
same moment, and the thread that tells it is spawned a step later, and runs whenever it does.

A thread is the stage it is at. What a stage does to the slot, what it publishes and where it goes
on is its turn, a function of the slot, of the other slot's summary as it is then, and of how the
calls of the stage go.
-/

namespace GamePath.Service

open List SlotSummary Engine.Capture
open SessionSlot (StartRequest StartOutcome EditOutcome NoticeOutcome)

/-- How far a thread is. -/
inductive Stage where
  /-- `start_session`: the lock is waited for. -/
  | startWaiting (q : StartRequest)
  /-- The slot is torn down; the request is checked, and the VPN is about to look at the game. -/
  | startChecking (q : StartRequest)
  /-- About to publish that the slot is starting. -/
  | startPublishing (q : StartRequest)
  /-- About to read the other slot's summary. -/
  | startReading (q : StartRequest)
  /-- A native session with lookups of its own reads it twice more. -/
  | nativeActive (q : StartRequest) (foreign : SlotSummary)
  | nativeAppDns (q : StartRequest) (foreign : SlotSummary) (active : Bool)
  /-- Everything was read, and the session opens. -/
  | connecting (q : StartRequest) (foreign : SlotSummary) (active appDns : Bool)
  /-- `stop_session`. -/
  | stopWaiting (reason : Option StopReason)
  /-- `expire_lease`. -/
  | expireWaiting
  /-- `update_session_rules` reads the other slot's summary before it waits for the lock. -/
  | updateReading (rules : List RuleSpec)
  | updateWaiting (rules : List RuleSpec) (foreign : SlotSummary)
  /-- `reconcile_other_session`. -/
  | reconcileWaiting
  | reconcileReading
  | reconcileTelling (foreign : SlotSummary)
  /-- The last summary of a thread, and after it. -/
  | publishing (summary : SlotSummary)
  | ending
  /-- The thread is over. -/
  | finished
  deriving DecidableEq

namespace Stage

/-- Whether the thread holds the lock of its slot. -/
def locked : Stage → Bool
  | startWaiting _ | stopWaiting _ | expireWaiting | updateReading _ | updateWaiting _
      _ | reconcileWaiting
  | finished => false
  | _ => true

end Stage

/-- A thread: the slot it works on, its stage, and whether it is about to spawn one that tells the
other slot. -/
structure Thread where
  slot : SlotId
  stage : Stage
  notify : Bool
  deriving DecidableEq

/-- How the calls of a turn go. -/
structure Choice where
  /-- Something of the start is refused, or fails before the session opens. -/
  refused : Bool
  start : StartOutcome
  expired : Bool
  edit : EditOutcome
  notice : NoticeOutcome
  deriving DecidableEq

/-- What a thread does in one turn: the slot after it, what it publishes, and its next stage. -/
structure Turn where
  slot : SessionSlot
  publish : Option SlotSummary
  stage : Stage

/-- A start that failed is torn down, and the slot is idle again. -/
def startFails (slot : SessionSlot) : Turn :=
  ⟨slot.takeForTeardown none, none, .publishing (idle none)⟩

section Turns

variable (check : RuleCheck)

/-- One turn of a thread. `other` is the other slot's summary, `free` whether the lock of the slot
is free. -/
def Stage.turn (slot : SessionSlot) (other : SlotSummary) (free : Bool) (c : Choice) : Stage → Turn
  | .startWaiting q =>
    if free then ⟨slot.takeForTeardown none, none, .startChecking q⟩ else ⟨slot, none,
      .startWaiting q⟩
  | .startChecking q =>
    if c.refused then startFails slot
    else if slot.id = .vpn ∧ other.ownsAllTraffic = true then startFails slot
    else ⟨slot, none, .startPublishing q⟩
  | .startPublishing q =>
    if c.refused then startFails slot
    else
      let slot := SessionSlot.prepare slot.id q
      ⟨slot, some (slot.summaryOf .starting []), .startReading q⟩
  | .startReading q =>
    let ruled := { slot with sessionRules := some q.rules }
    if q.native = true ∧ slot.remoteDns = true then ⟨ruled, none, .nativeActive q other⟩
    else ⟨ruled, none, .connecting q other false false⟩
  | .nativeActive q foreign =>
    if c.refused then startFails slot else ⟨slot, none, .nativeAppDns q foreign other.isActive⟩
  | .nativeAppDns q foreign active =>
    ⟨slot, none, .connecting q foreign active other.appDnsRules⟩
  | .connecting q foreign active appDns =>
    match slot.connect check q foreign active appDns c.start with
    | none => startFails slot
    | some slot => ⟨slot, none, .publishing (slot.summaryOf .connected slot.tunnel)⟩
  | .stopWaiting reason =>
    if free then ⟨slot.takeForTeardown reason, none, .publishing (idle reason)⟩
    else ⟨slot, none, .stopWaiting reason⟩
  | .expireWaiting =>
    if free then
      if slot.leased && c.expired then
        ⟨slot.takeForTeardown (some .leaseExpired), none,
          .publishing (idle (some .leaseExpired))⟩
      else ⟨slot, none, .finished⟩
    else ⟨slot, none, .expireWaiting⟩
  | .updateReading rules => ⟨slot, none, .updateWaiting rules other⟩
  | .updateWaiting rules foreign =>
    if free then ⟨(slot.updateSessionRules check rules foreign c.edit).2, none, .ending⟩
    else ⟨slot, none, .updateWaiting rules foreign⟩
  | .reconcileWaiting =>
    if free then ⟨slot, none, .reconcileReading⟩ else ⟨slot, none, .reconcileWaiting⟩
  | .reconcileReading =>
    if slot.id = .vpn ∧ other.ownsAllTraffic = true then
      ⟨slot.takeForTeardown (some .gameAllTraffic), none,
        .publishing (idle (some .gameAllTraffic))⟩
    else ⟨slot, none, .reconcileTelling other⟩
  | .reconcileTelling foreign => ⟨slot.tell check foreign c.notice, none, .ending⟩
  | .publishing summary => ⟨slot, some summary, .ending⟩
  | .ending => ⟨slot, none, .finished⟩
  | .finished => ⟨slot, none, .finished⟩

end Turns

/-- The service: the slots, their summaries, and every thread so far. -/
structure Registry where
  slots : SlotId → SessionSlot
  summaries : SlotId → SlotSummary
  threads : List Thread

/-- A request of a client, or a lease that is looked at. -/
inductive Request where
  | start (q : StartRequest)
  | stop (reason : Option StopReason)
  | expire
  | update (rules : List RuleSpec)
  deriving DecidableEq

/-- The stage a request begins at. -/
def Request.stage : Request → Stage
  | start q => .startWaiting q
  | stop reason => .stopWaiting reason
  | expire => .expireWaiting
  | update rules => .updateReading rules

/-- What happens: a request comes in, or a thread has its turn. -/
inductive ServiceEvent where
  | call (id : SlotId) (request : Request)
  | run (index : Nat) (choice : Choice)

namespace Registry

def new : Registry := ⟨SessionSlot.new, fun _ => idle none, []⟩

/-- Nobody holds the lock of a slot. -/
def free (s : Registry) (id : SlotId) : Bool :=
  s.threads.all fun t => t.slot ≠ id || !t.stage.locked

/-- A turn of a thread. -/
def takes (s : Registry) (index : Nat) (t : Thread) (turn : Turn) : Registry where
  slots := Function.update s.slots t.slot turn.slot
  summaries := turn.publish.elim s.summaries (Function.update s.summaries t.slot)
  threads := s.threads.set index
    ⟨t.slot, turn.stage, turn.publish.any fun summary => needsUpdate t.slot
      (s.summaries t.slot) summary⟩

/-- The thread spawns the one that tells the other slot. -/
def spawns (s : Registry) (index : Nat) (t : Thread) : Registry :=
  { s with threads := s.threads.set index { t with notify := false } ++
    [⟨t.slot.other, .reconcileWaiting, false⟩] }

/-- Nothing is running or pending. -/
def Settled (s : Registry) : Prop := ∀ t ∈ s.threads, t.stage = .finished ∧ t.notify = false

variable (check : RuleCheck)

/-- One step. -/
def step (s : Registry) : ServiceEvent → Registry
  | .call id request => { s with threads := s.threads ++ [⟨id, request.stage, false⟩] }
  | .run index choice =>
    match s.threads[index]? with
    | none => s
    | some t =>
      if t.notify then s.spawns index t
      else s.takes index t (t.stage.turn check (s.slots t.slot) (s.summaries t.slot.other)
        (s.free t.slot) choice)

/-- The turn a thread takes when it runs in this registry. -/
abbrev turned (s : Registry) (t : Thread) (c : Choice) : Turn :=
  t.stage.turn check (s.slots t.slot) (s.summaries t.slot.other) (s.free t.slot) c

end Registry

/-! ## Turns and locks -/

section Turns

variable {check : RuleCheck} {slot : SessionSlot} {other : SlotSummary} {free : Bool} {c : Choice}

/-- A turn stays with its slot. -/
theorem Stage.turn_id (stage : Stage) : (stage.turn check slot other free c).slot.id = slot.id := by
  cases stage with
  | startWaiting | startPublishing | startReading | nativeActive | stopWaiting | reconcileWaiting
  | reconcileReading => rw [turn]; split <;> rfl
  | startChecking q =>
    rw [turn]
    split
    · rfl
    · split <;> rfl
  | nativeAppDns | updateReading | publishing | ending | finished => rfl
  | connecting q foreign active appDns =>
    rw [turn]
    cases h : slot.connect check q foreign active appDns c.start with
    | none => rfl
    | some slot' => exact (SessionSlot.connect_session h).1
  | expireWaiting =>
    rw [turn]
    split
    · split <;> rfl
    · rfl
  | updateWaiting rules foreign =>
    rw [turn]
    split
    · exact (slot.sameSession_updateSessionRules rules foreign c.edit).id
    · rfl
  | reconcileTelling foreign => exact (slot.sameSession_tell foreign c.notice).id

/-- A turn of a thread without the lock takes the lock only where it is free, and leaves the slot
alone where it is not. -/
theorem Stage.turn_unlocked {stage : Stage} (hstage : stage.locked = false) :
    (stage.turn check slot other free c).publish = none ∧
      (free = false → (stage.turn check slot other free c).slot = slot ∧
        (stage.turn check slot other free c).stage.locked = false) := by
  cases stage with
  | startWaiting | stopWaiting | updateWaiting | reconcileWaiting =>
    rw [turn]; cases free <;> simp [Stage.locked]
  | expireWaiting =>
    rw [turn]
    cases free with
    | true => refine ⟨?_, by simp⟩; simp only [if_true]; split <;> rfl
    | false => simp [Stage.locked]
  | updateReading | finished => exact ⟨rfl, fun _ => ⟨rfl, rfl⟩⟩
  | _ => simp [Stage.locked] at hstage

end Turns

theorem Request.stage_unlocked (request : Request) : request.stage.locked = false := by
  cases request <;> rfl

namespace Registry

variable {s : Registry} {index : Nat} {t : Thread}

theorem free_iff {id : SlotId} : s.free id = true ↔ ∀ u ∈ s.threads, u.slot = id →
    u.stage.locked = false := by
  rw [free, all_eq_true]
  refine forall₂_congr fun u _ => ?_
  rw [Bool.or_eq_true, decide_eq_true_iff, Bool.not_eq_true']
  exact imp_iff_not_or.symm

theorem set_some {threads : List Thread} {t' u : Thread} {j : Nat}
    (h : (threads.set index t')[j]? = some u) :
    (j = index ∧ u = t') ∨ (j ≠ index ∧ threads[j]? = some u) := by
  by_cases hj : index = j
  · subst hj
    rw [getElem?_set_self'] at h
    obtain ⟨-, -, rfl⟩ := Option.map_eq_some_iff.1 h
    exact .inl ⟨rfl, rfl⟩
  · rw [getElem?_set_ne hj] at h
    exact .inr ⟨fun hne => hj hne.symm, h⟩

theorem snoc_some {threads : List Thread} {t' u : Thread} {j : Nat}
    (h : (threads ++ [t'])[j]? = some u) :
    threads[j]? = some u ∨ (j = threads.length ∧ u = t') := by
  rcases Nat.lt_or_ge j threads.length with hlt | hge
  · rw [getElem?_append_left hlt] at h
    exact .inl h
  rw [getElem?_append_right hge] at h
  have hj := (List.getElem?_eq_some_iff.1 h).1
  rw [length_singleton] at hj
  obtain rfl : j = threads.length := by omega
  rw [Nat.sub_self] at h
  exact .inr ⟨rfl, (Option.some.inj h).symm⟩

/-- Each slot keeps its name, and its lock is held once at most. -/
structure Locks (s : Registry) : Prop where
  named : ∀ id, (s.slots id).id = id
  exclusive : ∀ (i j : Nat) (t u : Thread), s.threads[i]? = some t → s.threads[j]? = some u →
    t.slot = u.slot → t.stage.locked = true →
    u.stage.locked = true → i = j

theorem Locks.unlocked (h : s.Locks) (ht : s.threads[index]? = some t)
    (hlocked : t.stage.locked = true) {u : Thread}
    {j : Nat} (hu : s.threads[j]? = some u) (hj : j ≠ index) (hslot : u.slot = t.slot) :
    u.stage.locked = false := by
  by_contra hbad
  exact hj (h.exclusive j index u t hu ht hslot (Bool.not_eq_false _ ▸ hbad) hlocked)

theorem new_locks : new.Locks := ⟨fun _ => rfl, fun i j t u h => absurd h (by simp [new])⟩

theorem call_locks (h : s.Locks) (id : SlotId) (request : Request) :
    Locks { s with threads := s.threads ++ [⟨id, request.stage, false⟩] } := by
  have hnew := request.stage_unlocked
  refine ⟨h.named, fun i j t u ht hu hslot htl hul => ?_⟩
  rcases snoc_some ht with ht' | ⟨-, rfl⟩
  · rcases snoc_some hu with hu' | ⟨-, rfl⟩
    · exact h.exclusive i j t u ht' hu' hslot htl hul
    · cases hnew.symm.trans hul
  · cases hnew.symm.trans htl

theorem spawns_locks (h : s.Locks) (ht : s.threads[index]? = some t) :
    (s.spawns index t).Locks := by
  refine ⟨h.named, fun i j u v hu hv hslot hul hvl => ?_⟩
  -- The stages are the same, and the new thread waits.
  have hsame : ∀ (k : Nat) (w : Thread), (s.spawns index t).threads[k]? = some w →
      w.stage.locked = true →
      ∃ w' : Thread, s.threads[k]? = some w' ∧ w'.slot = w.slot ∧ w'.stage.locked = true := by
    intro k w hw hwl
    rcases snoc_some hw with hw' | ⟨-, rfl⟩
    · rcases set_some hw' with ⟨rfl, rfl⟩ | ⟨-, hw''⟩
      · exact ⟨t, ht, rfl, hwl⟩
      · exact ⟨w, hw'', rfl, hwl⟩
    · simp [Stage.locked] at hwl
  obtain ⟨u', hu', hus, hul'⟩ := hsame i u hu hul
  obtain ⟨v', hv', hvs, hvl'⟩ := hsame j v hv hvl
  exact h.exclusive i j u' v' hu' hv' (hus.trans (hslot.trans hvs.symm)) hul' hvl'

/-- Once a turn leaves its thread with the lock, nobody else has it. -/
theorem Locks.others_unlocked {check : RuleCheck} {c : Choice} (h : s.Locks)
    (ht : s.threads[index]? = some t) (hlocked : (s.turned check t c).stage.locked = true)
    {u : Thread} {j : Nat} (hj : j ≠ index) (hu : s.threads[j]? = some u)
    (hslot : u.slot = t.slot) : u.stage.locked = false := by
  cases hold : t.stage.locked with
  | true => exact h.unlocked ht hold hu hj hslot
  | false =>
    -- It took the lock in this turn, so the lock was free.
    refine free_iff.1 ?_ u (mem_of_getElem? hu) hslot
    by_contra hbusy
    cases ((Stage.turn_unlocked hold).2 (Bool.eq_false_iff.2 hbusy)).2.symm.trans hlocked

theorem takes_locks (check : RuleCheck) (c : Choice) (h : s.Locks)
    (ht : s.threads[index]? = some t) :
    (s.takes index t (s.turned check t c)).Locks := by
  refine ⟨fun id => ?_, fun i j u v hu hv hslot hul hvl => ?_⟩
  · rw [takes]
    dsimp only
    rw [Function.update_apply]
    split
    next hid =>
      rw [hid, Stage.turn_id]
      exact h.named t.slot
    · exact h.named id
  rcases set_some hu with ⟨rfl, rfl⟩ | ⟨hi, hu'⟩
  · rcases set_some hv with ⟨hji, -⟩ | ⟨hj, hv'⟩
    · exact hji.symm
    · cases (h.others_unlocked ht hul hj hv' hslot.symm).symm.trans hvl
  · rcases set_some hv with ⟨rfl, rfl⟩ | ⟨-, hv'⟩
    · cases (h.others_unlocked ht hvl hi hu' hslot).symm.trans hul
    · exact h.exclusive i j u v hu' hv' hslot hul hvl

end Registry

end GamePath.Service
