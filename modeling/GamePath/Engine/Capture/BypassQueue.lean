import GamePath.Engine.Basic
import GamePath.Lib.Threads

/-!
# Packets put back on the network stack (`reinject`, `run_bypass_injector` of `split_capture.rs`)

A packet that is not selected is reserved by its bytes, queued, and sent by the injector; where a
bound refuses it, its capture thread gives the reservation back and sends it inline. The injector
leaves when a wait times out after the stop. A packet queued between the time-out and the end of the
injector goes with the queue and is never sent. In every run in which the injector leaves an empty
queue the bytes are exact and each packet is sent once (`each_sent_once`).
-/

namespace GamePath.Engine.BypassQueue

open Lib Run Threads List Prod

def bypassQueueDepth : ℕ := 2048

def bypassQueueBytes : ℕ := 4 * 1024 * 1024

/-- `Bypass`; the address is the bytes WinDivert gave with the packet. -/
structure Bypass where
  packet : Bytes
  address : Bytes
  deriving DecidableEq

/-- Where the injector is: it waits, has a packet to send, has sent it and is to subtract it, has
timed out and is to read the stop, drains what is left, or is to drop the receiver. `drains` is set
once every sender has gone. -/
inductive Injector where
  | receiving
  | took (item : Bypass) (drains : Bool)
  | gave (item : Bypass) (drains : Bool)
  | timedOut
  | draining
  | leaving (drains : Bool)
  | returned

/-- The queue, the counters of the registry, and the injector. `senders` are the capture threads
that have not ended; `passed` and `sent` are the packets given to `reinject` and to `send_bypass` so
far. -/
structure Bypassing where
  queue : List Bypass
  queuedBytes : ℕ
  queueFull : ℕ
  stop : Bool
  senders : ℕ
  injector : Injector
  passed : List Bypass
  sent : List Bypass

/-- Where a capture thread is: outside `reinject`, called, with its bytes reserved, with the packet
back from the queue, about to count it, about to send it inline, or ended. -/
inductive Place where
  | idle
  | called (item : Bypass)
  | reserved (item : Bypass)
  | held (item : Bypass)
  | refused (item : Bypass)
  | sending (item : Bypass)
  | gone
  deriving DecidableEq

inductive Operation where
  | reinject (item : Bypass)
  | next
  | exit

/-- `fetch_sub` on 64 bits. -/
def fetchSub (n length : ℕ) : ℕ := if length ≤ n then n - length else n + 2 ^ 64 - length

/-- One atomic operation of a capture thread. -/
def op (s : Bypassing) : Place → Operation → Bypassing × Place
  | .idle, .reinject item => ({ s with passed := item :: s.passed }, .called item)
  | .idle, .exit => ({ s with senders := s.senders - 1 }, .gone)
  | .called item, .next =>
    if s.queuedBytes + item.packet.length ≤ bypassQueueBytes then
      ({ s with queuedBytes := s.queuedBytes + item.packet.length }, .reserved item)
    else (s, .refused item)
  | .reserved item, .next =>
    match s.injector with
    | .returned => (s, .held item)
    | _ =>
      if s.queue.length < bypassQueueDepth then ({ s with queue := s.queue ++ [item] }, .idle)
      else (s, .held item)
  | .held item, .next =>
    ({ s with queuedBytes := fetchSub s.queuedBytes item.packet.length }, .refused item)
  | .refused item, .next => ({ s with queueFull := s.queueFull + 1 }, .sending item)
  | .sending item, .next => ({ s with sent := item :: s.sent }, .idle)
  | p, _ => (s, p)

/-- The stop signal, the wait of the injector at its end, and its next step. -/
inductive Event where
  | stop
  | timeout
  | inject

/-- One step of `run_bypass_injector`, or the stop. -/
def env (s : Bypassing) : Event → Bypassing
  | .stop => { s with stop := true }
  | .timeout =>
    match s.injector, s.queue with
    -- With no sender left the wait ends disconnected.
    | .receiving, [] => if s.senders = 0 then s else { s with injector := .timedOut }
    | _, _ => s
  | .inject =>
    match s.injector with
    | .receiving =>
      match s.queue with
      | item :: queue => { s with queue, injector := .took item false }
      | [] => if s.senders = 0 then { s with injector := .draining } else s
    | .took item drains => { s with sent := item :: s.sent, injector := .gave item drains }
    | .gave item drains =>
      { s with
        queuedBytes := fetchSub s.queuedBytes item.packet.length
        injector := if drains then .draining else .receiving }
    | .timedOut => { s with injector := if s.stop then .leaving false else .receiving }
    | .draining =>
      match s.queue with
      | item :: queue => { s with queue, injector := .took item true }
      | [] => { s with injector := .leaving true }
    | .leaving _ => { s with queue := [], injector := .returned }
    | .returned => s

/-- Capture threads that have called nothing, and the injector waiting. -/
def start (threads : ℕ) : Pool Bypassing Place :=
  ⟨⟨[], 0, 0, false, threads, .receiving, [], []⟩, List.replicate threads .idle⟩

/-- The bytes of packets. -/
def bytesOf (items : List Bypass) : ℕ := (items.map fun item => item.packet.length).sum

/-- The bytes a capture thread has reserved and neither queued nor given back. -/
def Place.bytes : Place → ℕ
  | .reserved item => item.packet.length
  | .held item => item.packet.length
  | _ => 0

/-- The bytes of the packet the injector has not yet subtracted. -/
def Injector.bytes : Injector → ℕ
  | .took item _ => item.packet.length
  | .gave item _ => item.packet.length
  | _ => 0

/-- The counter is what is reserved, queued, or taken out and not subtracted; it stays within its
bound, no subtraction is of more than it, and once all have returned each packet has been sent once.
-/
structure Conserved (s : Pool Bypassing Place) : Prop where
  exact : s.shared.queuedBytes =
    held Place.bytes s.places + bytesOf s.shared.queue + s.shared.injector.bytes
  bounded : s.shared.queuedBytes ≤ bypassQueueBytes
  givenBack : ∀ item, .held item ∈ s.places → item.packet.length ≤ s.shared.queuedBytes
  subtracted : ∀ item drains, s.shared.injector = .gave item drains →
    item.packet.length ≤ s.shared.queuedBytes
  once : (∀ p ∈ s.places, p = .gone) → s.shared.injector = .returned →
    s.shared.sent.Perm s.shared.passed

/-- After a time-out the injector drops an empty queue. -/
def LeavesEmpty (s : Bypassing) (event : Event) : Prop :=
  event = .inject → s.injector = .leaving false → s.queue = []

section Invariant

/-- How often a thread holds the packet to be sent. -/
def Place.count (x : Bypass) : Place → ℕ
  | .called item => [item].count x
  | .reserved item => [item].count x
  | .held item => [item].count x
  | .refused item => [item].count x
  | .sending item => [item].count x
  | _ => 0

/-- How often the injector holds the packet to be sent. -/
def Injector.count (x : Bypass) : Injector → ℕ
  | .took item _ => [item].count x
  | _ => 0

/-- The senders have gone, as the injector knows. -/
def Injector.drains : Injector → Bool
  | .took _ drains => drains
  | .gave _ drains => drains
  | .draining => true
  | .leaving drains => drains
  | _ => false

/-- Nothing is queued any more. -/
def Injector.done : Injector → Bool
  | .leaving drains => drains
  | .returned => true
  | _ => false

/-- Its bytes, its copies of a packet, and its sender. -/
def weight (x : Bypass) (p : Place) : ℕ × ℕ × ℕ := (p.bytes, p.count x, if p = .gone then 0 else 1)

/-- What the threads, the queue and the injector hold accounts for the counter and for the packets
passed. -/
structure Balanced (x : Bypass) (s : Bypassing) (all : ℕ × ℕ × ℕ) : Prop where
  bytes : s.queuedBytes = all.1 + bytesOf s.queue + s.injector.bytes
  limit : s.queuedBytes ≤ bypassQueueBytes
  count : s.passed.count x = all.2.1 + s.queue.count x + s.injector.count x + s.sent.count x
  senders : s.senders = all.2.2
  alone : s.injector.drains = true → s.senders = 0
  empty : s.injector.done = true → s.queue = []

variable {x : Bypass}

theorem op_balanced (s : Bypassing) (p : Place) (a : Operation) (rest : ℕ × ℕ × ℕ) (_ : True)
    (h : Balanced x s (weight x p + rest)) :
    Balanced x (op s p a).1 (weight x (op s p a).2 + rest) := by
  have ⟨hbytes, hlimit, hcount, hsenders, halone, hempty⟩ := h
  cases p with
  | idle =>
    cases a with
    | reinject item =>
      refine ⟨hbytes, hlimit, ?_, hsenders, halone, hempty⟩
      simp only [op, weight, Place.count, count_cons, count_nil, snd_add, fst_add] at *
      omega
    | next => exact h
    | exit =>
      refine ⟨hbytes, hlimit, hcount, ?_, fun h => ?_, hempty⟩
      · simp only [op, weight, snd_add] at *
        simp at *
        omega
      · simp [op, halone h]
  | called item =>
    cases a with
    | next =>
      simp only [op]
      split
      · refine ⟨?_, by assumption, hcount, hsenders, halone, hempty⟩
        simp only [weight, Place.bytes, fst_add] at *
        omega
      · exact h
    | _ => exact h
  | reserved item =>
    cases a with
    | next =>
      simp only [op]
      split
      · exact h
      · split
        · refine ⟨?_, hlimit, ?_, hsenders, halone, fun h => ?_⟩
          · simp only [weight, Place.bytes, bytesOf, map_append, sum_append, fst_add] at *
            simp
            omega
          · simp only [weight, Place.count, count_append, fst_add, snd_add] at *
            omega
          · -- The thread holds a sender, so the injector has not drained.
            have hzero : s.senders = 0 := by
              cases hinjector : s.injector <;> simp_all [Injector.done, Injector.drains]
            simp [weight] at hsenders
            omega
        · exact h
    | _ => exact h
  | held item =>
    cases a with
    | next =>
      have hsub : fetchSub s.queuedBytes item.packet.length =
          rest.1 + bytesOf s.queue + s.injector.bytes := by
        simp only [weight, Place.bytes, fst_add] at hbytes
        rw [fetchSub, if_pos (by omega)]
        omega
      refine ⟨?_, ?_, hcount, hsenders, halone, hempty⟩
      · simpa [op, weight, Place.bytes] using hsub
      · simp only [weight, Place.bytes, fst_add] at hbytes
        simp only [op]
        omega
    | _ => exact h
  | refused item => cases a <;> exact ⟨hbytes, hlimit, hcount, hsenders, halone, hempty⟩
  | sending item =>
    cases a with
    | next =>
      refine ⟨hbytes, hlimit, ?_, hsenders, halone, hempty⟩
      simp only [op, weight, Place.count, count_cons, count_nil, snd_add, fst_add] at *
      omega
    | _ => exact h
  | gone => cases a <;> exact h

theorem env_balanced (s : Bypassing) (event : Event) (all : ℕ × ℕ × ℕ)
    (hleaves : LeavesEmpty s event) (h : Balanced x s all) : Balanced x (env s event) all := by
  have ⟨hbytes, hlimit, hcount, hsenders, halone, hempty⟩ := h
  cases event with
  | stop => exact ⟨hbytes, hlimit, hcount, hsenders, halone, hempty⟩
  | timeout =>
    simp only [env]
    split
    · rename_i hinjector hqueue
      split
      · exact h
      · rw [hinjector] at hbytes hcount
        exact ⟨hbytes, hlimit, hcount, hsenders, nofun, nofun⟩
    · exact h
  | inject =>
    simp only [env]
    split <;> rename_i hinjector <;> rw [hinjector] at hbytes hcount halone hempty
    · split <;> rename_i hqueue
      · refine ⟨?_, hlimit, ?_, hsenders, nofun, nofun⟩
        · simp only [hqueue, bytesOf, map_cons, sum_cons, Injector.bytes] at hbytes ⊢
          omega
        · simp only [hqueue, count_cons, count_nil, Injector.count] at hcount ⊢
          omega
      · split
        · exact ⟨hbytes, hlimit, hcount, hsenders, fun _ => by assumption, nofun⟩
        · exact h
    · refine ⟨hbytes, hlimit, ?_, hsenders, halone, nofun⟩
      simp only [count_cons, count_nil, Injector.count] at hcount ⊢
      omega
    · rename_i item drains
      have hsub : fetchSub s.queuedBytes item.packet.length = all.1 + bytesOf s.queue := by
        rw [Injector.bytes] at hbytes
        rw [fetchSub, if_pos (by omega)]
        omega
      have hle : fetchSub s.queuedBytes item.packet.length ≤ bypassQueueBytes := by omega
      cases drains with
      | false => exact ⟨hsub, hle, hcount, hsenders, nofun, nofun⟩
      | true => exact ⟨hsub, hle, hcount, hsenders, halone, nofun⟩
    · cases hstop : s.stop <;> exact ⟨hbytes, hlimit, hcount, hsenders, nofun, nofun⟩
    · split <;> rename_i hqueue
      · refine ⟨?_, hlimit, ?_, hsenders, halone, nofun⟩
        · simp only [hqueue, bytesOf, map_cons, sum_cons, Injector.bytes] at hbytes ⊢
          omega
        · simp only [hqueue, count_cons, count_nil, Injector.count] at hcount ⊢
          omega
      · exact ⟨hbytes, hlimit, hcount, hsenders, halone, fun _ => hqueue⟩
    · rename_i drains
      have hqueue : s.queue = [] := by
        cases drains with
        | false => exact hleaves rfl hinjector
        | true => exact hempty rfl
      rw [hqueue] at hbytes hcount
      exact ⟨hbytes, hlimit, hcount, hsenders, nofun, fun _ => rfl⟩
    · exact h

theorem start_balanced (threads : ℕ) :
    Balanced x (start threads).shared (held (weight x) (start threads).places) := by
  have hheld : held (weight x) (start threads).places = (0, 0, threads) := by
    simp [held, start, weight, Place.bytes, Place.count]
  rw [hheld]
  exact ⟨rfl, Nat.zero_le _, by simp [start, Injector.count], rfl, nofun, nofun⟩

end Invariant

/-- In a run in which the injector never drops a packet with its receiver, after any steps of any
number of capture threads, of the injector and of the stop. -/
theorem each_sent_once (threads : ℕ) (moves : List (Move Operation Event))
    (hmeets : Meets (step op env) (Allowed (fun _ _ _ => True) LeavesEmpty) ⟨start threads,
      []⟩ moves) :
    Conserved (exec (step op env) (start threads) moves).state := by
  have hrun (x : Bypass) := exec_holding op_balanced env_balanced
    (start_balanced (x := x) threads) moves hmeets
  generalize (exec (step op env) (start threads) moves).state = s at hrun
  have hexact : s.shared.queuedBytes =
      held Place.bytes s.places + bytesOf s.shared.queue + s.shared.injector.bytes :=
    (hrun ⟨[], []⟩).bytes.trans (congrArg (· + _ + _) (held_fst (weight ⟨[], []⟩) s.places))
  constructor
  · exact hexact
  · exact (hrun ⟨[], []⟩).limit
  · intro item hmem
    have hle := @le_held _ Place.bytes _ _ hmem
    simp only [Place.bytes] at hle
    omega
  · intro item drains hinjector
    simp only [hinjector, Injector.bytes] at hexact
    omega
  · intro hgone hreturned
    refine List.perm_iff_count.2 fun x => ?_
    have hnone : held (weight x) s.places = 0 :=
      held_eq_zero fun p hp => (congrArg (weight x) (hgone p hp)).trans rfl
    have hcount := (hrun x).count
    rw [hnone, (hrun x).empty (by rw [hreturned]; rfl), hreturned] at hcount
    simpa [Injector.count] using hcount.symm

/-- A packet is queued after the injector has read the stop and before it drops the receiver. -/
theorem packet_lost_at_stop :
    ¬ Conserved (exec (step op env) (start 1)
      [.outside .stop, .outside .timeout, .outside .inject, .thread 0 (.reinject ⟨[1], []⟩),
        .thread 0 .next, .thread 0 .next, .thread 0 .exit, .outside .inject]).state := by
  intro h
  have hperm := h.once (by decide) rfl
  cases hperm.length_eq

/-- The same steps with the packet sent before the wait times out. -/
theorem each_sent_once_stopped :
    Conserved (exec (step op env) (start 1)
      [.outside .stop, .thread 0 (.reinject ⟨[1], []⟩), .thread 0 .next, .thread 0 .next,
        .outside .inject, .outside .inject, .outside .inject, .thread 0 .exit, .outside .inject,
        .outside .inject, .outside .inject]).state := by
  apply each_sent_once
  simp [Meets, Allowed, LeavesEmpty, advance, step, start, op,
    env, bypassQueueBytes, bypassQueueDepth]

end GamePath.Engine.BypassQueue
