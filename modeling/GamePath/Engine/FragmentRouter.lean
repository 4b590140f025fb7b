import GamePath.Lib.KeyedMap
import GamePath.Lib.Run
import GamePath.Engine.Basic

/-!
# The fragment router

`engine/src/fragment_router.rs`: a capture-wide verdict for outbound IPv4 fragments. A first
fragment reserves its datagram with `begin`, is classified outside the lock and settles the
datagram with `finish`; `later` holds the other fragments until then and routes them afterwards.

All five operations are functions of the router's state, called under one lock, so every
interleaving of capture workers is a list of calls. `min_by_key` over the hash map chooses among
equally old entries by iteration order; the calls that may evict carry that choice as `pick`. The
byte total is a machine integer: `underflow` records whether a subtraction from it ever went below
zero, which the source would panic or wrap on.
-/

namespace GamePath.Engine.FragmentRouter

universe u

def pendingTtl : Nat := millis 100

def verdictTtl : Nat := secs 5

def maxDatagrams : Nat := 64

def maxPieces : Nat := 64

def maxPendingBytes : Nat := 1024 * 1024

/-- Where a fragment goes. -/
inductive Route where
  /-- Into the tunnel: the resolver a redirected lookup was sent to, and the node. -/
  | tunnel (resolver : Option Octets) (node : UInt8)
  | bypass
  | drop
  deriving DecidableEq

/-- The datagram a fragment belongs to. -/
structure Key where
  source : Octets
  destination : Octets
  protocol : UInt8
  identification : UInt16
  deriving DecidableEq

def Key.of (packet : Ipv4Packet) : Key :=
  ⟨packet.source, packet.destination, packet.protocol, packet.identification⟩

/-- What `begin` hands out and `finish` takes back. -/
structure Ticket where
  key : Key
  generation : UInt64

/-- One datagram: an entry with generation 0 was opened by a later fragment. -/
structure Datagram (A : Type u) where
  started : Instant
  generation : UInt64
  route : Option Route
  waiting : List (Ipv4Packet × A)

/-- The answer of `later`. -/
inductive Action where
  | route (r : Route)
  | held
  deriving DecidableEq

end FragmentRouter

open Lib FragmentRouter

universe u

/-- The router's state. `underflow` is not a field of the source. -/
structure FragmentRouter (A : Type u) where
  datagrams : KeyedMap Key (Datagram A)
  generation : UInt64
  pendingBytes : Nat
  discarded : Nat
  underflow : Bool

namespace FragmentRouter

variable {A : Type u}

def default : FragmentRouter A := ⟨KeyedMap.empty, 0, 0, 0, false⟩

/-- The bytes of a list of waiting pieces. -/
def bytesOf (waiting : List (Ipv4Packet × A)) : Nat :=
  (waiting.map fun piece => piece.1.length).sum

variable (r : FragmentRouter A)

/-- Subtracts the bytes of waiting pieces from the byte total. -/
def release (waiting : List (Ipv4Packet × A)) : FragmentRouter A :=
  { r with
    pendingBytes := r.pendingBytes - bytesOf waiting
    underflow := r.underflow || decide (r.pendingBytes < bytesOf waiting) }

/-- Gives waiting pieces up: their bytes are no longer pending and each counts as discarded. -/
def discard (waiting : List (Ipv4Packet × A)) : FragmentRouter A :=
  { r.release waiting with discarded := r.discarded + waiting.length }

/-- Whether an entry has outlived its time: a verdict lasts longer than a wait. -/
def expired (now : Instant) (d : Datagram A) : Bool :=
  let ttl := if d.route.isSome then verdictTtl else pendingTtl
  !decide (now - d.started < ttl)

def expire (now : Instant) : FragmentRouter A :=
  let dead := r.datagrams.entries.filter fun e => expired now e.2
  { dead.foldl (fun r e => r.discard e.2.waiting) r with
    datagrams := r.datagrams.retain fun _ d => !expired now d }

/-- `make_room`: evicts the oldest entry when a new key would exceed the limit. -/
def makeRoom (key : Key) (pick : Nat) : FragmentRouter A :=
  if (r.datagrams.get? key).isNone && decide (maxDatagrams ≤ r.datagrams.size) then
    match r.datagrams.minBy (fun d => d.started) pick with
    | some (oldest, old) =>
      { r.discard old.waiting with datagrams := r.datagrams.erase oldest }
    | none => r
  else r

/-- What every call that touches an entry does first: expiry, then room for its key. -/
def prepare (key : Key) (now : Instant) (pick : Nat) : FragmentRouter A :=
  (r.expire now).makeRoom key pick

/-- Stores an entry. -/
def store (key : Key) (d : Datagram A) : FragmentRouter A :=
  { r with datagrams := r.datagrams.insert key d }

/-- The part of `begin` after its housekeeping: the pieces that waited for a first fragment stay,
those of a datagram that had one are discarded. -/
def reserve (key : Key) (now : Instant) : FragmentRouter A × Ticket :=
  -- The generation wraps, and 0 is kept for the entries of later fragments.
  let generation := max (r.generation + 1) 1
  let r := { r with generation := generation }
  match r.datagrams.get? key with
  | some old =>
    if old.generation = 0 then
      (r.store key ⟨now, generation, none, old.waiting⟩, ⟨key, generation⟩)
    else ((r.discard old.waiting).store key ⟨now, generation, none, []⟩, ⟨key, generation⟩)
  | none => (r.store key ⟨now, generation, none, []⟩, ⟨key, generation⟩)

/-- `begin`: reserves a datagram before its first piece is classified. -/
def begin (first : Ipv4Packet) (now : Instant) (pick : Nat) :
    FragmentRouter A × Ticket :=
  let key := Key.of first
  (r.prepare key now pick).reserve key now

/-- Whether a further piece of `d` exceeds the limit on pieces or on bytes. -/
def overflows (d : Datagram A) (packet : Ipv4Packet) : Bool :=
  decide (maxPieces ≤ d.waiting.length) ||
    decide (maxPendingBytes < r.pendingBytes + packet.length)

/-- The entry `later` works on: the stored one, or a new one with generation 0. -/
def entry (key : Key) (now : Instant) : Datagram A :=
  (r.datagrams.get? key).getD ⟨now, 0, none, []⟩

/-- The part of `later` after its housekeeping. -/
def hold (key : Key) (d : Datagram A) (packet : Ipv4Packet) (address : A) :
    FragmentRouter A × Action :=
  match d.route with
  | some route => (r.store key d, .route route)
  | none =>
    -- The pieces seen so far go and the datagram is abandoned, whoever opened the entry.
    if r.overflows d packet then
      ((r.discard d.waiting).store key { d with waiting := [], route := some .drop },
        .route .drop)
    else
      ({ r with pendingBytes := r.pendingBytes + packet.length }.store key
          { d with waiting := d.waiting ++ [(packet, address)] },
        .held)

/-- `later`: routes a later fragment by its datagram's verdict, or holds it. -/
def later (packet : Ipv4Packet) (address : A) (now : Instant)
    (pick : Nat) : FragmentRouter A × Action :=
  let key := Key.of packet
  let r := r.prepare key now pick
  r.hold key (r.entry key now) packet address

/-- The route `finish` settles on: an abandoned datagram stays dropped. -/
def verdict (d : Datagram A) (route : Route) : Route :=
  if d.route = some .drop then .drop else route

/-- `finish`: settles the datagram a ticket was handed out for and releases its waiting pieces. -/
def finish (ticket : Ticket) (route : Route) (now : Instant) :
    FragmentRouter A × List (Ipv4Packet × A) :=
  match r.datagrams.get? ticket.key with
  | none => (r, [])
  | some d =>
    -- The entry of a ticket can have been evicted and its key taken by another datagram.
    if d.generation ≠ ticket.generation then (r, [])
    else
      -- Overflow has already abandoned this datagram; do not release another partial set.
      let route := verdict d route
      let settled : Datagram A := { d with route := some route, started := now, waiting := [] }
      if route = .drop then ((r.discard d.waiting).store ticket.key settled, [])
      else ((r.release d.waiting).store ticket.key settled, d.waiting)

def takeDiscarded : FragmentRouter A × Nat :=
  ({ r with discarded := 0 }, r.discarded)

/-! ## What each operation can do

One inversion lemma for each operation, guards included: every later result about the router goes
through these and never opens a definition. -/

theorem reserve_cases (key : Key) (now : Instant) :
    (r.reserve key now).2 = ⟨key, max (r.generation + 1) 1⟩ ∧
      ((r.datagrams.get? key = none ∧
          (r.reserve key now).1 = { r with generation := max (r.generation + 1) 1 }.store key
            ⟨now, max (r.generation + 1) 1, none, []⟩) ∨
        (∃ old, r.datagrams.get? key = some old ∧ old.generation = 0 ∧
          (r.reserve key now).1 = { r with generation := max (r.generation + 1) 1 }.store key
            ⟨now, max (r.generation + 1) 1, none, old.waiting⟩) ∨
        (∃ old, r.datagrams.get? key = some old ∧ old.generation ≠ 0 ∧
          (r.reserve key now).1 =
            ({ r with generation := max (r.generation + 1) 1 }.discard old.waiting).store key
              ⟨now, max (r.generation + 1) 1, none, []⟩)) := by
  unfold reserve
  dsimp only
  cases hget : r.datagrams.get? key with
  | none => exact ⟨rfl, .inl ⟨rfl, rfl⟩⟩
  | some old =>
    by_cases hgen : old.generation = 0
    · exact ⟨by simp [hgen], .inr (.inl ⟨old, rfl, hgen, by simp [hgen]⟩)⟩
    · exact ⟨by simp [hgen], .inr (.inr ⟨old, rfl, hgen, by simp [hgen]⟩)⟩

theorem hold_cases (key : Key) (d : Datagram A) (packet : Ipv4Packet) (address : A) :
    (∃ route, d.route = some route ∧
      r.hold key d packet address = (r.store key d, .route route)) ∨
    (d.route = none ∧ r.overflows d packet = true ∧
      r.hold key d packet address =
        ((r.discard d.waiting).store key { d with waiting := [], route := some .drop },
          .route .drop)) ∨
    (d.route = none ∧ r.overflows d packet = false ∧
      r.hold key d packet address =
        ({ r with pendingBytes := r.pendingBytes + packet.length }.store key
            { d with waiting := d.waiting ++ [(packet, address)] }, .held)) := by
  unfold hold
  cases hroute : d.route with
  | some route => exact .inl ⟨route, rfl, rfl⟩
  | none =>
    cases hover : r.overflows d packet with
    | true => exact .inr (.inl ⟨rfl, rfl, rfl⟩)
    | false => exact .inr (.inr ⟨rfl, rfl, by simp⟩)

theorem finish_cases (ticket : Ticket) (route : Route) (now : Instant) :
    ((∀ d, r.datagrams.get? ticket.key = some d → d.generation ≠ ticket.generation) ∧
      r.finish ticket route now = (r, [])) ∨
    ∃ d, r.datagrams.get? ticket.key = some d ∧ d.generation = ticket.generation ∧
      ((verdict d route = .drop ∧
          r.finish ticket route now =
            ((r.discard d.waiting).store ticket.key
              { d with route := some .drop, started := now, waiting := [] }, [])) ∨
        (d.route ≠ some .drop ∧ route ≠ .drop ∧
          r.finish ticket route now =
            ((r.release d.waiting).store ticket.key
              { d with route := some route, started := now, waiting := [] }, d.waiting))) := by
  unfold finish
  cases hget : r.datagrams.get? ticket.key with
  | none => exact .inl ⟨nofun, rfl⟩
  | some d =>
    by_cases hgen : d.generation = ticket.generation
    · refine .inr ⟨d, rfl, hgen, ?_⟩
      simp only [hgen, ne_eq, not_true_eq_false, ↓reduceIte]
      by_cases hverdict : verdict d route = .drop
      · exact .inl ⟨hverdict, by simp [hverdict]⟩
      · have hroute : d.route ≠ some .drop := fun h => hverdict (by simp [verdict, h])
        have heq : verdict d route = route := by simp [verdict, hroute]
        rw [heq] at hverdict
        exact .inr ⟨hroute, hverdict, by simp [heq, hverdict]⟩
    · refine .inl ⟨fun d' hd' => ?_, by simp [hgen]⟩
      rw [Option.some.injEq] at hd'
      exact hd' ▸ hgen

/-! ## Runs -/

/-- One call on the router, by any worker. -/
inductive Call (A : Type u) where
  | expire (now : Instant)
  | begin (first : Ipv4Packet) (now : Instant) (pick : Nat)
  | later (packet : Ipv4Packet) (address : A) (now : Instant) (pick : Nat)
  | finish (ticket : Ticket) (route : Route) (now : Instant)
  | takeDiscarded

/-- The answer to a call. -/
inductive Answer (A : Type u) where
  | none
  | ticket (t : Ticket)
  | action (a : Action)
  | released (pieces : List (Ipv4Packet × A))
  | discarded (count : Nat)

/-- One call. -/
def step : Call A → FragmentRouter A × Answer A
  | .expire now => (r.expire now, .none)
  | .begin first now pick => ((r.begin first now pick).1, .ticket (r.begin first now pick).2)
  | .later packet address now pick =>
    ((r.later packet address now pick).1, .action (r.later packet address now pick).2)
  | .finish ticket route now =>
    ((r.finish ticket route now).1, .released (r.finish ticket route now).2)
  | .takeDiscarded => (r.takeDiscarded.1, .discarded r.takeDiscarded.2)

/-- A run of calls on a new router. -/
def routerRun (calls : List (Call A)) : Run.Config (FragmentRouter A) (Call A) (Answer A) :=
  Run.exec step default calls

end FragmentRouter

end GamePath.Engine
