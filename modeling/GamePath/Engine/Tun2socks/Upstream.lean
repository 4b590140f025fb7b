import GamePath.Engine.Tun2socks.Handshake

/-!
# Streams to the exit (`Upstream` in `tun2socks/stack.rs`)

One stream to the exit: a proxy handshake, or the adapter connection still opening, then the bytes
it carries. What the system answers to the reads and writes of one call, and the clock, are inputs
(`Outside`); a write says how many bytes the stream has room for. The stream itself is modelled by
its history: every byte written and read so far, and how reading ended.

The registration with the poll and the claim that keeps capture away from a connection's own packets
are not modelled, as nothing here reads them.
-/

namespace GamePath.Engine.Tun2socks

open List

open Direct (Text)
open Socks (SocketAddr Token)

def writeRetry : Nat := millis 5

/-- The length of the stack's read buffer. -/
def bufferLength : Nat := 64 * 1024

/-- `config.exit`, as far as dialling depends on it. -/
inductive Exit where
  | proxy (credentials : Option (Text × Text))
  | adapter

/-- What writing to a stream comes to. -/
inductive WriteAnswer where
  | room (count : Nat)
  | wouldBlock
  | notConnected
  | failed

/-- What reading a stream comes to. No bytes is the end of the stream. -/
inductive ReadAnswer where
  | data (bytes : Bytes)
  | wouldBlock
  | notConnected
  | failed

/-- What the connection of an adapter says about itself. -/
inductive ConnectAnswer where
  | opened
  | waiting
  | failed (reason : String)

/-- The answers to the calls on one stream, in the order they are made. -/
structure Outside where
  clock : Nat → Instant
  writes : Nat → WriteAnswer
  reads : Nat → ReadAnswer
  /-- Whether a registration for writability succeeds. -/
  watches : Nat → Bool
  connect : ConnectAnswer

namespace Outside

/-- The next clock reading. -/
def now (o : Outside) : Instant × Outside :=
    (o.clock 0, { o with clock := fun n => o.clock (n + 1) })

/-- The answer to the next write. -/
def write (o : Outside) : WriteAnswer × Outside :=
    (o.writes 0, { o with writes := fun n => o.writes (n + 1) })

/-- The answer to the next registration. -/
def watch (o : Outside) : Bool × Outside :=
    (o.watches 0, { o with watches := fun n => o.watches (n + 1) })

/-- Nothing is there to be read, and everything can be written. -/
def idle : Outside :=
  ⟨fun _ => 0, fun _ => .room bufferLength, fun _ => .wouldBlock, fun _ => true, .waiting⟩

end Outside

/-- How a read of several calls ended. -/
inductive ReadEnd where
  | full
  | ended
  | blocked
  | failed
  deriving DecidableEq

/-- The history of a `TcpStream`. -/
structure Stream where
  written : Bytes
  read : Bytes
  /-- A read gave no bytes: the far end has finished sending. -/
  ended : Bool
  /-- `shutdown(Shutdown::Write)` was called. -/
  shutWrite : Bool
  deriving DecidableEq

structure Upstream where
  stream : Stream
  token : Token
  handshake : Option Handshake
  connecting : Bool
  outgoing : Bytes
  connected : Bool
  readPending : Bool
  watchingWrites : Bool
  writeRetryAt : Option Instant
  closed : Bool
  deriving DecidableEq

namespace Upstream

/-- The stream `Upstream::dial` makes, once the connection was begun and registered. -/
def dial (token : Token) (exit : Exit) (command : Command) (target : SocketAddr) : Upstream :=
  match exit with
  | .proxy credentials =>
    let (handshake, greeting) := Handshake.start command target credentials
    ⟨⟨[], [], false, false⟩, token, some handshake, false, greeting, false, true, true, none, false⟩
  | .adapter => ⟨⟨[], [], false, false⟩, token, none, true, [], false, true, true, none, false⟩

variable (u : Upstream)

def watchWrites (watch : Bool) (o : Outside) : Upstream × Outside :=
  if watch = u.watchingWrites then (u, o)
  else
    let (registered, o) := o.watch
    (if registered then { u with watchingWrites := watch } else u, o)

/-- The bytes a write took. -/
def wrote (count : Nat) : Upstream :=
  { u with
    connected := true
    outgoing := u.outgoing.drop count
    stream := { u.stream with written := u.stream.written ++ u.outgoing.take count } }

/-- The loop of `flush`, with whether a write would block. Every turn takes bytes from the queue or
closes the stream, so that the length of the queue and one more are turns enough. -/
def flushLoop : Nat → Upstream → Outside → Bool × Upstream × Outside
  | 0, u, o => (false, u, o)
  | turns + 1, u, o =>
    if u.outgoing.isEmpty || u.closed then (false, u, o)
    else
      match o.write with
      | (.room count, o) =>
        if count = 0 then flushLoop turns { u with closed := true } o
        else flushLoop turns (u.wrote count) o
      | (.wouldBlock, o) =>
        let (now, o) := o.now
        let (u, o) := { u with writeRetryAt := some (now + writeRetry) }.watchWrites true o
        (true, u, o)
      | (.notConnected, o) => (false, u, o)
      | (.failed, o) => flushLoop turns { u with closed := true } o

/-- Whether a write that would block is not tried again yet. -/
def waitsToRetry (o : Outside) : Bool × Outside :=
  match u.writeRetryAt with
  | none => (false, o)
  | some due =>
    let (now, o) := o.now
    (decide (now < due), o)

def flush (o : Outside) : Upstream × Outside :=
  match u.waitsToRetry o with
  | (true, o) => (u, o)
  | (false, o) =>
    match flushLoop (u.outgoing.length + 1) { u with writeRetryAt := none } o with
    | (true, u, o) => (u, o)
    | (false, u, o) => if u.outgoing.isEmpty && u.connected then u.watchWrites false o else (u, o)

/-- The loop of `read`: what arrived and how it ended. Every turn that goes on adds a byte, so that
the room is turns enough. -/
def readLoop : Nat → Nat → Bytes → Outside → Bytes × ReadEnd × Outside
  | 0, _, data, o => (data, .full, o)
  | turns + 1, room, data, o =>
    if room ≤ data.length then (data, .full, o)
    else
      let next := { o with reads := fun n => o.reads (n + 1) }
      match o.reads 0 with
      | .data bytes =>
        let read := bytes.take (min bufferLength (room - data.length))
        if read.isEmpty then (data, .ended, next) else readLoop turns room (data ++ read) next
      | .wouldBlock => (data, .blocked, next)
      -- A pending connect yields too, or a drain that goes on while `read_pending` is set never
      -- ends.
      | .notConnected => (data, .blocked, next)
      | .failed => (data, .failed, next)

/-- What a read of so much room comes to. -/
def arrives (o : Outside) (room : Nat) : Bytes × ReadEnd × Outside := readLoop room room [] o

/-- `read`: what was read and whether the far end has finished sending. -/
def read (u : Upstream) (room : Nat) (o : Outside) : Bytes × Bool × Upstream × Outside :=
  let (data, outcome, o) := arrives o room
  let stream := { u.stream with read := u.stream.read ++ data }
  match outcome with
  | .full => (data, false, { u with stream, readPending := true }, o)
  | .ended =>
    (data, true, { u with stream := { stream with ended := true }, readPending := false }, o)
  | .blocked => (data, false, { u with stream, readPending := false }, o)
  | .failed => (data, true, { u with stream, closed := true }, o)

/-- `advance`. What a failed handshake leaves behind is never looked at again, and is left out. -/
def advance (data : Bytes) (o : Outside) :
    Except String (Option ((IpAddr × UInt16) × Bytes)) × Upstream × Outside :=
  match u.handshake with
  | none => (.ok none, u, o)
  | some handshake =>
    match handshake.receive data with
    | .error reason => (.error reason, u, o)
    | .ok (.send bytes, handshake) =>
      let (u, o) := { u with handshake := some handshake, outgoing := u.outgoing ++ bytes }.flush o
      (.ok none, u, o)
    | .ok (.wait, handshake) => (.ok none, { u with handshake := some handshake }, o)
    | .ok (.done bound leftover, _) =>
      (.ok (some (bound, leftover)), { u with handshake := none }, o)

def pollConnect (o : Outside) : Option (Except String Unit) × Upstream × Outside :=
  match o.connect with
  | .failed reason => (some (.error reason), u, o)
  | .waiting => (none, u, o)
  | .opened =>
    let (u, o) := { u with connecting := false, connected := true }.flush o
    (some (.ok ()), u, o)

/-! ## What the calls keep -/

/-- The stream after bytes were written: nothing is read, and no byte of the queue is lost or
changes its place. -/
structure Flushed (u u' : Upstream) : Prop where
  handshake : u'.handshake = u.handshake
  connecting : u'.connecting = u.connecting
  readPending : u'.readPending = u.readPending
  read : u'.stream.read = u.stream.read
  ended : u'.stream.ended = u.stream.ended
  sent : u'.stream.written ++ u'.outgoing = u.stream.written ++ u.outgoing
  suffix : u'.outgoing <:+ u.outgoing

theorem Flushed.refl : Flushed u u := ⟨rfl, rfl, rfl, rfl, rfl, rfl, suffix_rfl⟩

theorem Flushed.trans {a b c : Upstream} (h : Flushed a b) (h' : Flushed b c) : Flushed a c where
  handshake := h'.handshake.trans h.handshake
  connecting := h'.connecting.trans h.connecting
  readPending := h'.readPending.trans h.readPending
  read := h'.read.trans h.read
  ended := h'.ended.trans h.ended
  sent := h'.sent.trans h.sent
  suffix := h'.suffix.trans h.suffix

theorem watchWrites_flushed (watch : Bool) (o : Outside) : Flushed u (u.watchWrites watch o).1 := by
  rw [watchWrites]
  split
  · exact Flushed.refl u
  · dsimp only
    split
    · exact ⟨rfl, rfl, rfl, rfl, rfl, rfl, suffix_rfl⟩
    · exact Flushed.refl u

theorem wrote_flushed (count : Nat) : Flushed u (u.wrote count) where
  handshake := rfl
  connecting := rfl
  readPending := rfl
  read := rfl
  ended := rfl
  sent := by
    show (u.stream.written ++ u.outgoing.take count) ++ u.outgoing.drop count = _
    rw [append_assoc, take_append_drop]
  suffix := drop_suffix _ _

theorem closed_flushed : Flushed u { u with closed := true } := ⟨rfl, rfl, rfl, rfl, rfl, rfl,
    suffix_rfl⟩

theorem flushLoop_flushed (turns : Nat) (u : Upstream) (o : Outside) :
    Flushed u (flushLoop turns u o).2.1 := by
  induction turns generalizing u o with
  | zero => exact Flushed.refl u
  | succ turns ih =>
    rw [flushLoop]
    split
    · exact Flushed.refl u
    split
    · split
      · exact (closed_flushed u).trans (ih _ _)
      · exact (wrote_flushed u _).trans (ih _ _)
    · apply Flushed.trans _ (watchWrites_flushed _ _ _)
      exact ⟨rfl, rfl, rfl, rfl, rfl, rfl, suffix_rfl⟩
    · exact Flushed.refl u
    · exact (closed_flushed u).trans (ih _ _)

theorem flush_flushed (o : Outside) : Flushed u (u.flush o).1 := by
  have hclear : Flushed u { u with writeRetryAt := none } := ⟨rfl, rfl, rfl, rfl, rfl, rfl,
    suffix_rfl⟩
  have hloop : ∀ o, Flushed u (flushLoop (u.outgoing.length + 1) { u with writeRetryAt :=
      none } o).2.1 :=
    fun o => hclear.trans (flushLoop_flushed _ _ o)
  rw [flush]
  split
  · exact Flushed.refl u
  next o' _ =>
    have hflushed := hloop o'
    split
    next hresult =>
      rw [hresult] at hflushed
      exact hflushed
    next hresult =>
      rw [hresult] at hflushed
      split
      · exact hflushed.trans (watchWrites_flushed _ _ _)
      · exact hflushed

end Upstream

end GamePath.Engine.Tun2socks
