import GamePath.Engine.Basic

/-!
# The socket underneath an OpenVPN session (`openvpn/link.rs`)

Over TCP every packet is preceded by its length. What the socket has not accepted yet waits in a
queue, of which the packet at the head may be partly on the wire; packets that are no longer worth
sending are shed from the queue between the writes. The subtractions from the running total are
checked: a call that would take it below zero has no result.

The model is the writing half of `Link::Tcp`. The stream is known by its answers to the writes and
by what it has accepted, and every reading of the clock is an argument.
-/

namespace GamePath.Engine.OpenVpn

open Lib

def maxOutboundBytes : Nat := 256 * 1024

def maxOutboundAge : Nat := millis 50

/-- Whether a packet may be dropped when the link is backed up (`Urgency`). -/
inductive Urgency where
  | realtime
  | reliable
  deriving DecidableEq

/-- One length-prefixed packet waiting for the socket to accept it (`Outbound`). -/
structure Outbound where
  bytes : Bytes
  queued : Instant
  urgency : Urgency
  deriving DecidableEq

/-- What the stream has taken: its bytes, and the packets that left the queue because all of them
was written. -/
structure Accepted where
  bytes : Bytes
  frames : List Outbound
  deriving DecidableEq

/-- The writing half of `Link::Tcp`. -/
structure Link where
  accepted : Accepted
  outbound : List Outbound
  written : Nat
  queuedBytes : Nat
  dropped : Nat × Nat

/-- An answer of the non-blocking stream to one write; `ok` says how many bytes it has room for. -/
inductive Answer where
  | ok (count : Nat)
  | wouldBlock
  | timedOut
  | interrupted
  | failed (error : String)

/-- A subtraction on `usize`, which has no result below zero. -/
def subUsize (a b : Nat) : Option Nat := if b ≤ a then some (a - b) else none

/-- A packet preceded by its length, as it is put on the queue. -/
def frame (packet : Bytes) (queued : Instant) (urgency : Urgency) : Outbound :=
  ⟨BigEndian.toBytes 2 packet.length ++ packet, queued, urgency⟩

/-! ## Shedding -/

/-- The variables of the loop of `shed`. -/
structure Shed where
  outbound : List Outbound
  queuedBytes : Nat
  dropped : Nat × Nat

/-- The loop of `shed`, from its index on. -/
def shedFrom (now : Instant) : List Outbound → Nat → Nat × Nat → Option Shed
  | [], queuedBytes, dropped => some ⟨[], queuedBytes, dropped⟩
  | frame :: rest, queuedBytes, dropped =>
    let stale := decide (now - frame.queued > maxOutboundAge)
    if frame.urgency = .realtime ∧ (stale ∨ queuedBytes > maxOutboundBytes) then
      (subUsize queuedBytes frame.bytes.length).bind fun queuedBytes =>
        -- `dropped[usize::from(!stale)] += 1`
        shedFrom now rest queuedBytes
          (if stale then (dropped.1 + 1, dropped.2) else (dropped.1, dropped.2 + 1))
    else
      (shedFrom now rest queuedBytes dropped).map fun s =>
        { s with outbound := frame :: s.outbound }

namespace Link

variable (link : Link)

/-- `usize::from(written > 0)`: the head is spared when part of it is on the wire. -/
def firstSheddable : Nat := if link.written > 0 then 1 else 0

/-- `shed`, with the packets it dropped added to the counts. -/
def shed (now : Instant) : Option Link :=
  (shedFrom now (link.outbound.drop link.firstSheddable) link.queuedBytes (0, 0)).map fun s =>
    { link with
      outbound := link.outbound.take link.firstSheddable ++ s.outbound
      queuedBytes := s.queuedBytes
      dropped := (link.dropped.1 + s.dropped.1, link.dropped.2 + s.dropped.2) }

/-! ## The queue -/

/-- `Link::connect` over TCP. -/
def connect : Link := ⟨⟨[], []⟩, [], 0, 0, (0, 0)⟩

def takeDrops : (Nat × Nat) × Link := (link.dropped, { link with dropped := (0, 0) })

/-- A packet is put at the back of the queue. -/
def pushBack (frame : Outbound) : Link :=
  { link with
    outbound := link.outbound ++ [frame]
    queuedBytes := link.queuedBytes + frame.bytes.length }

/-- The queue is shed when it is over its budget. -/
def shedOverBudget (now : Instant) : Option Link :=
  if link.queuedBytes > maxOutboundBytes then link.shed now else some link

/-- `Link::enqueue`, which reads the clock for the packet and again to shed. -/
def enqueue (packet : Bytes) (urgency : Urgency) (queued now : Instant) :
    Option (Link × Except String Unit) :=
  if packet.length < 2 ^ 16 then
    ((link.pushBack (frame packet queued urgency)).shedOverBudget now).map fun link =>
      if link.queuedBytes > maxOutboundBytes then
        (link, .error "the OpenVPN link stopped accepting control traffic")
      else (link, .ok ())
  else some (link, .error "an OpenVPN packet was too large for a TCP link")

/-! ## Writing -/

/-- What is left to write of the packet at the head: `&front.bytes[*written..]`. -/
def offered (front : Outbound) : Bytes := front.bytes.drop link.written

/-- The stream has accepted `count` bytes of the packet at the head. -/
def wrote (front : Outbound) (rest : List Outbound) (count : Nat) : Option Link :=
  (subUsize link.queuedBytes count).map fun queuedBytes =>
    let bytes := link.accepted.bytes ++ (link.offered front).take count
    if link.written + count = front.bytes.length then
      { link with
        accepted := ⟨bytes, link.accepted.frames ++ [front]⟩
        outbound := rest
        written := 0
        queuedBytes := queuedBytes }
    else
      { link with
        accepted := ⟨bytes, link.accepted.frames⟩
        written := link.written + count
        queuedBytes := queuedBytes }

/-- `write_queued`, over the stream's answers. A stream whose answers have ended has yet to answer,
and the link is as it would leave it by answering that it would block. -/
def writeQueued : List Answer → Link → Option (Link × Except String Unit)
  | [], link => some (link, .ok ())
  | answer :: answers, link =>
    match link.outbound with
    | [] => some (link, .ok ())
    | front :: rest =>
      -- A write accepts no more than it is offered.
      match answer with
      | .ok count =>
        if min count (link.offered front).length = 0 then some (link, .ok ())
        else
          (link.wrote front rest (min count (link.offered front).length)).bind
            (writeQueued answers)
      | .wouldBlock => some (link, .ok ())
      | .timedOut => some (link, .ok ())
      | .interrupted => writeQueued answers link
      | .failed error =>
        some (link, .error ("could not send an OpenVPN packet: " ++ error))

/-- What the socket and the clock answer during one flush. -/
structure Flush where
  now : Instant
  prepared : Except String Unit
  answers : List Answer
  restored : Except String Unit

/-- The part of `flush_outbound` after shedding. -/
def writeOut (env : Flush) : Option (Link × Except String Unit) :=
  match link.outbound, env.prepared with
  | [], _ => some (link, .ok ())
  | _ :: _, .error error =>
    some (link, .error ("could not prepare the OpenVPN link for writing: " ++ error))
  | _ :: _, .ok () =>
    (writeQueued env.answers link).map fun written =>
      match written.2, env.restored with
      | .error message, _ => (written.1, .error message)
      | .ok (), .ok () => (written.1, .ok ())
      | .ok (), .error error =>
        (written.1, .error ("could not restore the OpenVPN link after writing: " ++ error))

def flushOutbound (env : Flush) : Option (Link × Except String Unit) :=
  match link.outbound with
  | [] => some (link, .ok ())
  | _ :: _ => (link.shed env.now).bind fun link => link.writeOut env

def send (packet : Bytes) (urgency : Urgency) (queued now : Instant) (env : Flush) :
    Option (Link × Except String Unit) :=
  (link.enqueue packet urgency queued now).bind fun enqueued =>
    match enqueued.2 with
    | .ok () => enqueued.1.flushOutbound env
    | .error message => some (enqueued.1, .error message)

/-! ## Runs -/

/-- A call on the link, with what the clock and the socket answer during it. -/
inductive Call where
  | enqueue (packet : Bytes) (urgency : Urgency) (queued now : Instant)
  | flushOutbound (env : Flush)
  | send (packet : Bytes) (urgency : Urgency) (queued now : Instant) (env : Flush)
  | takeDrops

/-- The link after one call. -/
def step : Call → Option Link
  | .enqueue packet urgency queued now => (link.enqueue packet urgency queued now).map Prod.fst
  | .flushOutbound env => (link.flushOutbound env).map Prod.fst
  | .send packet urgency queued now env => (link.send packet urgency queued now env).map Prod.fst
  | .takeDrops => some link.takeDrops.2

/-- The link after a run of calls. -/
def run : Link → List Call → Option Link
  | link, [] => some link
  | link, call :: calls => (link.step call).bind fun link => link.run calls

/-- The packet a call puts on the queue, if it is short enough for its length to fit the prefix. -/
def Call.framed : Call → List Outbound
  | .enqueue packet urgency queued _ =>
    if packet.length < 2 ^ 16 then [frame packet queued urgency] else []
  | .send packet urgency queued _ _ =>
    if packet.length < 2 ^ 16 then [frame packet queued urgency] else []
  | .flushOutbound _ => []
  | .takeDrops => []

end Link

end GamePath.Engine.OpenVpn
