import GamePath.Lib.Run
import GamePath.Engine.Tun2socks.Upstream

/-!
# Name lookups over streams to resolvers (`tun2socks/stack.rs`)

A proxy carries names over TCP: a lookup is written to a stream to its resolver, framed by its
length and under an id of its own there, and its answer is cut out of what the stream brings back. A
stream that ends has its lookups sent once more on another one, and a stream with a late lookup is
closed and its lookups are failed.

What the outside does is part of the events: the clock, the random ids, whether a dial succeeds,
what the streams take and bring, and the order in which the hash maps are met. Looking for a free id
never ends when a stream has none, and a call that does not return is modelled as `none`.

Three things are history, kept to speak about: which lookup a query is (`number`), what a stream
carried and brought (`carried`, `messages`), and the streams that were closed.
-/

namespace GamePath.Engine.Tun2socks

open Lib
open Direct (Text)
open Socks (Token)

def dnsTimeout : Nat := secs 5

def dnsIdle : Nat := secs 20

def dnsStreamsPerResolver : Nat := 8

def dnsPort : UInt16 := 53

/-! ## Messages -/

/-- The id of a message. -/
def messageId : Bytes → UInt16
  | hi :: lo :: _ => u16OfBe hi lo
  | _ => 0

/-- The message under another id. -/
def withId (id : UInt16) (message : Bytes) : Bytes := beU16 id ++ message.drop 2

/-- A message behind its length, as a stream carries it. -/
def framed (message : Bytes) : Bytes := beU16 (UInt16.ofNat message.length) ++ message

/-- `servfail`. It is only asked about messages with a whole header. -/
def servfail : Bytes → Option Bytes
  | b0 :: b1 :: b2 :: _ :: b4 :: b5 :: _ :: _ :: _ :: _ :: _ :: _ :: rest =>
    if u16OfBe b4 b5 ≠ 1 then none
    -- Response, same opcode and RD; recursion available; RCODE 2; no records.
    else some (b0 :: b1 :: (0x80 ||| (b2 &&& 0x79)) :: (0x80 ||| 2) :: b4 :: b5 :: 0 :: 0 :: 0 ::
      0 :: 0 :: 0 :: rest)
  | _ => none

/-! ## Streams -/

structure DnsQuery where
  localPort : UInt16
  id : UInt16
  sent : Instant
  message : Bytes
  retried : Bool
  /-- Which lookup it is, counted from the first. -/
  number : Nat

structure DnsUpstream where
  resolver : Octets
  upstream : Upstream
  ready : Bool
  idleSince : Instant
  queued : Bytes
  received : Bytes
  inFlight : KeyedMap UInt16 DnsQuery
  /-- Every query that was sent on the stream, with its id there. -/
  carried : List (UInt16 × DnsQuery)
  /-- Every message that was cut out of the stream. -/
  messages : List Bytes

/-- A lookup that is over, and the packet that was emitted for it. -/
structure Settled where
  query : DnsQuery
  resolver : Octets
  /-- The stream that brought the answer, the id of the query there and the message; nothing where
  the lookup failed. -/
  answer : Option (Nat × UInt16 × Bytes)
  packet : Option Bytes

/-- The drain of `dns_ready`: what the stream brings until it ends or would block. Every round but
the last takes an answer of the outside, so that one more than there are answers is rounds enough.
-/
def Upstream.drain : Nat → Upstream → Outside → Bytes × Bool × Upstream × Outside
  | 0, u, o => ([], false, u, o)
  | rounds + 1, u, o =>
    let (chunk, done, u, o) := u.read (64 * 1024) o
    if done || !u.readPending then (chunk, done, u, o)
    else
      let (more, done, u, o) := drain rounds u o
      (chunk ++ more, done, u, o)

/-- A free id: the random one, or the next after it that no lookup on the stream has. All ids were
tried when the turns are over. -/
def freeId (inFlight : KeyedMap UInt16 DnsQuery) : Nat → UInt16 → Option UInt16
  | 0, _ => none
  | turns + 1, id => if (inFlight.get? id).isSome then freeId inFlight turns (id + 1) else some id

namespace DnsUpstream

/-- A query is put on the stream, under this id. -/
def send (d : DnsUpstream) (id : UInt16) (query : DnsQuery) (o : Outside) : DnsUpstream :=
  let d := { d with inFlight := d.inFlight.insert id query, carried := d.carried ++ [(id, query)] }
  let frame := framed (withId id query.message)
  if d.ready then
    { d with upstream := ({ d.upstream with outgoing := d.upstream.outgoing ++ frame }.flush o).1 }
  else { d with queued := d.queued ++ frame }

/-- One message that was cut out of the stream. -/
def answer (d : DnsUpstream) (client : Octets) (stream : Nat) (message : Bytes) :
    DnsUpstream × List Settled :=
  let d := { d with messages := d.messages ++ [message] }
  if message.length < 12 then (d, [])
  else
    match d.inFlight.get? (messageId message) with
    | none => (d, [])
    | some query =>
      ({ d with inFlight := d.inFlight.erase (messageId message) },
        [{ query
           resolver := d.resolver
           answer := some (stream, messageId message, message)
           packet := some (buildUdp ⟨d.resolver, dnsPort⟩ ⟨client, query.localPort⟩
             (withId query.id message)) }])

/-- The loop that cuts the answers out. Every turn takes bytes, so that the number of bytes is turns
enough. -/
def answerAll (client : Octets) (stream : Nat) : Nat → DnsUpstream → DnsUpstream × List Settled
  | 0, d => (d, [])
  | turns + 1, d =>
    match d.received with
    | hi :: lo :: rest =>
      let length := (u16OfBe hi lo).toNat
      if rest.length < length then (d, [])
      else
        let (d, settled) := { d with received := rest.drop length }.answer client stream
          (rest.take length)
        let (d, more) := answerAll client stream turns d
        (d, settled ++ more)
    | _ => (d, [])

/-- What the stream brought is handed to the handshake, or waits to be cut. The failure of a
handshake is told. -/
def takeIn (d : DnsUpstream) (data : Bytes) (o : Outside) : DnsUpstream × Bool :=
  if d.upstream.handshake.isSome then
    match d.upstream.advance data o with
    | (.ok (some (_, leftover)), upstream, o) =>
      let upstream := ({ upstream with outgoing := upstream.outgoing ++ d.queued }.flush o).1
      ({ d with upstream, ready := true, queued := [], received := d.received ++ leftover }, false)
    | (.ok none, upstream, _) => ({ d with upstream }, false)
    | (.error _, upstream, _) => ({ d with upstream }, true)
  else ({ d with received := d.received ++ data }, false)

/-- `dns_ready` up to the answers: the stream, what it answered, and whether it is gone. `arrivals`
are the answers to the reads, after which reading would block. -/
def hear (d : DnsUpstream) (client : Octets) (stream : Nat) (arrivals : List ReadAnswer)
    (now : Instant) (o : Outside) :
    DnsUpstream × List Settled × Bool :=
  let flushed := d.upstream.flush { o with reads := fun n => arrivals.getD n .wouldBlock }
  let drained := flushed.1.drain (arrivals.length + 1) flushed.2
  let taken := { d with upstream := drained.2.2.1 }.takeIn drained.1 drained.2.2.2
  let answered := answerAll client stream taken.1.received.length taken.1
  let d := answered.1
  let d := if !answered.2.isEmpty && d.inFlight.entries.isEmpty then
    { d with idleSince := now } else d
  (d, answered.2, drained.2.1 || d.upstream.closed || taken.2)

end DnsUpstream

/-! ## The lookups of the stack -/

/-- What an application asked. -/
structure Ask where
  localPort : UInt16
  resolver : Octets
  message : Bytes

/-- The lookups' side of `Stack`. -/
structure Lookups where
  /-- `config.client`. -/
  client : Octets
  /-- The credentials of `config.exit`, a proxy. -/
  credentials : Option (Text × Text)
  dns : KeyedMap Nat DnsUpstream
  nextDnsStream : Nat
  /-- The lookups so far, by their numbers. -/
  asked : List Ask
  /-- The streams that were closed, as they were then. -/
  closed : List (Nat × DnsUpstream)

/-- What the outside does while a query is sent. -/
structure Sending where
  now : Instant
  /-- The order in which the streams are met. -/
  order : List Nat
  token : Token
  /-- Whether a new stream can be dialled, and when it was. -/
  dialled : Bool
  opened : Instant
  random : UInt16
  outside : Outside

/-- What the loop of `dns_stream_for` finds: an idle stream, or how many are open and the least busy
of them with its number of lookups. -/
inductive Scan where
  | idle (stream : Nat)
  | busy (count : Nat) (leastBusy : Option (Nat × Nat))

/-- The loop of `dns_stream_for`. -/
def scanStreams (resolver : Octets) : List (Nat × DnsUpstream) → Nat → Option (Nat × Nat) → Scan
  | [], count, leastBusy => .busy count leastBusy
  | (id, d) :: rest, count, leastBusy =>
    if d.resolver ≠ resolver then scanStreams resolver rest count leastBusy
    else if d.inFlight.entries.isEmpty then .idle id
    else
      let less := leastBusy.all fun found => d.inFlight.size < found.2
      scanStreams resolver rest (count + 1) (if less then some (id, d.inFlight.size) else leastBusy)

namespace Lookups

/-- A stack without lookups. -/
def new (client : Octets) (credentials : Option (Text × Text)) : Lookups :=
  ⟨client, credentials, KeyedMap.empty, 0, [], []⟩

variable (s : Lookups)

def failLookup (resolver : Octets) (query : DnsQuery) : Settled :=
  { query
    resolver
    answer := none
    packet := (servfail query.message).map (buildUdp ⟨resolver, dnsPort⟩ ⟨s.client,
      query.localPort⟩) }

def dialDnsStream (resolver : Octets) (g : Sending) : Option Nat × Lookups :=
  let stream := s.nextDnsStream + 1
  let s := { s with nextDnsStream := stream }
  if g.dialled then
    let upstream := Upstream.dial g.token (.proxy s.credentials) .connect ⟨resolver, dnsPort⟩
    (some stream, { s with dns := s.dns.insert stream ⟨resolver, upstream, false, g.opened, [], [],
      KeyedMap.empty, [], []⟩ })
  else (none, s)

def dnsStreamFor (resolver : Octets) (g : Sending) : Option Nat × Lookups :=
  match scanStreams resolver (s.dns.entriesIn g.order) 0 none with
  | .idle stream => (some stream, s)
  | .busy count leastBusy =>
    if dnsStreamsPerResolver ≤ count then (leastBusy.map Prod.fst, s)
    -- A stream that already carried lookups can be reused, but none is dialled without one.
    else s.dialDnsStream resolver g

/-- Whether the length of a message is one that is sent. -/
def Sendable (message : Bytes) : Prop := 12 ≤ message.length ∧ message.length ≤ 65535

instance (message : Bytes) : Decidable (Sendable message) := instDecidableAnd

def sendLookup (number : Nat) (localPort : UInt16) (resolver : Octets) (query : Bytes)
    (retried : Bool) (g : Sending) : Option (Lookups × List Settled) :=
  if Sendable query then
    let pending : DnsQuery := ⟨localPort, messageId query, g.now, query, retried, number⟩
    match s.dnsStreamFor resolver g with
    | (none, s) => some (s, [s.failLookup resolver pending])
    | (some stream, s) =>
      (s.dns.get? stream).bind fun d =>
        -- Lookups from different applications can share an id; each gets one of its own on the
        -- stream.
        (freeId d.inFlight 65536 g.random).map fun id =>
          ({ s with dns := s.dns.insert stream (d.send id pending g.outside) }, [])
  else some (s, [])

def lookup (localPort : UInt16) (resolver : Octets) (query : Bytes) (g : Sending) :
    Option (Lookups × List Settled) :=
  let asked := if Sendable query then s.asked ++ [⟨localPort, resolver, query⟩] else s.asked
  { s with asked }.sendLookup s.asked.length localPort resolver query false g

/-- The lookups of a stream that is gone: each is sent once more, or failed. `sends` has the outside
of each. -/
def resendAll (resolver : Octets) (sends : Nat → Sending) : Nat → List DnsQuery → Lookups →
    Option (Lookups × List Settled)
  | _, [], s => some (s, [])
  | n, query :: queries, s =>
    (if query.retried then some (s, [s.failLookup resolver query])
      else s.sendLookup query.number query.localPort resolver query.message true
        (sends n)).bind fun result =>
        (resendAll resolver sends (n + 1) queries result.1).map fun rest =>
          (rest.1, result.2 ++ rest.2)

/-- The queries of a map of lookups, in the order given. -/
def queriesIn (inFlight : KeyedMap UInt16 DnsQuery) (order : List UInt16) : List DnsQuery :=
  (inFlight.entriesIn order).map Prod.snd

/-- A stream is removed. -/
def close (stream : Nat) (d : DnsUpstream) : Lookups :=
  { s with dns := s.dns.erase stream, closed := s.closed ++ [(stream, d)] }

def dnsReady (stream : Nat) (arrivals : List ReadAnswer) (now : Instant) (o : Outside)
    (order : List UInt16) (sends : Nat → Sending) : Option (Lookups × List Settled) :=
  match s.dns.get? stream with
  | none => some (s, [])
  | some d =>
    let heard := d.hear s.client stream arrivals now o
    if heard.2.2 then
      (resendAll heard.1.resolver sends 0 (queriesIn heard.1.inFlight order)
        (s.close stream heard.1)).map
        fun rest => (rest.1, heard.2.1 ++ rest.2)
    else some ({ s with dns := s.dns.insert stream heard.1 }, heard.2.1)

/-- The streams `expire` closes: those with a late lookup, and the idle ones but for a spare for
each resolver. -/
def closing (now : Instant) : List (Nat × DnsUpstream) → List Octets → List Nat
  | [], _ => []
  | (id, d) :: rest, spareKept =>
    if d.inFlight.entries.any fun e => dnsTimeout ≤ now - e.2.sent then id ::
      closing now rest spareKept
    else if d.inFlight.entries.isEmpty && decide (dnsIdle ≤ now - d.idleSince) then
      if d.resolver ∈ spareKept then id :: closing now rest spareKept
      else closing now rest (d.resolver :: spareKept)
    else closing now rest spareKept

/-- Closes streams and fails their lookups. -/
def closeAll (queries : Nat → List UInt16) : List Nat → Lookups → Lookups × List Settled
  | [], s => (s, [])
  | stream :: streams, s =>
    match s.dns.get? stream with
    | none => closeAll queries streams s
    | some d =>
      let failed := (queriesIn d.inFlight (queries stream)).map (s.failLookup d.resolver)
      let (s, more) := closeAll queries streams (s.close stream d)
      (s, failed ++ more)

/-- `expire`, on the lookups. -/
def expire (now : Instant) (order : List Nat) (queries : Nat → List UInt16) :
    Lookups × List Settled :=
  closeAll queries (closing now (s.dns.entriesIn order) []) s

end Lookups

/-- An event of the stack's loop, on its lookups, with what the outside does during it. -/
inductive LookupEvent where
  | lookup (localPort : UInt16) (resolver : Octets) (query : Bytes) (g : Sending)
  | ready (stream : Nat) (arrivals : List ReadAnswer) (now : Instant) (outside : Outside)
    (order : List UInt16)
      (sends : Nat → Sending)
  | expire (now : Instant) (order : List Nat) (queries : Nat → List UInt16)

/-- The state after a call and what it settled; a call that does not return changes nothing more. -/
def Lookups.after (s : Lookups) : Option (Lookups × List Settled) → Lookups × Option (List Settled)
  | some (s', settled) => (s', some settled)
  | none => (s, none)

/-- One event. -/
def Lookups.step (s : Lookups) : LookupEvent → Lookups × Option (List Settled)
  | .lookup localPort resolver query g => s.after (s.lookup localPort resolver query g)
  | .ready stream arrivals now outside order sends =>
    s.after (s.dnsReady stream arrivals now outside order sends)
  | .expire now order queries => s.after (some (s.expire now order queries))

end GamePath.Engine.Tun2socks
