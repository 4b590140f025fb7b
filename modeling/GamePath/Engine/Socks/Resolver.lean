import GamePath.Engine.Dns
import GamePath.Engine.Socks.World

/-!
# The resolver of the LAN proxy (`resolver.rs`)

A name is asked for through the egress, of every server at once, and asked again until one answers
or the time is up. Lookups of one name share a query. A response is attributed to a pending query by
its identification.
-/

namespace GamePath.Engine.Socks

open Lib
open Direct (Text)

def retryInterval : Nat := millis 700

def queryTimeout : Nat := secs 4

def minTtl : Nat := secs 30

def maxTtl : Nat := secs 600

def negativeTtl : Nat := secs 10

def cacheLimit : Nat := 4096

structure Query (τ : Type) where
  id : UInt16
  message : Bytes
  started : Instant
  lastSent : Instant
  waiters : List τ
  deriving DecidableEq

/-- `Resolver`. A cached name has its addresses, or none when it has no address. -/
structure Resolver (τ : Type) where
  flow : Option FlowId
  servers : List Octets
  pending : KeyedMap Text (Query τ)
  cache : KeyedMap Text (Option (List Octets) × Instant)
  rotation : Nat

inductive Lookup where
  | ready (address : Octets)
  | pending
  | failed (reason : Text)

/-- `pick`: the next rotation and the address it points at. The counter wraps as a `usize` does. -/
def pick (rotation : Nat) (addresses : List Octets) : Nat × Octets :=
  let rotation := (rotation + 1) % 2 ^ 64
  (rotation, addresses.getD (rotation % addresses.length) (0, 0, 0, 0))

namespace Resolver

variable {τ ω : Type}

def new (servers : List Octets) : Resolver τ where
  flow := none
  servers := servers
  pending := KeyedMap.empty
  cache := KeyedMap.empty
  rotation := 0

variable (W : World ω)

/-- A message to every server, on port 53. -/
def sendAll (servers : List Octets) (flow : FlowId) (message : Bytes) (w : ω) : ω :=
  servers.foldl (fun w server => (W.udpSend w flow ⟨server, 53⟩ message).2) w

/-! ## Looking a name up -/

/-- A query for a name that is neither cached nor pending, on an open flow. -/
def start (r : Resolver τ) (w : ω) (flow : FlowId) (name : Text) (waiter : τ) :
    Lookup × Resolver τ × ω :=
  let (id, w) := W.random w
  match Dns.query id name with
  | none => (.failed (name ++ " is not a valid hostname".toList), r, w)
  | some message =>
    let (now, w) := W.now w
    let query : Query τ := ⟨id, message, now, now, [waiter]⟩
    (.pending, { r with pending := r.pending.insert name query },
      sendAll W r.servers flow message w)

/-- A lookup the cache does not answer: joining a pending query, or starting one. -/
def ask (r : Resolver τ) (w : ω) (name : Text) (waiter : τ) :
    Lookup × Resolver τ × ω :=
  match r.pending.get? name with
  | some query =>
    let query := { query with waiters := query.waiters ++ [waiter] }
    (.pending, { r with pending := r.pending.insert name query }, w)
  | none =>
    match r.flow with
    | some flow => start W r w flow name waiter
    | none =>
      match W.udpOpen w with
      | (.error error, w) => (.failed error, r, w)
      | (.ok flow, w) => start W { r with flow := some flow } w flow name waiter

def lookup (r : Resolver τ) (w : ω) (name : Text) (waiter : τ) :
    Lookup × Resolver τ × ω :=
  match r.cache.get? name with
  | none => ask W r w name waiter
  | some (addresses, expires) =>
    let (now, w) := W.now w
    if now < expires then
      match addresses with
      | some addresses =>
        let (rotation, address) := pick r.rotation addresses
        (.ready address, { r with rotation := rotation }, w)
      | none => (.failed (name ++ " did not resolve".toList), r, w)
    else ask W r w name waiter

/-! ## Reading the answers -/

/-- What the waiters of a name are told, and the rotation after that. -/
def tell (name : Text) (addresses : Option (List Octets)) :
    List τ → Nat → List (τ × Except Text Octets) × Nat
  | [], rotation => ([], rotation)
  | waiter :: waiters, rotation =>
    match addresses with
    | some list =>
      let (rotation, address) := pick rotation list
      let (told, rotation) := tell name addresses waiters rotation
      ((waiter, .ok address) :: told, rotation)
    | none =>
      let (told, rotation) := tell name addresses waiters rotation
      ((waiter, .error (name ++ " has no IPv4 address".toList)) :: told, rotation)

/-- Makes room in a full cache: what has expired goes, and everything if that is not enough. -/
def makeRoom (cache : KeyedMap Text (Option (List Octets) × Instant)) (w : ω) :
    KeyedMap Text (Option (List Octets) × Instant) × ω :=
  if cache.size ≥ cacheLimit then
    let (now, w) := W.now w
    let kept := cache.retain fun _ entry => now < entry.2
    (if kept.size ≥ cacheLimit then KeyedMap.empty else kept, w)
  else (cache, w)

/-- The addresses of an answer and how long they are kept. -/
def cached : Dns.Answer → Option (List Octets) × Nat
  | .addresses addresses ttl => (some addresses, min (max (secs ttl.toNat) minTtl) maxTtl)
  | .noAddress _ => (none, negativeTtl)

/-- A pending query is answered. -/
def settle (r : Resolver τ) (w : ω) (name : Text) (query : Query τ)
    (answer : Dns.Answer) : List (τ × Except Text Octets) × Resolver τ × ω :=
  let (addresses, ttl) := cached answer
  let (told, rotation) := tell name addresses query.waiters r.rotation
  let (cache, w) := makeRoom W r.cache w
  let (now, w) := W.now w
  (told,
    { r with
      pending := r.pending.erase name
      rotation := rotation
      cache := cache.insert name (addresses, now + ttl) },
    w)

/-- One turn of the loop of `poll` over what was received. -/
def receive (r : Resolver τ) (w : ω) (datagram : Datagram) :
    List (τ × Except Text Octets) × Resolver τ × ω :=
  let (source, response) := datagram
  if source.port ≠ 53 ∨ source.ip ∉ r.servers then ([], r, w)
  else
    let (order, w) := W.hashOrder w
    let found := r.pending.findMap
      (fun name query => (Dns.readAnswer response query.id).map fun answer => (name, query, answer))
      order
    match found with
    | none => ([], r, w)
    | some (name, query, answer) => settle W r w name query answer

/-- The loop of `poll` over what was received. -/
def receiveAll (W : World ω) : Resolver τ → ω → List Datagram →
    List (τ × Except Text Octets) × Resolver τ × ω
  | r, w, [] => ([], r, w)
  | r, w, datagram :: datagrams =>
    let (told, r, w) := receive W r w datagram
    let (more, r, w) := receiveAll W r w datagrams
    (told ++ more, r, w)

/-- Whether a query has waited too long. -/
def expired (now : Instant) (query : Query τ) : Bool := queryTimeout ≤ now - query.started

/-- Whether a query is due to be sent again. -/
def due (now : Instant) (query : Query τ) : Bool := retryInterval ≤ now - query.lastSent

/-- What the waiters of a query that was never answered are told. -/
def giveUp (name : Text) (query : Query τ) : List (τ × Except Text Octets) :=
  query.waiters.map fun waiter => (waiter, .error ("no resolver answered for ".toList ++ name))

/-- The queries that are due, sent again. -/
def resend (r : Resolver τ) (flow : FlowId) (now : Instant) (w : ω) : ω :=
  r.pending.entries.foldl
    (fun w entry => if due now entry.2 then sendAll W r.servers flow entry.2.message w else w) w

/-- A query that is sent again when it is due. -/
def mark (now : Instant) (query : Query τ) : Query τ :=
  if due now query then { query with lastSent := now } else query

/-- What `poll` does after it received: queries that are late are given up, others sent again. -/
def retry (r : Resolver τ) (flow : FlowId) (w : ω) :
    List (τ × Except Text Octets) × Resolver τ × ω :=
  let (now, w) := W.now w
  let late := r.pending.entries.filter fun entry => expired now entry.2
  let r := { r with pending := r.pending.retain fun _ query => !expired now query }
  (late.flatMap fun entry => giveUp entry.1 entry.2,
    { r with pending := r.pending.mapValues fun _ query => mark now query },
    resend W r flow now w)

def poll (r : Resolver τ) (w : ω) : List (τ × Except Text Octets) × Resolver τ × ω :=
  match r.flow with
  | none => ([], r, w)
  | some flow =>
    let (datagrams, w) := W.udpRecv w flow
    let (answered, r, w) := receiveAll W r w datagrams
    let (late, r, w) := retry W r flow w
    (answered ++ late, r, w)

def release (r : Resolver τ) (w : ω) : Resolver τ × ω :=
  match r.flow with
  | none => (r, w)
  | some flow => ({ r with flow := none }, W.udpRelease w flow)

end Resolver

end GamePath.Engine.Socks
