import GamePath.Engine.Basic

/-!
# Where the relay sends replies

`relay/src/endpoints.rs`: the addresses a session's authenticated frames came from, and which of
them replies and repairs go to. The message that selects paths is `engine/src/path_policy.rs`.
-/

namespace GamePath.Relay

open Engine

inductive SocketAddr where
  | v4 (ip : Octets) (port : UInt16)
  | v6 (ip : Vector UInt8 16) (port : UInt16) (flowinfo scopeId : UInt32)
  deriving DecidableEq

/-- `PathPolicy`. `parse` refuses paths from 64 on, so the path is an index into the sequences
`Endpoints` keeps. -/
structure PathPolicy where
  path : Fin 64
  selected : Bool
  deriving DecidableEq

/-- `REQUEST`. -/
def pathRequest : Bytes := [0x70, 0x61, 0x74, 0x68]

/-- `ACCEPT`, the answer `accept` returns. -/
def pathAccept : Bytes := [0x70, 0x61, 0x74, 0x61]

def PathPolicy.parse (payload : Bytes) : Option PathPolicy :=
  match payload with
  | [a, b, c, d, path, selected] =>
    if h : [a, b, c, d] = pathRequest ∧ path.toNat < 64 ∧ selected.toNat ≤ 1 then
      some ⟨⟨path.toNat, h.2.1⟩, decide (selected ≠ 0)⟩
    else none
  | _ => none

def capacity : Nat := 8

def ttl : Nat := secs 45

def repairFreshness : Nat := secs 3

structure Endpoint where
  address : SocketAddr
  seen : Instant
  policy : Option PathPolicy
  healthy : Bool

/-- The endpoint's policy selects its path. -/
def Endpoint.selected (e : Endpoint) : Bool := (e.policy.map PathPolicy.selected).getD false

structure Endpoints where
  entries : List Endpoint
  policySequences : Vector (Option UInt64) 64
  selective : Bool

namespace Endpoints

def default : Endpoints := ⟨[], Vector.replicate 64 none, false⟩

def prune (e : Endpoints) (now : Instant) : Endpoints :=
  { e with entries := e.entries.filter fun entry => decide (now - entry.seen ≤ ttl) }

/-- `self.entries.sort_by_key(|entry| entry.seen); self.entries.remove(0)`. -/
def dropOldest (entries : List Endpoint) : List Endpoint :=
  (entries.insertionSort fun a b => a.seen ≤ b.seen).drop 1

/-- Changes the first entry with an address, the one `find` returns. -/
def update (address : SocketAddr) (f : Endpoint → Endpoint) : List Endpoint → List Endpoint
  | [] => []
  | entry :: entries =>
    if entry.address = address then f entry :: entries else entry :: update address f entries

def observe (e : Endpoints) (address : SocketAddr) (now : Instant) : Endpoints :=
  let e := e.prune now
  if e.entries.any fun entry => decide (entry.address = address) then
    { e with entries := update address (fun entry => { entry with seen := now }) e.entries }
  else
    let entries := if capacity ≤ e.entries.length then dropOldest e.entries else e.entries
    { e with entries := entries ++ [⟨address, now, none, true⟩] }

/-- The entry speaks for a path. -/
def isFor (path : Fin 64) (entry : Endpoint) : Bool :=
  (entry.policy.map fun old => decide (old.path = path)).getD false

def apply (e : Endpoints) (address : SocketAddr) (policy : PathPolicy) (healthy : Bool)
    (sequence : UInt64) (now : Instant) : Endpoints :=
  let previous := e.policySequences.get policy.path
  if (previous.map fun previous => decide (sequence ≤ previous)).getD false then e
  else
    let e : Endpoints :=
      { entries := e.entries.filter fun entry =>
          decide (entry.address = address) || !isFor policy.path entry
        policySequences := e.policySequences.set policy.path (some sequence)
        selective := true }
    let e := e.observe address now
    let announce (entry : Endpoint) : Endpoint :=
      { entry with policy := some policy, healthy := healthy }
    { e with entries := update address announce e.entries }

/-- The entry of `max_by_key`: of several with the greatest key, the last. -/
def newest (entries : List Endpoint) : Option Endpoint :=
  entries.foldl
    (fun best entry => match best with
      | some best => if best.seen ≤ entry.seen then some entry else some best
      | none => some entry) none

/-- `targets`, for endpoints that are pruned. -/
def targets (e : Endpoints) : List SocketAddr :=
  let chosen (entry : Endpoint) : Bool := !e.selective || entry.selected
  if e.entries.any chosen then (e.entries.filter chosen).map Endpoint.address
  else
    let fallback := (newest e.entries).map Endpoint.address
    (e.entries.filter fun entry => decide (some entry.address = fallback)).map Endpoint.address

/-- `repair_target`, for endpoints that are pruned. -/
def repairTarget (e : Endpoints) (now : Instant) (turn : UInt64) : Option SocketAddr :=
  if e.selective then
    let fresh (entry : Endpoint) : Bool :=
      entry.healthy && decide (now - entry.seen ≤ repairFreshness) && entry.policy.isSome
    let spare (entry : Endpoint) : Bool := entry.policy.isSome && !entry.selected
    let hasSpare := (e.entries.filter fresh).any spare
    let eligible := e.entries.filter fun entry => fresh entry && (!hasSpare || spare entry)
    if eligible.isEmpty then e.targets.head?
    else (eligible[turn.toNat % eligible.length]?).map Endpoint.address
  else none

end Endpoints

end GamePath.Relay
