import GamePath.Engine.DirectRoutes

/-!
# Learning, replacing and installing at the same time

Any number of threads learn from replies while the list is replaced and an installer works in the
background (`direct_routes.rs`). A step of the system is one thread going from one lock to the next:
what it does under the lock, and what it does with no lock up to the next one. `Event` says which
thread steps; an event that is not possible has no result.

A list is replaced by one thread at a time (`&mut self`), and a new installer starts only when the
one before it has ended (`join`). Routes are always taken by the kernel here.
-/

namespace GamePath.Engine.Direct

open DirectList (Prefix)

/-- A call of `learn`: the list it has read, and the addresses it has yet to go through. -/
structure Learning where
  list : DirectList
  packet : Bytes
  addresses : List Octets

/-- Where `replace` is. -/
inductive Replacing where
  | idle
  /-- The learned addresses are pruned for the new list. -/
  | pruned (list : DirectList)
  /-- The new list is published; `refresh` is called. -/
  | published
  /-- The generation is bumped, and the installer before is waited for. -/
  | joining (generation : Nat)
  deriving DecidableEq

/-- Where `install` is. -/
inductive Installing where
  /-- There is no installer, or it has ended. -/
  | ended
  | started (generation : Nat)
  /-- The list is read. -/
  | listed (generation : Nat) (wanted : Finset Prefix)
  /-- These prefixes are stale. -/
  | removing (generation : Nat) (wanted stale : Finset Prefix)
  /-- The route of a stale prefix is removed, and the prefix is still among the installed. -/
  | erasing (generation : Nat) (wanted stale : Finset Prefix) (p : Prefix)
  /-- These prefixes are yet to be looked at. -/
  | adding (generation : Nat) (wanted : Finset Prefix)
  /-- The generation was checked for this prefix. -/
  | checked (generation : Nat) (wanted : Finset Prefix) (p : Prefix)
  /-- This prefix was not among the installed. -/
  | missing (generation : Nat) (wanted : Finset Prefix) (p : Prefix)
  deriving DecidableEq

/-- The router and the threads at work on it. -/
structure System where
  router : DirectRouter
  learning : List Learning
  replacing : Replacing
  installing : Installing

/-- One step of one thread. -/
inductive Event where
  /-- `learn` is called, and reads the list. -/
  | learn (packet : Bytes)
  /-- A call of `learn` goes through its next address. -/
  | learnNext (thread : Nat)
  /-- `replace` is called, and prunes the learned addresses. -/
  | replace (spec : DirectSpec)
  | publish
  | bump
  /-- The installer before has ended, and a new one starts. -/
  | spawn
  | readList
  | findStale
  /-- A stale prefix's route is removed. -/
  | removeRoute (p : Prefix)
  | uninstall
  /-- The stale prefixes are done. -/
  | removed
  /-- The generation is checked for a wanted prefix. -/
  | check (p : Prefix)
  | look
  | add
  /-- The wanted prefixes are done. -/
  | added

namespace System

/-- `DirectRoutes::start`: the router is made and `refresh` is called. -/
def start (spec : DirectSpec) (protectedAddresses : List Octets) : System :=
  ⟨DirectRouter.create spec protectedAddresses, [], .published, .ended⟩

/-- A call of `learn` goes through its next address. -/
def learnNext (s : System) (thread : Nat) : Option System :=
  match s.learning[thread]? with
  | none => none
  | some call =>
    match call.addresses with
    | [] => none
    | address :: rest =>
      some
        { s with
          router := DirectRouter.learnAddress call.list call.packet (fun _ => true) s.router
            address
          learning := s.learning.set thread { call with addresses := rest } }

/-- A step of `install`. -/
def installStep (s : System) : Installing → Event → Option System
  | .started generation, .readList =>
    some { s with installing := .listed generation s.router.wanted }
  | .listed generation wanted, .findStale =>
    some { s with installing := .removing generation wanted (s.router.installed \ wanted) }
  | .removing generation wanted stale, .removeRoute p =>
    if p ∈ stale then
      some
        { s with
          router := s.router.removeRoute p
          installing := .erasing generation wanted (stale.erase p) p }
    else none
  | .erasing generation wanted stale p, .uninstall =>
    some
      { s with router := s.router.uninstall p, installing := .removing generation wanted stale }
  | .removing generation wanted stale, .removed =>
    if stale = ∅ then some { s with installing := .adding generation wanted } else none
  | .adding generation wanted, .check p =>
    if p ∈ wanted then
      if s.router.generation = generation then
        some { s with installing := .checked generation (wanted.erase p) p }
      else some { s with installing := .ended }
    else none
  | .checked generation wanted p, .look =>
    if p ∈ s.router.installed then some { s with installing := .adding generation wanted }
    else some { s with installing := .missing generation wanted p }
  | .missing generation wanted p, .add =>
    some
      { s with
        router := DirectRouter.installPrefix (fun _ => true) s.router p
        installing := .adding generation wanted }
  | .adding _ wanted, .added =>
    if wanted = ∅ then some { s with installing := .ended } else none
  | _, _ => none

/-- A step of `replace`. -/
def replaceStep (s : System) : Replacing → Event → Option System
  | .idle, .replace spec =>
    let list := DirectList.compileFor spec s.router.protectedAddresses
    some { s with router := s.router.prune list, replacing := .pruned list }
  | .pruned list, .publish =>
    some { s with router := s.router.publish list, replacing := .published }
  | .published, .bump =>
    some
      { s with
        router := s.router.bump
        replacing := .joining (s.router.generation + 1) }
  | .joining generation, .spawn =>
    match s.installing with
    | .ended => some { s with replacing := .idle, installing := .started generation }
    | _ => none
  | _, _ => none

/-- A step of the system. -/
def step (s : System) : Event → Option System
  | .learn packet =>
    some
      { s with
        learning := s.learning ++
          [⟨s.router.list, packet, DirectRouter.answers s.router.list packet⟩] }
  | .learnNext thread => s.learnNext thread
  | .replace spec => s.replaceStep s.replacing (.replace spec)
  | .publish => s.replaceStep s.replacing .publish
  | .bump => s.replaceStep s.replacing .bump
  | .spawn => s.replaceStep s.replacing .spawn
  | event => s.installStep s.installing event

/-- All the calls and the installer have ended. -/
def Finished (s : System) : Prop :=
  (∀ call ∈ s.learning, call.addresses = []) ∧ s.replacing = .idle ∧ s.installing = .ended

instance (s : System) : Decidable s.Finished := inferInstanceAs (Decidable (_ ∧ _ ∧ _))

/-- The kernel has a route for each installed prefix and each learned address and no other; every
learned address has a name the list matches, and none is in the list's ranges. -/
structure Consistent (s : System) : Prop where
  routes : ∀ p, p ∈ s.router.routes ↔
    p ∈ s.router.installed ∨ ∃ e ∈ s.router.learned.entries, p = (e.1, 32)
  named : ∀ e ∈ s.router.learned.entries, s.router.list.matchesName e.2 = true
  outside : ∀ e ∈ s.router.learned.entries, s.router.list.contains e.1 = false

end System

end GamePath.Engine.Direct
