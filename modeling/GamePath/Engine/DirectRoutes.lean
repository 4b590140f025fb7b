import GamePath.Lib.KeyedMap
import GamePath.Engine.DirectReply

/-!
# Direct routes (`direct_routes.rs`)

All-traffic mode sends the destinations of the direct list around the tunnel by routes in the
kernel: one for each block of the list's ranges, installed in the background, and one for each
address that a DNS reply gave for a listed name, learned as the replies arrive.

Every operation is cut where it takes or leaves a lock, so that the same pieces make up the
sequential functions here and the interleaved ones of `DirectSystem`. The kernel's table is part of
the router's state; a route that could not be added is an argument.
-/

namespace GamePath.Engine.Direct

open Lib
open DirectList (Prefix)

/-! ## Addresses -/

def isPrivate (a : Octets) : Bool :=
  a.1 == 10 || (a.1 == 172 && 16 ≤ a.2.1 && a.2.1 ≤ 31) || (a.1 == 192 && a.2.1 == 168)

def isDocumentation (a : Octets) : Bool :=
  (a.1 == 192 && a.2.1 == 0 && a.2.2.1 == 2) || (a.1 == 198 && a.2.1 == 51 && a.2.2.1 == 100) ||
    (a.1 == 203 && a.2.1 == 0 && a.2.2.1 == 113)

def isFakeIp (a : Octets) : Bool := a.1 == 198 && a.2.1 &&& 0xfe == 18

def isGloballyRoutableIpv4 (a : Octets) : Bool :=
  !isPrivate a &&
    -- Loopback, link-local, broadcast, multicast, unspecified.
    !(a.1 == 127) && !(a.1 == 169 && a.2.1 == 254) && !(a == (255, 255, 255, 255)) &&
    !(224 ≤ a.1 && a.1 ≤ 239) && !(a == (0, 0, 0, 0)) && !isDocumentation a &&
    -- 100.64.0.0/10, carrier-grade NAT.
    !(a.1 == 100 && 64 ≤ a.2.1 && a.2.1 < 128) && !isFakeIp a

/-! ## The router -/

/-- `DirectRouter`, with the kernel's routes of its metric. -/
structure DirectRouter where
  list : DirectList
  protectedAddresses : List Octets
  installed : Finset Prefix
  learned : KeyedMap Octets Text
  generation : Nat
  stopped : Bool
  routes : Finset Prefix

namespace DirectRouter

/-- The router `DirectRoutes::start` makes, before its first refresh. -/
def create (spec : DirectSpec) (protectedAddresses : List Octets) : DirectRouter :=
  ⟨DirectList.compileFor spec protectedAddresses, protectedAddresses, ∅, KeyedMap.empty, 0, false,
    ∅⟩

/-! ### Learning -/

variable (router : DirectRouter)

/-- The checks of `learn` on an address that need no lock. -/
def eligible (list : DirectList) (address : Octets) : Bool :=
  isGloballyRoutableIpv4 address && !list.contains address &&
    !router.protectedAddresses.contains address

/-- The checks of `learn` under the lock of the learned addresses. -/
def hasRoom (address : Octets) : Bool :=
  !router.stopped && (router.learned.get? address).isNone && router.learned.size < maxLearned

/-- The name stored with an address: `reply_question(packet).unwrap_or_default()`. -/
def storedName (packet : Bytes) : Text := (replyQuestion packet).getD []

/-- One turn of the loop of `learn`, under the list it has read. `routed` says whether the kernel
took the route. -/
def learnAddress (list : DirectList) (packet : Bytes) (routed : Octets → Bool)
    (router : DirectRouter) (address : Octets) : DirectRouter :=
  if router.eligible list address && router.hasRoom address && routed address then
    { router with
      routes := insert (address, 32) router.routes
      learned := router.learned.insert address (storedName packet) }
  else router

/-- The addresses `learn` goes through for a packet. -/
def answers (list : DirectList) (packet : Bytes) : List Octets :=
  if isDnsReply packet && list.hasDomains then list.answeredAddresses packet else []

def learn (packet : Bytes) (routed : Octets → Bool) : DirectRouter :=
  (answers router.list packet).foldl (learnAddress router.list packet routed) router

/-! ### Replacing the list -/

/-- Whether `replace` keeps a learned address under a list. -/
def keeps (list : DirectList) (address : Octets) (name : Text) : Bool :=
  list.matchesName name && !list.contains address

/-- The routes of the learned addresses a list drops. -/
def droppedRoutes (list : DirectList) : Finset Prefix :=
  ((router.learned.entries.filter fun e => !keeps list e.1 e.2).map fun e => (e.1, 32)).toFinset

/-- The part of `replace` under the lock of the learned addresses. -/
def prune (list : DirectList) : DirectRouter :=
  { router with
    learned := router.learned.retain (keeps list)
    routes := router.routes \ router.droppedRoutes list }

/-- The new list is published. -/
def publish (list : DirectList) : DirectRouter := { router with list := list }

/-- `generation.fetch_add(1)`. -/
def bump : DirectRouter :=
  { router with generation := router.generation + 1 }

/-! ### Installing -/

/-- The prefixes an install wants. -/
def wanted : Finset Prefix := router.list.prefixes.toFinset

/-- `remove_route_via`. -/
def removeRoute (p : Prefix) : DirectRouter :=
  { router with routes := router.routes.erase p }

/-- A prefix leaves the installed ones. -/
def uninstall (p : Prefix) : DirectRouter :=
  { router with installed := router.installed.erase p }

/-- A prefix is routed and recorded, if the kernel takes the route. -/
def installPrefix (added : Prefix → Bool) (router : DirectRouter) (p : Prefix) : DirectRouter :=
  if added p then
    { router with routes := insert p router.routes, installed := insert p router.installed }
  else router

/-- `DirectRouter::install`, undisturbed. What is done for a prefix depends on that prefix alone, so
the order of the sets carries no meaning. -/
def install (added : Prefix → Bool) : DirectRouter :=
  let wanted := router.list.prefixes
  let stale := router.installed.filter fun p => p ∉ wanted
  let cleared :=
    { router with routes := router.routes \ stale, installed := router.installed \ stale }
  (wanted.filter fun p => p ∉ cleared.installed).foldl (installPrefix added) cleared

/-- `DirectRoutes::start` and its install. -/
def start (spec : DirectSpec) (protectedAddresses : List Octets) (added : Prefix → Bool) :
    DirectRouter :=
  (create spec protectedAddresses).bump.install added

/-- `DirectRoutes::replace` and its install. -/
def replace (spec : DirectSpec) (added : Prefix → Bool) : DirectRouter :=
  let list := DirectList.compileFor spec router.protectedAddresses
  (((router.prune list).publish list).bump).install added

end DirectRouter

end GamePath.Engine.Direct
