import GamePath.Lib.Run
import GamePath.Engine.Basic

/-!
# The bypass routes of all-traffic capture (`capture.rs`)

All-traffic capture sends everything into the tunnel but for host routes through the physical
gateway: one for each address of the session's own tunnel, and one for each address of the other
session's, which come and go with it. Both are rows of the kernel's one table. A row that is there
already is taken for added, so an address of both sessions has one row and two records of it, and
`set_foreign_bypass` removes the row with the first of them.

The kernel's table is a set of rows. Which additions fail is an input.
-/

namespace GamePath.Engine.Capture

open Lib.Run List

/-- `InstalledRoute`, which is also what identifies a row of the kernel's table. -/
structure InstalledRoute where
  destination : Octets
  prefixLength : UInt8
  gateway : Octets
  interfaceIndex : UInt32
  deriving DecidableEq

/-- `WindowsPacketCapture`, as far as its routes go. -/
structure WindowsPacketCapture where
  routes : List InstalledRoute
  defaultGateway : Octets
  defaultInterface : UInt32
  foreignRoutes : List InstalledRoute
  deriving DecidableEq

/-- `add_ipv4_route`: the row is in the table, or it could not be added. -/
def addIpv4Route (route : InstalledRoute) (added : Bool) (kernel : Finset InstalledRoute) :
    Option InstalledRoute × Finset InstalledRoute :=
  if added then (some route, insert route kernel) else (none, kernel)

def removeIpv4Route (kernel : Finset InstalledRoute) (route : InstalledRoute) :
    Finset InstalledRoute :=
  kernel.erase route

namespace WindowsPacketCapture

/-- The host route of an address, through the physical gateway. -/
def hostRoute (c : WindowsPacketCapture) (address : Octets) : InstalledRoute :=
  ⟨address, 32, c.defaultGateway, c.defaultInterface⟩

/-- The second loop of `set_foreign_bypass`, with whether it came to its end. `added` says of every
addition whether it succeeds. -/
def addForeign (c : WindowsPacketCapture) : List Octets → (Nat → Bool) → Finset InstalledRoute →
    Bool × WindowsPacketCapture × Finset InstalledRoute
  | [], _, kernel => (true, c, kernel)
  | address :: addresses, added, kernel =>
    if c.foreignRoutes.any fun route => route.destination = address then
      c.addForeign addresses added kernel
    else
      match addIpv4Route (c.hostRoute address) (added 0) kernel with
      | (some route, kernel) =>
        { c with foreignRoutes := c.foreignRoutes ++ [route] }.addForeign addresses
          (fun n => added (n + 1)) kernel
      | (none, kernel) => (false, c, kernel)

def setForeignBypass (c : WindowsPacketCapture) (addresses : List Octets) (added : Nat → Bool)
    (kernel : Finset InstalledRoute) : Bool × WindowsPacketCapture × Finset InstalledRoute :=
  let keep := c.foreignRoutes.filter fun route => route.destination ∈ addresses
  let stale := c.foreignRoutes.filter fun route => route.destination ∉ addresses
  { c with foreignRoutes := keep }.addForeign addresses added (stale.foldl removeIpv4Route kernel)

/-- `WindowsPacketCapture::drop`, on the routes. -/
def drop (c : WindowsPacketCapture) (kernel : Finset InstalledRoute) : Finset InstalledRoute :=
  (c.foreignRoutes ++ c.routes).reverse.foldl removeIpv4Route kernel

/-- Routes of the capture's own that are added one after the other, with whether all were. -/
def addOwn (c : WindowsPacketCapture) : List InstalledRoute → (Nat → Bool) → Finset InstalledRoute →
    Bool × WindowsPacketCapture × Finset InstalledRoute
  | [], _, kernel => (true, c, kernel)
  | route :: routes, added, kernel =>
    match addIpv4Route route (added 0) kernel with
    | (some route, kernel) =>
      { c with routes := c.routes ++ [route] }.addOwn routes (fun n => added (n + 1)) kernel
    | (none, kernel) => (false, c, kernel)

end WindowsPacketCapture

/-- What a capture is started with: the machine's default route, the adapter, and the addresses of
the session's own tunnel and of the other session's. -/
structure StartRoutes where
  defaultGateway : Octets
  defaultInterface : UInt32
  tunnelGateway : Octets
  adapterIndex : UInt32
  bypassIps : List Octets
  foreignBypass : List Octets

namespace StartRoutes

/-- The capture before any route. -/
def bare (r : StartRoutes) : WindowsPacketCapture := ⟨[], r.defaultGateway, r.defaultInterface, []⟩

/-- The capture's own routes: its tunnel's addresses, and the two halves of everything through the
tunnel. -/
def own (r : StartRoutes) : List InstalledRoute :=
  (r.bypassIps.map r.bare.hostRoute) ++
    [⟨(0, 0, 0, 0), 1, r.tunnelGateway, r.adapterIndex⟩, ⟨(128, 0, 0, 0), 1, r.tunnelGateway,
      r.adapterIndex⟩]

/-- The routes of `PacketCaptureManager::start`. A capture that could not be finished is dropped;
`finishes` says whether what follows the routes succeeds. -/
def start (r : StartRoutes) (foreignAdded ownAdded : Nat → Bool) (finishes : Bool)
    (kernel : Finset InstalledRoute) :
    Option WindowsPacketCapture × Finset InstalledRoute :=
  let foreign := r.bare.setForeignBypass r.foreignBypass foreignAdded kernel
  if foreign.1 then
    let owned := foreign.2.1.addOwn r.own ownAdded foreign.2.2
    if owned.1 && finishes then (some owned.2.1, owned.2.2) else (none, owned.2.1.drop owned.2.2)
  else (none, foreign.2.1.drop foreign.2.2)

end StartRoutes

/-! ## What the operations keep -/

theorem mem_foldl_remove (routes : List InstalledRoute) :
    ∀ (kernel : Finset InstalledRoute) (row : InstalledRoute),
    row ∈ routes.foldl removeIpv4Route kernel ↔ row ∈ kernel ∧ row ∉ routes := by
  induction routes with
  | nil => simp
  | cons route routes ih =>
    intro kernel row
    rw [foldl_cons, ih, removeIpv4Route, Finset.mem_erase, mem_cons]
    tauto

namespace WindowsPacketCapture

variable {c : WindowsPacketCapture} {kernel : Finset InstalledRoute} {addresses : List Octets}

/-- The rows of the table are exactly the routes on record. -/
def Tracked (c : WindowsPacketCapture) (kernel : Finset InstalledRoute) : Prop :=
  ∀ row, row ∈ kernel ↔ row ∈ c.routes ∨ row ∈ c.foreignRoutes

/-- The capture differs in its routes to the other session only. -/
structure SameOwn (c c' : WindowsPacketCapture) : Prop where
  routes : c'.routes = c.routes
  gateway : c'.defaultGateway = c.defaultGateway
  interface : c'.defaultInterface = c.defaultInterface

theorem SameOwn.refl (c : WindowsPacketCapture) : SameOwn c c := ⟨rfl, rfl, rfl⟩

theorem addForeign_tracked (addresses : List Octets) :
    ∀ {c : WindowsPacketCapture} (added : Nat → Bool)
    {kernel : Finset InstalledRoute}, c.Tracked kernel →
    SameOwn c (c.addForeign addresses added kernel).2.1 ∧
      (c.addForeign addresses added kernel).2.1.Tracked
        (c.addForeign addresses added kernel).2.2 := by
  induction addresses with
  | nil =>
    intro c added kernel h
    exact ⟨SameOwn.refl c, h⟩
  | cons address addresses ih =>
    intro c added kernel h
    rw [addForeign]
    split
    · exact ih added h
    cases hadded : added 0 with
    | false =>
      exact ⟨SameOwn.refl c, h⟩
    | true =>
      have hnext : ({ c with foreignRoutes := c.foreignRoutes ++ [c.hostRoute address] } :
          WindowsPacketCapture).Tracked (insert (c.hostRoute address) kernel) := by
        intro row
        rw [Finset.mem_insert, h row, mem_append, mem_singleton]
        tauto
      obtain ⟨hsame, htracked⟩ := ih (fun n => added (n + 1)) hnext
      exact ⟨⟨hsame.routes, hsame.gateway, hsame.interface⟩, htracked⟩

/-- The call leaves the routes of the session's own alone: none that it takes away is one of them.
-/
def Spares (c : WindowsPacketCapture) (addresses : List Octets) : Prop :=
  ∀ route ∈ c.foreignRoutes, route.destination ∉ addresses → route ∉ c.routes

instance (c : WindowsPacketCapture) (addresses : List Octets) : Decidable (c.Spares addresses) :=
  inferInstanceAs (Decidable (∀ route ∈ c.foreignRoutes, _))

theorem setForeignBypass_tracked (added : Nat → Bool) (h : c.Tracked kernel)
    (hspares : c.Spares addresses) :
    SameOwn c (c.setForeignBypass addresses added kernel).2.1 ∧
      (c.setForeignBypass addresses added kernel).2.1.Tracked
        (c.setForeignBypass addresses added kernel).2.2 := by
  have hkept : ({ c with foreignRoutes := c.foreignRoutes.filter fun route => route.destination ∈
      addresses } :
      WindowsPacketCapture).Tracked
        ((c.foreignRoutes.filter fun route =>
          route.destination ∉ addresses).foldl removeIpv4Route kernel) := by
    intro row
    rw [mem_foldl_remove, h row, mem_filter, mem_filter]
    simp only [decide_eq_true_eq]
    tauto
  obtain ⟨hsame, htracked⟩ := addForeign_tracked addresses added hkept
  exact ⟨⟨hsame.routes, hsame.gateway, hsame.interface⟩, htracked⟩

theorem drop_tracked (h : c.Tracked kernel) : c.drop kernel = ∅ := by
  apply Finset.eq_empty_of_forall_notMem
  intro row hrow
  rw [drop, mem_foldl_remove, h row, mem_reverse, mem_append] at hrow
  tauto

theorem addOwn_tracked (routes : List InstalledRoute) :
    ∀ {c : WindowsPacketCapture} (added : Nat → Bool)
    {kernel : Finset InstalledRoute}, c.Tracked kernel →
    (c.addOwn routes added kernel).2.1.Tracked (c.addOwn routes added kernel).2.2 ∧
      ((c.addOwn routes added kernel).1 = true →
        (c.addOwn routes added kernel).2.1.routes = c.routes ++ routes) := by
  induction routes with
  | nil =>
    intro c added kernel h
    exact ⟨h, fun _ => (append_nil _).symm⟩
  | cons route routes ih =>
    intro c added kernel h
    rw [addOwn]
    cases hadded : added 0 with
    | false =>
      exact ⟨h, nofun⟩
    | true =>
      rw [addIpv4Route, if_pos rfl]
      have hnext : ({ c with routes := c.routes ++ [route] } : WindowsPacketCapture).Tracked
          (insert route kernel) := by
        intro row
        rw [Finset.mem_insert, h row, mem_append, mem_singleton]
        tauto
      obtain ⟨htracked, hall⟩ := ih (fun n => added (n + 1)) hnext
      refine ⟨htracked, fun hfinished => ?_⟩
      rw [hall hfinished, append_assoc]
      rfl

end WindowsPacketCapture

/-! ## The life of a capture -/

namespace StartRoutes

open WindowsPacketCapture

variable {r : StartRoutes} {foreignAdded ownAdded : Nat → Bool} {finishes : Bool}
  {c : WindowsPacketCapture} {kernel : Finset InstalledRoute}

theorem bare_tracked (r : StartRoutes) : r.bare.Tracked ∅ := by
  intro row
  simp [bare]

theorem start_tracked (h : r.start foreignAdded ownAdded finishes ∅ = (some c, kernel)) :
    c.routes = r.own ∧ c.Tracked kernel := by
  have hspares : r.bare.Spares r.foreignBypass := nofun
  obtain ⟨hsame, hforeign⟩ := setForeignBypass_tracked foreignAdded (bare_tracked r) hspares
  obtain ⟨howned, hroutes⟩ := addOwn_tracked r.own ownAdded hforeign
  rw [start] at h
  dsimp only at h
  split at h
  · split at h
    next hfinished =>
      obtain ⟨hc, rfl⟩ := Prod.mk.inj h
      cases hc
      refine ⟨?_, howned⟩
      rw [hroutes (Bool.and_eq_true_iff.1 hfinished).1, hsame.routes]
      rfl
    · exact absurd (Prod.mk.inj h).1 (by simp)
  · exact absurd (Prod.mk.inj h).1 (by simp)

end StartRoutes

/-- A call of `set_foreign_bypass`: the other session's addresses, and which additions succeed. -/
structure BypassCall where
  addresses : List Octets
  added : Nat → Bool

/-- One call on a capture and the kernel's table, and whether it succeeded. -/
def bypassStep (s : WindowsPacketCapture × Finset InstalledRoute) (call : BypassCall) :
    (WindowsPacketCapture × Finset InstalledRoute) × Bool :=
  let result := s.1.setForeignBypass call.addresses call.added s.2
  (result.2, result.1)

/-- The call takes no route of the session's own away. -/
def BypassCall.SparesOwn (s : Config (WindowsPacketCapture × Finset InstalledRoute) BypassCall Bool)
    (call : BypassCall) : Prop := s.state.1.Spares call.addresses

instance (s : Config (WindowsPacketCapture × Finset InstalledRoute) BypassCall Bool)
    (call : BypassCall) :
    Decidable (call.SparesOwn s) := inferInstanceAs (Decidable (s.state.1.Spares call.addresses))

/-- As long as no call takes an address of the session's own out of the other session's, every own
address keeps its host route, the table has exactly the routes on record, and nothing of them is
left once the capture is dropped. -/
theorem own_routes_stay (r : StartRoutes) (foreignAdded ownAdded : Nat → Bool) (finishes : Bool)
    (c : WindowsPacketCapture) (kernel : Finset InstalledRoute) (calls : List BypassCall)
    (hstart : r.start foreignAdded ownAdded finishes ∅ = (some c, kernel))
    (hmeets : Meets bypassStep (fun s call => call.SparesOwn s) ⟨(c, kernel), []⟩ calls) :
    (∀ address ∈ r.bypassIps, r.bare.hostRoute address ∈
      (exec bypassStep (c, kernel) calls).state.2) ∧
      (exec bypassStep (c, kernel) calls).state.1.Tracked
        (exec bypassStep (c, kernel) calls).state.2 ∧
      (exec bypassStep (c, kernel) calls).state.1.drop (exec bypassStep (c, kernel) calls).state.2 =
        ∅ := by
  obtain ⟨hroutes, htracked⟩ := execFrom_invariant_of_meets
    (I := fun s => s.state.1.routes = r.own ∧ s.state.1.Tracked s.state.2)
    (fun s call hspares hs => by
      obtain ⟨hsame, hnext⟩ := WindowsPacketCapture.setForeignBypass_tracked call.added hs.2 hspares
      exact ⟨hsame.routes.trans hs.1, hnext⟩)
    calls _ hmeets (StartRoutes.start_tracked hstart)
  refine ⟨fun address haddress => ?_, htracked, WindowsPacketCapture.drop_tracked htracked⟩
  refine (htracked _).2 (.inl ?_)
  rw [hroutes]
  exact List.mem_append_left _ (List.mem_map_of_mem haddress)

/-! ## Two sessions -/

/-- A session with a tunnel to one server, while the other session has one to another. -/
def oneServer : StartRoutes where
  defaultGateway := (192, 168, 1, 1)
  defaultInterface := 5
  tunnelGateway := (10, 203, 0, 1)
  adapterIndex := 9
  bypassIps := [(203, 0, 113, 7)]
  foreignBypass := [(198, 51, 100, 7)]

/-- The capture once it was started. -/
def oneServerCapture : WindowsPacketCapture :=
  ⟨oneServer.own, (192, 168, 1, 1), 5, [oneServer.bare.hostRoute (198, 51, 100, 7)]⟩

/-- The rows it has in the table. -/
def oneServerRows : Finset InstalledRoute :=
  ⟨oneServer.own ++ [oneServer.bare.hostRoute (198, 51, 100, 7)], by decide⟩

theorem oneServer_start : oneServer.start (fun _ => true) (fun _ => true) true ∅ =
    (some oneServerCapture, oneServerRows) := by decide +kernel

/-- The other session's tunnel moves to two servers, the second of which cannot be routed, and then
it ends. -/
def otherMoves : List BypassCall :=
  [⟨[(198, 51, 100, 8), (198, 51, 100, 9)], fun n => n = 0⟩, ⟨[], fun _ => true⟩]

theorem own_routes_stay_moves :
    Meets bypassStep (fun s call => call.SparesOwn s) ⟨(oneServerCapture, oneServerRows),
      []⟩ otherMoves ∧
      ∀ address ∈ oneServer.bypassIps, oneServer.bare.hostRoute address ∈
        (exec bypassStep (oneServerCapture, oneServerRows) otherMoves).state.2 := by
  have hmeets : Meets bypassStep (fun s call => call.SparesOwn s)
      ⟨(oneServerCapture, oneServerRows), []⟩ otherMoves := by
    decide +kernel
  exact ⟨hmeets, (own_routes_stay oneServer _ _ _ _ _ _ oneServer_start hmeets).1⟩

/-- The other session has a tunnel to the same server and ends: the capture's own route to the
server is gone, and its tunnel is captured into itself. -/
theorem own_route_is_lost :
    oneServer.bare.hostRoute (203, 0, 113, 7) ∉ (exec bypassStep (oneServerCapture, oneServerRows)
      [⟨[(203, 0, 113, 7)], fun _ => true⟩, ⟨[], fun _ => true⟩]).state.2 ∧
      (203, 0, 113, 7) ∈ oneServer.bypassIps := by
  decide +kernel

end GamePath.Engine.Capture
