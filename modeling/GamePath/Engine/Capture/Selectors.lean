import GamePath.Engine.Capture.ReturnPaths
import GamePath.Engine.SelectorLayers
import GamePath.Lib.Run

/-!
# The selectors of a running capture (`SelectorState` in `split_capture.rs`)

The selectors change while a capture runs: a rule brings destinations, a socket of a chosen
application brings a flow, and a socket that closes or is gone takes it away. Each flow has its
owners, the latest last, and a label, the file name of one of them. The packet loops read a table
that is built anew where an operation sees that it has to be.

Windows is asked for the sockets that exist and for the path of a process; what it answers is an
input. So is the file name of a path.
-/

namespace GamePath.Engine.SplitCapture

open Lib KeyedMap

/-- `SelectorState`. The entries of a map are in the order they are iterated in. -/
structure SelectorState where
  selectors : KeyedMap TrafficSelector (Option String)
  flowOwners : KeyedMap TrafficSelector (List FlowOwner)
  destinationNodes : KeyedMap TrafficSelector UInt8

/-- What the registry of a capture holds of its selectors. -/
structure Selectors where
  state : SelectorState
  table : SelectorTable
  tableVersion : UInt64

def SelectorTable.buildState (targets : TargetNodes) (state : SelectorState) : SelectorTable :=
  buildWithOwners state.selectors state.flowOwners state.destinationNodes targets

namespace Selectors

/-- The registry of a capture that starts. -/
def new : Selectors :=
  ⟨⟨empty, empty, empty⟩, ⟨[], empty, 0⟩, 0⟩

end Selectors

/-! ## Operations -/

section Operations

variable (targets : TargetNodes) (processName : String → String)

def publishSelectors (s : Selectors) (state : SelectorState) : Selectors :=
  ⟨state, SelectorTable.buildState targets state, s.tableVersion + 1⟩

def addSelector (s : Selectors) (selector : TrafficSelector) (node : UInt8)
    (order : List TrafficSelector) : Selectors :=
  let added := (s.state.selectors.get? selector).isNone
  -- A shared CDN address learned for two websites goes with the latest.
  let moved := decide (s.state.destinationNodes.get? selector ≠ some node)
  let state : SelectorState :=
    { s.state with
      selectors := s.state.selectors.set selector none order
      destinationNodes := s.state.destinationNodes.insert selector node }
  if added || moved then publishSelectors targets s state else { s with state := state }

/-- The owners of a flow once a fallback known by its process only gave way to the record of an
endpoint. -/
def keptOwners (owners : List FlowOwner) (processId : UInt32) (endpointId : Option UInt64) :
    List FlowOwner :=
  if endpointId.isSome then
    owners.filter fun held => !(held.endpointId.isNone && decide (held.processId = processId))
  else owners

/-- The record is of this endpoint, process and path. -/
def FlowOwner.same (path : String) (processId : UInt32) (endpointId : Option UInt64)
    (held : FlowOwner) : Bool :=
  decide (held.endpointId = endpointId ∧ held.processId = processId ∧ held.path = path)

/-- The first record that matches is fresh again. -/
def refresh (isSame : FlowOwner → Bool) : List FlowOwner → List FlowOwner
  | [] => []
  | held :: rest =>
    if isSame held then { held with staleObservations := 0 } :: rest
    else held :: refresh isSame rest

def addProcessSelector (s : Selectors) (selector : TrafficSelector) (path : String)
    (processId : UInt32) (endpointId : Option UInt64) (order : List TrafficSelector) : Selectors :=
  let application := processName path
  let owners := keptOwners ((s.state.flowOwners.get? selector).getD []) processId endpointId
  let held := owners.any (FlowOwner.same path processId endpointId)
  let owners :=
    if held then refresh (FlowOwner.same path processId endpointId) owners
    else owners ++ [⟨endpointId, processId, path, 0⟩]
  let labelChanged := decide (s.state.selectors.get? selector ≠ some (some application))
  let state : SelectorState :=
    { s.state with
      selectors := s.state.selectors.set selector (some application) order
      flowOwners := s.state.flowOwners.insert selector owners }
  if !held || labelChanged then publishSelectors targets s state else { s with state := state }

/-- The label of a flow that lost an owner but not its last one. -/
def relabel (before after : List FlowOwner) : Option String :=
  match after.getLast? with
  | none => none
  | some last => if after.length ≠ before.length then some (processName last.path) else none

/-- What `remove_closed_socket` and `reap_stale_flows` do once each selector's owners were gone
through: a flow with fewer owners gets the label of its last one, and a flow without any goes. -/
def sweep (state : SelectorState) (pass : TrafficSelector → List FlowOwner → List FlowOwner)
    (order : List TrafficSelector) : SelectorState :=
  let relabeled := state.flowOwners.entries.filterMap fun e =>
    (relabel processName e.2 (pass e.1 e.2)).map fun application => (e.1, application)
  let emptied := (state.flowOwners.entries.filter fun e => (pass e.1 e.2).isEmpty).map Prod.fst
  { state with
    selectors := emptied.foldl erase
      (relabeled.foldl (fun selectors e => selectors.set e.1 (some e.2) order) state.selectors)
    flowOwners := emptied.foldl erase (state.flowOwners.mapValues pass) }

/-- An owner and the selector it had. -/
abbrev OwnedFlow := UInt32 × TrafficSelector

def staleOwnerMatchesReturnKey (stale : List OwnedFlow) (processId : UInt32)
    (key : ReturnKey) : Bool :=
  stale.contains (processId, .flow key.protocol key.localPort (some key.remotePort)) ||
    stale.contains (processId, .flow key.protocol key.localPort none)

/-- `remove_owned_routes`, of the return paths. Only what no owner of the same process keeps is
removed. -/
def removeOwnedRoutes (state : SelectorState) (removed : List OwnedFlow)
    (paths : KeyedMap ReturnKey ReturnPath) :
    KeyedMap ReturnKey ReturnPath :=
  let gone := removed.filter fun flow =>
    !((state.flowOwners.get? flow.2).any fun owners => owners.any fun owner =>
      decide (owner.processId = flow.1))
  paths.retain fun key path => path.processId.all fun processId =>
    !staleOwnerMatchesReturnKey gone processId key

/-- The owner is of the endpoint that closed. -/
def FlowOwner.ofEndpoint (endpointId : UInt64) (owner : FlowOwner) : Bool :=
  decide (endpointId ≠ 0) && decide (owner.endpointId = some endpointId)

def removeClosedSocket (s : Selectors) (endpointId : UInt64) (paths : KeyedMap ReturnKey ReturnPath)
    (order : List TrafficSelector) : Selectors × KeyedMap ReturnKey ReturnPath :=
  let removed : List OwnedFlow := s.state.flowOwners.entries.flatMap fun e =>
    (e.2.filter (FlowOwner.ofEndpoint endpointId)).map fun owner => (owner.processId, e.1)
  let state := sweep processName s.state (fun _ owners => owners.filter fun owner =>
    !owner.ofEndpoint endpointId) order
  (if removed.isEmpty then { s with state := state } else publishSelectors targets s state,
    removeOwnedRoutes state removed paths)

/-! ### Reaping -/

structure ExistingSocket where
  processId : UInt32
  protocol : UInt8
  localPort : UInt16
  remotePort : UInt16
  deriving DecidableEq

def socketIsActive (selector : TrafficSelector) (processId : UInt32)
    (sockets : List ExistingSocket) : Bool :=
  match selector with
  | .destination _ _ => true
  | .flow protocol localPort remotePort =>
    if protocol = 17 ∨ remotePort.isSome = true then
      sockets.contains ⟨processId, protocol, localPort, remotePort.getD 0⟩
    else
      sockets.any fun socket =>
        decide (socket.processId = processId ∧ socket.protocol = protocol ∧
          socket.localPort = localPort)

/-- The flows that had traffic lately, each under both its selectors. -/
def recentlyRouted (paths : KeyedMap ReturnKey ReturnPath) (observedAt : Nat) : List OwnedFlow :=
  paths.entries.flatMap fun e =>
    match e.2.processId with
    | none => []
    | some processId =>
      if observedAt - e.2.lastSeen ≤ activeConnectionWindow then
        [(processId, .flow e.1.protocol e.1.localPort (some e.1.remotePort)),
          (processId, .flow e.1.protocol e.1.localPort none)]
      else []

def staleFlowConfirmations : UInt8 := 15

/-- What Windows says while stale flows are reaped: the sockets, and the path of a process where it
has one. -/
structure Inventory where
  activeSockets : List ExistingSocket
  processPath : UInt32 → Option String
  observedAt : Nat

/-- An owner is looked at once more. -/
def observe (inventory : Inventory) (recent : List OwnedFlow) (selector : TrafficSelector)
    (owner : FlowOwner) :
    FlowOwner :=
  let socketMissing := !socketIsActive selector owner.processId inventory.activeSockets
  let identityChanged := (inventory.processPath owner.processId).any fun current =>
    !eqIgnoreAsciiCase current.toList owner.path.toList
  let recentTraffic := recent.contains (owner.processId, selector)
  if identityChanged || (socketMissing && !recentTraffic) then
    { owner with
      staleObservations := if owner.staleObservations = 255 then
        255 else owner.staleObservations + 1 }
  else { owner with staleObservations := 0 }

/-- The owner was not found often enough. -/
def FlowOwner.isStale (owner : FlowOwner) : Bool :=
  decide (staleFlowConfirmations ≤ owner.staleObservations)

/-- `reap_stale_flows`. Without the sockets nothing is concluded. -/
def reapStaleFlows (s : Selectors) (inventory : Option Inventory)
    (paths : KeyedMap ReturnKey ReturnPath)
    (order : List TrafficSelector) : Selectors × KeyedMap ReturnKey ReturnPath :=
  match inventory with
  | none => (s, paths)
  | some inventory =>
    let recent := recentlyRouted paths inventory.observedAt
    let stale : List OwnedFlow := s.state.flowOwners.entries.flatMap fun e =>
      ((e.2.map (observe inventory recent e.1)).filter FlowOwner.isStale).map fun owner =>
        (owner.processId, e.1)
    let state := sweep processName s.state
      (fun selector owners => (owners.map (observe inventory recent selector)).filter fun owner =>
        !owner.isStale) order
    (if stale.length ≠ 0 then publishSelectors targets s state else { s with state := state },
      removeOwnedRoutes state stale paths)

end Operations

end GamePath.Engine.SplitCapture
