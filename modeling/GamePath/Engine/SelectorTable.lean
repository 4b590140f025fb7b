import GamePath.Lib.KeyedMap
import GamePath.Lib.Ranges
import GamePath.Lib.SortedMap
import GamePath.Engine.Addresses

/-!
# The selector table (`SelectorTable` in `split_capture.rs`)

The rules of a split session are selectors: ranges of destinations and flows of applications. The
table is their indexed form: the ranges laid over each other so that a narrower one wins, disjoint
and sorted for a binary search, and the flows by their ports.
-/

namespace GamePath.Engine.SplitCapture

open Lib Engine.Addresses

/-! ## Selectors -/

/-- The fields of a packet that are matched (`Ipv4Fields`). -/
structure Ipv4Fields where
  source : Octets
  destination : Octets
  protocol : UInt8
  sourcePort : UInt16
  destinationPort : UInt16
  deriving DecidableEq

inductive TrafficSelector where
  | destination (first last : UInt32)
  | flow (protocol : UInt8) (localPort : UInt16) (remotePort : Option UInt16)
  deriving DecidableEq

/-- The plain definition of a match (`TrafficSelector::matches`). -/
def TrafficSelector.matches : TrafficSelector → Ipv4Fields → Bool
  | .destination first last, fields =>
    let destination := u32OfOctets fields.destination
    destination ≥ first && destination ≤ last
  | .flow protocol localPort remotePort, fields =>
    fields.protocol == protocol && fields.sourcePort == localPort &&
      remotePort.all fun port => fields.destinationPort == port

/-- A destination selector is not empty. -/
def TrafficSelector.Proper : TrafficSelector → Prop
  | .destination first last => first ≤ last
  | .flow _ _ _ => True

instance : DecidablePred TrafficSelector.Proper
  | .destination first last => inferInstanceAs (Decidable (first ≤ last))
  | .flow _ _ _ => isTrue trivial

/-- Which process owns a flow (`FlowOwner`). -/
structure FlowOwner where
  endpointId : Option UInt64
  processId : UInt32
  path : String
  staleObservations : UInt8
  deriving DecidableEq

/-- Which node carries each target (`TargetNodes`), less the names, which the table does not read.
-/
structure TargetNodes where
  applications : KeyedMap String UInt8
  folders : List (String × UInt8)

/-- `folder_contains`: the path is the folder, or goes on after it with a backslash. -/
def folderContains (folder path : String) : Bool :=
  path = folder ||
    (folder.toList.isPrefixOf path.toList &&
      (path.toList.drop folder.toList.length).head? == some '\\')

def TargetNodes.forPath (targets : TargetNodes) (path : String) : UInt8 :=
  match targets.applications.get? path with
  | some node => node
  | none =>
    match targets.folders.find? fun folder => folderContains folder.1 path with
    | some folder => folder.2
    | none => 0

/-! ## Layering -/

/-- A destination range and the node that carries it, `(u32, u32, u8)`. -/
abbrev DestinationRange := Range UInt32 UInt8

/-- `BTreeMap<u32, (u32, u8)>`: the end and the node of each range under its start. -/
abbrev Layered := SortedMap UInt32 (UInt32 × UInt8)

/-- The layered ranges that overlap `first..=last`, the last ones that start at or before `last`. -/
def covered (layered : Layered) (first last : UInt32) : List (UInt32 × UInt32 × UInt8) :=
  (layered.rangeTo last).reverse.takeWhile fun e => e.2.1 ≥ first

/-- Takes `first..=last` out of a layered range that overlaps it. -/
def cut (first last : UInt32) (layered : Layered) (e : UInt32 × UInt32 × UInt8) : Layered :=
  let removed := layered.remove e.1
  let left := if e.1 < first then removed.insert e.1 (first - 1, e.2.2) else removed
  if e.2.1 > last then left.insert (last + 1) (e.2.1, e.2.2) else left

/-- Lays one range over those before it. -/
def layer (layered : Layered) (range : DestinationRange) : Layered :=
  ((covered layered range.first range.last).foldl (cut range.first range.last) layered).insert
    range.first (range.last, range.value)

/-- One turn of the merging loop; the merged ranges are held with the last one first. -/
def mergeNeighbour (merged : List DestinationRange) (e : UInt32 × UInt32 × UInt8) :
    List DestinationRange :=
  match merged with
  | [] => [⟨e.1, e.2.1, e.2.2⟩]
  | previous :: rest =>
    if previous.value = e.2.2 ∧ e.1 ≤ saturatingAdd previous.last 1 then
      { previous with last := max previous.last e.2.1 } :: rest
    else ⟨e.1, e.2.1, e.2.2⟩ :: previous :: rest

def layerDestinations (ranges : List DestinationRange) : List DestinationRange :=
  let sorted := ranges.insertionSort fun r r' => r'.last - r'.first ≤ r.last - r.first
  let layered := sorted.foldl layer SortedMap.empty
  (layered.entries.foldl mergeNeighbour []).reverse

/-! ## The table -/

/-- What a flow selects (`Selection`). -/
structure Selection where
  application : Option String
  processId : Option UInt32
  node : UInt8
  deriving DecidableEq

/-- What a packet the table selects is (`Match`). -/
structure Match where
  application : Option String
  processId : Option UInt32
  node : UInt8

/-- The ports of a flow. -/
abbrev FlowKey := UInt8 × UInt16 × Option UInt16

structure SelectorTable where
  destinations : List DestinationRange
  flows : KeyedMap FlowKey Selection
  len : Nat

/-- What is collected from the selectors before the ranges are layered. -/
structure Collected where
  destinations : List DestinationRange
  flows : KeyedMap FlowKey Selection

/-- One turn of the loop of `build_with_owners`. -/
def collect (flowOwners : KeyedMap TrafficSelector (List FlowOwner))
    (destinationNodes : KeyedMap TrafficSelector UInt8) (targets : TargetNodes)
    (c : Collected) (e : TrafficSelector × Option String) : Collected :=
  match e.1 with
  | .destination first last =>
    { c with
      destinations := c.destinations ++ [⟨first, last, (destinationNodes.get? e.1).getD 0⟩] }
  | .flow protocol localPort remotePort =>
    let owner := (flowOwners.get? e.1).bind List.getLast?
    { c with
      flows := c.flows.insert (protocol, localPort, remotePort)
        ⟨e.2, owner.map FlowOwner.processId,
          match owner with
          | some owner => targets.forPath owner.path
          | none => 0⟩ }

namespace SelectorTable

def buildWithOwners (selectors : KeyedMap TrafficSelector (Option String))
    (flowOwners : KeyedMap TrafficSelector (List FlowOwner))
    (destinationNodes : KeyedMap TrafficSelector UInt8) (targets : TargetNodes) : SelectorTable :=
  let c := selectors.entries.foldl (collect flowOwners destinationNodes targets)
    ⟨[], KeyedMap.empty⟩
  ⟨layerDestinations c.destinations, c.flows, selectors.size⟩

def destinationNode (table : SelectorTable) (address : Octets) : Option UInt8 :=
  let destination := u32OfOctets address
  match partitionPoint (fun r => decide (r.first ≤ destination)) table.destinations with
  | 0 => none
  | index + 1 =>
    match table.destinations[index]? with
    | none => none
    | some range => if destination ≤ range.last then some range.value else none

def lookup (table : SelectorTable) (fields : Ipv4Fields) : Option Match :=
  let destination := table.destinationNode fields.destination
  let flow :=
    match table.flows.get? (fields.protocol, fields.sourcePort, some fields.destinationPort) with
    | some flow => some flow
    | none => table.flows.get? (fields.protocol, fields.sourcePort, none)
  match flow with
  | some flow => some ⟨flow.application, flow.processId, destination.getD flow.node⟩
  | none => destination.map fun node => ⟨none, none, node⟩

end SelectorTable

end GamePath.Engine.SplitCapture
