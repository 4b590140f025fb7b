import GamePath.Lib.Ranking
import GamePath.Engine.Basic

/-!
# Path selection (`scheduler.rs`)

Which routes carry the packets, decided from their measurements and from which routes carry them
now. The measurements are exact rational numbers. Ids are only compared, so their type is a
parameter.

`choosePathsWithIncumbent` is cut into the steps of the source: the ranking, the preference for a
second server, the question whether to duplicate, and the set that is duplicated onto. The closures
of the source that only read the incumbents take `holding` as an argument.
-/

namespace GamePath.Engine.Scheduler

open Lib.Ranking

universe u

def adaptiveDuplicateDelayBudgetMs : ℚ := 100

/-- `INCUMBENCY_MARGIN`. -/
def incumbencyMarginMs : ℚ := 8

def incumbencyJitterMargin : ℚ := 1

def settledRoutesWanted : Nat := 2

structure PathMetrics (ι : Type u) where
  id : ι
  endpointIpv4 : Option Octets
  active : Bool
  samples : Nat
  latencyMs : ℚ
  jitterMs : ℚ
  lossRatio : ℚ
  lastLatencyMs : Option ℚ
  consecutiveLosses : Nat
  unsettledProbes : Nat
  deriving DecidableEq

abbrev Paths (ι : Type u) := List (PathMetrics ι)

inductive Strategy where
  | fastestPath
  | duplicate
  | adaptive
  | allPaths
  deriving DecidableEq

inductive Decision (ι : Type u) where
  | drop
  | single (pathId : ι)
  | duplicate (pathIds : List ι)
  deriving DecidableEq

/-- The ids of a decision's routes. -/
def Decision.pathIds {ι : Type u} : Decision ι → List ι
  | .drop => []
  | .single pathId => [pathId]
  | .duplicate pathIds => pathIds

section Paths

variable {ι : Type u}

namespace PathMetrics

variable (path : PathMetrics ι)

def isSettled : Bool := path.unsettledProbes == 0

/-- A route the ranking considers: active, and probed at least once. -/
def isHealthy : Bool := path.active && path.lastLatencyMs.isSome

/-- `PathMetrics::score` of a healthy route. Any other route scores infinity, and none is ranked. -/
def weight : ℚ :=
  path.latencyMs + path.jitterMs * 2 + path.lossRatio * 200

def sharesEndpoint (path other : PathMetrics ι) : Bool :=
  path.endpointIpv4.isSome && path.endpointIpv4 == other.endpointIpv4

def incumbencyMargin : ℚ :=
  incumbencyMarginMs + path.jitterMs * incumbencyJitterMargin

/-- The closure `degraded`. -/
def degraded : Bool := path.lossRatio ≥ 1 / 2 || path.jitterMs ≥ 50

/-- The closure `delivery_delay`. -/
def deliveryDelay : ℚ :=
  max (path.latencyMs + path.jitterMs * 2) (path.lastLatencyMs.getD 0)

end PathMetrics

open PathMetrics

/-- The loop of `settled_path_count`, after the paths `seen`. -/
def settledPathCountFrom (seen : Paths ι) : Paths ι → Nat
  | [] => 0
  | path :: rest =>
    (if path.isSettled && !seen.any fun other => other.isSettled && path.sharesEndpoint other
      then 1 else 0) + settledPathCountFrom (seen ++ [path]) rest

def settledPathCount (paths : Paths ι) : Nat := settledPathCountFrom [] paths

variable (holding : PathMetrics ι → Bool)

/-- A cost with the discount of a route that carries traffic. -/
def discounted (cost : PathMetrics ι → ℚ) (path : PathMetrics ι) : ℚ :=
  if holding path then cost path - path.incumbencyMargin else cost path

/-- The healthy routes in the order of the closure `ranked`. -/
def rankedPaths (paths : Paths ι) :
    Paths ι :=
  rankBy (discounted holding weight) (paths.filter isHealthy)

/-- `Iterator::min_by` on a cost, which returns the first of the least. -/
def minBy (cost : PathMetrics ι → ℚ) : Paths ι → Option (PathMetrics ι)
  | [] => none
  | path :: rest =>
    some (rest.foldl (fun best other => if cost other < cost best then other else best) path)

/-- The route that is kept armed when none is healthy. -/
def lastResort (paths : Paths ι) :
    Option (PathMetrics ι) :=
  minBy (discounted holding fun path => path.latencyMs + path.jitterMs * 2)
    (paths.filter fun path => path.lastLatencyMs.isSome)

/-- The closure `within_budget` over the healthy routes; the fold starts at infinity. -/
def withinBudget (healthy : Paths ι) (path : PathMetrics ι) : Bool :=
  let quickest : WithTop ℚ := (healthy.map fun p => (deliveryDelay p : WithTop ℚ)).foldl min ⊤
  (deliveryDelay path : WithTop ℚ) ≤ quickest + (adaptiveDuplicateDelayBudgetMs : ℚ)

/-- The closure `unsettled_carrier`. -/
def unsettledCarrier (path : PathMetrics ι) : Bool :=
  holding path && !path.isSettled

variable [DecidableEq ι]

/-- The first route on another server that is worth duplicating onto instead. -/
def otherServer (healthy : Paths ι) (best : PathMetrics ι) :
    Option (PathMetrics ι) :=
  healthy.find? fun path =>
    path.id ≠ best.id && !best.sharesEndpoint path && withinBudget healthy path && !path.degraded

/-- The second route gives its place to one on another server when it shares that of the best. -/
def preferOtherServer (healthy : Paths ι) : Paths ι :=
  match healthy with
  | best :: second :: rest =>
    if best.sharesEndpoint second then
      match otherServer healthy best with
      | some backup => best :: backup :: (second :: rest).erase backup
      | none => healthy
    else healthy
  | _ => healthy

/-- Whether both of the first two routes are degraded (`all_degraded`). -/
def allDegraded (healthy : Paths ι) : Bool := (healthy.take 2).all degraded

/-- Whether a second route is in budget or unsettled and carrying (`latency_comparable`). -/
def latencyComparable (healthy : Paths ι) : Bool :=
  2 ≤ (healthy.filter fun path => withinBudget healthy path || unsettledCarrier holding path).length

/-- The loop that chooses routes in order until two settled servers are among them, or only the
first two when the trouble is not of single routes. -/
def chooseInOrder (independent : Bool) (within : PathMetrics ι → Bool)
    (chosen : Paths ι) : Paths ι → Paths ι
  | [] => chosen
  | path :: rest =>
    if 2 ≤ chosen.length ∧ (!independent || settledRoutesWanted ≤ settledPathCount chosen) then
      chosen
    else if 2 ≤ chosen.length ∧ (!within path || !path.isSettled) then
      chooseInOrder independent within chosen rest
    else chooseInOrder independent within (chosen ++ [path]) rest

/-- The loop that keeps the unsettled routes that carry traffic. -/
def keepCarriers (holding : PathMetrics ι → Bool) (chosen healthy : Paths ι) :
    Paths ι :=
  healthy.foldl
    (fun chosen path =>
      if unsettledCarrier holding path && !chosen.any fun other => other.id = path.id then
        chosen ++ [path]
      else chosen)
    chosen

/-- The routes that are duplicated onto. -/
def duplicated (holding : PathMetrics ι → Bool) (healthy : Paths ι) :
    Paths ι :=
  let independent := decide (settledRoutesWanted ≤ settledPathCount healthy)
  let chosen := chooseInOrder independent (withinBudget healthy) [] healthy
  if independent then keepCarriers holding chosen healthy else chosen

/-- The healthy routes as the decision reads them: ranked, and with the second server preferred in
the adaptive strategy. -/
def candidates (strategy : Strategy) (holding : PathMetrics ι → Bool) (paths : Paths ι) : Paths ι :=
  if strategy = .adaptive then preferOtherServer (rankedPaths holding paths)
  else rankedPaths holding paths

/-- `choose_paths_with_incumbent`, over the closure `holding`. -/
def chooseHolding (paths : Paths ι) (strategy : Strategy)
    (holding : PathMetrics ι → Bool) : Decision ι :=
  match rankedPaths holding paths with
  | [] =>
    match lastResort holding paths with
    | some path => .single path.id
    | none => .drop
  | [best] => .single best.id
  | best :: second :: rest =>
    match strategy with
    | .allPaths => .duplicate ((best :: second :: rest).map PathMetrics.id)
    | .fastestPath => .single best.id
    | strategy =>
      let healthy := candidates strategy holding paths
      if strategy = .duplicate ∨ (!allDegraded healthy && latencyComparable holding healthy) then
        .duplicate ((duplicated holding healthy).map PathMetrics.id)
      else .single best.id

def choosePathsWithIncumbent (paths : Paths ι) (strategy : Strategy)
    (incumbent : List ι) : Decision ι :=
  chooseHolding paths strategy fun path => decide (path.id ∈ incumbent)

/-- The incumbents after `n` decisions on steady measurements, each of which makes its routes the
incumbents of the next. -/
def incumbents (paths : Paths ι) (strategy : Strategy) (initial : List ι) :
    Nat → List ι
  | 0 => initial
  | n + 1 =>
    (choosePathsWithIncumbent paths strategy (incumbents paths strategy initial n)).pathIds

end Paths

end GamePath.Engine.Scheduler
