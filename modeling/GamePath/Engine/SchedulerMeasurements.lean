import GamePath.Engine.SchedulerCarriers

/-!
# The measurements of a route (`scheduler.rs`)

A route starts with `PathMetrics::new`. Each health probe of it is then recorded as an answer with
its latency, or as a loss. The endpoint is assigned by the worker of the session, and no record
reads or changes it, so it is a part of the route here.

The module ends with what holds after any sequence of records: the ranges of the estimates, and
which routes have answered. The first gives the measurements that the stability of the choice
assumes.
-/

namespace GamePath.Engine.Scheduler

universe u

/-! ## The records -/

section Records

/-- The weight of a new sample in an estimate. -/
def smoothing : ℚ := 1 / 5

def lossSmoothing : ℚ := 1 / 20

def lossesBeforeInactive : Nat := 3

def probesToSettle : Nat := 10

def spikeRiseMinMs : ℚ := 25

def spikeRiseRatio : ℚ := 1 / 2

/-- The average moves towards the sample by this part of the distance. -/
def ewmaWith (previous sample smoothing : ℚ) : ℚ := previous + smoothing * (sample - previous)

def ewma (previous sample : ℚ) : ℚ := ewmaWith previous sample smoothing

variable {ι : Type u}

namespace PathMetrics

def new (id : ι) : PathMetrics ι where
  id := id
  endpointIpv4 := none
  active := true
  samples := 0
  latencyMs := 0
  jitterMs := 0
  lossRatio := 0
  lastLatencyMs := none
  consecutiveLosses := 0
  unsettledProbes := 0

/-- The branch of `record_probe` on whether the route has answered before. -/
def estimate (path : PathMetrics ι) (latencyMs : ℚ) : PathMetrics ι :=
  if path.lastLatencyMs.isNone then { path with latencyMs := latencyMs }
  else
    let spike := max spikeRiseMinMs (path.latencyMs * spikeRiseRatio)
    { path with
      unsettledProbes :=
        if spike ≤ latencyMs - path.latencyMs then probesToSettle else path.unsettledProbes - 1
      jitterMs := ewma path.jitterMs |latencyMs - path.latencyMs|
      latencyMs := ewma path.latencyMs latencyMs }

/-- The loss ratio after one more probe, of which `sample` is one when it was lost. -/
def nextLossRatio (path : PathMetrics ι) (sample : ℚ) : ℚ :=
  max 0 (min (ewmaWith path.lossRatio sample lossSmoothing) 1)

/-- `record_probe`. -/
def recordProbe (path : PathMetrics ι) (latencyMs : ℚ) : PathMetrics ι :=
  let latencyMs := max latencyMs 0
  { path.estimate latencyMs with
    lossRatio := path.nextLossRatio 0
    samples := path.samples + 1
    active := true
    lastLatencyMs := some latencyMs
    consecutiveLosses := 0 }

/-- `PathMetrics::record_loss`; the count of losses stops at the last value of its type. -/
def recordLoss (path : PathMetrics ι) : PathMetrics ι :=
  let consecutiveLosses := min (path.consecutiveLosses + 1) (2 ^ 32 - 1)
  { path with
    lossRatio := path.nextLossRatio 1
    samples := path.samples + 1
    consecutiveLosses := consecutiveLosses
    unsettledProbes := probesToSettle
    active := if lossesBeforeInactive ≤ consecutiveLosses then false else path.active }

end PathMetrics

/-- What a health probe of a route came to. -/
inductive Measurement where
  | probe (latencyMs : ℚ)
  | loss
  deriving DecidableEq

/-- The record that a measurement makes. -/
def PathMetrics.record (path : PathMetrics ι) : Measurement → PathMetrics ι
  | .probe latencyMs => path.recordProbe latencyMs
  | .loss => path.recordLoss

/-- A route of a session with all its measurements so far, the earliest first. -/
structure Route (ι : Type u) where
  id : ι
  endpointIpv4 : Option Octets
  measurements : List Measurement

/-- The metrics that the measurements leave. -/
def Route.metrics (route : Route ι) : PathMetrics ι :=
  { route.measurements.foldl PathMetrics.record (PathMetrics.new route.id) with
    endpointIpv4 := route.endpointIpv4 }

/-- The route has answered a probe. -/
def Route.Answered (route : Route ι) : Prop := ∃ latencyMs, .probe latencyMs ∈ route.measurements

end Records

/-! ## What holds after any records -/

section Ranges

variable {ι : Type u}

/-- An average of numbers that are not negative is not negative. -/
theorem ewmaWith_nonneg {previous sample smoothing : ℚ} (hprevious : 0 ≤ previous)
    (hsample : 0 ≤ sample) (hlow : 0 ≤ smoothing) (hhigh : smoothing ≤ 1) :
    0 ≤ ewmaWith previous sample smoothing := by
  have hmix : ewmaWith previous sample smoothing =
      (1 - smoothing) * previous + smoothing * sample := by
    rw [ewmaWith]
    ring
  rw [hmix]
  have : 0 ≤ 1 - smoothing := by linarith
  positivity

theorem ewma_nonneg {previous sample : ℚ} (hprevious : 0 ≤ previous) (hsample : 0 ≤ sample) :
    0 ≤ ewma previous sample := by
  apply ewmaWith_nonneg hprevious hsample <;> norm_num [smoothing]

/-- The estimates of a route stay in their ranges, and it is inactive after too many losses. -/
structure PathMetrics.InRange (path : PathMetrics ι) : Prop where
  latency : 0 ≤ path.latencyMs
  jitter : 0 ≤ path.jitterMs
  loss : 0 ≤ path.lossRatio ∧ path.lossRatio ≤ 1
  unsettled : path.unsettledProbes ≤ probesToSettle
  inactive : path.active = false ↔ lossesBeforeInactive ≤ path.consecutiveLosses

namespace PathMetrics

theorem inRange_new (id : ι) : (new id).InRange where
  latency := le_rfl
  jitter := le_rfl
  loss := ⟨le_rfl, zero_le_one⟩
  unsettled := Nat.zero_le _
  inactive := by simp [new, lossesBeforeInactive]

theorem nextLossRatio_mem (path : PathMetrics ι) (sample : ℚ) :
    0 ≤ path.nextLossRatio sample ∧ path.nextLossRatio sample ≤ 1 :=
  ⟨le_max_left _ _, max_le zero_le_one (min_le_right _ _)⟩

variable {path : PathMetrics ι}

theorem InRange.estimate (h : path.InRange) {latencyMs : ℚ} (hlatency : 0 ≤ latencyMs) :
    (path.estimate latencyMs).InRange := by
  by_cases hfirst : path.lastLatencyMs.isNone = true
  · rw [PathMetrics.estimate, if_pos hfirst]
    exact ⟨hlatency, h.jitter, h.loss, h.unsettled, h.inactive⟩
  rw [PathMetrics.estimate, if_neg hfirst]
  refine ⟨ewma_nonneg h.latency hlatency, ewma_nonneg h.jitter (abs_nonneg _), h.loss, ?_,
    h.inactive⟩
  show (if _ then _ else _) ≤ _
  split_ifs
  · exact le_rfl
  · exact (Nat.sub_le _ _).trans h.unsettled

theorem InRange.recordProbe (h : path.InRange) (latencyMs : ℚ) :
    (path.recordProbe latencyMs).InRange := by
  obtain ⟨hlatency, hjitter, -, hunsettled, -⟩ := h.estimate (le_max_right latencyMs 0)
  refine ⟨hlatency, hjitter, path.nextLossRatio_mem 0, hunsettled, ?_⟩
  simp [PathMetrics.recordProbe, lossesBeforeInactive]

theorem InRange.recordLoss (h : path.InRange) : path.recordLoss.InRange := by
  refine ⟨h.latency, h.jitter, path.nextLossRatio_mem 1, le_rfl, ?_⟩
  simp only [PathMetrics.recordLoss]
  split_ifs with hlosses
  · exact iff_of_true rfl hlosses
  -- Too few losses with this one were too few without it.
  have hfew : ¬ lossesBeforeInactive ≤ path.consecutiveLosses := by
    simp only [lossesBeforeInactive] at hlosses ⊢
    omega
  rw [h.inactive]
  exact iff_of_false hfew hlosses

theorem InRange.record (h : path.InRange) (measurement : Measurement) :
    (path.record measurement).InRange := by
  cases measurement with
  | probe latencyMs => exact h.recordProbe latencyMs
  | loss => exact h.recordLoss

@[simp] theorem record_id (path : PathMetrics ι) (measurement : Measurement) :
    (path.record measurement).id = path.id := by
  cases measurement with
  | probe latencyMs =>
    simp only [record, PathMetrics.recordProbe, estimate]
    split_ifs <;> rfl
  | loss => rfl

end PathMetrics

open PathMetrics

variable (measurements : List Measurement)

/-- The invariant over any measurements. -/
theorem inRange_foldl_record :
    ∀ {path : PathMetrics ι}, path.InRange →
      (measurements.foldl PathMetrics.record path).InRange := by
  induction measurements with
  | nil =>
    intro path h
    exact h
  | cons measurement rest ih =>
    intro path h
    exact ih (h.record measurement)

theorem foldl_record_id :
    ∀ path : PathMetrics ι, (measurements.foldl PathMetrics.record path).id = path.id := by
  induction measurements with
  | nil =>
    intro path
    rfl
  | cons measurement rest ih =>
    intro path
    rw [List.foldl_cons, ih, record_id]

/-- A path has a latency once a probe was answered. -/
theorem lastLatencyMs_foldl_record :
    ∀ path : PathMetrics ι,
      (measurements.foldl PathMetrics.record path).lastLatencyMs.isSome = true ↔
        path.lastLatencyMs.isSome = true ∨ ∃ latencyMs, .probe latencyMs ∈ measurements := by
  induction measurements with
  | nil =>
    intro path
    simp
  | cons measurement rest ih =>
    intro path
    rw [List.foldl_cons, ih]
    cases measurement with
    | probe latencyMs => simp [record, recordProbe]
    | loss => simp [record, recordLoss]

end Ranges

/-! ## The metrics of a route -/

section Routes

variable {ι : Type u} (route : Route ι)

@[simp] theorem Route.metrics_id : route.metrics.id = route.id :=
  foldl_record_id route.measurements (PathMetrics.new route.id)

theorem Route.inRange_metrics : route.metrics.InRange := by
  obtain ⟨hlatency, hjitter, hloss, hunsettled, hinactive⟩ :=
    inRange_foldl_record route.measurements (PathMetrics.inRange_new route.id)
  exact ⟨hlatency, hjitter, hloss, hunsettled, hinactive⟩

theorem Route.isSome_lastLatencyMs_metrics :
    route.metrics.lastLatencyMs.isSome = true ↔ route.Answered := by
  refine (lastLatencyMs_foldl_record route.measurements (PathMetrics.new route.id)).trans ?_
  simp [PathMetrics.new, Route.Answered]

theorem map_id_metrics (routes : List (Route ι)) :
    (routes.map Route.metrics).map PathMetrics.id = routes.map Route.id := by
  simp

theorem steady_metrics {routes : List (Route ι)} (hids : (routes.map Route.id).Nodup) :
    Steady (routes.map Route.metrics) where
  distinct := by rwa [map_id_metrics]
  margin := by
    intro path hpath
    obtain ⟨route, -, rfl⟩ := List.mem_map.1 hpath
    have hjitter := route.inRange_metrics.jitter
    simp only [PathMetrics.incumbencyMargin, incumbencyMarginMs, incumbencyJitterMargin]
    linarith

end Routes

end GamePath.Engine.Scheduler
