import GamePath.Engine.DirectList
import GamePath.Lib.Run

/-!
# The VPN session of the client (`vpn-session.cjs`)

`VpnSessionController` runs works one after another: each waits for the requests it sends, and
calls, timers and the answers to status requests come in between. A step of the model is what runs
without waiting: a call, the beginning of a work, or what follows an answer. What the controller
asks its surroundings on the way (the clock, the reason to pause, whether the service is ready and
what `buildRequest` returns) is part of the event.

An object is told from others by its number, and a session id is the number of its start. `off` is
history: how many works had been queued when the VPN was turned off or the app shut down, if nothing
has asked for it since.
-/

namespace GamePath.Electron.Vpn

open Engine.Direct (Text)

/-! ## What a session is made of -/

/-- `NODE_KINDS`. -/
inductive NodeKind where
  | wireguard
  | openvpn
  | l2tp
  | socks5
  | adapter
  deriving DecidableEq

inductive TrafficMode where
  | split
  | all
  deriving DecidableEq

/-- What a session keeps of a node. -/
structure SessionNode where
  id : Text
  name : Text
  kind : NodeKind
  deriving DecidableEq

/-- `PAUSE_REASONS`. -/
inductive PauseReason where
  | gameAllTraffic
  deriving DecidableEq

/-- An error a request is rejected with: whether no answer came, whether the service refused the
connection (`ECONNREFUSED`), and what `pauseReasonFromError` reads from its text. -/
structure ServiceError where
  transient : Bool
  refused : Bool
  pause : Option PauseReason
  deriving DecidableEq

/-- What `buildRequest` returns, of `α` for what it is made of besides. -/
structure Built (α : Type) where
  node : SessionNode
  nodes : List SessionNode
  trafficMode : TrafficMode
  remoteDns : Bool
  payload : α
  deriving DecidableEq

/-- The surroundings a start asks: `pauseReason()`, `service.ready()` and `buildRequest()`, which
throws a `VpnConfigError` or another error. -/
structure Surroundings (α : Type) where
  now : Nat
  pause : Option PauseReason
  ready : Bool
  built : Except Bool (Built α)

/-- The runtime a status request is answered with: whether its state is `connected`, and which of
the paths are reachable. -/
structure Runtime where
  connected : Bool
  reachable : List Bool
  deriving DecidableEq

/-- What `start-session` is answered with. -/
structure Started where
  dnsServers : Bool
  runtime : Runtime

/-- The status of a session. -/
inductive Status where
  | idle
  | connecting
  | reconnecting
  | connected
  | degraded
  | paused
  | error
  deriving DecidableEq

def Status.live : Status → Bool
  | .connected | .degraded => true
  | .idle | .connecting | .reconnecting | .paused | .error => false

def Status.active : Status → Bool
  | .connecting | .reconnecting | .connected | .degraded => true
  | .idle | .paused | .error => false

structure Session where
  object : Nat
  status : Status
  start : Option Nat
  node : Option SessionNode
  nodes : List SessionNode
  nodeHealth : List (SessionNode × Bool)
  deriving DecidableEq

namespace Session

/-- `{ status: 'idle' }`. -/
def idle : Session := ⟨0, .idle, none, none, [], []⟩

/-- `pausedState`. -/
def paused : Session := { idle with status := .paused }

/-- `{ status: 'error', message, node }`. -/
def failed (node : Option SessionNode) : Session := { idle with status := .error, node := node }

end Session

/-! ## The lease -/

def serviceLeaseMs : Nat := 60000

def maxAnsweredFailures : Nat := 3

structure SessionLease where
  renewedAt : Nat
  failures : Nat
  answeredFailures : Nat
  deriving DecidableEq

def SessionLease.reset (now : Nat) : SessionLease := ⟨now, 0, 0⟩

/-- `failed`: whether to give the session up. -/
def SessionLease.failed (lease : SessionLease) (error : ServiceError) (now : Nat) :
    Bool × SessionLease :=
  let lease := { lease with failures := lease.failures + 1 }
  if error.transient && !error.refused then (decide (serviceLeaseMs ≤ now - lease.renewedAt), lease)
  else
    let lease := { lease with answeredFailures := lease.answeredFailures + 1 }
    (decide (maxAnsweredFailures ≤ lease.answeredFailures), lease)

/-! ## The controller -/

def degradedRestartMs : Nat := 30000

/-- Why a session is given up. -/
inductive Verdict where
  | lost
  | unreachable
  deriving DecidableEq

/-- What `exclusive` is called with. -/
inductive WorkKind where
  | start
  | stop
  | restart
  | reconsider
  | giveUp (start : Nat) (verdict : Verdict)
  deriving DecidableEq

/-- A work and its place among all that were queued. -/
structure Work where
  number : Nat
  kind : WorkKind
  deriving DecidableEq

/-- What a work does once `stopNow` is through. -/
inductive After where
  | finish
  | startNow
  | scheduleReconnect
  deriving DecidableEq

/-- The request the running work waits for. -/
inductive Stage (α : Type) where
  | stopping (next : Session) (after : After)
  | validating (start : Nat) (built : Built α)
  | starting (start : Nat) (built : Built α)
  | abandoning (error : ServiceError)
  deriving DecidableEq

/-- Why a session is stopped. -/
inductive Cause where
  | call
  | verdict (start : Nat)
  | abandoned
  deriving DecidableEq

/-- The requests a step sends. A stop names the start of the session it finds, and a start the work
that sends it. -/
inductive Sent (α : Type) where
  | stopSession (cause : Cause) (start : Option Nat)
  | validateRuntime (built : Built α)
  | startSession (start work : Nat) (built : Built α)
  | sessionStatus
  deriving DecidableEq

/-- `VpnSessionController`. -/
structure Controller (α : Type) where
  wanted : Bool
  session : Session
  objects : Nat
  starts : Nat
  queue : List Work
  issued : Nat
  running : Option (Nat × Stage α)
  polls : Bool
  polled : Option Nat
  reconnectTimer : Bool
  reconnectAttempt : Nat
  lease : SessionLease
  degradedSince : Option Nat
  off : Option Nat

/-- A call, or something that comes in. -/
inductive VpnEvent (α : Type) where
  | connect
  | disconnect
  | restart
  | reconsider
  | onResume
  | shutdown
  | turn (env : Surroundings α)
  | answered (env : Surroundings α) (result : Except ServiceError Started)
  | pollTimer
  | pollAnswered (now : Nat) (result : Except ServiceError Runtime)
  | reconnectTimer

namespace Controller

variable {α : Type}

/-- The constructor. -/
def new (α : Type) (now : Nat) : Controller α :=
  ⟨false, .idle, 1, 0, [], 0, none, false, none, false, 0, .reset now, none, none⟩

variable (s : Controller α)

/-- `this.session = session`. -/
def become (session : Session) : Controller α :=
  { s with session := { session with object := s.objects }, objects := s.objects + 1 }

def exclusive (kind : WorkKind) : Controller α :=
  { s with queue := s.queue ++ [⟨s.issued, kind⟩], issued := s.issued + 1 }

/-- The running work is through. -/
def finish : Controller α := { s with running := none }

def cancelReconnect : Controller α := { s with reconnectTimer := false }

def stopPolling : Controller α := { s with polls := false }

def startPolling (now : Nat) : Controller α :=
  { s with polls := true, lease := .reset now }

def scheduleReconnect : Controller α :=
  if !s.wanted || s.reconnectTimer then s
  else
    { s.become { s.session with status := .reconnecting } with
      reconnectTimer := true, reconnectAttempt := s.reconnectAttempt + 1 }

def fail (retryable : Bool) : Controller α :=
  let s := { s with wanted := s.wanted && retryable }.become (.failed s.session.node)
  if retryable then s.scheduleReconnect else s

/-- `applyRuntime`: the engine reports one path per node, in the order they were sent. -/
def applyRuntime (reachable : List Bool) : Controller α :=
  { s with session := { s.session with
      nodeHealth := s.session.nodes.mapIdx fun index node => (node, reachable.getD index true) } }

/-- `startNow`, up to its first request. -/
def startNow (work : Nat) (env : Surroundings α) : Controller α × List (Sent α) :=
  let s := s.cancelReconnect
  if !s.wanted then (s.finish, [])
  else if env.pause.isSome then ((s.become .paused).finish, [])
  else if !env.ready then ((s.fail true).finish, [])
  else
    match env.built with
    | .error isConfig => ((s.fail !isConfig).finish, [])
    | .ok built =>
      let status : Status := if 0 < s.reconnectAttempt then .reconnecting else .connecting
      let session : Session := ⟨0, status, some s.starts, some built.node, built.nodes, []⟩
      ({ s.become session with
          starts := s.starts + 1, running := some (work, .validating s.starts built) },
        [.validateRuntime built])

/-- What follows `stopNow`. -/
def afterStop (work : Nat) (env : Surroundings α) :
    After → Controller α × List (Sent α)
  | .finish => (s.finish, [])
  | .startNow => s.startNow work env
  | .scheduleReconnect => (s.scheduleReconnect.finish, [])

/-- `stopNow`, up to its request if the session is active. -/
def stopNow (work : Nat) (env : Surroundings α) (cause : Cause) (next : Session)
    (after : After) : Controller α × List (Sent α) :=
  let s := s.stopPolling
  if s.session.status.active then
    ({ s with running := some (work, .stopping next after) },
      [.stopSession cause s.session.start])
  else (s.become next).afterStop work env after

/-- The session a verdict leaves. -/
def givenUp (session : Session) : Verdict → Session
  | .lost => .failed session.node
  | .unreachable => { session with status := .error }

/-- A work, up to its first request. -/
def begin' (work : Work) (env : Surroundings α) :
    Controller α × List (Sent α) :=
  match work.kind with
  | .start => s.startNow work.number env
  | .stop => s.stopNow work.number env .call .idle .finish
  | .restart =>
    if s.session.status.active then s.stopNow work.number env .call .idle .startNow
    else s.startNow work.number env
  | .reconsider =>
    if env.pause.isSome && s.session.status.active then
      s.cancelReconnect.stopNow work.number env .call .paused .finish
    else if env.pause.isNone && s.wanted && decide (s.session.status = .paused) then
      s.startNow work.number env
    else (s.finish, [])
  | .giveUp start verdict =>
    s.stopNow work.number env (.verdict start) (givenUp s.session verdict) .scheduleReconnect

/-- What follows the answer the running work has waited for. -/
def continue' (work : Nat) (env : Surroundings α)
    (result : Except ServiceError Started) : Stage α → Controller α × List (Sent α)
  | .stopping next after => (s.become next).afterStop work env after
  | .validating start built =>
    match result with
    | .error error => ((s.fail error.transient).finish, [])
    | .ok _ =>
      ({ s with running := some (work, .starting start built) },
        [.startSession start work built])
  | .starting start built =>
    let abandon (error : ServiceError) : Controller α × List (Sent α) :=
      ({ s with running := some (work, .abandoning error) }, [.stopSession .abandoned (some start)])
    match result with
    | .error error => abandon error
    | .ok started =>
      if built.remoteDns && decide (built.trafficMode = .split) && !started.dnsServers then
        -- Remote DNS could not be enabled.
        abandon ⟨false, false, none⟩
      else
        let session : Session :=
          ⟨0, .connected, some start, some built.node, built.nodes, []⟩
        let s := (s.become session).applyRuntime started.runtime.reachable
        (({ s with reconnectAttempt := 0, degradedSince := none }.startPolling env.now).finish, [])
  | .abandoning error =>
    if error.pause.isSome then ((s.become .paused).finish, []) else ((s.fail true).finish, [])

/-- `poll`, up to its request. -/
def poll : Controller α × List (Sent α) :=
  if !s.session.status.live || s.polled.isSome then (s, [])
  else ({ s with polled := some s.session.object }, [.sessionStatus])

/-- `trackHealth`: one node down is left to the engine, and only every node down at once, for long
enough, restarts the session. -/
def trackHealth (runtime : Runtime) (now : Nat) : Controller α :=
  if runtime.connected then
    let down := s.session.nodeHealth.any fun node => !node.2
    let status : Status := if down then .degraded else .connected
    { s with session := { s.session with status := status }, degradedSince := none }
  else
    let s := { s with session := { s.session with status := .degraded } }
    -- SOCKS5 and adapter nodes dial per connection: a restart repairs nothing.
    if s.session.nodes.length ≠ 0 ∧
        s.session.nodes.all fun node => node.kind = .socks5 ∨ node.kind = .adapter then
      { s with degradedSince := none }
    else
      let since := s.degradedSince.getD now
      if degradedRestartMs ≤ now - since then
        { s with degradedSince := none }.exclusive (.giveUp (s.session.start.getD 0) .unreachable)
      else { s with degradedSince := some since }

def pollFailed (error : ServiceError) (now : Nat) : Controller α :=
  if error.pause.isSome then s.stopPolling.become .paused
  else
    let (over', lease) := s.lease.failed error now
    let s := { s with lease := lease }
    if over' then s.exclusive (.giveUp (s.session.start.getD 0) .lost) else s

/-- What follows the answer to a status request. An answer about a session that is gone is dropped.
-/
def pollAnswered (now : Nat) (result : Except ServiceError Runtime) :
    Controller α :=
  match s.polled with
  | none => s
  | some object =>
    let polled := { s with polled := none }
    if s.session.object = object ∧ s.session.status.live = true then
      match result with
      | .ok runtime =>
        ({ polled with lease := .reset now }.applyRuntime runtime.reachable).trackHealth runtime now
      | .error error => polled.pollFailed error now
    else polled

/-- One event, with the requests it sends. -/
def step : VpnEvent α → Controller α × List (Sent α)
  | .connect => ({ s with wanted := true, reconnectAttempt := 0, off := none }.exclusive .start, [])
  | .disconnect =>
    let s := { s with wanted := false }.cancelReconnect.exclusive .stop
    ({ s with off := some (s.off.getD s.issued) }, [])
  | .restart =>
    let s := { s with off := none }
    (if s.wanted then s.exclusive .restart else s, [])
  | .reconsider => ({ s with off := none }.exclusive .reconsider, [])
  | .onResume =>
    let s := { s with off := none }
    if !s.wanted then (s, [])
    else if s.session.status.live then s.poll
    else ({ s with reconnectAttempt := 0 }.cancelReconnect.exclusive .start, [])
  | .shutdown =>
    let s := s.cancelReconnect.exclusive .stop
    ({ s with off := some (s.off.getD s.issued) }, [])
  | .turn env =>
    match s.running, s.queue with
    | none, work :: queue => { s with queue := queue }.begin' work env
    | _, _ => (s, [])
  | .answered env result =>
    match s.running with
    | some (work, stage) => s.continue' work env result stage
    | none => (s, [])
  | .pollTimer => if s.polls then s.poll else (s, [])
  | .pollAnswered now result => (s.pollAnswered now result, [])
  | .reconnectTimer =>
    if s.reconnectTimer then ({ s with reconnectTimer := false }.exclusive .start, []) else (s, [])

end Controller

end GamePath.Electron.Vpn
