import GamePath.Electron.RelayFailover
import GamePath.Electron.VpnSession
import GamePath.Lib.JsString

/-!
# The game session of the client (`main.cjs`)

Session transitions run one after another on one queue, target edits on another, and status polls
and the failover go on beside both. A step of the model is what runs without waiting: a call, the
beginning of a work or of an edit, or what follows an answer. What a step reads of the saved state
besides the targets and the traffic mode, and of the bridges, is part of the event.

A session object is told from others by its number. History: the number of the start a session comes
from, which is the number of the watch that was begun for it, the traffic mode its start was
requested with, and the rules the service accepted last.
-/

namespace GamePath.Electron.Game

open Engine.Direct (Text)
open Electron.Vpn (TrafficMode SessionLease ServiceError)

/-! ## Targets -/

/-- A target as it is saved. -/
structure Rule where
  id : Text
  kind : Text
  value : Text
  enabled : Bool
  groupId : Option Text
  deriving DecidableEq

/-- A group of targets. -/
structure RuleGroup where
  id : Text
  enabled : Bool
  deriving DecidableEq

/-- What the service is told of a target. -/
structure RuleSpec where
  kind : Text
  value : Text
  deriving DecidableEq

/-- `state.rules` and `state.ruleGroups`. -/
structure Targets where
  rules : List Rule
  ruleGroups : List RuleGroup
  deriving DecidableEq

/-- A change `commitRuleChange` is called with. -/
inductive RuleChange where
  | add (id kind value groupId : Text)
  | setEnabled (id : Text) (enabled : Bool)
  | setGroup (id groupId : Text)
  | remove (id : Text)
  | setGroupEnabled (id : Text) (enabled : Bool)
  | removeGroup (id : Text)

namespace Targets

variable (t : Targets)

/-- The group a target is put in: the one that is asked for if there is one. -/
def groupOf (groupId : Text) : Option Text :=
  if t.ruleGroups.any fun group => group.id = groupId then some groupId else none

/-- The first target of the id is changed. -/
def modifyRule (id : Text) (f : Rule → Rule) : Targets :=
  { t with rules := t.rules.modify (t.rules.findIdx fun rule => rule.id = id) f }

/-- The first group of the id is changed. -/
def modifyGroup (id : Text) (f : RuleGroup → RuleGroup) : Targets :=
  { t with ruleGroups := t.ruleGroups.modify (t.ruleGroups.findIdx fun group => group.id = id) f }

/-- The change. -/
def change : RuleChange → Targets
  | .add id kind value groupId =>
    { t with rules := t.rules ++ [⟨id, kind, value, true, t.groupOf groupId⟩] }
  | .setEnabled id enabled => t.modifyRule id fun rule => { rule with enabled := enabled }
  | .setGroup id groupId => t.modifyRule id fun rule => { rule with groupId := t.groupOf groupId }
  | .remove id => { t with rules := t.rules.filter fun rule => rule.id ≠ id }
  | .setGroupEnabled id enabled =>
    t.modifyGroup id fun group => { group with enabled := enabled }
  | .removeGroup id =>
    { rules := t.rules.map fun rule =>
        if rule.groupId = some id then { rule with groupId := none } else rule
      ruleGroups := t.ruleGroups.filter fun group => group.id ≠ id }

def enabledRuleSpecs : List RuleSpec :=
  let enabledGroupIds := (t.ruleGroups.filter RuleGroup.enabled).map RuleGroup.id
  (t.rules.filter fun rule =>
    rule.enabled && rule.groupId.all fun id => id.isEmpty || enabledGroupIds.contains id).map
      fun rule => ⟨rule.kind, rule.value⟩

/-- No group and no target names the id. -/
def fresh (id : Text) : Bool :=
  (t.ruleGroups.all fun group => group.id ≠ id) && t.rules.all fun rule => rule.groupId ≠ some id

end Targets

/-! ## What a step reads -/

/-- A relay of the list: its status is `ready`, and its token is stored. -/
structure Relay where
  id : Text
  address : Text
  ready : Bool
  hasToken : Bool
  deriving DecidableEq

/-- What a step reads of the saved state and the bridges: `nodesBlock` if the enabled nodes are a
blocker, `credentials` if the token and the nodes' secrets can be decrypted. -/
structure Surroundings where
  now : Nat
  direct : Bool
  nodesBlock : Bool
  credentials : Bool
  relays : List Relay
  activeRelayId : Option Text
  failoverEnabled : Bool
  standbyRelayId : Option Text
  engineReady : Bool
  serviceReady : Bool

/-- The relay of an id. -/
def Surroundings.relay (env : Surroundings) (id : Option Text) : Option Relay :=
  env.relays.find? fun relay => some relay.id = id

def standbyRelayFor (relays : List Relay) (main : Relay) (preferredId : Option Text) :
    Option Relay :=
  let candidates := relays.filter fun relay =>
    relay.id ≠ main.id && !relay.address.isEmpty && relay.hasToken && relay.address ≠ main.address
  match preferredId with
  | some id => candidates.find? fun relay => relay.id = id
  | none => candidates.head?

/-! ## The client -/

/-- The status of a session. -/
inductive Status where
  | idle
  | starting
  | connected
  | error
  deriving DecidableEq

structure Session where
  object : Nat
  status : Status
  relayId : Option Text
  start : Option Nat
  mode : Option TrafficMode

/-- A session of a status alone. -/
def Session.plain (status : Status) : Session := ⟨0, status, none, none, none⟩

/-- What `sessionExclusive` is called with. -/
inductive WorkKind where
  | start
  | stop
  | quit
  /-- The cleanup of the session of an object, which is lost. -/
  | lost (object : Nat)
  /-- The move of the session on one relay to another, for a watch. -/
  | move (watch : Nat) (main standby : Text)
  deriving DecidableEq

/-- The arguments of `startSession`, and the relay to return to if the session does not start. -/
structure StartCall where
  relay : Option Text
  moved : Bool
  watchForFailover : Bool
  fallback : Option Text
  deriving DecidableEq

/-- The relay a session is started on: the one it is asked for, or the active one. -/
def Surroundings.startRelay (env : Surroundings) (call : StartCall) : Option Relay :=
  if call.relay.isSome then env.relay call.relay else env.relay env.activeRelayId

/-- What `startSession` has read of the saved state. -/
structure Request where
  direct : Bool
  relayId : Text
  rules : List RuleSpec
  deriving DecidableEq

/-- What the running work waits for. -/
inductive Stage where
  | stoppingEngine
  | stoppingService
  /-- The VPN is asked to step aside. -/
  | beforeGameStart (call : StartCall)
  | preparing (call : StartCall) (request : Request)
  | resolving (call : StartCall) (request : Request)
  | validating (call : StartCall) (request : Request)
  | starting (call : StartCall) (request : Request) (mode : TrafficMode)
  | abandoning (call : StartCall)
  | cleaning

/-- A status poll under way, or waiting for the cleanup it asked for. -/
inductive Poll where
  | requested (object : Nat)
  | cleaning

/-- How far a call of `moveToStandby` is. -/
inductive CallStage where
  | probing
  | queued
  | done (outcome : Outcome)
  deriving DecidableEq

/-- A call of `moveToStandby`. -/
structure MoveCall where
  watch : Nat
  main : Text
  standby : Text
  stage : CallStage

/-- How far an edit is, with the rules it has sent to the service. -/
inductive Editing where
  | refreshing (previous : Targets) (rules : Option (List RuleSpec))
  | restoring (rules : Option (List RuleSpec))

/-- The requests a step sends. A stop names the start of the session it finds. -/
inductive Sent where
  | stopWireguard (work : WorkKind) (start : Option Nat)
  | stopSession (work : WorkKind) (start : Option Nat)
  /-- `stop-session` for a start that failed. -/
  | abandonSession
  | prepareSession (rules : List RuleSpec)
  | lookup (relayId : Text)
  | validateRuntime
  | startSession (rules : List RuleSpec) (mode : TrafficMode)
  | sessionStatus
  | probeRelay (relayId : Text)
  | updateSessionRules (rules : List RuleSpec)
  deriving DecidableEq

/-- The client. -/
structure Client where
  targets : Targets
  trafficMode : TrafficMode
  session : Session
  objects : Nat
  queue : List WorkKind
  running : Option (WorkKind × Stage)
  polling : Option Poll
  lease : SessionLease
  failover : Controller
  call : Option MoveCall
  edits : List RuleChange
  editing : Option Editing
  accepted : Option (List RuleSpec)

/-- The runtime a status request is answered with. -/
structure Runtime where
  direct : Bool
  connected : Bool
  uplink : Uplink

/-- A call, or something that comes in. -/
inductive ClientEvent where
  | engineStart
  | engineStop
  | quit
  | turn (env : Surroundings)
  | answered (env : Surroundings) (ok : Bool)
  | poll (serviceReady : Bool)
  | pollAnswered (now elapsed : Nat) (result : Except ServiceError Runtime)
  | probeAnswered (elapsed : Nat) (reachable : Bool)
  | probeFreed
  | moveCalled (env : Surroundings)
  | standbyProbed (reachable : Bool)
  | moveResolved
  | moveFreed
  | setTrafficMode (mode : TrafficMode)
  | groupAdded (id : Text)
  | edit (change : RuleChange)
  | editTurn
  | editAnswered (ok saved : Bool)

namespace Client

/-- A client that was just launched. -/
def new (targets : Targets) (trafficMode : TrafficMode) (now : Nat) : Client :=
  ⟨targets, trafficMode, .plain .idle, 1, [], none, none, .reset now, .new now, none, [],
    none, none⟩

variable (s : Client)

/-- `state.session = session`. -/
def become (session : Session) : Client :=
  { s with session := { session with object := s.objects }, objects := s.objects + 1 }

def sessionExclusive (work : WorkKind) : Client := { s with queue := s.queue ++ [work] }

/-- The running work is through: the poll or the move that waits for it goes on. -/
def finish (work : WorkKind) (rejected : Bool) : Client :=
  let s := { s with running := none }
  match work with
  | .start | .stop | .quit => s
  | .lost _ => { s with polling := none }
  | .move _ _ _ =>
    { s with call := s.call.map fun call =>
        { call with stage := .done (if rejected then .rejected else .moved) } }

/-- `startSession`, up to its first wait. -/
def startSession (work : WorkKind) (call : StartCall) : Client :=
  { s with failover := s.failover.end', running := some (work, .beforeGameStart call) }

/-- `startSession` is through: a move returns to the relay it came from if its standby did not
start. -/
def startDone (work : WorkKind) (call : StartCall) : Client :=
  match call.fallback with
  | none => s.finish work false
  | some main =>
    if s.session.status = .connected then s.finish work false
    else s.startSession work ⟨some main, false, false, none⟩

/-- The `catch` of `startSession`. -/
def abandon (work : WorkKind) (call : StartCall) : Client × List Sent :=
  ({ s with running := some (work, .abandoning call) }, [.abandonSession])

/-- What keeps a session from starting. -/
def blocked (env : Surroundings) (relay : Option Relay) : Bool :=
  env.nodesBlock || (!env.direct && !relay.any fun relay => relay.ready && relay.hasToken) ||
    (decide (s.trafficMode = .split) && s.targets.enabledRuleSpecs.isEmpty) ||
    !env.engineReady || !env.serviceReady

/-- `startSession` behind `beforeGameStart`, up to its first request. -/
def readState (work : WorkKind) (call : StartCall) (env : Surroundings) :
    Client × List Sent :=
  let relay := env.startRelay call
  if s.blocked env relay then ((s.become (.plain .error)).startDone work call, [])
  else
    let s := s.become (.plain .starting)
    if !env.credentials then s.abandon work call
    else
      let rules := s.targets.enabledRuleSpecs
      let request : Request := ⟨env.direct, relay.elim [] Relay.id, rules⟩
      ({ s with running := some (work, .preparing call request) }, [.prepareSession rules])

def validateRuntime (work : WorkKind) (call : StartCall) (request : Request) :
    Client × List Sent :=
  ({ s with running := some (work, .validating call request) }, [.validateRuntime])

/-- The session of an answered `start-session`. -/
def connected (call : StartCall) (request : Request) (mode : TrafficMode)
    (env : Surroundings) : Client :=
  let session : Session :=
    ⟨0, .connected, if request.direct then none else some request.relayId,
      some s.failover.watches.length, some mode⟩
  let watching := !request.direct && env.failoverEnabled && !call.moved && call.watchForFailover
  { s.become session with
    lease := .reset env.now, failover := s.failover.begin' watching,
      accepted := some request.rules }

/-- What follows `stopRunningSession`. -/
def stopped (work : WorkKind) (ok : Bool) : Client :=
  match work with
  | .start | .lost _ => s.finish work false
  | .stop => (s.become (.plain (if ok then .idle else .error))).finish work false
  | .quit => if ok then (s.become (.plain .idle)).finish work false else s.finish work true
  | .move _ main standby =>
    (s.become (.plain .starting)).startSession work ⟨some standby, true, true, some main⟩

/-- `stopRunningSession` behind its first request. -/
def stopService (work : WorkKind) (env : Surroundings) : Client × List Sent :=
  if env.serviceReady then
    ({ s with running := some (work, .stoppingService) }, [.stopSession work s.session.start])
  else (s.stopped work true, [])

/-- `stopRunningSession`, up to its first request. -/
def stopRunningSession (work : WorkKind) (env : Surroundings) : Client × List Sent :=
  if env.engineReady then
    ({ s with running := some (work, .stoppingEngine) }, [.stopWireguard work s.session.start])
  else s.stopService work env

/-- A work, up to its first request. -/
def begin' (work : WorkKind) (env : Surroundings) : Client × List Sent :=
  match work with
  | .start => (s.startSession work ⟨none, false, true, none⟩, [])
  | .stop => { s with failover := s.failover.end' }.stopRunningSession work env
  | .quit =>
    if s.session.status = .connected ∨ s.session.status = .starting then
      { s with failover := s.failover.end' }.stopRunningSession work env
    else (s.finish work false, [])
  | .lost object =>
    -- Start or stop may have replaced the session while the cleanup was queued.
    if s.session.object = object ∧ s.session.status = .connected then
      ({ s with running := some (work, .cleaning) }, [.stopSession work s.session.start])
    else (s.finish work false, [])
  | .move _ main _ =>
    if s.session.status = .connected ∧ s.session.relayId = some main then
      s.stopRunningSession work env
    else (s.finish work false, [])

/-- What follows the answer the running work has waited for. -/
def continue' (work : WorkKind) (env : Surroundings) (ok : Bool) :
    Stage → Client × List Sent
  | .stoppingEngine => if ok then s.stopService work env else (s.stopped work false, [])
  | .stoppingService => (s.stopped work ok, [])
  | .beforeGameStart call => if ok then s.readState work call env else (s.finish work true, [])
  | .preparing call request =>
    if !ok then s.abandon work call
    else if request.direct then s.validateRuntime work call request
    else
      ({ s with running := some (work, .resolving call request) }, [.lookup request.relayId])
  | .resolving call request =>
    if ok then s.validateRuntime work call request else s.abandon work call
  | .validating call request =>
    if ok then
      ({ s with running := some (work, .starting call request s.trafficMode) },
        [.startSession request.rules s.trafficMode])
    else s.abandon work call
  | .starting call request mode =>
    if ok then ((s.connected call request mode env).startDone work call, [])
    else s.abandon work call
  | .abandoning call => ((s.become (.plain .error)).startDone work call, [])
  | .cleaning =>
    ({ s.become (.plain .error) with failover := s.failover.end' }.finish work false, [])

/-! ### Polls -/

/-- `pollSessionStatus`, up to its request. -/
def poll (serviceReady : Bool) : Client × List Sent :=
  if s.session.status ≠ .connected ∨ serviceReady = false ∨ s.polling.isSome then (s, [])
  else ({ s with polling := some (.requested s.session.object) }, [.sessionStatus])

/-- What follows the answer to a status request. -/
def pollAnswered (now elapsed : Nat) (result : Except ServiceError Runtime) : Client :=
  match s.polling with
  | some (.requested object) =>
    let s := { s with polling := none }
    if s.session.object = object ∧ s.session.status = .connected then
      match result with
      | .ok runtime =>
        let s := { s with lease := .reset now }
        if runtime.direct then s
        else { s with failover := s.failover.observe elapsed runtime.connected runtime.uplink }
      | .error error =>
        let (over', lease) := s.lease.failed error now
        let s := { s with lease := lease }
        if over' then { s with polling := some .cleaning }.sessionExclusive (.lost object) else s
    else s
  | _ => s

/-! ### Moves -/

/-- `moveToStandby` goes on to the session queue. -/
def queueMove (call : MoveCall) : Client :=
  { s with call := some { call with stage := .queued } }.sessionExclusive
    (.move call.watch call.main call.standby)

/-- `moveToStandby`, up to its first wait. -/
def moveToStandby (watch : Nat) (directWitness : Bool) (env : Surroundings) :
    Client × List Sent :=
  match env.relay s.session.relayId with
  | none => ({ s with call := some ⟨watch, [], [], .done .noStandby⟩ }, [])
  | some main =>
    match standbyRelayFor env.relays main env.standbyRelayId with
    | none => ({ s with call := some ⟨watch, main.id, [], .done .noStandby⟩ }, [])
    | some standby =>
      let call : MoveCall := ⟨watch, main.id, standby.id, .probing⟩
      if directWitness && decide (s.trafficMode = .split) then
        ({ s with call := some call }, [.probeRelay standby.id])
      else (s.queueMove call, [])

/-- The failover's move comes to its call of `moveToStandby`; there is one move at a time. -/
def moveCalled (env : Surroundings) : Client × List Sent :=
  match s.failover.moves with
  | m :: _ =>
    if m.stage = .scheduled ∧ s.call = none then
      { s with failover := s.failover.moveCalled 0 }.moveToStandby m.session
        ((s.failover.watches[m.session]?).any Watch.directWitness) env
    else (s, [])
  | [] => (s, [])

/-- The probe of the standby relay is answered. -/
def standbyProbed (reachable : Bool) : Client :=
  match s.call with
  | some call =>
    if call.stage = .probing then
      if reachable then s.queueMove call
      else { s with call := some { call with stage := .done .standbyDown } }
    else s
  | none => s

/-- `moveToStandby` is done. -/
def moveResolved : Client :=
  match s.call with
  | some ⟨_, _, _, .done outcome⟩ =>
    { s with failover := s.failover.moveResolved 0 outcome, call := none }
  | _ => s

/-! ### Edits -/

/-- `refreshActiveSplitCapture`: the rules it sends, if any. -/
def refreshActiveSplitCapture : Option (List RuleSpec) :=
  if s.session.status = .connected ∧ s.trafficMode = .split then some s.targets.enabledRuleSpecs
  else none

/-- An edit, up to its request. -/
def editTurn : Client × List Sent :=
  match s.editing, s.edits with
  | none, change :: edits =>
    let previous := s.targets
    let s := { s with edits := edits, targets := s.targets.change change }
    let rules := s.refreshActiveSplitCapture
    ({ s with editing := some (.refreshing previous rules) },
      rules.toList.map .updateSessionRules)
  | _, _ => (s, [])

/-- The service accepts the rules it was sent. -/
def accept (rules : Option (List RuleSpec)) : Client :=
  { s with accepted := rules.or s.accepted }

/-- The `catch` of `commitRuleChange`. -/
def restore (previous : Targets) : Client × List Sent :=
  let s := { s with targets := previous }
  let rules := s.refreshActiveSplitCapture
  ({ s with editing := some (.restoring rules) }, rules.toList.map .updateSessionRules)

/-- What follows the answer an edit has waited for; `saved` if the state could be written. -/
def editAnswered (ok saved : Bool) : Client × List Sent :=
  match s.editing with
  | none => (s, [])
  | some (.refreshing previous rules) =>
    if ok || rules.isNone then
      let s := s.accept rules
      if saved then ({ s with editing := none }, []) else s.restore previous
    else s.restore previous
  | some (.restoring rules) =>
    ({ (if ok then s.accept rules else s) with editing := none }, [])

/-! ### Steps -/

/-- One event, with the requests it sends. -/
def step : ClientEvent → Client × List Sent
  | .engineStart => (s.sessionExclusive .start, [])
  | .engineStop => (s.sessionExclusive .stop, [])
  | .quit => (s.sessionExclusive .quit, [])
  | .turn env =>
    match s.running, s.queue with
    | none, work :: queue => { s with queue := queue }.begin' work env
    | _, _ => (s, [])
  | .answered env ok =>
    match s.running with
    | some (work, stage) => s.continue' work env ok stage
    | none => (s, [])
  | .poll serviceReady => s.poll serviceReady
  | .pollAnswered now elapsed result => (s.pollAnswered now elapsed result, [])
  | .probeAnswered elapsed reachable =>
    ({ s with failover := s.failover.probeAnswered 0 elapsed reachable }, [])
  | .probeFreed => ({ s with failover := s.failover.probeFreed 0 }, [])
  | .moveCalled env => s.moveCalled env
  | .standbyProbed reachable => (s.standbyProbed reachable, [])
  | .moveResolved => (s.moveResolved, [])
  | .moveFreed => ({ s with failover := s.failover.moveFreed 0 }, [])
  | .setTrafficMode mode => ({ s with trafficMode := mode }, [])
  | .groupAdded id =>
    -- The id is a new one.
    (if s.targets.fresh id then
      { s with targets := { s.targets with ruleGroups := s.targets.ruleGroups ++ [⟨id, true⟩] } }
    else s, [])
  | .edit (.add id kind value groupId) =>
    let value := Lib.JsString.trim value
    (if value.isEmpty then s else { s with edits := s.edits ++ [.add id kind value groupId] }, [])
  | .edit change => ({ s with edits := s.edits ++ [change] }, [])
  | .editTurn => s.editTurn
  | .editAnswered ok saved => s.editAnswered ok saved

/-! ### A client to run -/

/-- Two relays are set up, and the first is the active one. -/
def twoRelays : Surroundings where
  now := 0
  direct := false
  nodesBlock := false
  credentials := true
  relays := [⟨['a'], ['x'], true, true⟩, ⟨['b'], ['y'], true, true⟩]
  activeRelayId := some ['a']
  failoverEnabled := true
  standbyRelayId := none
  engineReady := true
  serviceReady := true

/-- A client with one target, in split mode. -/
def oneTarget : Client := new ⟨[⟨['r'], ['k'], ['v'], true, none⟩], []⟩ .split 0

/-- A session starts. -/
def starts : List ClientEvent :=
  .engineStart :: .turn twoRelays :: List.replicate 5 (.answered twoRelays true)

end Client

end GamePath.Electron.Game
