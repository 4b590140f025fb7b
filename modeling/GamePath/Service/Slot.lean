import GamePath.Engine.Capture.Manager

/-!
# The two session slots of the service (`slot.rs`, `registry.rs`, `session.rs`)

The service runs a game session and a VPN side by side, each in a slot of its own. A slot owns an
engine, which captures its traffic, or, for a native L2TP session, connections of Windows and the
routes beside them. Each slot knows the other by a small summary only. This module has the slots,
their summaries, and what a live edit and a change of the other session do to a slot; the operations
run with the lock of the slot held.

The log lines, the lease's time, the figures of a session and the LAN proxy's status are left out,
and an engine is the manager of its capture. A request to an engine is answered.
-/

namespace GamePath.Service

open Engine Engine.Capture
open Direct (Text DirectSpec)

inductive SlotId where
  | game
  | vpn
  deriving DecidableEq

namespace SlotId

def other : SlotId → SlotId
  | game => vpn
  | vpn => game

/-- The role of the slot's engine. -/
def role : SlotId → Role
  | game => .game
  | vpn => .vpn

theorem eq_vpn {id : SlotId} (h : id ≠ .game) : id = .vpn := by
  cases id with
  | game => exact absurd rfl h
  | vpn => rfl

theorem other_ne (id : SlotId) : id.other ≠ id := by
  cases id <;> exact nofun

theorem other_other (id : SlotId) : id.other.other = id := by
  cases id <;> rfl

theorem eq_other {id id' : SlotId} (h : id ≠ id') : id = id'.other := by
  cases id with
  | game =>
    cases id' with
    | game => exact absurd rfl h
    | vpn => rfl
  | vpn =>
    cases id' with
    | game => rfl
    | vpn => exact absurd rfl h

end SlotId

/-- The status of a slot in its summary. -/
inductive Status where
  | idle
  | starting
  | connected
  deriving DecidableEq

/-- Why a slot stopped. -/
inductive StopReason where
  | gameAllTraffic
  | leaseExpired
  | named (text : Text)
  deriving DecidableEq

/-! ## Summaries -/

/-- `SlotSummary`. No traffic mode is the empty text. -/
structure SlotSummary where
  status : Status
  trafficMode : Option TrafficMode
  routeCount : Nat
  bypass : List Octets
  stopReason : Option StopReason
  appDnsRules : Bool
  deriving DecidableEq

namespace SlotSummary

def idle (reason : Option StopReason) : SlotSummary := ⟨.idle, none, 0, [], reason, false⟩

def isActive (s : SlotSummary) : Bool := decide (s.status ≠ .idle)

def ownsAllTraffic (s : SlotSummary) : Bool := s.isActive && decide (s.trafficMode = some .all)

end SlotSummary

/-- `publish`: whether the other slot has to hear of the change. -/
def needsUpdate (id : SlotId) (previous summary : SlotSummary) : Bool :=
  if previous = summary then false
  else
    previous.isActive != summary.isActive ||
      (decide (id = .game) &&
        (decide (previous.bypass ≠ summary.bypass) || previous.ownsAllTraffic !=
          summary.ownsAllTraffic))

/-! ## Slots -/

/-- `SessionSlot`. The rules are null, or a list. -/
structure SessionSlot where
  id : SlotId
  connected : Bool
  routeCount : Nat
  trafficMode : Option TrafficMode
  remoteDns : Bool
  killSwitch : Bool
  ownHostnames : List Text
  sessionRules : Option (List RuleSpec)
  direct : Option DirectSpec
  engine : Option PacketCaptureManager
  /-- The servers of the L2TP sessions. -/
  l2tpSessions : List Octets
  nativeL2tpDirect : Bool
  /-- Where the session's own tunnel traffic goes, which its engine or its L2TP session knows. -/
  tunnel : List Octets
  bypassRoutes : Option (Finset Octets)
  /-- Whether there is a lease, which can run out. -/
  leased : Bool
  stopReason : Option StopReason

namespace SessionSlot

def new (id : SlotId) : SessionSlot :=
  ⟨id, false, 0, none, false, false, [], none, none, none, [], false, [], none, false, none⟩

/-- `take_for_teardown`, of which nothing is left once it ran. -/
def takeForTeardown (slot : SessionSlot) (reason : Option StopReason) : SessionSlot :=
  { new slot.id with stopReason := reason }

/-- Whether a rule is for an application or a folder. -/
def isAppRule (rule : RuleSpec) : Bool :=
  decide (rule.kind = .application) || decide (rule.kind = .folder)

/-- Whether the slot can answer applications' own lookups, as `summary_of` has it. -/
def appDns (slot : SessionSlot) : Bool :=
  decide (slot.trafficMode = some .all) || slot.sessionRules.any fun rules => rules.any isAppRule

def summaryOf (slot : SessionSlot) (status : Status) (bypass : List Octets) : SlotSummary :=
  ⟨status, slot.trafficMode, slot.routeCount, bypass, none, slot.appDns⟩

/-- `capture_request`. A slot that captures has a traffic mode. -/
def captureRequest (slot : SessionSlot) (rules : List RuleSpec) (foreign : SlotSummary) :
    PacketCaptureRequest where
  trafficMode := slot.trafficMode.getD .all
  rules := rules
  remoteDns := slot.remoteDns
  killSwitch := slot.killSwitch
  ownHostnames := slot.ownHostnames
  foreignBypass := foreign.bypass
  otherSessionActive := foreign.isActive
  otherSessionAppDns := foreign.appDnsRules
  direct := slot.direct.getD ⟨[], []⟩

/-! ## Starting -/

/-- What a start is asked for. -/
structure StartRequest where
  trafficMode : TrafficMode
  remoteDns : Bool
  killSwitch : Bool
  ownHostnames : List Text
  direct : DirectSpec
  rules : List RuleSpec
  /-- One L2TP node and no relay: Windows routes the session by itself. -/
  native : Bool
  /-- The relay, where L2TP nodes are beside it. -/
  relay : Option Octets
  lanProxy : Bool
  deriving DecidableEq

/-- How opening a session goes. -/
structure StartOutcome where
  /-- Why it failed outside the capture, in a dial, the engine's start or a probe. -/
  failed : Option String
  capture : Attempt
  paths : Nat
  /-- Where the session's own tunnel traffic goes. -/
  bypass : List Octets
  l2tpSessions : List Octets
  /-- Whether a native session's LAN proxy got an engine. -/
  proxyEngine : Bool
  deriving DecidableEq

/-- The slot once `start_slot` has taken what it was asked for. -/
def prepare (id : SlotId) (q : StartRequest) : SessionSlot :=
  { new id with
    trafficMode := some q.trafficMode
    remoteDns := q.remoteDns
    killSwitch := decide (id = .vpn) && q.killSwitch
    ownHostnames := q.ownHostnames
    direct := if id = .vpn then some q.direct else none }

section Connect

variable (check : RuleCheck)

variable (slot : SessionSlot)

/-- `start_slot` of a session that an engine captures, from the prepared slot on. -/
def connectCaptured (q : StartRequest) (foreign : SlotSummary) (o : StartOutcome) :
    Option SessionSlot :=
  if o.failed.isSome then none
  else
    let capture := PacketCaptureManager.new.start check slot.id.role
      (slot.captureRequest q.rules foreign) o.capture
    match capture.1 with
    | .error _ => none
    | .ok _ =>
      some { slot with
        connected := true
        routeCount := o.paths
        sessionRules := some q.rules
        engine := some capture.2
        l2tpSessions := o.l2tpSessions
        tunnel := o.bypass
        -- The VPN connects straight to its nodes.
        bypassRoutes := if slot.id = .game then q.relay.map fun relay => {relay} else none
        leased := true }

/-- The request of `start-native-dns`. -/
def nativeDnsRequest (rules : List RuleSpec) (active appDns : Bool) : PacketCaptureRequest :=
  ⟨slot.trafficMode.getD .all, rules, true, false, slot.ownHostnames, [], active, appDns, ⟨[], []⟩⟩

/-- The engine of a native session: for its lookups, or for the LAN proxy alone. -/
def nativeEngine (q : StartRequest) (active appDns : Bool) (o : StartOutcome) :
    Option (Option PacketCaptureManager) :=
  if slot.remoteDns then
    let dns := PacketCaptureManager.new.startNativeDns check
      (slot.nativeDnsRequest q.rules active appDns) o.capture
    match dns.1 with
    | .error _ => none
    | .ok _ => some (some dns.2)
  else some (if q.lanProxy && o.proxyEngine then some PacketCaptureManager.new else none)

/-- `start_native_l2tp`, from the prepared slot on. What is told to the engine was read again. -/
def connectNative (q : StartRequest) (foreign : SlotSummary) (active appDns : Bool)
    (o : StartOutcome) : Option SessionSlot :=
  if o.failed.isSome ∨ o.l2tpSessions = [] then none
  else
    match slot.nativeEngine check q active appDns o with
    | none => none
    | some engine =>
      some { slot with
        connected := true
        routeCount := 1
        sessionRules := some q.rules
        engine := engine
        l2tpSessions := o.l2tpSessions
        nativeL2tpDirect := true
        tunnel := o.l2tpSessions.take 1
        bypassRoutes :=
          if q.trafficMode = .all ∧ slot.id = .vpn then some foreign.bypass.toFinset else none
        leased := true }

/-- A session that opens, of a native L2TP node or not. -/
def connect (q : StartRequest) (foreign : SlotSummary) (active appDns : Bool) (o : StartOutcome) :
    Option SessionSlot :=
  if q.native then
    slot.connectNative check q foreign active appDns o else slot.connectCaptured check q foreign o

end Connect

/-! ## Live edits -/

/-- What the calls of an edit answer: of the request, of its rollback, and of a native session's
routes. -/
structure EditOutcome where
  request : Attempt
  rollback : Attempt
  routes : Option String
  restoredRoutes : Option String
  deriving DecidableEq

/-- The answer of an edit: applied, refused before anything was tried, or rejected, with what its
rollback answered. -/
inductive EditAnswer where
  | applied
  | refused (error : String)
  | rejected (error : String)
  /-- The rollback failed as well. -/
  | unrestored (error rollbackError : String)
  deriving DecidableEq

/-- An edit was rejected and its rollback answered. -/
def rolledBack (error : String) : Except String Reply → EditAnswer
  | .ok _ => .rejected error
  | .error rollbackError => .unrestored error rollbackError

variable (check : RuleCheck)

/-- `update_session_rules` of a native L2TP session. -/
def updateNativeRules (slot : SessionSlot) (rules : List RuleSpec) (o : EditOutcome) :
    EditAnswer × SessionSlot :=
  if slot.l2tpSessions = [] then (.refused "no active L2TP direct session", slot)
  else
    match o.routes with
    | none => (.applied, { slot with sessionRules := some rules, leased := true })
    | some e =>
      match o.restoredRoutes with
      | none => (.rejected e, slot)
      | some e' => (.unrestored e e', slot)

/-- The end of `update_session_rules` where there were no rules before: the capture is started, and
stopped again where it does not start. -/
def startRules (slot : SessionSlot) (engine : PacketCaptureManager) (rules : List RuleSpec)
    (foreign : SlotSummary) (o : EditOutcome) : EditAnswer × SessionSlot :=
  let answer := engine.start check slot.id.role (slot.captureRequest rules foreign) o.request
  match answer.1 with
  | .ok _ => (.applied,
      { slot with engine := some answer.2, sessionRules := some rules, leased := true })
  | .error e => (.rejected e, { slot with engine := some answer.2.stop })

/-- The end of `update_session_rules` where there were rules before: the capture is updated, and
started with the previous rules where that fails. -/
def replaceRules (slot : SessionSlot) (engine : PacketCaptureManager) (rules : List RuleSpec)
    (foreign : SlotSummary) (o : EditOutcome) : EditAnswer × SessionSlot :=
  let answer := engine.update check slot.id.role (slot.captureRequest rules foreign) o.request
  match answer.1 with
  | .ok _ => (.applied,
      { slot with engine := some answer.2, sessionRules := some rules, leased := true })
  | .error e =>
    let restore := slot.captureRequest (slot.sessionRules.getD []) foreign
    let rollback := answer.2.start check slot.id.role restore o.rollback
    (rolledBack e rollback.1, { slot with engine := some rollback.2 })

/-- `update_session_rules` of a session that an engine captures. -/
def updateCapturedRules (slot : SessionSlot) (engine : PacketCaptureManager) (rules : List RuleSpec)
    (foreign : SlotSummary) (o : EditOutcome) : EditAnswer × SessionSlot :=
  if rules = [] ∧ slot.remoteDns = false then
    (.applied, { slot with engine := some engine.stop, sessionRules := some rules, leased := true })
  else if slot.sessionRules = some [] then slot.startRules check engine rules foreign o
  else slot.replaceRules check engine rules foreign o

/-- `update_session_rules`, with the slot locked; `foreign` was read before. -/
def updateSessionRules (slot : SessionSlot) (rules : List RuleSpec) (foreign : SlotSummary)
    (o : EditOutcome) :
    EditAnswer × SessionSlot :=
  if slot.connected = false ∨ slot.trafficMode ≠ some .split then
    (.refused "live target updates require a connected split session", slot)
  else if slot.nativeL2tpDirect then slot.updateNativeRules rules o
  else
    match slot.engine with
    | none => (.refused "no active network session", slot)
    | some engine => slot.updateCapturedRules check engine rules foreign o

/-- `update_session_direct`, with the slot locked. -/
def updateSessionDirect (slot : SessionSlot) (direct : DirectSpec) (o : EditOutcome) :
    EditAnswer × SessionSlot :=
  if slot.id ≠ .vpn then (.refused "only the VPN has a direct list", slot)
  else if slot.connected = false then (.refused "live direct list updates require a connected VPN",
    slot)
  else if slot.nativeL2tpDirect then
    (.refused "an L2TP/IPsec VPN is routed by Windows and has no direct list", slot)
  else
    match slot.engine with
    -- The new list stays recorded where there is no engine to tell.
    | none => (.refused "no active network session", { slot with direct := some direct })
    | some engine =>
      let answer := engine.setDirect check slot.id.role direct o.request
      match answer.1 with
      | .ok _ => (.applied,
          { slot with engine := some answer.2, direct := some direct, leased := true })
      | .error e =>
        let rollback := answer.2.setDirect check slot.id.role (slot.direct.getD ⟨[], []⟩) o.rollback
        (rolledBack e rollback.1, { slot with engine := some rollback.2 })

/-! ## The other session changed -/

/-- What the calls of a notification answer: of the engine's request, and whether the routes could
all be added. -/
structure NoticeOutcome where
  request : Attempt
  /-- The destinations that could not be added. -/
  missing : Finset Octets
  deriving DecidableEq

/-- `BypassRoutes::apply`: the set becomes what is wanted, but for what could not be added. -/
def applyRoutes (installed : Finset Octets) (wanted : List Octets) (missing : Finset Octets) :
    Finset Octets :=
  wanted.toFinset.filter fun address => address ∈ installed ∨ address ∉ missing

/-- `reconcile_other_session` of a connected game. -/
def tellGame (slot : SessionSlot) (foreign : SlotSummary) : SessionSlot :=
  { slot with
    engine := slot.engine.map fun engine =>
      (engine.setOtherSessionActive slot.id.role foreign.isActive foreign.appDnsRules).2 }

/-- `reconcile_other_session` of a connected VPN that does not yield. -/
def tellVpn (slot : SessionSlot) (foreign : SlotSummary) (o : NoticeOutcome) : SessionSlot :=
  let slot := if slot.nativeL2tpDirect then slot.tellGame foreign else slot
  match slot.bypassRoutes with
  | some installed =>
      { slot with bypassRoutes := some (applyRoutes installed foreign.bypass o.missing) }
  | none =>
    -- Split routes carry only the user's targets; nothing to keep clear.
    if slot.nativeL2tpDirect then slot
    else
      { slot with
        engine := slot.engine.map fun engine =>
          (engine.setForeignBypass check slot.id.role foreign.bypass foreign.isActive o.request).2 }

/-- `reconcile_other_session`, once it did not stop the slot. -/
def tell (slot : SessionSlot) (foreign : SlotSummary) (o : NoticeOutcome) : SessionSlot :=
  if slot.connected = false then slot
  else
    match slot.id with
    | .game => slot.tellGame foreign
    | .vpn => slot.tellVpn check foreign o

/-! ## What stays -/

variable {check}

/-- What an edit and a change of the other session leave alone. -/
structure SameSession (slot slot' : SessionSlot) : Prop where
  id : slot'.id = slot.id
  killSwitch : slot'.killSwitch = slot.killSwitch
  trafficMode : slot'.trafficMode = slot.trafficMode
  native : slot'.nativeL2tpDirect = slot.nativeL2tpDirect

/-- An edit gets past its checks. -/
def TakesEdits (slot : SessionSlot) : Prop :=
  slot.connected = true ∧ slot.trafficMode = some .split ∧ (slot.nativeL2tpDirect = true →
    slot.l2tpSessions ≠ []) ∧
    (slot.nativeL2tpDirect = false → slot.engine ≠ none)

instance (slot : SessionSlot) : Decidable slot.TakesEdits :=
  inferInstanceAs (Decidable (_ ∧ _ ∧ (_ → _) ∧ (_ → _)))

variable (check) in
/-- An edit of the rules writes nothing else. -/
theorem updateSessionRules_eq (slot : SessionSlot) (rules : List RuleSpec) (foreign : SlotSummary)
    (o : EditOutcome) :
    ∃ engine sessionRules leased, (slot.updateSessionRules check rules foreign o).2 =
      { slot with engine, sessionRules, leased } ∧
      (sessionRules = slot.sessionRules ∨ slot.TakesEdits ∧ sessionRules = some rules) := by
  rw [updateSessionRules]
  by_cases hoff : slot.connected = false ∨ slot.trafficMode ≠ some .split
  · rw [if_pos hoff]
    exact ⟨_, _, _, rfl, .inl rfl⟩
  rw [if_neg hoff]
  rw [not_or, Bool.not_eq_false, not_not] at hoff
  by_cases hnative : slot.nativeL2tpDirect = true
  · rw [if_pos hnative, updateNativeRules]
    split
    · exact ⟨_, _, _, rfl, .inl rfl⟩
    next hsessions =>
      split
      · exact ⟨_, _, _, rfl, .inr ⟨⟨hoff.1, hoff.2, fun _ => hsessions,
          fun hn => nomatch hnative.symm.trans hn⟩, rfl⟩⟩
      · split <;> exact ⟨_, _, _, rfl, .inl rfl⟩
  rw [if_neg hnative]
  cases hengine : slot.engine with
  | none => exact ⟨_, _, _, rfl, .inl rfl⟩
  | some engine =>
    have htakes : slot.TakesEdits := ⟨hoff.1,
        hoff.2, fun hn => absurd hn hnative, fun _ => by simp [hengine]⟩
    dsimp only
    rw [updateCapturedRules]
    split
    · exact ⟨_, _, _, rfl, .inr ⟨htakes, rfl⟩⟩
    split
    · rw [startRules]
      split
      · exact ⟨_, _, _, rfl, .inr ⟨htakes, rfl⟩⟩
      · exact ⟨_, _, _, rfl, .inl rfl⟩
    · rw [replaceRules]
      split
      · exact ⟨_, _, _, rfl, .inr ⟨htakes, rfl⟩⟩
      · exact ⟨_, _, _, rfl, .inl rfl⟩

theorem sameSession_updateSessionRules (slot : SessionSlot) (rules : List RuleSpec)
    (foreign : SlotSummary)
    (o : EditOutcome) : slot.SameSession (slot.updateSessionRules check rules foreign o).2 := by
  obtain ⟨engine, sessionRules, leased, heq, -⟩ := slot.updateSessionRules_eq check rules foreign o
  rw [heq]
  exact ⟨rfl, rfl, rfl, rfl⟩

theorem sameSession_updateSessionDirect (slot : SessionSlot)
    (direct : DirectSpec) (o : EditOutcome) :
    slot.SameSession (slot.updateSessionDirect check direct o).2 := by
  rw [updateSessionDirect]
  split
  · exact ⟨rfl, rfl, rfl, rfl⟩
  split
  · exact ⟨rfl, rfl, rfl, rfl⟩
  split
  · exact ⟨rfl, rfl, rfl, rfl⟩
  split
  · exact ⟨rfl, rfl, rfl, rfl⟩
  · dsimp only
    split <;> exact ⟨rfl, rfl, rfl, rfl⟩

variable (check) in
theorem tell_eq (slot : SessionSlot) (foreign : SlotSummary) (o : NoticeOutcome) :
    ∃ engine bypassRoutes, slot.tell check foreign o = { slot with engine, bypassRoutes } := by
  rw [tell]
  split
  · exact ⟨_, _, rfl⟩
  split
  · exact ⟨_, _, rfl⟩
  rw [tellVpn]
  by_cases hn : slot.nativeL2tpDirect = true
  · rw [if_pos hn]
    split
    · exact ⟨_, _, rfl⟩
    · split <;> exact ⟨_, _, rfl⟩
  · rw [if_neg hn]
    split
    · exact ⟨_, _, rfl⟩
    · split <;> exact ⟨_, _, rfl⟩

theorem sameSession_tell (slot : SessionSlot) (foreign : SlotSummary) (o : NoticeOutcome) :
    slot.SameSession (slot.tell check foreign o) := by
  obtain ⟨engine, bypassRoutes, heq⟩ := slot.tell_eq check foreign o
  rw [heq]
  exact ⟨rfl, rfl, rfl, rfl⟩

/-- A session that opens is the one that was asked for. -/
theorem connect_session {slot slot' : SessionSlot} {q : StartRequest} {foreign : SlotSummary}
    {active appDns : Bool}
    {o : StartOutcome} (h : slot.connect check q foreign active appDns o = some slot') :
    slot'.id = slot.id ∧ slot'.killSwitch = slot.killSwitch ∧ slot'.trafficMode = slot.trafficMode ∧
      slot'.nativeL2tpDirect = (q.native || slot.nativeL2tpDirect) := by
  rw [connect] at h
  split at h
  next hn =>
    rw [connectNative] at h
    split at h
    · cases h
    · split at h
      · cases h
      · cases h
        exact ⟨rfl, rfl, rfl, by simp [hn]⟩
  next hn =>
    rw [connectCaptured] at h
    split at h
    · cases h
    · dsimp only at h
      split at h
      · cases h
      · cases h
        exact ⟨rfl, rfl, rfl, by simp [hn]⟩

end SessionSlot

end GamePath.Service
