import GamePath.Engine.DirectList

/-!
# The packet capture of an engine (`capture.rs`, `ipc.rs`)

`PacketCaptureManager` owns the capture that feeds a session. A policy change replaces the capture:
its request is checked, a DNS guard is put over every interface, the live capture is dropped, and
what comes after may fail. So a request that is refused by the checks leaves the capture as it was,
and one that fails later leaves none.

What the calls into Windows answer is an input, one `Attempt` for a request; where it has an error,
the call fails with it. The addresses of the session's own tunnel, which every capture leaves alone
too, and the figures of the answers are left out. How one target of a rule is checked is a
parameter.
-/

namespace GamePath.Engine.Capture

open Direct (Text DirectSpec)

/-- Which session an engine carries (`role.rs`). -/
inductive Role where
  | game
  | vpn
  deriving DecidableEq

/-- The traffic mode of a session. -/
inductive TrafficMode where
  | all
  | split
  deriving DecidableEq

/-- The kind of a rule; any other text is kept as it is. -/
inductive RuleKind where
  | application
  | folder
  | hostname
  | ip
  | other (text : Text)
  deriving DecidableEq

structure RuleSpec where
  kind : RuleKind
  value : Text
  node : UInt8
  deriving DecidableEq

/-- What is wrong with a rule, if anything. -/
abbrev RuleCheck := RuleSpec → Option String

structure PacketCaptureRequest where
  trafficMode : TrafficMode
  rules : List RuleSpec
  remoteDns : Bool
  killSwitch : Bool
  ownHostnames : List Text
  foreignBypass : List Octets
  otherSessionActive : Bool
  otherSessionAppDns : Bool
  direct : DirectSpec
  deriving DecidableEq

/-- `DnsGuard`, with what it was started for and the two flags that can be changed. -/
structure DnsGuard where
  trafficMode : TrafficMode
  rules : List RuleSpec
  ownHostnames : List Text
  otherActive : Bool
  otherAppDns : Bool
  deriving DecidableEq

/-- `SplitPacketCapture`, as the options it was opened with. -/
structure SplitPacketCapture where
  rules : List RuleSpec
  foreignBypass : List Octets
  killSwitch : Bool
  remoteDns : Bool
  ownAppsOnly : Bool
  yieldForeignLookups : Bool
  ownHostnames : List Text
  resetExisting : Bool
  direct : DirectSpec
  deriving DecidableEq

/-- `WindowsPacketCapture`, with the destinations of its foreign routes and its direct list. -/
structure AllTrafficCapture where
  foreignRoutes : List Octets
  direct : Option DirectSpec
  deriving DecidableEq

/-- What the calls a request makes answer: nothing where they succeed, else the error. -/
structure Attempt where
  /-- The DNS guard over every interface, while a capture is replaced. -/
  transitionGuard : Option String
  /-- Whether there is a session to capture for. -/
  session : Option String
  dnsGuard : Option String
  splitCapture : Option String
  /-- The adapter, its packet ring and the routes of an all-traffic capture. -/
  tunnel : Option String
  resolvers : Option String
  /-- How many foreign routes of a running all-traffic capture are added before one fails, if one
  does. -/
  foreignRoutes : Option Nat
  deriving DecidableEq

/-- Every call succeeds. -/
def Attempt.succeeds : Attempt := ⟨none, none, none, none, none, none, none⟩

/-- The answer of a request, without its figures. -/
inductive Reply where
  | idle
  | capturing (mode : TrafficMode)
  | otherSessionActive (active : Bool)

structure PacketCaptureManager where
  active : Option AllTrafficCapture
  activeSplit : Option SplitPacketCapture
  dnsGuard : Option DnsGuard
  /-- Whether an adapter of Windows has this engine's resolvers. -/
  nativeDnsAdapter : Bool
  lastRequest : Option PacketCaptureRequest
  deriving DecidableEq

/-- `compile`, as far as it fails. `check` is what is wrong with a target. -/
def compile (check : RuleCheck) (mode : TrafficMode) (rules : List RuleSpec) : Option String :=
  match mode with
  | .all => none
  | .split => if rules.isEmpty then
    some "split mode requires at least one target" else rules.findSome? check

/-- A call that is only made when it is needed. -/
def needed (wanted : Bool) (outcome : Option String) :
    Option String := if wanted then outcome else none

/-- `DnsGuard::start`, of a request. -/
def DnsGuard.start (r : PacketCaptureRequest) : DnsGuard :=
  ⟨r.trafficMode, r.rules, r.ownHostnames, r.otherSessionActive, r.otherSessionAppDns⟩

def yieldsForeignLookups (role : Role) (otherSessionActive : Bool) : Bool :=
    decide (role = .game) && otherSessionActive

/-- `SplitPacketCapture::start`, of a request. -/
def SplitPacketCapture.start (role : Role) (r : PacketCaptureRequest) : SplitPacketCapture where
  rules := r.rules
  foreignBypass := r.foreignBypass
  killSwitch := r.killSwitch
  remoteDns := r.remoteDns
  ownAppsOnly := decide (role = .vpn) && r.otherSessionActive
  yieldForeignLookups := yieldsForeignLookups role (r.otherSessionActive && r.otherSessionAppDns)
  ownHostnames := r.ownHostnames
  -- The VPN must never end a connection the game carries.
  resetExisting := decide (role = .vpn) && !r.otherSessionActive
  direct := r.direct

/-- The second loop of `WindowsPacketCapture::set_foreign_bypass`: the destinations that have no
route get one, up to the first that fails. With what is left of the number of additions that
succeed. -/
def addForeignRoutes (routes : List Octets) : List Octets → Option Nat → Bool × List Octets
  | [], _ => (true, routes)
  | address :: rest, budget =>
    if address ∈ routes then addForeignRoutes routes rest budget
    else
      match budget with
      | none => addForeignRoutes (routes ++ [address]) rest none
      | some 0 => (false, routes)
      | some (count + 1) => addForeignRoutes (routes ++ [address]) rest (some count)

namespace AllTrafficCapture

def setForeignBypass (c : AllTrafficCapture) (addresses : List Octets) (budget : Option Nat) :
    Bool × AllTrafficCapture :=
  let added := addForeignRoutes (c.foreignRoutes.filter (· ∈ addresses)) addresses budget
  (added.1, { c with foreignRoutes := added.2 })

/-- The capture of a request; only the VPN has a direct list. -/
def start (role : Role) (r : PacketCaptureRequest) : AllTrafficCapture :=
  (setForeignBypass ⟨[], if role = .vpn then some r.direct else none⟩ r.foreignBypass none).2

end AllTrafficCapture

namespace PacketCaptureManager

/-- The manager of an engine that was just started. -/
def new : PacketCaptureManager := ⟨none, none, none, false, none⟩

/-- The part of `start` that opens a split capture. -/
def startSplit (role : Role) (m : PacketCaptureManager) (r : PacketCaptureRequest) (o : Attempt) :
    Except String Reply × PacketCaptureManager :=
  match needed r.remoteDns o.dnsGuard with
  | some e => (.error e, m)
  | none =>
    let m := { m with dnsGuard := if r.remoteDns then some (DnsGuard.start r) else none }
    match o.splitCapture with
    | some e => (.error e, m)
    | none => (.ok (.capturing .split),
      { m with activeSplit := some (SplitPacketCapture.start role r) })

/-- The part of `start` that opens an all-traffic capture. -/
def startAll (role : Role) (m : PacketCaptureManager) (r : PacketCaptureRequest) (o : Attempt) :
    Except String Reply × PacketCaptureManager :=
  match o.tunnel with
  | some e => (.error e, m)
  | none =>
    match needed r.remoteDns o.dnsGuard with
    | some e => (.error e, m)
    | none =>
      let m := { m with dnsGuard := if r.remoteDns then some (DnsGuard.start r) else none }
      match needed r.remoteDns o.resolvers with
      | some e => (.error e, m)
      | none =>
        (.ok (.capturing .all), { m with active := some (AllTrafficCapture.start role r) })

/-- `start`. A live capture is only dropped once the request was checked and the guard for the
change is there. -/
def start (check : RuleCheck) (role : Role) (m : PacketCaptureManager) (r : PacketCaptureRequest)
    (o : Attempt) : Except String Reply × PacketCaptureManager :=
  match compile check r.trafficMode r.rules with
  | some e => (.error e, m)
  | none =>
    match needed r.remoteDns o.transitionGuard with
    | some e => (.error e, m)
    | none =>
      let m := { m with active := none, activeSplit := none, lastRequest := some r }
      match o.session with
      | some e => (.error e, m)
      | none =>
        match r.trafficMode with
        | .split => startSplit role m r o
        | .all => startAll role m r o

/-- `start_native_dns`. The guard looks at the rules too. -/
def startNativeDns (check : RuleCheck) (m : PacketCaptureManager) (r : PacketCaptureRequest)
    (o : Attempt) : Except String Reply × PacketCaptureManager :=
  if r.remoteDns then
    match (compile check r.trafficMode r.rules).or o.dnsGuard with
    | some e => (.error e, m)
    | none =>
      match o.resolvers with
      | some e => (.error e, m)
      | none =>
        (.ok .idle,
          { m with
            nativeDnsAdapter := true
            dnsGuard := some (DnsGuard.start r)
            lastRequest := some r })
  else
    match needed m.nativeDnsAdapter o.resolvers with
    | some e => (.error e, { m with dnsGuard := none, nativeDnsAdapter := false })
    | none =>
      (.ok .idle, { m with dnsGuard := none, nativeDnsAdapter := false, lastRequest := some r })

def update (check : RuleCheck) (role : Role) (m : PacketCaptureManager) (r : PacketCaptureRequest)
    (o : Attempt) : Except String Reply × PacketCaptureManager :=
  if m.activeSplit = none then (.error "live target updates require an active split capture", m)
  else if r.trafficMode ≠ .split then (.error "live target updates require split traffic mode", m)
  else m.start check role r o

def status (m : PacketCaptureManager) : Reply :=
  if m.active.isSome then .capturing .all else if m.activeSplit.isSome then
    .capturing .split else .idle

def setForeignBypass (check : RuleCheck) (role : Role) (m : PacketCaptureManager)
    (addresses : List Octets) (otherSessionActive : Bool) (o : Attempt) :
    Except String Reply × PacketCaptureManager :=
  match m.lastRequest with
  | none => (.ok .idle, m)
  | some request =>
    let request :=
      { request with foreignBypass := addresses, otherSessionActive := otherSessionActive }
    match m.active with
    | some capture =>
      let set := capture.setForeignBypass addresses o.foreignRoutes
      let m := { m with active := some set.2 }
      if set.1 then (.ok m.status, { m with lastRequest := some request })
      else (.error "could not add a route", m)
    | none =>
      if m.activeSplit.isSome then m.start check role request o
      else (.ok .idle, { m with lastRequest := some request })

def setDirect (check : RuleCheck) (role : Role) (m : PacketCaptureManager) (direct : DirectSpec)
    (o : Attempt) : Except String Reply × PacketCaptureManager :=
  match m.lastRequest with
  | none => (.ok .idle, m)
  | some request =>
    let request := { request with direct := direct }
    match m.active with
    | some capture =>
      match capture.direct with
      | none => (.error "this session has no direct list", m)
      | some _ =>
        (.ok (.capturing .all),
          { m with
            active := some { capture with direct := some direct }
            lastRequest := some request })
    | none =>
      if m.activeSplit.isSome then m.start check role request o
      else (.ok .idle, { m with lastRequest := some request })

def stop (_ : PacketCaptureManager) : PacketCaptureManager := new

def setOtherSessionActive (role : Role) (m : PacketCaptureManager) (active canRouteApps : Bool) :
    Reply × PacketCaptureManager :=
  (.otherSessionActive active,
    { m with
      lastRequest := m.lastRequest.map fun request =>
        { request with otherSessionActive := active, otherSessionAppDns := canRouteApps }
      activeSplit := m.activeSplit.map fun split =>
        { split with yieldForeignLookups := yieldsForeignLookups role (active && canRouteApps) }
      dnsGuard := m.dnsGuard.map fun guard =>
        { guard with otherActive := active, otherAppDns := canRouteApps } })

/-! ## How a start goes -/

/-- The request is turned down before a live capture is touched. -/
def Refuses (check : RuleCheck) (r : PacketCaptureRequest) (o : Attempt) : Prop :=
  compile check r.trafficMode r.rules ≠ none ∨ needed r.remoteDns o.transitionGuard ≠ none

/-- Nothing fails once the live capture is dropped. -/
def Opens (r : PacketCaptureRequest) (o : Attempt) : Prop :=
  o.session = none ∧ needed r.remoteDns o.dnsGuard = none ∧
    (r.trafficMode = .split → o.splitCapture = none) ∧
    (r.trafficMode = .all → o.tunnel = none ∧ needed r.remoteDns o.resolvers = none)

instance (check : RuleCheck) (r : PacketCaptureRequest) (o : Attempt) :
    Decidable (Refuses check r o) :=
  inferInstanceAs (Decidable (_ ∨ _))

instance (r : PacketCaptureRequest) (o : Attempt) : Decidable (Opens r o) :=
  inferInstanceAs (Decidable (_ ∧ _ ∧ (_ → _) ∧ (_ → _)))

variable {check : RuleCheck} {role : Role} {m : PacketCaptureManager} {r : PacketCaptureRequest}
  {o : Attempt}

theorem start_refuses (h : Refuses check r o) : ∃ e, m.start check role r o = (.error e, m) := by
  rw [start]
  cases hcompile : compile check r.trafficMode r.rules with
  | some e => exact ⟨e, rfl⟩
  | none =>
    cases htransition : needed r.remoteDns o.transitionGuard with
    | some e => exact ⟨e, rfl⟩
    | none =>
      rcases h with hc | ht
      · exact absurd hcompile hc
      · exact absurd htransition ht

/-- The capture that was dropped, with the request that is recorded already. -/
def dropped (m : PacketCaptureManager) (r : PacketCaptureRequest) : PacketCaptureManager :=
  { m with active := none, activeSplit := none, lastRequest := some r }

/-- The manager once a request was opened. -/
def opened (role : Role) (m : PacketCaptureManager)
    (r : PacketCaptureRequest) : PacketCaptureManager :=
  let m := { dropped m r with dnsGuard := if r.remoteDns then some (DnsGuard.start r) else none }
  match r.trafficMode with
  | .split => { m with activeSplit := some (SplitPacketCapture.start role r) }
  | .all => { m with active := some (AllTrafficCapture.start role r) }

theorem start_not_refuses (h : ¬ Refuses check r o) :
    m.start check role r o =
      match o.session with
      | some e => (.error e, dropped m r)
      | none =>
        match r.trafficMode with
        | .split => startSplit role (dropped m r) r o
        | .all => startAll role (dropped m r) r o := by
  rw [Refuses, not_or, not_not, not_not] at h
  rw [start, h.1, h.2]
  rfl

theorem start_opens (h : ¬ Refuses check r o) (hopens : Opens r o) :
    m.start check role r o = (.ok (.capturing r.trafficMode), opened role m r) := by
  obtain ⟨hsession, hguard, hsplit, hall⟩ := hopens
  rw [start_not_refuses h, hsession, opened]
  cases hmode : r.trafficMode with
  | split =>
    rw [startSplit, hguard, hsplit hmode]
  | all =>
    rw [startAll, (hall hmode).1, hguard, (hall hmode).2]

/-- A request that fails later leaves no capture. -/
theorem start_fails (h : ¬ Refuses check r o) (hfails : ¬ Opens r o) :
    ∃ e guard, m.start check role r o = (.error e, { dropped m r with dnsGuard := guard }) := by
  rw [start_not_refuses h]
  cases hsession : o.session with
  | some e => exact ⟨e, m.dnsGuard, rfl⟩
  | none =>
    cases hmode : r.trafficMode with
    | split =>
      rw [startSplit]
      cases hguard : needed r.remoteDns o.dnsGuard with
      | some e => exact ⟨e, m.dnsGuard, rfl⟩
      | none =>
        cases hsplit : o.splitCapture with
        | some e => exact ⟨e, _, rfl⟩
        | none =>
          refine absurd ⟨hsession, hguard, fun _ => hsplit, fun hall => ?_⟩ hfails
          cases hmode.symm.trans hall
    | all =>
      rw [startAll]
      cases htunnel : o.tunnel with
      | some e => exact ⟨e, m.dnsGuard, rfl⟩
      | none =>
        cases hguard : needed r.remoteDns o.dnsGuard with
        | some e => exact ⟨e, m.dnsGuard, rfl⟩
        | none =>
          cases hresolvers : needed r.remoteDns o.resolvers with
          | some e => exact ⟨e, _, rfl⟩
          | none =>
            refine absurd ⟨hsession, hguard, fun hsplit => ?_,
              fun _ => ⟨htunnel, hresolvers⟩⟩ hfails
            cases hmode.symm.trans hsplit

/-- The three ways a start goes. -/
theorem start_cases (check : RuleCheck) (role : Role) (m : PacketCaptureManager)
    (r : PacketCaptureRequest) (o : Attempt) :
    (Refuses check r o ∧ ∃ e, m.start check role r o = (.error e, m)) ∨
    (¬ Refuses check r o ∧ Opens r o ∧
      m.start check role r o = (.ok (.capturing r.trafficMode), opened role m r)) ∨
    (¬ Refuses check r o ∧ ¬ Opens r o ∧
      ∃ e guard, m.start check role r o = (.error e, { dropped m r with dnsGuard := guard })) := by
  by_cases hrefuses : Refuses check r o
  · exact .inl ⟨hrefuses, start_refuses hrefuses⟩
  · by_cases hopens : Opens r o
    · exact .inr (.inl ⟨hrefuses, hopens, start_opens hrefuses hopens⟩)
    · exact .inr (.inr ⟨hrefuses, hopens, start_fails hrefuses hopens⟩)

end PacketCaptureManager

end GamePath.Engine.Capture
