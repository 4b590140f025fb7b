import GamePath.Engine.CaptureLocality
import GamePath.Engine.Capture.Loops

/-!
# What the kill switch and remote DNS hold back

A packet is protected when the kill switch is on and a rule takes it, or when it is a lookup that is
to be answered through the tunnel. A protected packet is routed with `hold_on_failure`
(`classify_of_protected`), at the second look as at the first, so that no answer of the driver or
the tunnel puts it back on the network stack. `guarded_move` says so of every step of every thread.
-/

namespace GamePath.Engine.SplitCapture

open Lib List
open Direct (isFakeIp isGloballyRoutableIpv4)
open FragmentRouter (Ticket Route)

/-! ## Protected packets -/

/-- The rules take the packet while the kill switch is on: the table matches it, its destination can
be reached through the tunnel and is not direct, and it is not on a socket of the engine or of a
proxy. A later fragment has no ports. -/
structure KillSwitched (registry : Registry) (captured : Captured) (fields : Ipv4Fields) :
    Prop where
  has_ports : isLaterFragment captured.bytes = false
  readable : ipv4Fields captured.bytes = some fields
  kill_switch : registry.killSwitch = true
  port : fields.destinationPort ≠ 53
  matched : ∃ found, captured.table.lookup fields = some found ∧
    isProxyUpstream captured.sockets.proxyOwns found.node fields = false
  routable : isGloballyRoutableIpv4 fields.destination = true
  not_direct : (captured.rules registry).isDirect fields.destination = false
  not_exit : captured.sockets.isExit fields = false

/-- What the rules say of a packet before it is known to be a lookup or not. -/
def ruleChoice (registry : Registry) (table : SelectorTable) (sockets : Sockets)
    (fields : Ipv4Fields) : Choice :=
  claimDatagram registry sockets fields (!fields.isLookup && registry.isDirect fields.destination)
    (claimLookup registry sockets fields (fromTable table fields)).1

/-- What `dns_policy::route` answers for a lookup. -/
def lookupRoute (registry : Registry) (table : SelectorTable) (sockets : Sockets) (bytes : Bytes)
    (fields : Ipv4Fields) :
    DnsRoute :=
  let ruleSelected := (ruleChoice registry table sockets fields).selected
  dnsRoute sockets.remoteEnabled sockets.ownAppsOnly sockets.yieldForeignLater ruleSelected
    (!ruleSelected && sockets.yieldForeign && sockets.fromApplicationLater)
    (isOwnLookup registry sockets fields (lookupName bytes fields))

/-- A lookup that is to be answered through the tunnel. -/
structure RemoteLookup (registry : Registry) (captured : Captured) (fields : Ipv4Fields) :
    Prop where
  has_ports : isLaterFragment captured.bytes = false
  readable : ipv4Fields captured.bytes = some fields
  lookup : fields.isLookup = true
  remote : lookupRoute
    (captured.rules registry) captured.table captured.sockets captured.bytes fields = .remote
  not_exit : captured.sockets.isExit fields = false

/-- A packet that must not leave on its own. -/
def Protected (registry : Registry) (captured : Captured) : Prop :=
  ∃ fields, KillSwitched registry captured fields ∨ RemoteLookup registry captured fields

/-- The packet as the second look meets it. -/
def Captured.again (captured : Captured) (look : Look) : Captured :=
  { captured with
    table := look.table
    sockets := { captured.sockets with proxyOwns := look.proxyOwns } }

/-- The packet as each look at it met it. -/
def Decided.looks (decided : Decided) : List Captured :=
  decided.captured :: (decided.second.map decided.captured.again).toList

/-- A packet that one of its looks finds protected. -/
def Decided.Protected (registry : Registry) (decided : Decided) : Prop :=
  ∃ captured ∈ decided.looks, SplitCapture.Protected registry captured

/-! ## The first look -/

section FirstLook

variable {registry : Registry} {table : SelectorTable} {sockets : Sockets} {bytes : Bytes}
  {fields : Ipv4Fields} {direct remoteDns ff : Bool} {redirect : Option Octets} {choice : Choice}

/-- The packet is held, or routed in such a way that a failure holds it. -/
def Verdict.Closed : Verdict → Prop
  | .held _ => True
  | .routed call _ => call.holdOnFailure = true
  | _ => False

theorem not_fake_of_routable (h : isGloballyRoutableIpv4 fields.destination = true) :
    registry.isFake fields.destination = false := by
  have hfake : isFakeIp fields.destination = false := by
    simp only [isGloballyRoutableIpv4, Bool.and_eq_true, Bool.not_eq_true'] at h
    exact h.2
  simp [Registry.isFake, hfake]

/-- Nothing takes back a selection whose destination can be reached, that is not direct and on
nobody's own socket. -/
theorem conclude_selected (hselected : choice.selected = true)
    (hexit : sockets.isExit fields = false)
    (hproxy : fields.isLookup = true ∨ isProxyUpstream sockets.proxyOwns choice.node fields = false)
    (hreached : redirect.isSome = true ∨ isGloballyRoutableIpv4 fields.destination = true)
    (hdirect : direct = false) :
    conclude registry sockets fields ff direct remoteDns redirect choice =
      .routed ⟨fields, choice.processId, choice.node, registry.killSwitch || remoteDns,
        redirect⟩ ff := by
  have hown : (sockets.isExit fields ||
      (!fields.isLookup && isProxyUpstream sockets.proxyOwns choice.node fields)) = false := by
    rcases hproxy with h | h <;> simp [hexit, h]
  have hmeant : (registry.isFake fields.destination || redirect.isSome ||
      isGloballyRoutableIpv4 fields.destination) = true := by
    rcases hreached with h | h <;> simp [h]
  simp [conclude, hselected, hown, hmeant, hdirect]

theorem decideSyn_selected (h : choice.selected = true) :
    decideSyn registry sockets bytes fields ff direct remoteDns redirect choice =
      conclude registry sockets fields ff direct remoteDns redirect choice := by
  simp [decideSyn, h]

theorem claimRedirect_selected (h : choice.selected = true) :
    claimRedirect redirect choice = choice := by
  cases choice
  cases redirect <;> simp_all [claimRedirect]

theorem claimFake_selected_of (h : choice.selected = true) :
    (claimFake registry fields choice).selected = true := by
  cases hfake : registry.isFake fields.destination <;> simp [claimFake, hfake, h]

theorem claimFake_of_not_fake (h : registry.isFake fields.destination = false) :
    claimFake registry fields choice = choice := by
  simp [claimFake, h]

theorem classifyRest_remote (hlookup : fields.isLookup = true)
    (hexit : sockets.isExit fields = false) (hselected : choice.selected = true) :
    (classifyRest registry sockets bytes fields ff false true choice).Closed := by
  have hsel : (claimFake registry fields (claimRedirect (redirectOf true fields) choice)).selected =
      true := by
    rw [claimRedirect_selected hselected]
    exact claimFake_selected_of hselected
  have hreached : (redirectOf true fields).isSome = true ∨
      isGloballyRoutableIpv4 fields.destination = true := by
    cases hroutable : isGloballyRoutableIpv4 fields.destination with
    | true => exact .inr rfl
    | false => exact .inl (by simp [redirectOf, isOutsideNameResolution, hlookup, hroutable])
  show (decideSyn _ _ _ _ _ _ _ _ _).Closed
  rw [decideSyn_selected hsel, conclude_selected hsel hexit (.inl hlookup) hreached rfl]
  exact Bool.or_true _

end FirstLook

variable {registry : Registry} {limits : Limits} {captured : Captured} {fields : Ipv4Fields}

theorem lookupRoute_socketsNow (paths : ReturnPaths) :
    lookupRoute (captured.rules registry) captured.table
      (captured.socketsNow paths) captured.bytes fields =
      lookupRoute (captured.rules registry) captured.table captured.sockets captured.bytes fields :=
        rfl

theorem not_lookup_of_port (h : fields.destinationPort ≠ 53) : fields.isLookup = false := by
  simp [Ipv4Fields.isLookup, h]

theorem classify_of_killSwitched (h : KillSwitched registry captured fields) (paths : ReturnPaths) :
    (classify (captured.rules registry) captured.table
      (captured.socketsNow paths) captured.bytes).Closed := by
  obtain ⟨found, hfound, hproxy⟩ := h.matched
  have hlookup := not_lookup_of_port h.port
  have hselected : (fromTable captured.table fields).selected = true := by simp [fromTable, hfound]
  have hchoice : claimDatagram (captured.rules registry) (captured.socketsNow paths) fields
      ((captured.rules registry).isDirect fields.destination) (fromTable captured.table fields) =
        fromTable captured.table fields := by
    simp [claimDatagram, hselected]
  have hnode : (fromTable captured.table fields).node = found.node := by simp [fromTable, hfound]
  have hfake : (captured.rules registry).isFake fields.destination = false :=
    not_fake_of_routable h.routable
  have hexit : (captured.socketsNow paths).isExit fields = false := h.not_exit
  have hown : isProxyUpstream (captured.socketsNow paths).proxyOwns
      (fromTable captured.table fields).node fields = false :=
    hnode ▸ hproxy
  simp only [classify, h.has_ports, h.readable, hlookup, Bool.false_eq_true, if_false,
    Bool.false_and, Bool.not_false, Bool.true_and, claimLookup_of_not_lookup hlookup, hchoice]
  show (decideSyn _ _ _ _ _ _ _ _ _).Closed
  rw [claimRedirect_selected hselected, claimFake_of_not_fake hfake, decideSyn_selected hselected,
    conclude_selected hselected hexit (.inr hown) (.inr h.routable) h.not_direct]
  show (registry.killSwitch || false) = true
  rw [h.kill_switch]
  rfl

theorem classify_of_remoteLookup (h : RemoteLookup registry captured fields) (paths : ReturnPaths) :
    (classify (captured.rules registry) captured.table
      (captured.socketsNow paths) captured.bytes).Closed := by
  have hroute := h.remote
  rw [← lookupRoute_socketsNow paths] at hroute
  simp only [lookupRoute, ruleChoice, h.lookup, Bool.not_true, Bool.false_and] at hroute
  simp only [classify, h.has_ports, h.readable, h.lookup, Bool.false_eq_true, if_false,
    Bool.true_and, Bool.not_true, Bool.false_and, if_true]
  split
  · exact trivial
  · rw [hroute]
    exact classifyRest_remote h.lookup h.not_exit rfl

theorem classify_of_protected (h : Protected registry captured) (paths : ReturnPaths) :
    (classify (captured.rules registry) captured.table
      (captured.socketsNow paths) captured.bytes).Closed := by
  obtain ⟨fields, hkill | hremote⟩ := h
  · exact classify_of_killSwitched hkill paths
  · exact classify_of_remoteLookup hremote paths

/-! ## The second look -/

/-- A SYN is held because the table does not match it. -/
theorem not_protected_of_pending {paths : ReturnPaths}
    (h : classify (captured.rules registry) captured.table
      (captured.socketsNow paths) captured.bytes =
      .pending fields) :
    ipv4Fields captured.bytes = some fields ∧ fields.isLookup = false ∧
      ¬ Protected registry captured := by
  have hheld := classify_pending_iff.1 h
  refine ⟨hheld.readable, not_lookup_of_port hheld.not_lookup, fun hprotected => ?_⟩
  have hclosed := classify_of_protected hprotected paths
  rw [h] at hclosed
  exact hclosed

theorem decidePending_of_protected {look : Look}
    (hreadable : ipv4Fields captured.bytes = some fields)
    (hlookup : fields.isLookup = false) (h : Protected registry (captured.again look)) :
    ∃ call, decidePending registry ⟨true, false, look.table, look.proxyOwns⟩ fields = some call ∧
      call.holdOnFailure = true := by
  obtain ⟨fields', hkill | hremote⟩ := h
  · cases hreadable.symm.trans hkill.readable
    obtain ⟨found, hfound, hproxy⟩ := hkill.matched
    change look.table.lookup fields = some found at hfound
    change isProxyUpstream look.proxyOwns found.node fields = false at hproxy
    exact ⟨⟨fields, found.processId, found.node, registry.killSwitch, none⟩,
      by simp [decidePending, hfound, hproxy], hkill.kill_switch⟩
  · cases hreadable.symm.trans hremote.readable
    rw [hremote.lookup] at hlookup
    cases hlookup

theorem hold_of_decidePending {look : SecondLook} {call : Routed}
    (h : decidePending registry look fields = some call) :
    look.stop = false ∧ call.holdOnFailure = registry.killSwitch := by
  simp only [decidePending] at h
  split at h
  · cases h
  next hstop =>
    split at h
    · cases h
    · split at h
      · cases h
      · cases h
        exact ⟨by simpa using hstop, rfl⟩

/-! ## Every step -/

/-- Where a thread may be with a protected packet: a failure holds it. -/
def Stage.Guarded (registry : Registry) : Stage → Prop
  | .routing decided call _ => call.holdOnFailure = false → ¬ decided.Protected registry
  | .sending decided call _ _ => call.holdOnFailure = false → ¬ decided.Protected registry
  | .settling captured _ route => route = .bypass → ¬ Protected registry captured
  | _ => True

/-- No protected packet is put back on the stack. -/
def Answer.Guarded (registry : Registry) : Answer → Prop
  | .passed decided => ¬ decided.Protected registry
  | _ => True

/-- Protected packets are held wherever they are. -/
structure LoopState.Guarded (registry : Registry) (s : LoopState) : Prop where
  stages : ∀ thread, (s.stages thread).Guarded registry
  pending : ∀ held ∈ s.pending, ipv4Fields held.1.bytes = some held.2 ∧ held.2.isLookup = false ∧
    ¬ Protected registry held.1

theorem protected_once : (Decided.mk captured none).Protected registry ↔
    Protected registry captured := by
  simp [Decided.Protected, Decided.looks]

theorem protected_twice {look : Look} : (Decided.mk captured (some look)).Protected registry ↔
    Protected registry captured ∨ Protected registry (captured.again look) := by
  simp [Decided.Protected, Decided.looks]

theorem protected_of_first {decided : Decided} (h : ¬ decided.Protected registry) :
    ¬ Protected registry decided.captured :=
  fun hfirst => h ⟨_, mem_cons_self, hfirst⟩

theorem afterwards_guarded {ticket : Option Ticket} {route : Route}
    (h : route = .bypass → ¬ Protected registry captured) :
    (afterwards captured ticket route).Guarded registry := by
  cases ticket with
  | none => exact trivial
  | some ticket => exact h

theorem dispatchTo_guarded {route : Route} (followers : List Follower) :
    (dispatchTo route followers).Guarded registry := by
  cases followers with
  | nil | cons => exact trivial

namespace LoopState

variable {s : LoopState}

theorem Guarded.stage (h : s.Guarded registry) {thread : Thread} {stage : Stage}
    (hstage : s.stages thread = stage) :
    stage.Guarded registry :=
  hstage ▸ h.stages thread

theorem goTo_guarded {thread : Thread} {stage : Stage} (h : s.Guarded registry)
    (hstage : stage.Guarded registry) :
    (s.goTo thread stage).Guarded registry := by
  refine ⟨fun thread' => ?_, h.pending⟩
  show (Function.update s.stages thread stage thread').Guarded registry
  by_cases hsame : thread' = thread
  · subst hsame
    rw [Function.update_self]
    exact hstage
  · rw [Function.update_of_ne hsame]
    exact h.stages thread'

theorem Guarded.queued (h : s.Guarded registry) {pending : List (Captured × Ipv4Fields)}
    (hpending : ∀ held ∈ pending, ipv4Fields held.1.bytes = some held.2 ∧ held.2.isLookup = false ∧
      ¬ Protected registry held.1) : LoopState.Guarded registry { s with pending := pending } :=
  ⟨h.stages, hpending⟩

/-- Every move keeps protected packets held, and while the capture is not stopped none puts one back
on the stack. -/
theorem guarded_move {s' : LoopState} {answer : Answer} (h : s.Guarded registry)
    (hmove : Moves registry limits s s' answer) :
    s'.Guarded registry ∧ (s.stopped = false → answer.Guarded registry) := by
  cases hmove with
  | stays => exact ⟨h, fun _ => trivial⟩
  | asks | replies | losesReply | removes | readdresses | stops =>
    exact ⟨⟨h.stages, h.pending⟩, fun _ => trivial⟩
  | follows worker hroute => exact ⟨goTo_guarded ⟨h.stages, h.pending⟩ trivial, fun _ => trivial⟩
  | begins worker packet captured now pick =>
    exact ⟨goTo_guarded ⟨h.stages, h.pending⟩ trivial, fun _ => trivial⟩
  | takes worker captured => exact ⟨goTo_guarded h trivial, fun _ => trivial⟩
  | passesUnreadable hstage hverdict =>
    -- A packet without fields is nobody's.
    refine ⟨goTo_guarded h trivial, fun _ hp => ?_⟩
    have hclosed := classify_of_protected (protected_once.1 hp) s.paths
    rw [hverdict] at hclosed
    exact hclosed
  | drops | carries | holds =>
    exact ⟨goTo_guarded h (afterwards_guarded nofun), fun _ => trivial⟩
  | queues hstage hverdict =>
    refine ⟨goTo_guarded (h.queued fun held hheld => ?_) trivial, fun _ => trivial⟩
    rcases mem_snoc.1 hheld with hheld | rfl
    · exact h.pending held hheld
    · exact not_protected_of_pending hverdict
  | passesSyn hstage hverdict =>
    exact ⟨goTo_guarded h trivial, fun _ hp => (not_protected_of_pending hverdict).2.2
      (protected_once.1 hp)⟩
  | @reinjects worker captured ticket first hstage hverdict =>
    have hnot : ¬ Protected registry captured := fun hp => by
      have hclosed := classify_of_protected hp s.paths
      rw [hverdict] at hclosed
      exact hclosed
    exact ⟨goTo_guarded h (afterwards_guarded fun _ => hnot),
      fun _ hp => hnot (protected_once.1 hp)⟩
  | selects hstage hverdict =>
    refine ⟨goTo_guarded h fun hhold hp => ?_, fun _ => trivial⟩
    have hclosed := classify_of_protected (protected_once.1 hp) s.paths
    rw [hverdict] at hclosed
    cases hhold.symm.trans hclosed
  | selectsAgain hpending hcall =>
    have hrest := h.queued fun held hheld => h.pending held (hpending ▸ mem_cons_of_mem _ hheld)
    obtain ⟨hreadable, hlookup, hnot⟩ := h.pending _ (hpending ▸ mem_cons_self)
    refine ⟨goTo_guarded hrest fun hfree hp => ?_, fun _ => trivial⟩
    rcases protected_twice.1 hp with hp | hp
    · exact hnot hp
    · obtain ⟨call', hcall', hheld⟩ := decidePending_of_protected hreadable hlookup hp
      have hstop : s.stopped = false := (hold_of_decidePending hcall).1
      rw [hstop, hcall'] at hcall
      rw [← Option.some.inj hcall, hheld] at hfree
      cases hfree
  | passesAgain hpending hnone =>
    have hrest := h.queued fun held hheld => h.pending held (hpending ▸ mem_cons_of_mem _ hheld)
    obtain ⟨hreadable, hlookup, hnot⟩ := h.pending _ (hpending ▸ mem_cons_self)
    refine ⟨hrest, fun hstop hp => ?_⟩
    rcases protected_twice.1 hp with hp | hp
    · exact hnot hp
    · obtain ⟨call', hcall', -⟩ := decidePending_of_protected hreadable hlookup hp
      rw [hstop, hcall'] at hnone
      cases hnone
  | records now pick hstage =>
    have hcall := h.stage hstage
    exact ⟨goTo_guarded ⟨h.stages, h.pending⟩ hcall, fun _ => trivial⟩
  | failsOpen hstage hhold =>
    -- What the tunnel did not take leaves on its own only if nothing protects it.
    have hcall := h.stage hstage
    exact ⟨goTo_guarded h (afterwards_guarded fun _ => protected_of_first (hcall hhold)),
      fun _ => hcall hhold⟩
  | settles now hstage => exact ⟨goTo_guarded ⟨h.stages, h.pending⟩ (dispatchTo_guarded _),
    fun _ => trivial⟩
  | dispatchesTunnel | dispatchesBypass | dispatchesDrop =>
    exact ⟨goTo_guarded h (dispatchTo_guarded _), fun _ => trivial⟩

end LoopState

/-- In every run, protected packets are held wherever they are. -/
theorem guarded_run (registry : Registry) (limits : Limits) (carried : CarriedFlows)
    (nodes : SessionNodes) (events : List Event) :
    (loopRun registry limits carried nodes events).state.Guarded registry := by
  refine Run.exec_invariant (I := fun c : Run.Config LoopState Event Answer =>
    c.state.Guarded registry) ?_ ?_ events
  · exact ⟨fun _ => trivial, fun held hheld => nomatch hheld⟩
  · exact fun c event h => (LoopState.guarded_move h
      (LoopState.step_moves registry limits c.state event)).1

end GamePath.Engine.SplitCapture
