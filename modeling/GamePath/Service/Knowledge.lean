import GamePath.Service.Slot

/-!
# What a slot knows of the other

Each slot holds what it was told of the other in several places: the request its engine would open
the capture with again, the guard of its lookups, the capture itself, and the bypass routes beside a
native session. `Knows` says that all of them hold what a summary says. A session that opens, an
edit that goes through and a notification each leave a slot that knows the summary they were given,
with one exception: the guard beside an all-traffic capture is not told that the other session came
or went.
-/

namespace GamePath.Service

open Engine List Engine.Capture
open PacketCaptureManager (dropped opened setOtherSessionActive update)
open Option (map_eq_some_iff)

/-- Everything the game's engine holds of the VPN is this. -/
structure KnowsVpn (m : PacketCaptureManager) (active appDns : Bool) : Prop where
  request : ∀ r, m.lastRequest = some r → r.otherSessionActive = active ∧
    r.otherSessionAppDns = appDns
  guard : ∀ g, m.dnsGuard = some g → g.otherActive = active ∧ g.otherAppDns = appDns
  split : ∀ c, m.activeSplit = some c → c.yieldForeignLookups = (active && appDns)

/-- Everything the VPN's engine holds of the game is this. The addresses of a native session are in
its routes. -/
structure KnowsGame (m : PacketCaptureManager) (native : Bool) (bypass : List Octets)
    (active : Bool) : Prop where
  request : ∀ r, m.lastRequest = some r → r.otherSessionActive = active ∧
    (native = false → r.foreignBypass = bypass)
  guard : ∀ g, m.dnsGuard = some g → g.otherActive = active
  split : ∀ c, m.activeSplit = some c → c.foreignBypass = bypass ∧ c.ownAppsOnly = active
  all : ∀ c, m.active = some c → ∀ address, address ∈ c.foreignRoutes ↔ address ∈ bypass

/-- What a summary says that matters to a slot. -/
def Agrees (id : SlotId) (f f' : SlotSummary) : Prop :=
  match id with
  | .game => f.isActive = f'.isActive ∧ f.appDnsRules = f'.appDnsRules
  | .vpn => f.bypass = f'.bypass ∧ f.isActive = f'.isActive

instance (id : SlotId) (f f' : SlotSummary) : Decidable (Agrees id f f') :=
  match id with
  | .game => inferInstanceAs (Decidable (_ ∧ _))
  | .vpn => inferInstanceAs (Decidable (_ ∧ _))

theorem Agrees.refl (id : SlotId) (f : SlotSummary) : Agrees id f f := by
  cases id <;> exact ⟨rfl, rfl⟩

theorem Agrees.trans {id : SlotId} {f f' f'' : SlotSummary} (h : Agrees id f f')
    (h' : Agrees id f' f'') :
    Agrees id f f'' := by
  cases id <;> exact ⟨h.1.trans h'.1, h.2.trans h'.2⟩

theorem Agrees.active {id : SlotId} {f f' : SlotSummary} (h : Agrees id f f') :
    f.isActive = f'.isActive := by
  cases id
  · exact h.1
  · exact h.2

namespace SessionSlot

/-- Everything the slot holds of the other one is what the summary says. -/
def Knows (slot : SessionSlot) (f : SlotSummary) : Prop :=
  match slot.id with
  | .game => ∀ m, slot.engine = some m → KnowsVpn m f.isActive f.appDnsRules
  | .vpn => (∀ routes, slot.bypassRoutes = some routes → routes = f.bypass.toFinset) ∧
      ∀ m, slot.engine = some m → KnowsGame m slot.nativeL2tpDirect f.bypass f.isActive

variable {slot : SessionSlot} {f f' : SlotSummary}

theorem knows_game (hid : slot.id = .game) :
    slot.Knows f ↔ ∀ m, slot.engine = some m → KnowsVpn m f.isActive f.appDnsRules := by
  rw [Knows, hid]

theorem knows_vpn (hid : slot.id = .vpn) :
    slot.Knows f ↔ (∀ routes, slot.bypassRoutes = some routes → routes = f.bypass.toFinset) ∧
      ∀ m, slot.engine = some m → KnowsGame m slot.nativeL2tpDirect f.bypass f.isActive := by
  rw [Knows, hid]

theorem Knows.congr (h : slot.Knows f) (hagrees : Agrees slot.id f f') : slot.Knows f' := by
  cases hid : slot.id with
  | game =>
    rw [hid] at hagrees
    rw [knows_game hid] at h ⊢
    rw [← hagrees.1, ← hagrees.2]
    exact h
  | vpn =>
    rw [hid] at hagrees
    rw [knows_vpn hid] at h ⊢
    rw [← hagrees.1, ← hagrees.2]
    exact h

end SessionSlot

/-! ## The manager -/

theorem knowsVpn_new (active appDns : Bool) : KnowsVpn .new active appDns :=
  ⟨fun r h => absurd h (by simp [PacketCaptureManager.new]),
    fun g h => absurd h (by simp [PacketCaptureManager.new]),
    fun c h => absurd h (by simp [PacketCaptureManager.new])⟩

theorem knowsGame_new (native : Bool) (bypass : List Octets) (active : Bool) :
    KnowsGame .new native bypass active :=
  ⟨fun r h => absurd h (by simp [PacketCaptureManager.new]),
    fun g h => absurd h (by simp [PacketCaptureManager.new]),
    fun c h => absurd h (by simp [PacketCaptureManager.new]),
      fun c h => absurd h (by simp [PacketCaptureManager.new])⟩

theorem mem_addForeignRoutes {routes addresses : List Octets} {budget : Option Nat}
    (h : (addForeignRoutes routes addresses budget).1 = true) (a : Octets) :
    a ∈ (addForeignRoutes routes addresses budget).2 ↔ a ∈ routes ∨ a ∈ addresses := by
  induction addresses generalizing routes budget with
  | nil =>
    exact ⟨.inl, fun h => h.resolve_right not_mem_nil⟩
  | cons address rest ih =>
    rw [addForeignRoutes.eq_def] at h ⊢
    dsimp only at h ⊢
    split at h
    next hthere =>
      rw [if_pos hthere, ih h, mem_cons]
      constructor
      · exact fun hmem => hmem.imp_right .inr
      · rintro (hmem | rfl | hmem)
        · exact .inl hmem
        · exact .inl hthere
        · exact .inr hmem
    next hnew =>
      have hsnoc : a ∈ routes ++ [address] ∨ a ∈ rest ↔ a ∈ routes ∨ a ∈ address :: rest := by
        rw [mem_append, mem_singleton, mem_cons, or_assoc]
      rw [if_neg hnew]
      cases budget with
      | none => exact (ih h).trans hsnoc
      | some count =>
        cases count with
        | zero => cases h
        | succ count => exact (ih h).trans hsnoc

theorem mem_setForeignBypass {capture : AllTrafficCapture} {addresses : List Octets}
    {budget : Option Nat} (h : (capture.setForeignBypass addresses budget).1 = true) (a : Octets) :
    a ∈ (capture.setForeignBypass addresses budget).2.foreignRoutes ↔ a ∈ addresses := by
  rw [AllTrafficCapture.setForeignBypass] at h ⊢
  rw [mem_addForeignRoutes h, mem_filter, decide_eq_true_iff]
  exact ⟨fun hmem => hmem.elim (·.2) id, .inr⟩

theorem addForeignRoutes_none (routes addresses : List Octets) :
    (addForeignRoutes routes addresses none).1 = true := by
  induction addresses generalizing routes with
  | nil => rfl
  | cons address rest ih =>
    rw [addForeignRoutes.eq_def]
    dsimp only
    split
    · exact ih routes
    · exact ih (routes ++ [address])

theorem mem_start_foreignRoutes (role : Role) (r : PacketCaptureRequest) (a : Octets) :
    a ∈ (AllTrafficCapture.start role r).foreignRoutes ↔ a ∈ r.foreignBypass :=
  mem_setForeignBypass (addForeignRoutes_none _ _) a

variable (m : PacketCaptureManager)

theorem knowsVpn_opened (r : PacketCaptureRequest) :
    KnowsVpn (m.opened .game r) r.otherSessionActive r.otherSessionAppDns := by
  rw [opened]
  refine ⟨fun r' hr => ?_, fun g hg => ?_, fun c hc => ?_⟩
  · have hlast : some r = some r' := by
      rw [← hr]
      cases r.trafficMode <;> rfl
    cases hlast
    exact ⟨rfl, rfl⟩
  · have hguard : (if r.remoteDns then some (DnsGuard.start r) else none) = some g := by
      rw [← hg]
      cases r.trafficMode <;> rfl
    split at hguard
    · cases hguard
      exact ⟨rfl, rfl⟩
    · cases hguard
  · cases hmode : r.trafficMode with
    | split =>
      rw [hmode] at hc
      cases hc
      rfl
    | all =>
      rw [hmode] at hc
      simp [dropped] at hc

theorem knowsGame_opened (r : PacketCaptureRequest) (native : Bool) :
    KnowsGame (m.opened .vpn r) native r.foreignBypass r.otherSessionActive := by
  rw [opened]
  refine ⟨fun r' hr => ?_, fun g hg => ?_, fun c hc => ?_, fun c hc => ?_⟩
  · have hlast : some r = some r' := by
      rw [← hr]
      cases r.trafficMode <;> rfl
    cases hlast
    exact ⟨rfl, fun _ => rfl⟩
  · have hguard : (if r.remoteDns then some (DnsGuard.start r) else none) = some g := by
      rw [← hg]
      cases r.trafficMode <;> rfl
    split at hguard
    · cases hguard
      rfl
    · cases hguard
  · cases hmode : r.trafficMode with
    | split =>
      rw [hmode] at hc
      cases hc
      exact ⟨rfl, rfl⟩
    | all =>
      rw [hmode] at hc
      simp [dropped] at hc
  · cases hmode : r.trafficMode with
    | split =>
      rw [hmode] at hc
      simp [dropped] at hc
    | all =>
      rw [hmode] at hc
      cases hc
      exact mem_start_foreignRoutes .vpn r

theorem start_ok {check : RuleCheck} {m : PacketCaptureManager} {role : Role}
    {r : PacketCaptureRequest}
    {o : Attempt} {reply : Reply} (h : (m.start check role r o).1 = .ok reply) :
    (m.start check role r o).2 = m.opened role r := by
  rcases PacketCaptureManager.start_cases check role m r o with ⟨-, e, heq⟩ | ⟨-, -, heq⟩ | ⟨-, -,
    e, guard, heq⟩
  · rw [heq] at h
    cases h
  · rw [heq]
  · rw [heq] at h
    cases h

theorem knowsVpn_setOtherSessionActive (active canRouteApps : Bool) :
    KnowsVpn (m.setOtherSessionActive .game active canRouteApps).2 active canRouteApps := by
  refine ⟨fun r hr => ?_, fun g hg => ?_, fun c hc => ?_⟩
  · obtain ⟨r', -, rfl⟩ := map_eq_some_iff.1 hr
    exact ⟨rfl, rfl⟩
  · obtain ⟨g', -, rfl⟩ := map_eq_some_iff.1 hg
    exact ⟨rfl, rfl⟩
  · obtain ⟨c', -, rfl⟩ := map_eq_some_iff.1 hc
    rfl

theorem knowsGame_setOtherSessionActive {m : PacketCaptureManager} (hsplit : m.activeSplit = none)
    (hall : m.active = none) (bypass : List Octets) (active canRouteApps : Bool) :
    KnowsGame (m.setOtherSessionActive .vpn active canRouteApps).2 true bypass active := by
  refine ⟨fun r hr => ?_, fun g hg => ?_, fun c hc => ?_, fun c hc => ?_⟩
  · obtain ⟨r', -, rfl⟩ := map_eq_some_iff.1 hr
    exact ⟨rfl, nofun⟩
  · obtain ⟨g', -, rfl⟩ := map_eq_some_iff.1 hg
    rfl
  · obtain ⟨c', hc', -⟩ := map_eq_some_iff.1 hc
    cases hsplit.symm.trans hc'
  · cases hall.symm.trans hc

/-- A manager that was stopped, or has a capture and the request it was opened with. -/
def Whole : Prop :=
  m = .new ∨ (m.lastRequest ≠ none ∧ (m.active ≠ none ∨ m.activeSplit ≠ none))

theorem whole_opened (role : Role) (r : PacketCaptureRequest) : Whole (m.opened role r) := by
  rw [opened]
  cases r.trafficMode with
  | split => exact .inr ⟨by simp [dropped], .inr (by simp)⟩
  | all => exact .inr ⟨by simp [dropped], .inl (by simp)⟩

theorem opened_only (role : Role) (r : PacketCaptureRequest) :
    (m.opened role r).active ≠ none → (m.opened role r).activeSplit = none := by
  rw [opened]
  cases r.trafficMode with
  | split => exact fun h => absurd rfl h
  | all => exact fun _ => rfl

/-- A notification that an engine answers leaves it with the game's addresses and activity, but for
the guard beside an all-traffic capture. -/
theorem knowsGame_setForeignBypass {check : RuleCheck} {m : PacketCaptureManager}
    {addresses : List Octets} {active : Bool} {o : Attempt} {reply : Reply} (hwhole : Whole m)
    (hok : (m.setForeignBypass check .vpn addresses active o).1 = .ok reply)
    (honly : m.active ≠ none → m.activeSplit = none) :
    ((m.active ≠ none → ∀ g ∈ m.dnsGuard, g.otherActive = active) →
        KnowsGame (m.setForeignBypass check .vpn addresses active o).2 false addresses active) ∧
      Whole (m.setForeignBypass check .vpn addresses active o).2 ∧
      ((m.setForeignBypass check .vpn addresses active o).2.active ≠ none →
        (m.setForeignBypass check .vpn addresses active o).2.activeSplit = none) := by
  rcases hwhole with rfl | ⟨hlast, hcapture⟩
  · exact ⟨fun _ => knowsGame_new false addresses active, .inl rfl, fun _ => rfl⟩
  obtain ⟨request, hrequest⟩ := Option.ne_none_iff_exists'.1 hlast
  rw [PacketCaptureManager.setForeignBypass, hrequest] at hok ⊢
  cases hactive : m.active with
  | some capture =>
    have hsome : m.active ≠ none := by simp [hactive]
    rw [hactive] at hok
    dsimp only at hok ⊢
    split at hok
    next hadded =>
      rw [if_pos hadded]
      refine ⟨fun hguard => ⟨fun r hr => ?_, hguard (by simp), fun c hc => ?_, fun c hc => ?_⟩,
        .inr ⟨by simp, .inl (by simp)⟩, fun _ => honly hsome⟩
      · cases hr
        exact ⟨rfl, fun _ => rfl⟩
      · cases (honly hsome).symm.trans hc
      · cases hc
        exact mem_setForeignBypass hadded
    · cases hok
  | none =>
    have hsplit : m.activeSplit.isSome = true :=
      Option.isSome_iff_ne_none.2 (hcapture.resolve_left fun h => h hactive)
    rw [hactive] at hok
    dsimp only at hok ⊢
    rw [if_pos hsplit] at hok ⊢
    rw [start_ok hok]
    exact ⟨fun _ => knowsGame_opened m _ false, whole_opened m .vpn _, opened_only m .vpn _⟩

/-! ## The slot -/

namespace SessionSlot

variable {check : RuleCheck} {slot slot' : SessionSlot} {f : SlotSummary}

/-- The slot's engine is whole, captures nothing for a native session, and only a native VPN has
routes of its own. -/
structure Fit (slot : SessionSlot) : Prop where
  whole : slot.nativeL2tpDirect = false → ∀ m, slot.engine = some m → Whole m ∧
    (m.active ≠ none → m.activeSplit = none)
  native : slot.nativeL2tpDirect = true → ∀ m, slot.engine = some m → m.activeSplit = none ∧
    m.active = none
  routes : slot.nativeL2tpDirect = false → slot.id = .vpn → slot.bypassRoutes = none

/-- A slot whose session is being opened. -/
structure Opening (slot : SessionSlot) : Prop where
  connected : slot.connected = false
  engine : slot.engine = none
  native : slot.nativeL2tpDirect = false

theorem fit_of_no_engine (hengine : slot.engine = none) (hroutes : slot.bypassRoutes = none) :
    slot.Fit :=
  ⟨fun _ m hm => absurd (hengine.symm.trans hm) (by simp),
    fun _ m hm => absurd (hengine.symm.trans hm) (by simp), fun _ _ => hroutes⟩

variable {m : PacketCaptureManager} {rules : List RuleSpec}

theorem knows_opened (f : SlotSummary)
    (hengine : slot'.engine = some (m.opened slot.id.role (slot.captureRequest rules f)))
    (hid : slot'.id = slot.id)
    (hroutes : slot'.id = .vpn → ∀ routes, slot'.bypassRoutes = some routes →
      routes = f.bypass.toFinset) :
    slot'.Knows f := by
  cases hs : slot.id with
  | game =>
    rw [knows_game (hid.trans hs)]
    intro m' hm'
    cases hengine.symm.trans hm'
    rw [hs]
    exact knowsVpn_opened m (slot.captureRequest rules f)
  | vpn =>
    rw [knows_vpn (hid.trans hs)]
    refine ⟨hroutes (hid.trans hs), fun m' hm' => ?_⟩
    cases hengine.symm.trans hm'
    rw [hs]
    exact knowsGame_opened m (slot.captureRequest rules f) slot'.nativeL2tpDirect

variable {q : StartRequest} {o : StartOutcome}

theorem connectCaptured_knows (hopening : slot.Opening)
    (h : slot.connectCaptured check q f o = some slot') : slot'.Knows f ∧ slot'.Fit := by
  rw [connectCaptured] at h
  split at h
  · cases h
  dsimp only at h
  split at h
  · cases h
  next reply hreply =>
    cases h
    have hopened := start_ok hreply
    refine ⟨knows_opened f (congrArg some hopened) rfl fun hvpn routes hroutes => ?_,
      fun _ m hm => ?_,
      fun hnative => ?_, fun _ hvpn => if_neg (by simp [show slot.id = .vpn from hvpn])⟩
    · rw [show slot.id = .vpn from hvpn] at hroutes
      cases hroutes
    · cases hm
      rw [hopened]
      exact ⟨whole_opened _ _ _, opened_only _ _ _⟩
    · cases hopening.native.symm.trans hnative

variable {active appDns : Bool}

/-- The engine of a native session, as far as it was told anything. -/
theorem nativeEngine_told {engine : Option PacketCaptureManager}
    (h : slot.nativeEngine check q active appDns o = some engine) :
    ∀ m, engine = some m → m = .new ∨ (slot.remoteDns = true ∧ m.activeSplit = none ∧
      m.active = none ∧
      (∀ r, m.lastRequest = some r → r.otherSessionActive = active ∧
        r.otherSessionAppDns = appDns) ∧
      ∀ g, m.dnsGuard = some g → g.otherActive = active ∧ g.otherAppDns = appDns) := by
  intro m hm
  rw [nativeEngine] at h
  split at h
  next hdns =>
    dsimp only at h
    split at h
    · cases h
    next reply hreply =>
      have hm' := Option.some.inj ((Option.some.inj h).trans hm)
      rw [PacketCaptureManager.startNativeDns, if_pos (by rfl)] at hreply hm'
      split at hreply
      · cases hreply
      split at hreply
      · cases hreply
      next _ hguard _ hresolvers =>
        rw [hguard, hresolvers] at hm'
        refine .inr ⟨hdns, ?_⟩
        rw [← hm']
        refine ⟨rfl, rfl, fun r hr => ?_, fun g hg => ?_⟩
        · cases hr
          exact ⟨rfl, rfl⟩
        · cases hg
          exact ⟨rfl, rfl⟩
  · have hnew := (Option.some.inj h).trans hm
    split at hnew
    · exact .inl (Option.some.inj hnew).symm
    · cases hnew

theorem connectNative_knows
    (h : slot.connectNative check q f active appDns o = some slot') :
    slot'.Fit ∧ ((slot.remoteDns = true → active = f.isActive ∧
      (slot.id = .game → appDns = f.appDnsRules)) →
      slot'.Knows f) := by
  rw [connectNative] at h
  split at h
  · cases h
  split at h
  · cases h
  next engine hengine =>
    cases h
    have htold := nativeEngine_told hengine
    refine ⟨⟨fun hn => absurd hn (by simp), fun _ m hm => ?_, fun hn => absurd hn (by simp)⟩,
      fun hread => ?_⟩
    · rcases htold m hm with rfl | ⟨-, hsplit, hall, -⟩
      · exact ⟨rfl, rfl⟩
      · exact ⟨hsplit, hall⟩
    by_cases hid : slot.id = .game
    · refine (knows_game ?_).2 fun m hm => ?_
      · exact hid
      · rcases htold m hm with rfl | ⟨hdns, hsplit, -, hrequest, hguard⟩
        · exact knowsVpn_new _ _
        · obtain ⟨rfl, happ⟩ := hread hdns
          obtain rfl := happ hid
          exact ⟨hrequest, hguard, fun c hc => absurd (hsplit.symm.trans hc) (by simp)⟩
    refine (knows_vpn ?_).2 ⟨fun routes hr => ?_, fun m hm => ?_⟩
    · exact SlotId.eq_vpn hid
    · split at hr
      · exact (Option.some.inj hr).symm
      · cases hr
    rcases htold m hm with rfl | ⟨hdns, hsplit, hall, hrequest, hguard⟩
    · exact knowsGame_new _ _ _
    · obtain ⟨rfl, -⟩ := hread hdns
      exact ⟨fun r hr => ⟨(hrequest r hr).1, fun hn => absurd hn (by simp)⟩,
        fun g hg => (hguard g hg).1, fun c hc => absurd (hsplit.symm.trans hc) (by simp),
        fun c hc => absurd (hall.symm.trans hc) (by simp)⟩

theorem connect_connected
    (h : slot.connect check q f active appDns o = some slot') : slot'.connected = true := by
  rw [connect] at h
  split at h
  · rw [connectNative] at h
    split at h
    · cases h
    · split at h
      · cases h
      · cases h
        rfl
  rw [connectCaptured] at h
  split at h
  · cases h
  · dsimp only at h
    split at h
    · cases h
    · cases h
      rfl

theorem connect_knows (hopening : slot.Opening)
    (h : slot.connect check q f active appDns o = some slot') :
    slot'.Fit ∧ ((q.native = true → slot.remoteDns = true →
      active = f.isActive ∧ (slot.id = .game → appDns = f.appDnsRules)) → slot'.Knows f) := by
  rw [connect] at h
  split at h
  next hn =>
    obtain ⟨hfit, hknows⟩ := connectNative_knows h
    exact ⟨hfit, fun hread => hknows (hread hn)⟩
  · obtain ⟨hknows, hfit⟩ := connectCaptured_knows hopening h
    exact ⟨hfit, fun _ => hknows⟩

/-! ## Notifications and edits -/

/-- Nothing that the edit asked for failed. -/
def EditAnswer.answered : EditAnswer → Bool
  | applied | refused _ => true
  | rejected _ | unrestored _ _ => false

theorem isOk_iff {ε α : Type} {x : Except ε α} : x.isOk = true ↔ ∃ a, x = .ok a := by
  cases x with
  | error e => exact ⟨fun h => absurd h (by simp [Except.isOk, Except.toBool]),
    fun ⟨a, h⟩ => absurd h (by simp)⟩
  | ok a => exact ⟨fun _ => ⟨a, rfl⟩, fun _ => rfl⟩

theorem whole_setOtherSessionActive (role : Role) (active canRouteApps : Bool)
    (h : Whole m ∧ (m.active ≠ none → m.activeSplit = none)) :
    Whole (m.setOtherSessionActive role active canRouteApps).2 ∧
      ((m.setOtherSessionActive role active canRouteApps).2.active ≠ none →
        (m.setOtherSessionActive role active canRouteApps).2.activeSplit = none) := by
  obtain ⟨hwhole, honly⟩ := h
  refine ⟨?_, fun hactive => ?_⟩
  · rcases hwhole with rfl | ⟨hlast, hcapture⟩
    · exact .inl rfl
    · refine .inr ⟨?_, hcapture.imp (fun h => h) fun h => ?_⟩
      · simpa [setOtherSessionActive] using hlast
      · simpa [setOtherSessionActive] using h
  · have hnone := honly hactive
    rw [setOtherSessionActive]
    rw [hnone]
    rfl

theorem fit_tellGame (hfit : slot.Fit) (f : SlotSummary) : (slot.tellGame f).Fit := by
  refine ⟨fun hn m hm => ?_, fun hn m hm => ?_, hfit.routes⟩
  · obtain ⟨m', hm', rfl⟩ := map_eq_some_iff.1 hm
    exact whole_setOtherSessionActive _ _ _ (hfit.whole hn m' hm')
  obtain ⟨m', hm', rfl⟩ := map_eq_some_iff.1 hm
  obtain ⟨hsplit, hall⟩ := hfit.native hn m' hm'
  refine ⟨?_, hall⟩
  rw [setOtherSessionActive]
  rw [hsplit]
  rfl

/-- Every request of a notification is answered, and every route of it added. -/
def NoticeAnswered (check : RuleCheck) (slot : SessionSlot) (f : SlotSummary)
    (o : NoticeOutcome) : Prop :=
  slot.id = .vpn → o.missing = ∅ ∧ (slot.nativeL2tpDirect = false → ∀ m ∈ slot.engine,
    (m.setForeignBypass check .vpn f.bypass f.isActive o.request).1.isOk = true)

instance (check : RuleCheck) (slot : SessionSlot) (f : SlotSummary) (o : NoticeOutcome) :
    Decidable (slot.NoticeAnswered check f o) :=
  inferInstanceAs (Decidable (_ → _ ∧ (_ → _)))

/-- The guard beside an all-traffic capture of the VPN holds the game's activity already. -/
def GuardTold (slot : SessionSlot) (f : SlotSummary) : Prop :=
  slot.id = .vpn → slot.nativeL2tpDirect = false → ∀ m ∈ slot.engine, m.active ≠ none →
    ∀ g ∈ m.dnsGuard, g.otherActive = f.isActive

instance (slot : SessionSlot) (f : SlotSummary) : Decidable (slot.GuardTold f) :=
  inferInstanceAs (Decidable (_ → _ → _))

theorem applyRoutes_all (installed : Finset Octets) (wanted : List Octets) :
    applyRoutes installed wanted ∅ = wanted.toFinset := by
  exact Finset.filter_true_of_mem fun a _ => .inr (Finset.notMem_empty a)

theorem tellVpn_knows {o : NoticeOutcome} (hid : slot.id = .vpn) (hfit : slot.Fit)
    (hanswered : slot.NoticeAnswered check f o) :
    (slot.GuardTold f → (slot.tellVpn check f o).Knows f) ∧ (slot.tellVpn check f o).Fit := by
  rw [tellVpn]
  cases hnative : slot.nativeL2tpDirect with
  | true =>
    have hengine : ∀ m, (slot.tellGame f).engine = some m →
        KnowsGame m true f.bypass f.isActive := by
      intro m hm
      obtain ⟨m', hm', rfl⟩ := map_eq_some_iff.1 hm
      obtain ⟨hsplit, hall⟩ := hfit.native hnative m' hm'
      rw [hid]
      exact knowsGame_setOtherSessionActive hsplit hall _ _ _
    have hfit' := fit_tellGame hfit f
    have hnative' : (slot.tellGame f).nativeL2tpDirect = true := hnative
    rw [if_pos rfl]
    cases hroutes : (slot.tellGame f).bypassRoutes with
    | none =>
      rw [if_pos hnative']
      refine ⟨fun _ => (knows_vpn ?_).2 ⟨fun routes hr => ?_, fun m hm => hnative'.symm ▸
        hengine m hm⟩, hfit'⟩
      · exact hid
      · cases hroutes.symm.trans hr
    | some installed =>
      refine ⟨fun _ => (knows_vpn ?_).2 ⟨fun routes hr => ?_, fun m hm => ?_⟩, hfit'.whole,
        hfit'.native, fun hn => ?_⟩
      · exact hid
      · cases hr
        rw [(hanswered hid).1]
        exact applyRoutes_all installed f.bypass
      · exact hnative'.symm ▸ hengine m hm
      · cases hnative'.symm.trans hn
  | false =>
    have hroutes := hfit.routes hnative hid
    rw [if_neg (by simp)]
    rw [hroutes]
    rw [if_neg (by simp [hnative])]
    have hboth : ∀ m, slot.engine = some m →
        (slot.GuardTold f →
            KnowsGame (m.setForeignBypass check slot.id.role f.bypass f.isActive o.request).2 false
                f.bypass f.isActive) ∧
          Whole (m.setForeignBypass check slot.id.role f.bypass f.isActive o.request).2 ∧
          ((m.setForeignBypass check slot.id.role f.bypass f.isActive o.request).2.active ≠ none →
            (m.setForeignBypass check slot.id.role f.bypass f.isActive o.request).2.activeSplit =
              none) := by
      intro m hm
      obtain ⟨hwhole, honly⟩ := hfit.whole hnative m hm
      obtain ⟨reply, hok⟩ := isOk_iff.1 ((hanswered hid).2 hnative m hm)
      obtain ⟨hknows, hkeeps⟩ := knowsGame_setForeignBypass hwhole hok honly
      rw [hid]
      exact ⟨fun hguard => hknows (hguard hid hnative m hm), hkeeps⟩
    refine ⟨fun hguard => (knows_vpn ?_).2 ⟨fun routes hr => ?_, fun m hm => ?_⟩, fun hn m hm => ?_,
      fun hn => ?_, fun _ _ => rfl⟩
    · exact hid
    · cases hr
    · obtain ⟨m', hm', rfl⟩ := map_eq_some_iff.1 hm
      exact hnative.symm ▸ (hboth m' hm').1 hguard
    · obtain ⟨m', hm', rfl⟩ := map_eq_some_iff.1 hm
      exact (hboth m' hm').2
    · cases hnative.symm.trans hn

theorem tell_knows {o : NoticeOutcome} (hfit : slot.Fit)
    (hanswered : slot.NoticeAnswered check f o) :
    (slot.tell check f o).Fit ∧
      (slot.GuardTold f → (slot.tell check f o).connected = true →
        (slot.tell check f o).Knows f) := by
  rw [tell]
  split
  · next hoff => exact ⟨hfit, fun _ hon => absurd (hoff.symm.trans hon) (by simp)⟩
  split
  next hid =>
    refine ⟨fit_tellGame hfit f, fun _ _ => (knows_game ?_).2 fun m hm => ?_⟩
    · exact hid
    · obtain ⟨m', -, rfl⟩ := map_eq_some_iff.1 hm
      rw [hid]
      exact knowsVpn_setOtherSessionActive m' _ _
  next hid =>
    obtain ⟨hknows, hfit'⟩ := tellVpn_knows hid hfit hanswered
    exact ⟨hfit', fun hguard _ => hknows hguard⟩

/-- The calls of an edit succeed: it is applied, or turned down before one is made. -/
def EditAnswered (check : RuleCheck) (slot : SessionSlot) (rules : List RuleSpec) (f : SlotSummary)
    (o : EditOutcome) : Prop :=
  (slot.updateSessionRules check rules f o).1.answered = true

instance (check : RuleCheck) (slot : SessionSlot) (rules : List RuleSpec) (f : SlotSummary)
    (o : EditOutcome) : Decidable (slot.EditAnswered check rules f o) :=
  inferInstanceAs (Decidable (_ = _))

theorem opened_knows (f : SlotSummary) (hfit : slot.Fit) (hnative : slot.nativeL2tpDirect = false)
    (hengine : slot'.engine = some (m.opened slot.id.role (slot.captureRequest rules f)))
    (hsame : slot.SameSession slot') (hroutes : slot'.bypassRoutes = slot.bypassRoutes) :
    slot'.Knows f ∧ slot'.Fit := by
  have hnone : slot'.id = .vpn → slot'.bypassRoutes = none := by
    intro hid
    rw [hroutes]
    exact hfit.routes hnative (hsame.id ▸ hid)
  refine ⟨knows_opened f hengine hsame.id fun hid routes hr => ?_, fun _ m' hm' => ?_, fun hn => ?_,
    fun _ => hnone⟩
  · cases (hnone hid).symm.trans hr
  · cases hengine.symm.trans hm'
    exact ⟨whole_opened _ _ _, opened_only _ _ _⟩
  · cases (hsame.native.trans hnative).symm.trans hn

theorem stopped_knows (f : SlotSummary) (hfit : slot.Fit) (hnative : slot.nativeL2tpDirect = false)
    (hengine : slot'.engine = some m.stop) (hsame : slot.SameSession slot')
    (hroutes : slot'.bypassRoutes = slot.bypassRoutes) : slot'.Knows f ∧ slot'.Fit := by
  have hnone : slot'.id = .vpn → slot'.bypassRoutes = none := by
    intro hid
    rw [hroutes]
    exact hfit.routes hnative (hsame.id ▸ hid)
  refine ⟨?_, fun _ m' hm' => ?_, fun hn => ?_, fun _ => hnone⟩
  · by_cases hid : slot'.id = .game
    · refine (knows_game hid).2 fun m' hm' => ?_
      cases hengine.symm.trans hm'
      exact knowsVpn_new _ _
    · have hid' := SlotId.eq_vpn hid
      refine (knows_vpn hid').2 ⟨fun routes hr => ?_, fun m' hm' => ?_⟩
      · cases (hnone hid').symm.trans hr
      · cases hengine.symm.trans hm'
        exact knowsGame_new _ _ _
  · cases hengine.symm.trans hm'
    exact ⟨.inl rfl, fun _ => rfl⟩
  · cases (hsame.native.trans hnative).symm.trans hn

theorem update_ok {role : Role} {r : PacketCaptureRequest} {o : Attempt} {reply : Reply}
    (h : (m.update check role r o).1 = .ok reply) :
    (m.update check role r o).2 = m.opened role r := by
  rw [update] at h ⊢
  split at h
  · cases h
  split at h
  · cases h
  next hcapture hmode =>
  rw [if_neg hcapture, if_neg hmode]
  exact start_ok h

theorem updateCapturedRules_knows {engine : PacketCaptureManager} {o : EditOutcome}
    (hfit : slot.Fit) (hnative : slot.nativeL2tpDirect = false)
    (hanswered : (slot.updateCapturedRules check engine rules f o).1.answered = true) :
    (slot.updateCapturedRules check engine rules f o).2.Knows f ∧
      (slot.updateCapturedRules check engine rules f o).2.Fit := by
  rw [updateCapturedRules] at hanswered ⊢
  by_cases hpause : rules = [] ∧ slot.remoteDns = false
  · rw [if_pos hpause]
    exact stopped_knows f hfit hnative rfl ⟨rfl, rfl, rfl, rfl⟩ rfl
  rw [if_neg hpause] at hanswered ⊢
  by_cases hempty : slot.sessionRules = some []
  · rw [if_pos hempty, startRules] at hanswered ⊢
    cases hreply : (engine.start check slot.id.role (slot.captureRequest rules f) o.request).1 with
    | ok reply => exact opened_knows f hfit hnative (congrArg some (start_ok hreply)) ⟨rfl,
        rfl, rfl, rfl⟩ rfl
    | error e =>
      rw [hreply] at hanswered
      simp [EditAnswer.answered] at hanswered
  rw [if_neg hempty, replaceRules] at hanswered ⊢
  cases hreply : (engine.update check slot.id.role (slot.captureRequest rules f) o.request).1 with
  | ok reply => exact opened_knows f hfit hnative (congrArg some (update_ok hreply)) ⟨rfl,
      rfl, rfl, rfl⟩ rfl
  | error e =>
    rw [hreply] at hanswered
    dsimp only [rolledBack] at hanswered
    split at hanswered <;> simp [EditAnswer.answered] at hanswered

/-- The edit asks the engine to capture, with what was read of the other slot. -/
def AsksEngine (slot : SessionSlot) (rules : List RuleSpec) : Prop :=
  slot.TakesEdits ∧ slot.nativeL2tpDirect = false ∧ ¬ (rules = [] ∧ slot.remoteDns = false)

instance (slot : SessionSlot) (rules : List RuleSpec) : Decidable (slot.AsksEngine rules) :=
  inferInstanceAs (Decidable (_ ∧ _ ∧ ¬ _))

theorem updateSessionRules_knows {o : EditOutcome} (hfit : slot.Fit)
    (hanswered : slot.EditAnswered check rules f o) :
    (slot.updateSessionRules check rules f o).2.Fit ∧
      ∀ cur, (slot.connected = true → slot.Knows cur) →
        (slot.AsksEngine rules → Agrees slot.id f cur) →
        (slot.updateSessionRules check rules f o).2.connected = true →
        (slot.updateSessionRules check rules f o).2.Knows cur := by
  have hid : (slot.updateSessionRules check rules f o).2.id = slot.id :=
    (slot.sameSession_updateSessionRules rules f o).id
  rw [EditAnswered] at hanswered
  rw [updateSessionRules] at hanswered hid ⊢
  by_cases hoff : slot.connected = false ∨ slot.trafficMode ≠ some .split
  · rw [if_pos hoff]
    exact ⟨hfit, fun _ hknows _ => hknows⟩
  rw [if_neg hoff] at hanswered hid ⊢
  by_cases hnative : slot.nativeL2tpDirect = true
  · -- The routes of a native session are those of its own targets.
    rw [if_pos hnative, updateNativeRules]
    split
    · exact ⟨hfit, fun _ hknows _ => hknows⟩
    · split
      · exact ⟨⟨hfit.whole, hfit.native, hfit.routes⟩, fun _ hknows _ => hknows⟩
      · split <;> exact ⟨hfit, fun _ hknows _ => hknows⟩
  rw [if_neg hnative] at hanswered hid ⊢
  rw [Bool.not_eq_true] at hnative
  cases hengine : slot.engine with
  | none => exact ⟨hfit, fun _ hknows _ => hknows⟩
  | some engine =>
    rw [hengine] at hanswered hid
    obtain ⟨hknows', hfit'⟩ := updateCapturedRules_knows hfit hnative hanswered
    refine ⟨hfit', fun cur hknows hagrees _ => ?_⟩
    by_cases hpause : rules = [] ∧ slot.remoteDns = false
    · dsimp only
      rw [updateCapturedRules, if_pos hpause]
      refine (stopped_knows (m := engine) cur hfit hnative ?_ ?_ ?_).1
      · rfl
      · exact ⟨rfl, rfl, rfl, rfl⟩
      · rfl
    · rw [not_or, Bool.not_eq_false, not_not] at hoff
      refine hknows'.congr (hid ▸ hagrees ⟨⟨hoff.1, hoff.2, fun hn => ?_, fun _ => ?_⟩,
        hnative, hpause⟩)
      · cases hnative.symm.trans hn
      · simp [hengine]

/-! ## What the other slot is told of -/

theorem appDns_updateSessionRules {o : EditOutcome}
    (hrules : slot.TakesEdits → rules.any isAppRule = slot.appDns) :
    (slot.updateSessionRules check rules f o).2.appDns = slot.appDns := by
  obtain ⟨engine, sessionRules, leased, heq, hkept | ⟨htakes, hset⟩⟩ :=
    slot.updateSessionRules_eq check rules f o
  · rw [heq, hkept]
    rfl
  · rw [← hrules htakes, heq, hset]
    simp [appDns, htakes.2.1]

end SessionSlot

end GamePath.Service
