import GamePath.Lib.Run
import GamePath.Engine.Tun2socks.Handshake

/-!
# Which transports carry a relay session (`session/start.rs`, `join.rs`, `relay_worker.rs`)

A relay session starts on the routes that are open, and the others join it as their dials finish. A
transport has to leave outside the capture, so its address must be one of those the session routes
around it, and no two routes may share an identity. The start keeps both rules by what it collects
and skips, and `JoinGate` checks them of a route that joins. A redial resolves the node's name
again, or looks for its adapter again, and puts what it opened in place of the old transport, with
neither check.

What a dial opens, and when it does, is an input. Health, probes and the back-off decide only when a
redial begins, and are left out.
-/

namespace GamePath.Engine.Session

open Lib.Run List
open Direct (Text)
open Tun2socks (IpAddr)

/-- `SocketAddr`, of either family. -/
structure Endpoint where
  ip : IpAddr
  port : UInt16
  deriving DecidableEq

inductive PathIdentity where
  | wireGuard (endpoint : Endpoint) (fingerprint : Bytes)
  | socks5 (proxy : Endpoint)
  | l2tp (server : Octets)
  | adapter (name : Text)
  | openVpn (endpoint : Endpoint) (fingerprint : Bytes)
  deriving DecidableEq

/-- A transport that implements `RelayPath`, as far as it is told apart. -/
inductive RelayPath where
  | wireGuard (endpoint : Endpoint) (fingerprint : Bytes)
  | socks5 (proxy : Endpoint)
  | l2tp (server : Octets)
  | adapter (name : Text)
  | openVpn (endpoint : Endpoint) (fingerprint : Bytes)
  deriving DecidableEq

namespace RelayPath

/-- `RelayPath::identity`. The name of an adapter is in lower case already. -/
def identity : RelayPath → PathIdentity
  | .wireGuard endpoint fingerprint => .wireGuard endpoint fingerprint
  | .socks5 proxy => .socks5 proxy
  | .l2tp server => .l2tp server
  | .adapter name => .adapter name
  | .openVpn endpoint fingerprint => .openVpn endpoint fingerprint

def bypassIpv4 : RelayPath → Option Octets
  | .wireGuard ⟨.v4 ip, _⟩ _ => some ip
  | .wireGuard ⟨.v6 _, _⟩ _ => none
  -- A loopback proxy is never reached through the default route.
  | .socks5 ⟨.v4 ip, _⟩ => if ip.1 = 127 then none else some ip
  | .socks5 ⟨.v6 _, _⟩ => none
  | .l2tp server => some server
  -- The pinned socket ignores the routing table.
  | .adapter _ => none
  | .openVpn ⟨.v4 ip, _⟩ _ => some ip
  | .openVpn ⟨.v6 _, _⟩ _ => none

end RelayPath

/-- `NodeSpec`, without what only the dial itself looks at, such as the name an adapter node goes
by. An L2TP node has the server the service connected. -/
inductive NodeSpec where
  | wireGuard (port : UInt16) (fingerprint : Bytes)
  | socks5 (port : UInt16)
  | l2tp (server : Octets)
  | adapter
  | openVpn (fingerprint : Bytes)
  deriving DecidableEq

/-- What a dial finds outside: the address the node's name resolved to this time, with the port of
the remote that answered, and the name, in lower case, of the adapter that `vpn_adapter::find` comes
to this time. -/
structure Found where
  remote : Endpoint
  adapter : Text
  deriving DecidableEq

/-- `NodeSpec::open` and `NodeSpec::reopen` when they succeed. -/
def NodeSpec.dial (node : NodeSpec) (found : Found) : RelayPath :=
  match node with
  | .wireGuard port fingerprint => .wireGuard ⟨found.remote.ip, port⟩ fingerprint
  | .socks5 port => .socks5 ⟨found.remote.ip, port⟩
  | .l2tp server => .l2tp server
  | .adapter => .adapter found.adapter
  | .openVpn fingerprint => .openVpn found.remote fingerprint

/-! ## Starting -/

inductive RouteStart where
  | opened (found : Found)
  | failed
  | joining
  deriving DecidableEq

/-- `DialledRoute`, with its node. -/
structure DialledRoute where
  node : NodeSpec
  endpoints : List Octets
  start : RouteStart

/-- A path worker: its dial is awaited, or it carries a transport and may have a redial under way,
or it is over. A redial is superseded when the transport answered again before it finished. -/
inductive Worker where
  | joining (node : NodeSpec)
  | carrying (node : NodeSpec) (path : RelayPath) (dialing : Option Bool)
  | ended

/-- The transport a worker carries. -/
def Worker.path : Worker → Option RelayPath
  | .carrying _ path _ => some path
  | _ => none

structure SessionRoute where
  worker : Worker
  endpoints : List Octets

/-- `link_endpoints`: the address the route opened on, or each one it may open on. -/
def SessionRoute.linkEndpoints (route : SessionRoute) : List Octets :=
  match route.worker.path with
  | some path => path.bypassIpv4.toList
  | none => route.endpoints

/-- The loop of `start_relay` over the dialled routes, with the identities of those before. -/
def sessionRoutes : List DialledRoute → List PathIdentity → List SessionRoute × List PathIdentity
  | [], identities => ([], identities)
  | dialled :: rest, identities =>
    match dialled.start with
    | .failed => sessionRoutes rest identities
    | .opened found =>
      let path := dialled.node.dial found
      if path.identity ∈ identities then sessionRoutes rest identities
      else
        let (routes, identities) := sessionRoutes rest (identities ++ [path.identity])
        (⟨.carrying dialled.node path none, dialled.endpoints⟩ :: routes, identities)
    | .joining =>
      let (routes, identities) := sessionRoutes rest identities
      (⟨.joining dialled.node, dialled.endpoints⟩ :: routes, identities)

/-- A relay session: its bypass addresses, the identities of its `JoinGate`, and its workers. -/
structure RelaySession where
  bypass : List Octets
  identities : List PathIdentity
  workers : List Worker

/-- `start_relay`, when a route is open. The addresses are kept sorted and without repetitions,
which nothing that looks one up can tell. -/
def startRelay (relayIp : Octets) (dialled : List DialledRoute) : Option RelaySession :=
  let (routes, identities) := sessionRoutes dialled []
  if routes.any fun route => route.worker.path.isSome then
    some
      { bypass := relayIp :: routes.flatMap fun route => route.linkEndpoints ++ route.endpoints
        identities
        workers := routes.map SessionRoute.worker }
  else none

/-! ## The workers -/

/-- What happens to a worker. -/
inductive RouteEvent where
  /-- The dial of a joining route opened a transport. -/
  | joined (index : Nat) (found : Found)
  /-- The dial failed for good. -/
  | refused (index : Nat)
  /-- A redial begins. -/
  | redial (index : Nat)
  /-- The transport answered again. -/
  | recovered (index : Nat)
  /-- The redial finished, with a transport or without one. -/
  | redialled (index : Nat) (found : Option Found)
  /-- The worker ends. -/
  | stopped (index : Nat)

namespace RelaySession

/-- `JoinGate::admit`: the session with the identity on record, unless one of the two rules is
broken. -/
def admitPath (s : RelaySession) (path : RelayPath) : Option RelaySession :=
  if path.bypassIpv4.any fun address => address ∉ s.bypass then none
  else if path.identity ∈ s.identities then none
  else some { s with identities := s.identities ++ [path.identity] }

/-- A worker is replaced. -/
def setWorker (s : RelaySession) (index : Nat) (worker : Worker) : RelaySession :=
  { s with workers := s.workers.set index worker }

/-- One event. -/
def step (s : RelaySession) : RouteEvent → RelaySession
  | .joined index found =>
    match s.workers[index]? with
    | some (.joining node) =>
      match s.admitPath (node.dial found) with
      | some s => s.setWorker index (.carrying node (node.dial found) none)
      | none => s.setWorker index .ended
    | _ => s
  | .refused index =>
    match s.workers[index]? with
    | some (.joining _) => s.setWorker index .ended
    | _ => s
  | .redial index =>
    match s.workers[index]? with
    | some (.carrying node path none) => s.setWorker index (.carrying node path (some false))
    | _ => s
  | .recovered index =>
    match s.workers[index]? with
    | some (.carrying node path (some _)) => s.setWorker index (.carrying node path (some true))
    | _ => s
  | .redialled index found =>
    match s.workers[index]? with
    | some (.carrying node path (some superseded)) =>
      -- The dial failed, or what it opened is not needed any more, or it takes the old transport's
      -- place.
      let opened := if superseded then none else found.map node.dial
      s.setWorker index (.carrying node (opened.getD path) none)
    | _ => s
  | .stopped index => s.setWorker index .ended

/-- The transport that a worker carries. -/
def Carries (s : RelaySession) (index : Nat) (path : RelayPath) : Prop :=
  ∃ worker, s.workers[index]? = some worker ∧ worker.path = some path

/-- Every transport leaves outside the capture, and no two have one identity. -/
structure Ruled (s : RelaySession) : Prop where
  bypassed : ∀ index path address, s.Carries index path → path.bypassIpv4 = some address →
    address ∈ s.bypass
  distinct : ∀ i j path path', s.Carries i path → s.Carries j path' →
    path.identity = path'.identity → i = j

/-! ## What the start keeps -/

/-- The transports of routes. -/
def carried (workers : List Worker) : List RelayPath := workers.filterMap Worker.path

theorem sessionRoutes_identities (dialled : List DialledRoute) : ∀ identities : List PathIdentity,
    (sessionRoutes dialled identities).2 = identities ++
        (carried ((sessionRoutes dialled identities).1.map SessionRoute.worker)).map
            RelayPath.identity ∧
      (identities.Nodup → (sessionRoutes dialled identities).2.Nodup) := by
  induction dialled with
  | nil => exact fun identities => ⟨(append_nil _).symm, id⟩
  | cons first rest ih =>
    intro identities
    rw [sessionRoutes]
    split
    · exact ih identities
    next found _ =>
      dsimp only
      split
      · exact ih identities
      next hnew =>
        obtain ⟨heq, hnodup⟩ := ih (identities ++ [(first.node.dial found).identity])
        refine ⟨?_, fun h => hnodup ?_⟩
        · rw [heq, append_assoc]
          rfl
        · rw [nodup_append]
          refine ⟨h, nodup_singleton _, fun a ha b hb => ?_⟩
          rw [mem_singleton.1 hb]
          rintro rfl
          exact hnew ha
    · exact ih identities

theorem index_of_identity {workers : List Worker}
    (h : ((carried workers).map RelayPath.identity).Nodup) {i j : Nat}
    {worker worker' : Worker} {path path' : RelayPath} (hi : workers[i]? = some worker)
    (hj : workers[j]? = some worker')
    (hpath : worker.path = some path) (hpath' : worker'.path = some path')
    (heq : path.identity = path'.identity) :
    i = j := by
  rw [List.Nodup, List.pairwise_map, carried, List.pairwise_filterMap,
      List.pairwise_iff_getElem] at h
  obtain ⟨hi', rfl⟩ := List.getElem?_eq_some_iff.1 hi
  obtain ⟨hj', rfl⟩ := List.getElem?_eq_some_iff.1 hj
  rcases Nat.lt_trichotomy i j with hlt | rfl | hlt
  · exact absurd heq (h i j hi' hj' hlt path hpath path' hpath')
  · rfl
  · exact absurd heq.symm (h j i hj' hi' hlt path' hpath' path hpath)

theorem startRelay_ruled {relayIp : Octets} {dialled : List DialledRoute} {s : RelaySession}
    (h : startRelay relayIp dialled = some s) : s.Ruled := by
  obtain ⟨heq, hnodup⟩ := sessionRoutes_identities dialled []
  rw [startRelay] at h
  dsimp only at h
  split at h
  · cases h
    refine ⟨fun index path address hcarries hbypass => ?_, fun i j path path' hi hj hsame => ?_⟩
    · obtain ⟨worker, hworker, hpath⟩ := hcarries
      obtain ⟨route, hroute, rfl⟩ := mem_map.1 (mem_of_getElem? hworker)
      refine mem_cons_of_mem _ (mem_flatMap.2 ⟨route, hroute, mem_append_left _ ?_⟩)
      rw [SessionRoute.linkEndpoints, hpath]
      exact Option.mem_toList.2 hbypass
    · obtain ⟨worker, hworker, hpath⟩ := hi
      obtain ⟨worker', hworker', hpath'⟩ := hj
      have hdistinct := hnodup nodup_nil
      rw [heq] at hdistinct
      exact index_of_identity hdistinct hworker hworker' hpath hpath' hsame
  · cases h

/-! ## What the events keep -/

variable {s : RelaySession} {index : Nat} {worker : Worker}

theorem carries_setWorker {j : Nat} {path : RelayPath} :
    (s.setWorker index worker).Carries j path ↔
      (j = index ∧ index < s.workers.length ∧ worker.path = some path) ∨
        (j ≠ index ∧ s.Carries j path) := by
  rw [Carries, setWorker]
  by_cases hj : j = index
  · subst hj
    cases hget : s.workers[j]? with
    | none =>
      have hlen : ¬ j < s.workers.length := Nat.not_lt.2 (getElem?_eq_none_iff.1 hget)
      simp [hlen]
    | some old =>
      have hlen : j < s.workers.length := (List.getElem?_eq_some_iff.1 hget).1
      simp [hlen]
  · rw [getElem?_set_ne (Ne.symm hj)]
    simp [hj, Carries]

/-- A transport that keeps both rules beside those of the other workers. -/
def Admissible (s : RelaySession) (index : Nat) (path : RelayPath) : Prop :=
  (∀ address, path.bypassIpv4 = some address → address ∈ s.bypass) ∧
    ∀ j other, j ≠ index → s.Carries j other → other.identity ≠ path.identity

theorem setWorker_ruled_iff (h : s.Ruled) (hindex : index < s.workers.length) :
    (s.setWorker index worker).Ruled ↔ ∀ path, worker.path = some path →
      s.Admissible index path := by
  constructor
  · intro hruled path hpath
    have hself : (s.setWorker index worker).Carries index path := carries_setWorker.2
      (.inl ⟨rfl, hindex, hpath⟩)
    refine ⟨fun address => hruled.bypassed index path address hself,
      fun j other hj hother heq => hj ?_⟩
    exact hruled.distinct j index other path (carries_setWorker.2 (.inr ⟨hj, hother⟩)) hself heq
  intro hadmissible
  refine ⟨fun j path address hcarries hbypass => ?_, fun i j path path' hi hj heq => ?_⟩
  · rcases carries_setWorker.1 hcarries with ⟨rfl, -, hpath⟩ | ⟨-, hold⟩
    · exact (hadmissible path hpath).1 address hbypass
    · exact h.bypassed j path address hold hbypass
  rcases carries_setWorker.1 hi with ⟨rfl, -, hpath⟩ | ⟨hne, hold⟩ <;>
    rcases carries_setWorker.1 hj with ⟨rfl, -, hpath'⟩ | ⟨hne', hold'⟩
  · rfl
  · exact absurd heq.symm ((hadmissible path hpath).2 j path' hne' hold')
  · exact absurd heq ((hadmissible path' hpath').2 i path hne hold)
  · exact h.distinct i j path path' hold hold' heq

theorem Ruled.admissible (h : s.Ruled) {path : RelayPath} (hcarries : s.Carries index path) :
    s.Admissible index path :=
  ⟨fun address => h.bypassed index path address hcarries,
    fun j other hj hother heq => hj (h.distinct j index other path hother hcarries heq)⟩

theorem Ruled.setWorker_same (h : s.Ruled) (hsame : ∀ path, worker.path = some path →
    s.Carries index path) :
    (s.setWorker index worker).Ruled := by
  by_cases hindex : index < s.workers.length
  · exact (setWorker_ruled_iff h hindex).2 fun path hpath => h.admissible (hsame path hpath)
  · have hnothing : s.setWorker index worker = s := by
      rw [setWorker, set_eq_of_length_le (Nat.not_lt.1 hindex)]
    rw [hnothing]
    exact h

end RelaySession

/-- A redial puts a transport in place that the session's gate would let in beside the others, and
no route joins with an identity that another was given by a redial behind the gate's back. -/
def RouteEvent.Fits (s : RelaySession) : RouteEvent → Prop
  | .joined index found => ∀ node, s.workers[index]? = some (.joining node) →
      (∀ address, (node.dial found).bypassIpv4 = some address → address ∈ s.bypass) →
      ∀ j other, s.Carries j other → other.identity = (node.dial found).identity →
        other.identity ∈ s.identities
  | .redialled index (some found) => ∀ node path,
    s.workers[index]? = some (.carrying node path (some false)) →
      s.Admissible index (node.dial found)
  | _ => True

namespace RelaySession

variable {s : RelaySession} {index : Nat} {path : RelayPath}

theorem carries_of_carrying {node : NodeSpec} {dialing : Option Bool}
    (hget : s.workers[index]? = some (.carrying node path dialing)) : s.Carries index path :=
  ⟨_, hget, rfl⟩

theorem not_carries_of_joining {node : NodeSpec} (hget : s.workers[index]? = some (.joining node)) :
    ¬ s.Carries index path := by
  rintro ⟨worker, hworker, hpath⟩
  cases hget.symm.trans hworker
  simp [Worker.path] at hpath

theorem admitPath_eq_some {s' : RelaySession} (h : s.admitPath path = some s') :
    (∀ address, path.bypassIpv4 = some address → address ∈ s.bypass) ∧
      path.identity ∉ s.identities ∧
      s' = { s with identities := s.identities ++ [path.identity] } := by
  rw [admitPath] at h
  split at h
  · cases h
  next hbypass =>
    split at h
    · cases h
    next hnew =>
      refine ⟨fun address haddress => ?_, hnew, (Option.some.inj h).symm⟩
      rw [haddress] at hbypass
      simpa using hbypass

theorem admitPath_eq_none (h : s.admitPath path = none)
    (hbypass : ∀ address, path.bypassIpv4 = some address → address ∈ s.bypass) :
    path.identity ∈ s.identities := by
  rw [admitPath] at h
  split at h
  next hany =>
    obtain ⟨address, haddress, hout⟩ := (Option.any_eq_true _ _).1 hany
    exact absurd (hbypass address haddress) (by simpa using hout)
  · split at h
    · next hold => exact hold
    · cases h

/-- An event keeps both rules exactly when it fits. -/
theorem step_ruled_iff (h : s.Ruled) (e : RouteEvent) : (s.step e).Ruled ↔ e.Fits s := by
  cases e with
  | joined index found =>
    rw [step]
    split
    next node hget =>
      have hindex : index < s.workers.length := (List.getElem?_eq_some_iff.1 hget).1
      split
      next s' hadmit =>
        obtain ⟨hbypass, hnew, rfl⟩ := admitPath_eq_some hadmit
        have hruled : ({ s with identities := s.identities ++ [(node.dial found).identity] } :
            RelaySession).Ruled :=
          ⟨h.bypassed, h.distinct⟩
        rw [setWorker_ruled_iff hruled hindex]
        constructor
        · intro hadmissible node' hget' _ j other hother heq
          obtain rfl : node = node' := by simpa using hget.symm.trans hget'
          have hj : j ≠ index := fun hj => not_carries_of_joining hget (hj ▸ hother)
          exact absurd heq ((hadmissible _ rfl).2 j other hj hother)
        · intro hfits path hpath
          cases hpath
          refine ⟨hbypass, fun j other _ hother heq => hnew ?_⟩
          rw [← heq]
          exact hfits node hget hbypass j other hother heq
      next hadmit =>
        refine iff_of_true (h.setWorker_same nofun) ?_
        intro node' hget' hbypass j other _ heq
        obtain rfl : node = node' := by simpa using hget.symm.trans hget'
        rw [heq]
        exact admitPath_eq_none hadmit hbypass
    · next hnone => exact iff_of_true h fun node hget => absurd hget (hnone node)
  | refused index =>
    refine iff_of_true ?_ trivial
    rw [step]
    split
    · exact h.setWorker_same nofun
    · exact h
  | redial | recovered =>
    refine iff_of_true ?_ trivial
    rw [step]
    split
    next hget =>
      refine h.setWorker_same fun path hpath => ?_
      cases hpath
      exact carries_of_carrying hget
    · exact h
  | redialled index found =>
    rw [step]
    split
    next node path superseded hget =>
      have hkept : (s.setWorker index (.carrying node path none)).Ruled := by
        refine h.setWorker_same fun path' hpath' => ?_
        cases hpath'
        exact carries_of_carrying hget
      cases found with
      | none =>
        refine iff_of_true ?_ trivial
        cases superseded with
        | false | true => exact hkept
      | some found =>
        cases superseded with
        | true =>
          refine iff_of_true hkept fun node' path' hget' => ?_
          cases hget.symm.trans hget'
        | false =>
          refine (setWorker_ruled_iff h (List.getElem?_eq_some_iff.1 hget).1).trans ⟨?_, ?_⟩
          · intro hadmissible node' path' hget'
            obtain ⟨rfl, rfl⟩ : node = node' ∧ path = path' := by simpa using hget.symm.trans hget'
            exact hadmissible _ rfl
          · intro hfits path' hpath'
            cases hpath'
            exact hfits node path hget
    next hnone =>
      refine iff_of_true h ?_
      cases found with
      | none => trivial
      | some found => exact fun node path hget => absurd hget (hnone node path false)
  | stopped index =>
    refine iff_of_true ?_ trivial
    exact h.setWorker_same nofun

/-- The session as a machine. -/
def machine (s : RelaySession) (e : RouteEvent) : RelaySession × Unit := (s.step e, ())

end RelaySession

/-- In every run in which what a redial opens keeps the rules of the gate, and no route joins with
an identity that a redial brought in, every transport leaves outside the capture and no two have one
identity. -/
theorem redials_keep_the_rules (relayIp : Octets) (dialled : List DialledRoute) (s : RelaySession)
    (events : List RouteEvent) (hstart : startRelay relayIp dialled = some s)
    (hmeets : Meets RelaySession.machine (fun c e => e.Fits c.state) ⟨s, []⟩ events) :
    (exec RelaySession.machine s events).state.Ruled :=
  execFrom_invariant_of_meets (I := fun c => c.state.Ruled)
    (fun _ e hfits hc => (RelaySession.step_ruled_iff hc e).2 hfits) events _ hmeets
    (RelaySession.startRelay_ruled hstart)

/-! ## Runs that show it -/

/-- A WireGuard node whose name has two addresses, open on the first, and an OpenVPN node that is
still dialling. -/
def twoRoutes : List DialledRoute :=
  [⟨.wireGuard 51820 [1], [(203, 0, 113, 7), (203, 0, 113, 8)],
    .opened ⟨⟨.v4 (203, 0, 113, 7), 51820⟩, []⟩⟩, ⟨.openVpn [2], [(198, 51, 100, 7)], .joining⟩]

/-- The session they start. -/
def twoRoutesSession : RelaySession where
  bypass := [(192, 0, 2, 1), (203, 0, 113, 7), (203, 0, 113, 7), (203, 0, 113, 8),
    (198, 51, 100, 7), (198, 51, 100, 7)]
  identities := [.wireGuard ⟨.v4 (203, 0, 113, 7), 51820⟩ [1]]
  workers := [.carrying (.wireGuard 51820 [1]) (.wireGuard ⟨.v4 (203, 0, 113, 7), 51820⟩ [1]) none,
    .joining (.openVpn [2])]

theorem twoRoutes_start : startRelay (192, 0, 2, 1) twoRoutes = some twoRoutesSession := rfl

/-- The second route joins, and the first is redialled on the other address of its name. -/
def redialOnRecord : List RouteEvent :=
  [.joined 1 ⟨⟨.v4 (198, 51, 100, 7), 1194⟩, []⟩, .redial 0,
    .redialled 0 (some ⟨⟨.v4 (203, 0, 113, 8), 51820⟩, []⟩)]

theorem carries_pair {s : RelaySession} {first second : Worker} (h : s.workers = [first, second])
    {j : Nat} {path : RelayPath} (hcarries : s.Carries j path) :
    (j = 0 ∧ first.path = some path) ∨ (j = 1 ∧ second.path = some path) := by
  obtain ⟨worker, hworker, hpath⟩ := hcarries
  rw [h] at hworker
  match j, hworker with
  | 0, hworker =>
    cases hworker
    exact .inl ⟨rfl, hpath⟩
  | 1, hworker =>
    cases hworker
    exact .inr ⟨rfl, hpath⟩

theorem redials_keep_the_rules_on_record :
    Meets RelaySession.machine (fun c e => e.Fits c.state) ⟨twoRoutesSession, []⟩ redialOnRecord ∧
      (exec RelaySession.machine twoRoutesSession redialOnRecord).state.Ruled := by
  have hmeets : Meets RelaySession.machine (fun c e => e.Fits c.state) ⟨twoRoutesSession,
      []⟩ redialOnRecord := by
    refine ⟨?_, trivial, ?_, trivial⟩
    · intro node hnode _ j other hother heq
      obtain rfl : NodeSpec.openVpn [2] = node := by simpa [twoRoutesSession] using hnode
      rcases carries_pair rfl hother with ⟨-, hpath⟩ | ⟨-, hpath⟩
      · cases hpath
        cases heq
      · simp [Worker.path] at hpath
    intro node path hnode
    obtain ⟨rfl, -⟩ : NodeSpec.wireGuard 51820 [1] = node ∧ _ = path := by
      simpa [RelaySession.machine, RelaySession.step, RelaySession.admitPath,
        RelaySession.setWorker, twoRoutesSession,
        NodeSpec.dial, RelayPath.bypassIpv4, RelayPath.identity] using hnode
    refine ⟨fun address haddress => ?_, fun j other hj hother => ?_⟩
    · cases haddress
      decide
    · rcases carries_pair rfl hother with ⟨rfl, -⟩ | ⟨-, hpath⟩
      · exact absurd rfl hj
      · cases hpath
        decide
  exact ⟨hmeets, redials_keep_the_rules _ _ _ _ twoRoutes_start hmeets⟩

/-- The first route is redialled after its name moved to an address the session does not route
around the capture. -/
def redialMoved : List RouteEvent :=
    [.redial 0, .redialled 0 (some ⟨⟨.v4 (203, 0, 113, 9), 51820⟩, []⟩)]

/-- Two adapter nodes, which find one adapter each. -/
def twoAdapters : List DialledRoute :=
  [⟨.adapter, [], .opened ⟨⟨.v4 (0, 0, 0, 0), 0⟩, ['a']⟩⟩,
    ⟨.adapter, [], .opened ⟨⟨.v4 (0, 0, 0, 0), 0⟩, ['b']⟩⟩]

/-- The first is redialled and finds the adapter of the second. -/
def redialShared : List RouteEvent :=
    [.redial 0, .redialled 0 (some ⟨⟨.v4 (0, 0, 0, 0), 0⟩, ['b']⟩)]

/-- The new transport is carried, and its address is captured into the tunnel it carries; and two
routes are carried by one adapter. -/
theorem redial_leaves_the_bypass :
    ((exec RelaySession.machine twoRoutesSession redialMoved).state.Carries 0
        (.wireGuard ⟨.v4 (203, 0, 113, 9), 51820⟩ [1]) ∧
      (203, 0, 113, 9) ∉ (exec RelaySession.machine twoRoutesSession redialMoved).state.bypass) ∧
    ∃ s, startRelay (192, 0, 2, 1) twoAdapters = some s ∧
      ∀ index < 2, (exec RelaySession.machine s redialShared).state.Carries index
        (.adapter ['b']) := by
  refine ⟨⟨⟨_, rfl, rfl⟩, by decide⟩, _, rfl, fun index hindex => ?_⟩
  match index, hindex with
  | 0, _ | 1, _ => exact ⟨_, rfl, rfl⟩

end GamePath.Engine.Session
