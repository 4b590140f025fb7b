import GamePath.Engine.Basic
import GamePath.Lib.Run

/-!
# The WireGuard path (`userspace_wireguard.rs`, `session/direct_worker.rs`)

What the tunnel of boringtun gives comes in with each call. A datagram that comes after a packet was
sent counts as the answer to the handshake before the tunnel has looked at it, so a node is up on
any datagram (`reachable_on_evidence`). A packet that is opened is held until the call has sent what
the tunnel gives next and run its timers, and is lost where one of these fails
(`returned_eq_opened_iff`).
-/

namespace GamePath.Engine.WireGuard

open Lib Run List

/-- `TunnResult`. -/
inductive TunnResult where
  | done
  | err
  | writeToNetwork (packet : Bytes)
  | writeToTunnelV4 (packet : Bytes)
  | writeToTunnelV6 (packet : Bytes)
  deriving DecidableEq

inductive Action where
  | done
  | network (packet : Bytes)
  | tunnel (packet : Bytes)

/-- The texts of an error begin so. -/
inductive PathError where
  /-- `WireGuard protocol error`. -/
  | protocol
  /-- `WireGuard send failed`. -/
  | send
  /-- `WireGuard receive failed`. -/
  | receive
  /-- The socket's own, of `set_read_timeout`. -/
  | readTimeout

def action : TunnResult → Except PathError Action
  | .done => .ok .done
  | .err => .error .protocol
  | .writeToNetwork packet => .ok (.network packet)
  | .writeToTunnelV4 packet | .writeToTunnelV6 packet => .ok (.tunnel packet)

def decapsulationAction (result : TunnResult) : Action :=
  match action result with
  | .ok action => action
  | .error _ => .done

/-- What a call of the tunnel gives, and whether the socket sends a packet of it. -/
abbrev Given := TunnResult × Bool

def apply (sent : Bool) : Action → Except PathError (Option Bytes)
  | .done => .ok none
  | .network _ => if sent then .ok none else .error .send
  | .tunnel packet => .ok (some packet)

/-- What `recv` comes to. `drained` is what the tunnel gives to the calls that follow. -/
inductive Received where
  | datagram (bytes : Bytes) (given : Given) (drained : List Given)
  /-- `WouldBlock` or `TimedOut`. -/
  | waited
  | failed
  /-- `recv` was not called: the socket refused its read timeout. -/
  | refused

/-- `UserSpaceWireGuardPath`. -/
structure Path where
  handshakeStarted : Option Instant
  handshakeLatency : Option Instant

/-- `from_config`. -/
def new : Path := ⟨none, none⟩

/-- The loop of `send_inner`. -/
def drain : List Given → Except PathError Unit
  | [] => .ok ()
  | (result, sent) :: drained =>
    match decapsulationAction result with
    | .done => .ok ()
    | action => (apply sent action).bind fun _ => drain drained

/-- The loop of `receive_inner`. -/
def receiveLoop (packets : List Bytes) : List Given → Except PathError (List Bytes)
  | [] => .ok packets
  | (result, sent) :: drained =>
    match decapsulationAction result with
    | .done => .ok packets
    | .network _ => if sent then receiveLoop packets drained else .error .send
    | .tunnel packet => receiveLoop (packets ++ [packet]) drained

/-- The timers, at the end of `receive_inner`. -/
def updateTimers (timer : Given) (packets : List Bytes) : Except PathError (List Bytes) :=
  (action timer.1).bind fun action =>
    (apply timer.2 action).map fun packet => packets ++ packet.toList

namespace Path

def sendInner (path : Path) (now : Instant) (first : Given) (drained : List Given) :
    Path × Except PathError Unit :=
  ({ path with handshakeStarted := path.handshakeStarted.or (some now) },
    (action first.1).bind fun action => (apply first.2 action).bind fun _ => drain drained)

def receiveInner (path : Path) (now : Instant) (received : Received) (timer : Given) :
    Path × Except PathError (List Bytes) :=
  match received with
  | .datagram _ given drained =>
    let latency :=
      match path.handshakeLatency, path.handshakeStarted with
      | none, some started => some (now - started)
      | latency, _ => latency
    ({ path with handshakeLatency := latency }, (receiveLoop [] (given :: drained)).bind
      (updateTimers timer))
  | .waited => (path, updateTimers timer [])
  | .failed => (path, .error .receive)
  | .refused => (path, .error .readTimeout)

end Path

/-- A call. -/
inductive Event where
  | sendInner (now : Instant) (first : Given) (drained : List Given)
  | receiveInner (now : Instant) (received : Received) (timer : Given)

/-- A call, with the packets it returns. -/
def step (path : Path) : Event → Path × Except PathError (List Bytes)
  | .sendInner now first drained =>
    ((path.sendInner now first drained).1, (path.sendInner now first drained).2.map fun _ => [])
  | .receiveInner now received timer => path.receiveInner now received timer

/-- The health of a node (`run_direct_path`). `losing` is `probe_outage`. -/
def reachable (handshake : Option Instant) (losing : Bool) : Bool := handshake.isSome && !losing

/-! ## What a node is up on -/

/-- A datagram that the tunnel has accepted. -/
def Event.Accepted : Event → Prop
  | .receiveInner _ (.datagram _ given _) _ => given.1 ≠ .err
  | _ => False

/-- The first datagram after a packet was sent is one the tunnel accepts. -/
def Authentic (c : Config Path Event (Except PathError (List Bytes))) : Event → Prop
  | .receiveInner _ (.datagram _ given _) _ =>
    c.state.handshakeStarted ≠ none → c.state.handshakeLatency = none → given.1 ≠ .err
  | _ => True

theorem advance_latency {c : Config Path Event (Except PathError (List Bytes))} {e : Event}
    (hok : Authentic c e)
    (h : c.state.handshakeLatency ≠ none → ∃ e' ∈ c.log.map Prod.fst, e'.Accepted)
    (hlatency : (advance step c e).state.handshakeLatency ≠ none) :
    ∃ e' ∈ (advance step c e).log.map Prod.fst, e'.Accepted := by
  have hlog : (advance step c e).log.map Prod.fst = c.log.map Prod.fst ++ [e] := by
    rw [advance_log, map_append]
    rfl
  rw [hlog]
  by_cases hbefore : c.state.handshakeLatency = none
  · cases e with
    | sendInner => exact absurd hbefore hlatency
    | receiveInner now received timer =>
      cases received with
      | datagram bytes given drained =>
        refine ⟨_, mem_append_right _ (mem_singleton_self _), hok (fun hnone => ?_) hbefore⟩
        apply hlatency
        simp only [advance_state, step, Path.receiveInner, hbefore, hnone]
      | waited | failed | refused => exact absurd hbefore hlatency
  · obtain ⟨e', hmem, haccepted⟩ := h hbefore
    exact ⟨e', mem_append_left _ hmem, haccepted⟩

theorem reachable_on_evidence (events : List Event) (hmeets : Meets step Authentic ⟨new, []⟩ events)
    (hup : (exec step new events).state.handshakeLatency ≠ none ∨
      ∃ losing, reachable (exec step new events).state.handshakeLatency losing = true) :
    ∃ e ∈ events, e.Accepted := by
  have hlatency : (exec step new events).state.handshakeLatency ≠ none := by
    rcases hup with hlatency | ⟨losing, hreachable⟩
    · exact hlatency
    · exact Option.isSome_iff_ne_none.1 (Bool.and_eq_true_iff.1 hreachable).1
  have haccepted := execFrom_invariant_of_meets
    (I := fun c => c.state.handshakeLatency ≠ none → ∃ e' ∈ c.log.map Prod.fst, e'.Accepted)
    (fun c e hok h => advance_latency hok h) events ⟨new, []⟩ hmeets
      (fun h => absurd rfl h) hlatency
  rw [execFrom_inputs] at haccepted
  exact haccepted

/-- A packet, and the answer of the server to the handshake. -/
theorem reachable_on_evidence_answered : ∃ e ∈ [Event.sendInner 0 (.writeToNetwork [1], true) [],
    .receiveInner 5 (.datagram [2] (.writeToNetwork [4], true) []) (.done, true)], e.Accepted :=
  reachable_on_evidence _ ⟨trivial, fun _ _ => nofun, trivial⟩ (.inl nofun)

/-- A datagram of an older session, which the tunnel refuses. -/
theorem reachable_without_evidence :
    reachable (exec step new [.sendInner 0 (.writeToNetwork [1], true) [],
      .receiveInner 5 (.datagram [4] (.err, true) []) (.done, true)]).state.handshakeLatency false =
        true ∧
    ∀ e ∈ [Event.sendInner 0 (.writeToNetwork [1], true) [],
      .receiveInner 5 (.datagram [4] (.err, true) []) (.done, true)], ¬ e.Accepted := by
  refine ⟨rfl, ?_⟩
  simp [Event.Accepted]

/-! ## The packets that are opened -/

/-- The packet for the tunnel, if that is what the tunnel gives. -/
def TunnResult.packet : TunnResult → Option Bytes
  | .writeToTunnelV4 packet | .writeToTunnelV6 packet => some packet
  | _ => none

def TunnResult.isNetwork : TunnResult → Bool
  | .writeToNetwork _ => true
  | _ => false

/-- The tunnel gives a packet for the tunnel only when it is given a datagram that is not empty. -/
def Event.Fits : Event → Prop
  | .sendInner _ first drained => first.1.packet = none ∧ ∀ later ∈ drained, later.1.packet = none
  | .receiveInner _ (.datagram bytes given drained) timer =>
    (bytes = [] → given.1.packet = none) ∧ (∀ later ∈ drained, later.1.packet = none) ∧
      timer.1.packet = none
  | .receiveInner _ _ timer => timer.1.packet = none

/-- The packet that `decapsulate` produces. -/
def Event.opened : Event → List Bytes
  | .receiveInner _ (.datagram _ given _) _ => given.1.packet.toList
  | _ => []

/-- A call that opens a packet sends all that the tunnel gives after it, and its timers do not fail.
-/
def Event.Delivers : Event → Prop
  | .receiveInner _ (.datagram _ given drained) timer => given.1.packet ≠ none →
    (∀ later ∈ drained.takeWhile (fun later => later.1.isNetwork), later.2 = true) ∧
      timer.1 ≠ .err ∧
      (timer.1.isNetwork = true → timer.2 = true)
  | _ => True

/-- The packets a call returns. -/
def returned : Except PathError (List Bytes) → List Bytes
  | .ok packets => packets
  | .error _ => []

theorem receiveLoop_eq {drained : List Given} (hfits : ∀ later ∈ drained, later.1.packet = none)
    (packets : List Bytes) :
    receiveLoop packets drained =
      if (drained.takeWhile fun later => later.1.isNetwork).all Prod.snd then
        .ok packets else .error .send := by
  induction drained with
  | nil => rfl
  | cons later drained ih =>
    obtain ⟨result, sent⟩ := later
    obtain ⟨hnone, hrest⟩ := forall_mem_cons.1 hfits
    cases result with
    | done | err => rfl
    | writeToNetwork packet =>
      cases sent with
      | true => exact ih hrest
      | false => rfl
    | writeToTunnelV4 packet | writeToTunnelV6 packet => cases hnone

theorem updateTimers_eq {timer : Given} (hfits : timer.1.packet = none) (packets : List Bytes) :
    returned (updateTimers timer packets) =
      if timer.1 ≠ .err ∧ (timer.1.isNetwork = true → timer.2 = true) then packets else [] := by
  obtain ⟨result, sent⟩ := timer
  cases result with
  | done => exact append_nil _
  | err => rfl
  | writeToNetwork packet =>
    cases sent with
    | true => exact append_nil _
    | false => rfl
  | writeToTunnelV4 packet | writeToTunnelV6 packet => cases hfits

theorem returned_step (path : Path) {e : Event} (hfits : e.Fits) :
    e.Delivers ∧ returned (step path e).2 = e.opened ∨
      ¬ e.Delivers ∧ returned (step path e).2 = [] ∧ e.opened ≠ [] := by
  cases e with
  | sendInner now first drained =>
    refine .inl ⟨trivial, ?_⟩
    show returned ((path.sendInner now first drained).2.map fun _ => []) = []
    cases (path.sendInner now first drained).2 <;> rfl
  | receiveInner now received timer =>
    cases received with
    | failed | refused => exact .inl ⟨trivial, rfl⟩
    | waited => exact .inl ⟨trivial, (updateTimers_eq hfits []).trans (ite_self _)⟩
    | datagram bytes given drained =>
      obtain ⟨-, hdrained, htimer⟩ := hfits
      show _ ∧ returned ((receiveLoop [] (given :: drained)).bind (updateTimers timer)) = _ ∨
        _ ∧ returned ((receiveLoop [] (given :: drained)).bind (updateTimers timer)) = _ ∧ _
      obtain ⟨result, sent⟩ := given
      have hloop := receiveLoop_eq hdrained
      have hnothing : returned ((receiveLoop [] drained).bind (updateTimers timer)) = [] := by
        rw [hloop]
        split
        · exact (updateTimers_eq htimer []).trans (ite_self _)
        · rfl
      cases result with
      | done | err =>
        exact .inl ⟨fun h => absurd rfl h, (updateTimers_eq htimer []).trans (ite_self _)⟩
      | writeToNetwork packet =>
        refine .inl ⟨fun h => absurd rfl h, ?_⟩
        cases sent with
        | true => exact hnothing
        | false => rfl
      | writeToTunnelV4 packet | writeToTunnelV6 packet =>
        show _ ∧ returned ((receiveLoop [packet] drained).bind (updateTimers timer)) = [packet] ∨
          _ ∧ returned ((receiveLoop [packet] drained).bind (updateTimers timer)) = [] ∧
            [packet] ≠ []
        rw [hloop]
        by_cases hsent : (drained.takeWhile fun later => later.1.isNetwork).all Prod.snd = true
        · rw [if_pos hsent]
          show _ ∧ returned (updateTimers timer [packet]) = _ ∨ _ ∧
              returned (updateTimers timer [packet]) = _ ∧ _
          rw [updateTimers_eq htimer]
          by_cases hruns : timer.1 ≠ .err ∧ (timer.1.isNetwork = true → timer.2 = true)
          · exact .inl ⟨fun _ => ⟨all_eq_true.1 hsent, hruns⟩, if_pos hruns⟩
          · exact .inr ⟨fun h => hruns (h nofun).2, if_neg hruns, nofun⟩
        · rw [if_neg hsent]
          exact .inr ⟨fun h => hsent (all_eq_true.2 (h nofun).1), rfl, nofun⟩

theorem returned_sublist (path : Path) {events : List Event} (hfits : ∀ e ∈ events, e.Fits) :
    ((exec step path events).log.flatMap fun entry => returned entry.2).Sublist
      (events.flatMap Event.opened) ∧
      ((exec step path events).log.flatMap (fun entry => returned entry.2) =
        events.flatMap Event.opened ↔
        ∀ e ∈ events, e.Delivers) := by
  induction events using List.reverseRecOn with
  | nil => exact ⟨.refl _, iff_of_true rfl nofun⟩
  | append_singleton events e ih =>
    obtain ⟨hsub, hiff⟩ := ih fun e he => hfits e (mem_append_left _ he)
    have hlog : (exec step path (events ++ [e])).log.flatMap (fun entry => returned entry.2) =
        (exec step path events).log.flatMap (fun entry => returned entry.2) ++
          returned (step (exec step path events).state e).2 := by
      simp [execFrom, advance, exec]
    rw [hlog, flatMap_append, flatMap_singleton, forall_mem_append, forall_mem_singleton]
    rcases returned_step (exec step path events).state
      (hfits e (mem_append_right _ mem_cons_self)) with
      ⟨hdelivers, heq⟩ | ⟨hloses, hnone, hopened⟩
    · rw [heq, append_left_inj]
      exact ⟨hsub.append (.refl _), hiff.trans (and_iff_left hdelivers).symm⟩
    · rw [hnone, append_nil]
      refine ⟨hsub.trans (sublist_append_left _ _),
        iff_of_false (fun heq => ?_) fun h => hloses h.2⟩
      -- The packet that is lost is missing in the length.
      have hlength := congrArg List.length heq
      rw [length_append] at hlength
      have hle := hsub.length_le
      have hpos := length_pos_iff.2 hopened
      omega

theorem returned_eq_opened_iff (path : Path) (events : List Event) (hfits : ∀ e ∈ events, e.Fits) :
    (exec step path events).log.flatMap (fun entry => returned entry.2) =
      events.flatMap Event.opened ↔
      ∀ e ∈ events, e.Delivers :=
  (returned_sublist path hfits).2

/-- Two packets are opened: what is queued and the keepalive are sent after the first, and between
them a packet is not sent. -/
def exchanged : List Event :=
  [.sendInner 0 (.writeToNetwork [1], true) [],
    .receiveInner 5 (.datagram [2] (.writeToTunnelV4 [0x45], true) [(.writeToNetwork [3], true),
      (.done, true)])
      (.writeToNetwork [4], true),
    .sendInner 6 (.writeToNetwork [5], false) [],
    .receiveInner 7 (.datagram [6] (.writeToTunnelV6 [0x60], true) [(.done, true)]) (.done, true),
    .receiveInner 8 .failed (.done, true)]

theorem returned_eq_opened_iff_sent :
    (exec step new exchanged).log.flatMap (fun entry => returned entry.2) = [[0x45], [0x60]] :=
  (returned_eq_opened_iff new exchanged (by simp [exchanged, Event.Fits, TunnResult.packet])).2
    (by simp [exchanged, Event.Delivers, TunnResult.isNetwork])

/-- A keepalive that is due is not sent, and the packet is gone. -/
theorem opened_packet_lost :
    (exec step new [.receiveInner 5 (.datagram [4] (.writeToTunnelV4 [0x45], true) [])
        (.writeToNetwork [4], false)]).log.flatMap (fun entry => returned entry.2) = [] ∧
      [Event.receiveInner 5 (.datagram [4] (.writeToTunnelV4 [0x45], true) [])
        (.writeToNetwork [4], false)].flatMap Event.opened = [[0x45]] :=
  ⟨rfl, rfl⟩

end GamePath.Engine.WireGuard
