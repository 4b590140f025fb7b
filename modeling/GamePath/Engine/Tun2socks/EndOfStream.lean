import GamePath.Engine.Tun2socks.FlowTurns

/-!
# The end of a stream

A stream that has ended must be known to have, for its readiness is reported once: the flow's
`proxy_finished` makes the pump close the application's socket after the last byte. Two things go
wrong. The read that completes the proxy's handshake may also find the end of the stream, and that
is forgotten when the flow is accepted. And a read that fails counts as an end, so that the
application sees an orderly end where the connection broke. Where neither happens, in every run a
flow remembers the end of its stream and its socket is closed in an orderly way for no other reason
(`end_of_stream_is_followed`).
-/

namespace GamePath.Engine.Tun2socks

open Lib Option Upstream Forwarding Outside Lib.Run
open Socks (SocketAddr)
open Upstream (arrives flush_flushed)

/-- What arrived completes the handshake. -/
def Handshake.completes (h : Handshake) (data : Bytes) : Bool :=
  match h.receive data with
  | .ok (.done _ _, _) => true
  | _ => false

/-! ## What a read comes to -/

namespace Upstream

theorem readLoop_congr (turns : Nat) :
    ∀ (room : Nat) (data : Bytes) {o o' : Outside}, o'.reads = o.reads →
    (readLoop turns room data o').1 = (readLoop turns room data o).1 ∧
      (readLoop turns room data o').2.1 = (readLoop turns room data o).2.1 := by
  induction turns with
  | zero => exact fun _ _ _ _ _ => ⟨rfl, rfl⟩
  | succ turns ih =>
    intro room data o o' hreads
    rw [readLoop, readLoop]
    split
    · exact ⟨rfl, rfl⟩
    dsimp only
    rw [hreads]
    split
    · split
      · exact ⟨rfl, rfl⟩
      · exact ih room _ rfl
    · exact ⟨rfl, rfl⟩
    · exact ⟨rfl, rfl⟩
    · exact ⟨rfl, rfl⟩

variable (u : Upstream)

theorem watchWrites_reads (watch : Bool) (o : Outside) :
    (u.watchWrites watch o).2.reads = o.reads := by
  rw [watchWrites]
  split <;> rfl

theorem flushLoop_reads (turns : Nat) :
    ∀ (u : Upstream) (o : Outside), (flushLoop turns u o).2.2.reads = o.reads := by
  induction turns with
  | zero => exact fun _ _ => rfl
  | succ turns ih =>
    intro u o
    rw [flushLoop]
    split
    · rfl
    split
    next hwrite =>
      rw [write, Prod.mk.injEq] at hwrite
      split <;> rw [ih, ← hwrite.2]
    next hwrite =>
      rw [Prod.mk.injEq] at hwrite
      rw [watchWrites_reads, ← hwrite.2]
      rfl
    next hwrite =>
      rw [write, Prod.mk.injEq] at hwrite
      rw [← hwrite.2]
    next hwrite =>
      rw [write, Prod.mk.injEq] at hwrite
      rw [ih, ← hwrite.2]

theorem waitsToRetry_reads (o : Outside) : (u.waitsToRetry o).2.reads = o.reads := by
  rw [waitsToRetry]
  split <;> rfl

theorem flush_reads (o : Outside) : (u.flush o).2.reads = o.reads := by
  have hwait := u.waitsToRetry_reads o
  rw [flush]
  split
  next hresult =>
    rw [hresult] at hwait
    exact hwait
  next o' hresult =>
    rw [hresult] at hwait
    have hloop := flushLoop_reads (u.outgoing.length + 1) { u with writeRetryAt := none } o'
    split
    next hflush =>
      rw [hflush] at hloop
      exact hloop.trans hwait
    next hflush =>
      rw [hflush] at hloop
      split
      · exact (watchWrites_reads _ _ _).trans (hloop.trans hwait)
      · exact hloop.trans hwait

theorem arrives_flush (o : Outside) (room : Nat) :
    (arrives (u.flush o).2 room).1 = (arrives o room).1 ∧
      (arrives (u.flush o).2 room).2.1 = (arrives o room).2.1 :=
  readLoop_congr room room [] (u.flush_reads o)

theorem read_data (room : Nat) (o : Outside) : (u.read room o).1 = (arrives o room).1 := by
  rw [read]
  dsimp only
  split <;> rfl

theorem read_finished (room : Nat) (o : Outside) :
    (u.read room o).2.1 = ((arrives o room).2.1 == .ended || (arrives o room).2.1 == .failed) := by
  rw [read]
  dsimp only
  split <;> next h => rw [h]; rfl

theorem read_ended (room : Nat) (o : Outside) :
    (u.read room o).2.2.1.stream.ended = (u.stream.ended || (arrives o room).2.1 == .ended) := by
  rw [read]
  dsimp only
  split <;> next h => rw [h]; simp

theorem advance_ended (data : Bytes) (o : Outside) :
    (u.advance data o).2.1.stream.ended = u.stream.ended := by
  rw [advance]
  split
  · rfl
  · split
    · rfl
    · exact (flush_flushed _ _).ended
    · rfl
    · rfl

/-- The proxy has agreed because its handshake is done. -/
theorem advance_completes {u : Upstream} {data : Bytes} {o : Outside}
    {answer : (IpAddr × UInt16) × Bytes} (hdone : (u.advance data o).1 = .ok (some answer)) :
    ∃ h, u.handshake = some h ∧ h.completes data = true := by
  rw [advance] at hdone
  split at hdone
  · cases hdone
  next h hshake =>
    split at hdone
    · cases hdone
    · cases hdone
    · cases hdone
    · next hreceive => exact ⟨h, hshake, by rw [Handshake.completes, hreceive]⟩

end Upstream

/-! ## One flow -/

namespace TcpFlow

variable {flow : TcpFlow} {socket : Option Socket} {o : Outside}

/-- The pump reads the flow's stream. -/
def reads (flow : TcpFlow) : Bool :=
  flow.upstream.readPending && flow.toApp.length < pendingLimit && !flow.proxyFinished

/-- The read that completes a handshake does not find the end of the stream, and no read of an
accepted flow's stream fails. -/
def EndsApart (flow : TcpFlow) (o : Outside) : Prop :=
  (∀ h ∈ flow.upstream.handshake, (arrives o 4096).2.1 = .ended →
    h.completes (arrives o 4096).1 = false) ∧
  (flow.socket ≠ none → flow.reads = true →
    (arrives o (pendingLimit - flow.toApp.length)).2.1 ≠ .failed)

instance (flow : TcpFlow) (o : Outside) :
    Decidable (flow.EndsApart o) := inferInstanceAs (Decidable (_ ∧ _))

/-- The flow remembers whether its stream has ended. -/
def Remembers (flow : TcpFlow) : Prop := flow.upstream.stream.ended = flow.proxyFinished

theorem pumpConnecting_remembers (h : flow.Remembers) : (flow.pumpConnecting o).2.Remembers := by
  have hflushed := flush_flushed { flow.upstream with connecting := false, connected := true } o
  rw [pumpConnecting, pollConnect]
  cases o.connect with
  | failed reason => exact h
  | waiting =>
    dsimp only
    split <;> exact h
  | opened => exact hflushed.ended.trans h

theorem pumpHandshake_remembers (h : flow.Remembers)
    (hapart : ∀ hs ∈ flow.upstream.handshake, (arrives o 4096).2.1 = .ended →
      hs.completes (arrives o 4096).1 = false)
    (hkept : ∀ reason, (flow.pumpHandshake o).1 ≠ .refused reason) :
    (flow.pumpHandshake o).2.Remembers := by
  have hfinished := read_finished flow.upstream 4096 o
  have hended := read_ended flow.upstream 4096 o
  have hdata := read_data flow.upstream 4096 o
  have hshake := read_handshake flow.upstream 4096 o
  have hadvance := advance_ended (flow.upstream.read 4096 o).2.2.1 (flow.upstream.read 4096 o).1
    (flow.upstream.read 4096 o).2.2.2
  -- A read that did not find the end leaves the flow as it was in this respect.
  have hsame : (arrives o 4096).2.1 ≠ .ended →
      (flow.upstream.read 4096 o).2.2.1.stream.ended = flow.proxyFinished := by
    intro hnot
    rw [hended, beq_eq_false_iff_ne.2 hnot, Bool.or_false]
    exact h
  rw [pumpHandshake] at hkept ⊢
  dsimp only at hkept ⊢
  split
  next hempty =>
    have hnot : (arrives o 4096).2.1 ≠ .ended := by
      intro hend
      simp [hfinished, hend] at hempty
    split <;> exact hsame hnot
  next hdone =>
    rw [if_neg hdone] at hkept
    split
    next hresult =>
      rw [hresult] at hadvance
      obtain ⟨hs, hs', hcompletes⟩ := advance_completes (congrArg Prod.fst hresult)
      refine hadvance.trans (hsame fun hend => ?_)
      rw [hshake] at hs'
      rw [hdata, hapart hs hs' hend] at hcompletes
      cases hcompletes
    next hresult =>
      rw [hresult] at hadvance hkept
      dsimp only at hkept
      split
      next hclosed =>
        rw [if_pos hclosed] at hkept
        exact absurd rfl (hkept _)
      next hopen =>
        refine hadvance.trans (hsame fun hend => ?_)
        simp [hfinished, hend] at hopen
    next hresult =>
      rw [hresult] at hkept
      exact absurd rfl (hkept _)

variable (s : Socket)

theorem pumpOut_remembers (h : flow.Remembers) : (flow.pumpOut s o).1.Remembers :=
  (flush_flushed _ o).ended.trans h

theorem readProxy_remembers (h : flow.Remembers)
    (hread : flow.reads = true → (arrives o (pendingLimit - flow.toApp.length)).2.1 ≠ .failed) :
    (flow.readProxy o).1.Remembers := by
  rw [readProxy]
  split
  next hreads =>
    have hnot := beq_eq_false_iff_ne.2 (hread hreads)
    rw [Remembers]
    dsimp only
    rw [read_ended, read_finished, hnot, Bool.or_false, h]
  · exact h

theorem sendApp_proxyFinished (flow : TcpFlow) (s : Socket) :
    (flow.sendApp s).1.proxyFinished = flow.proxyFinished := by
  rw [sendApp]
  split
  · split <;> rfl
  · rfl

theorem sendApp_remembers (h : flow.Remembers) : (flow.sendApp s).1.Remembers := by
  rw [Remembers, sendApp_upstream, sendApp_proxyFinished]
  exact h

theorem endUpstream_remembers (h : flow.Remembers) : (flow.endUpstream s).Remembers := by
  rw [endUpstream]
  split <;> exact h

theorem pumpOut_reads : (flow.pumpOut s o).1.reads = flow.reads := by
  have hflushed := flush_flushed
    { flow.upstream with outgoing := (takeFromApp s.unread.length flow.upstream.outgoing s).1 } o
  rw [reads, reads, pumpOut]
  rw [hflushed.readPending]

theorem relay_remembers (h : flow.Remembers)
    (hread : flow.reads = true → (arrives o (pendingLimit - flow.toApp.length)).2.1 ≠ .failed) :
    (flow.relay s o).2.1.Remembers := by
  simp only [relay]
  apply endUpstream_remembers
  apply sendApp_remembers
  apply readProxy_remembers (pumpOut_remembers s h)
  rw [pumpOut_reads]
  intro hreads
  rw [pumpOut, (arrives_flush _ _ _).2]
  exact hread hreads

/-! ### The socket -/

theorem endUpstream_proxyFinished (flow : TcpFlow) (s : Socket) :
    (flow.endUpstream s).proxyFinished = flow.proxyFinished ∧
      (flow.endUpstream s).toApp = flow.toApp := by
  rw [endUpstream]
  split <;> exact ⟨rfl, rfl⟩

theorem abortApp_closeCalled (flow : TcpFlow) (s : Socket) :
    (flow.abortApp s).closeCalled = s.closeCalled := by
  rw [abortApp]
  split <;> rfl

theorem readProxy_proxyFinished (h : flow.proxyFinished = true) :
    (flow.readProxy o).1.proxyFinished = true := by
  rw [readProxy]
  split
  · simp [h]
  · exact h

theorem relay_closeCalled (h : s.closeCalled = true → flow.proxyFinished = true)
    (hclose : (flow.relay s o).2.2.closeCalled = true) :
    (flow.relay s o).2.1.proxyFinished = true := by
  simp only [relay] at hclose ⊢
  rw [(endUpstream_proxyFinished _ _).1]
  rw [abortApp_closeCalled, closeApp] at hclose
  split at hclose
  next hends =>
    simp only [Bool.and_eq_true] at hends
    exact hends.1.1
  · obtain ⟨taken, unread, accepted, queued, hsocket, -⟩ :=
      sendApp_pumpOut_eq ((flow.pumpOut s o).1.readProxy (flow.pumpOut s o).2.2).1 flow s o
    rw [hsocket] at hclose
    rw [sendApp_proxyFinished]
    exact readProxy_proxyFinished (h hclose)

theorem closeApp_maySend (hfinished : flow.proxyFinished = true) (hempty : flow.toApp = [])
    (s : Socket) :
    (flow.closeApp s).maySend = false := by
  cases hmay : s.maySend with
  | false => simp [closeApp, hmay]
  | true =>
    have hclose : flow.closeApp s = s.close := by simp [closeApp, hfinished, hempty, hmay]
    rw [hclose]
    cases hstate : s.state <;> simp [Socket.maySend, Socket.close, hstate] at hmay ⊢

theorem relay_maySend (hfinished : (flow.relay s o).2.1.proxyFinished = true)
    (hempty : (flow.relay s o).2.1.toApp = []) : (flow.relay s o).2.2.maySend = false := by
  simp only [relay] at hfinished hempty ⊢
  rw [(endUpstream_proxyFinished _ _).1] at hfinished
  rw [(endUpstream_proxyFinished _ _).2] at hempty
  rw [abortApp]
  split
  · rfl
  · exact closeApp_maySend hfinished hempty _

/-! ### A pump -/

/-- A flow remembers the end of its stream, and its socket is closed in an orderly way only then. -/
structure Follows (flow : TcpFlow) (socket : Option Socket) : Prop where
  remembers : flow.Remembers
  closed : ∀ s, socket = some s → s.closeCalled = true → flow.proxyFinished = true

theorem pumpHandshake_proxyFinished (flow : TcpFlow) (o : Outside) :
    (flow.pumpHandshake o).2.proxyFinished = flow.proxyFinished := by
  obtain ⟨_, heq, -⟩ := pumpHandshake_flow flow o
  rw [heq]

theorem pumpConnecting_proxyFinished (flow : TcpFlow) (o : Outside) :
    (flow.pumpConnecting o).2.proxyFinished = flow.proxyFinished := by
  rw [pumpConnecting]
  split
  · rfl
  · rfl
  · split <;> rfl

theorem afterFlush_remembers (h : flow.Remembers) : (flow.afterFlush o).Remembers :=
  (flush_flushed flow.upstream o).ended.trans h

theorem pump_follows (h : flow.Follows socket) (hapart : flow.EndsApart o)
    (hsocket : socket.isSome = flow.socket.isSome)
    (hkept : ∀ reason, (flow.pump socket o).1 ≠ .refused reason) :
    (flow.pump socket o).2.1.Follows (flow.pump socket o).2.2 := by
  rcases flow.stages with hconn | ⟨hconn, hshake⟩ | hsettled
  · rw [pump_of_connecting socket hconn]
    refine ⟨pumpConnecting_remembers h.remembers, fun s hs hc => ?_⟩
    exact (pumpConnecting_proxyFinished flow o).trans (h.closed s hs hc)
  · rw [pump_of_handshake socket hconn hshake] at hkept ⊢
    refine ⟨pumpHandshake_remembers (afterFlush_remembers h.remembers) ?_ hkept, fun s hs hc => ?_⟩
    · intro hs hs' hend
      obtain ⟨hdata, hend'⟩ := flow.upstream.arrives_flush o 4096
      rw [hdata]
      rw [hend'] at hend
      exact hapart.1 hs ((afterFlush_sameStage flow o).handshake.symm.trans hs') hend
    · exact (pumpHandshake_proxyFinished _ _).trans (h.closed s hs hc)
  · cases socket with
    | none =>
      rw [pump_of_settled_none hsettled]
      exact ⟨afterFlush_remembers h.remembers, nofun⟩
    | some s =>
      rw [pump_of_settled_some s hsettled]
      refine ⟨relay_remembers s (afterFlush_remembers h.remembers) fun hreads => ?_,
        fun s' hs' hc => ?_⟩
      · rw [(arrives_flush _ _ _).2]
        refine hapart.2 ?_ ?_
        · rw [← isSome_iff_ne_none, ← hsocket]
          rfl
        · rw [reads, afterFlush, (flush_flushed flow.upstream o).readPending] at hreads
          exact hreads
      · cases hs'
        exact relay_closeCalled s (h.closed s rfl) hc

theorem Follows.drifts (h : flow.Follows socket) {socket' : Option Socket}
    (hdrift : Option.Rel Socket.Drifts socket socket') : flow.Follows socket' := by
  refine ⟨h.remembers, fun s hs hc => ?_⟩
  cases hdrift with
  | none => cases hs
  | some hsd =>
    cases hs
    exact h.closed _ rfl (hsd.closeCalled.symm.trans hc)

end TcpFlow

/-! ## Runs -/

/-- In a turn, the ends of the streams come apart from the ends of their handshakes, and no read
fails. -/
def Event.EndsApart (c : Config Forwarding Event (List Removed)) : Event → Prop
  | .turn _ _ outside _ => ∀ e ∈ c.state.tcp.entries, e.2.EndsApart (outside e.1)
  | _ => True

instance (c : Config Forwarding Event (List Removed)) : (e : Event) → Decidable (e.EndsApart c)
  | .turn _ _ outside _ => inferInstanceAs (Decidable (∀ e ∈ c.state.tcp.entries,
    e.2.EndsApart (outside e.1)))
  | .packet .. => inferInstanceAs (Decidable True)
  | .ready .. => inferInstanceAs (Decidable True)
  | .shutdown .. => inferInstanceAs (Decidable True)

namespace Forwarding

variable {s : Forwarding} {k : FlowKey} {flow : TcpFlow}

/-- Every flow remembers the end of its stream. -/
structure AllFollow (s : Forwarding) : Prop where
  owned : s.Owned
  follows : ∀ k flow, s.tcp.get? k = some flow → flow.Follows (s.socketOf flow)

theorem listenOn_closeCalled {endpoint : SocketAddr} {fresh : Socket}
    (h : Socket.listenOn endpoint = some fresh) :
    fresh.closeCalled = false ∧ fresh.maySend = false := by
  rw [Socket.listenOn] at h
  split at h
  · cases h
  · rw [← some.inj h]
    exact ⟨rfl, rfl⟩

theorem AcceptedAs.follows {leftover : Bytes} {flow' : TcpFlow} {socket : Option Socket}
    (h : AcceptedAs k flow leftover flow' socket) (hflow : flow.Remembers) :
    flow'.Follows socket := by
  rcases h with ⟨rfl, rfl⟩ | ⟨handle, fresh, hlisten, rfl, rfl⟩
  · exact ⟨hflow, nofun⟩
  · refine ⟨hflow, fun s hs hc => ?_⟩
    rw [← some.inj hs, (listenOn_closeCalled hlisten).1] at hc
    cases hc

theorem PacketEffect.follows {packet : Bytes} {s' : Forwarding} {removed : List Removed}
    (h : PacketEffect s packet s' removed) (hs : s.AllFollow) : s'.AllFollow := by
  refine ⟨h.owned hs.owned, fun _ _ => h.flows hs.owned hs.follows
    (fun _ _ _ hflow => ⟨hflow.remembers, hflow.closed⟩) fun _ _ _ _ => ⟨?_, by rintro _ ⟨⟩⟩⟩
  cases s.exit with
  | proxy | adapter => rfl

theorem ready_follows (hs : s.AllFollow) (j : FlowKey) (readable : Bool) (o : Outside) :
    (s.ready j readable o).AllFollow := by
  refine ⟨ready_owned hs.owned readable o, fun k flow' hget => ?_⟩
  obtain ⟨flow, hflow, hsocket, rfl | rfl⟩ := ready_flow hget
  · rw [hsocket]
    exact hs.follows k _ hflow
  · have hfollows := hs.follows k flow hflow
    rw [hsocket]
    exact ⟨(flush_flushed _ o).ended.trans hfollows.remembers, hfollows.closed⟩

theorem turn_follows {first second : Reactions} {order : List FlowKey} {outside : FlowKey → Outside}
    (hs : s.AllFollow) (hapart : ∀ e ∈ s.tcp.entries, e.2.EndsApart (outside e.1)) :
    (s.turn first order outside second).1.AllFollow := by
  refine ⟨turn_owned hs.owned, fun k flow' hget => ?_⟩
  obtain ⟨flow, socket, hflow, hdrift, hcase⟩ := turn_flow hs.owned hget
  have hpump := TcpFlow.pump_follows ((hs.follows k flow hflow).drifts (poll_socketOf s first flow))
    (hapart (k, flow) (KeyedMap.get?_eq_some_iff.1 hflow))
      ((poll_owned hs.owned first).socketOf_isSome hflow)
  rcases hcase with ⟨hout, rfl, hsocket⟩ | ⟨leftover, fresh, hout, hacc, hfresh⟩
  · rw [hsocket]
    exact (hpump (by simp [hout])).drifts hdrift
  · exact (hacc.follows (hpump (by simp [hout])).remembers).drifts hfresh

theorem step_follows (c : Config Forwarding Event (List Removed)) (e : Event)
    (hapart : e.EndsApart c) (hs : c.state.AllFollow) : (c.state.step e).1.AllFollow := by
  cases e with
  | packet bytes token dialled now =>
    exact (onAppPacket_effect c.state bytes token dialled now).follows hs
  | ready key readable o => exact ready_follows hs key readable o
  | turn first order outside second => exact turn_follows hs hapart
  | shutdown order =>
    refine ⟨step_owned hs.owned _, fun k flow hget => ?_⟩
    rw [step, shutdown_empty hs.owned order k] at hget
    cases hget

theorem pumpTcp_maySend (h : s.Owned) {order : List FlowKey} {outside : FlowKey → Outside}
    {socket : Socket} (hget : (s.pumpTcp order outside).1.tcp.get? k = some flow)
    (hsocket : (s.pumpTcp order outside).1.socketOf flow = some socket)
    (hfinished : flow.proxyFinished = true)
    (hempty : flow.toApp = []) : socket.maySend = false := by
  obtain ⟨flow₀, hflow₀, ⟨hout, rfl, hpumped⟩ | ⟨leftover, hout, hacc⟩⟩ :=
    (pumpTcp_pumps h order outside).flow k flow hget
  · rw [hpumped] at hsocket
    have hin : (s.socketOf flow₀).isSome = true := by
      rw [← TcpFlow.pump_isSome flow₀ (s.socketOf flow₀) (outside k), hsocket]
      rfl
    obtain ⟨socket₀, hsocket₀⟩ := isSome_iff_exists.1 hin
    have hsettled : flow₀.Settled := by
      apply (h.wellFormed k flow₀ hflow₀).socket
      rw [← isSome_iff_ne_none, ← h.socketOf_isSome hflow₀]
      exact hin
    rw [hsocket₀, TcpFlow.pump_of_settled_some socket₀ hsettled] at hsocket hfinished hempty
    rw [← some.inj hsocket]
    exact TcpFlow.relay_maySend socket₀ hfinished hempty
  · rcases hacc with ⟨-, hnone⟩ | ⟨handle, fresh, hlisten, -, hfresh⟩
    · rw [hnone] at hsocket
      cases hsocket
    · rw [hfresh] at hsocket
      rw [← some.inj hsocket]
      exact (listenOn_closeCalled hlisten).2

theorem new_follows (client : Octets) (exit : Exit) : (new client exit).AllFollow :=
  ⟨new_owned client exit, fun _ _ h => nomatch h⟩

/-- In every run in which no read that completes a handshake finds the end of the stream and no read
of an accepted flow fails: a flow whose stream has ended knows it, its socket is closed in an
orderly way for no other reason, and a pump closes the socket once the last byte was delivered. -/
theorem end_of_stream_is_followed (client : Octets) (exit : Exit) (events : List Event)
    (hmeets : Meets step Event.EndsApart ⟨new client exit, []⟩ events) :
    (∀ k flow, (exec step (new client exit) events).state.tcp.get? k = some flow →
      flow.upstream.stream.ended = true → flow.proxyFinished = true) ∧
    (∀ k flow socket, (exec step (new client exit) events).state.tcp.get? k = some flow →
      (exec step (new client exit) events).state.socketOf flow = some socket →
        socket.closeCalled = true →
        flow.upstream.stream.ended = true) ∧
    ∀ first order outside k flow socket,
      (((exec step (new client exit) events).state.poll first).pumpTcp order outside).1.tcp.get? k =
        some flow →
      (((exec step (new client exit) events).state.poll first).pumpTcp order outside).1.socketOf
          flow = some socket →
      flow.proxyFinished = true → flow.toApp = [] → socket.maySend = false := by
  have hall : (exec step (new client exit) events).state.AllFollow :=
    execFrom_invariant_of_meets (I := fun c => c.state.AllFollow)
      (fun c e hok hc => step_follows c e hok hc) events _
      hmeets (new_follows client exit)
  refine ⟨fun k flow hget hended => ?_, fun k flow socket hget hsocket hclose => ?_, ?_⟩
  · exact (hall.follows k flow hget).remembers.symm.trans hended
  · have hfollows := hall.follows k flow hget
    exact hfollows.remembers.trans (hfollows.closed socket hsocket hclose)
  · intro first order outside k flow socket hget hsocket hfinished hempty
    exact pumpTcp_maySend (poll_owned hall.owned first) hget hsocket hfinished hempty

end Forwarding

/-! ## Runs that show it -/

/-- A connection from port 50000 of the application's side to a web server. -/
def webFlow : FlowKey := ⟨50000, ⟨(93, 184, 216, 34), 443⟩⟩

/-- An application opens the connection. -/
def webSyn : Event := .packet (bareSegment ⟨(10, 207, 0, 2), 50000⟩ webFlow.remote 0x02) 1 true 0

/-- A turn in which reading the stream comes to these answers, and half open connections open. -/
def readingTurn (reads : List ReadAnswer) : Event :=
  .turn Reactions.opening [] (fun _ =>
    { idle with reads := fun n => reads.getD n .wouldBlock }) Reactions.opening

/-- An adapter connection opens. -/
def openingTurn : Event :=
  .turn Reactions.opening [] (fun _ => { idle with connect := .opened }) Reactions.opening

/-- The end of the stream comes after the handshake, in one turn with the last bytes. -/
def lateEnd : List Event :=
  [webSyn, readingTurn [.data [5, 0]], readingTurn [.data [5, 0, 0, 1, 0, 0, 0, 0, 0, 0]],
    .ready webFlow true idle, readingTurn [.data [1, 2, 3], .data []]]

/-- It is followed: the flow knows it. -/
theorem end_of_stream_is_followed_late :
    Meets step Event.EndsApart ⟨.new (10, 207, 0, 2) (.proxy none), []⟩ lateEnd ∧
    ∃ flow, (exec step (.new (10, 207, 0, 2) (.proxy none)) lateEnd).state.tcp.get? webFlow =
      some flow ∧
      flow.upstream.stream.ended = true ∧ flow.proxyFinished = true := by
  have hmeets : Meets step Event.EndsApart ⟨.new (10, 207, 0, 2) (.proxy none), []⟩ lateEnd := by
    decide +kernel
  have hended : ∃ flow, (exec step (.new (10, 207, 0, 2)
      (.proxy none)) lateEnd).state.tcp.get? webFlow =
      some flow ∧ flow.upstream.stream.ended = true := by
    decide +kernel
  obtain ⟨flow, hget, hended⟩ := hended
  exact ⟨hmeets, flow, hget, hended,
    (end_of_stream_is_followed _ _ _ hmeets).1 webFlow flow hget hended⟩

/-- The proxy's reply and the end of its stream come in one read, and the end is forgotten: it is
still unknown after the next pump. And a read that fails closes the application's socket in an
orderly way. -/
theorem end_of_stream_is_forgotten :
    (∃ flow, (exec step (.new (10, 207, 0, 2) (.proxy none))
        [webSyn, readingTurn [.data [5, 0]], readingTurn [.data [5, 0, 0, 1, 0, 0, 0, 0, 0, 0],
          .data []],
          readingTurn []]).state.tcp.get? webFlow = some flow ∧
      flow.socket = some 0 ∧ flow.upstream.stream.ended = true ∧ flow.proxyFinished = false) ∧
    ∃ flow socket, (exec step (.new (10, 207, 0, 2) .adapter)
        [webSyn, openingTurn, readingTurn [.failed]]).state.tcp.get? webFlow = some flow ∧
      (exec step (.new (10, 207, 0, 2) .adapter)
        [webSyn, openingTurn, readingTurn [.failed]]).state.socketOf flow = some socket ∧
      socket.closeCalled = true ∧ flow.upstream.stream.ended = false := by
  constructor
  · have hrun : ((exec step (.new (10, 207, 0, 2) (.proxy none))
        [webSyn, readingTurn [.data [5, 0]], readingTurn [.data [5, 0, 0, 1, 0, 0, 0, 0, 0, 0],
          .data []], readingTurn []]).state.tcp.get? webFlow).map
        (fun flow => (flow.socket, flow.upstream.stream.ended, flow.proxyFinished)) =
          some (some 0, true, false) := by
      decide +kernel
    obtain ⟨flow, hflow, hparts⟩ := Option.map_eq_some_iff.1 hrun
    simp only [Prod.mk.injEq] at hparts
    exact ⟨flow, hflow, hparts⟩
  have hrun : ((exec step (.new (10, 207, 0, 2) .adapter)
      [webSyn, openingTurn, readingTurn [.failed]]).state.tcp.get? webFlow).bind (fun flow =>
        ((exec step (.new (10, 207, 0, 2) .adapter)
          [webSyn, openingTurn, readingTurn [.failed]]).state.socketOf flow).map fun socket =>
            (socket.closeCalled, flow.upstream.stream.ended)) = some (true, false) := by
    decide +kernel
  obtain ⟨flow, hflow, hsome⟩ := Option.bind_eq_some_iff.1 hrun
  obtain ⟨socket, hsocket, hparts⟩ := Option.map_eq_some_iff.1 hsome
  simp only [Prod.mk.injEq] at hparts
  exact ⟨flow, socket, hflow, hsocket, hparts⟩

end GamePath.Engine.Tun2socks
