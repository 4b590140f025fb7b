import GamePath.Engine.Tun2socks.EndOfStream
import GamePath.Engine.Tun2socks.RelayedBytes

/-!
# Flows that are removed

The pump removes a flow when it finds its socket closed or in TIME-WAIT. By then it has taken what
the application sent and offered it to the stream, but whether the stream took it is not asked. The
results here: what is left is written when the stream takes it at that moment, and in a run where it
always does, every byte of an application that ended its side was written when its flow is removed.
-/

namespace GamePath.Engine.Tun2socks

open Lib List KeyedMap Option Socket Forwarding Outside Lib.Run
open Socks (SocketAddr Token)

namespace Outside

/-- No write and no read fails. -/
def Sound (o : Outside) : Prop := ∀ n, o.writes n ≠ .failed ∧ o.writes n ≠ .room 0 ∧
    o.reads n ≠ .failed

/-- Every write takes bytes. -/
def Takes (o : Outside) : Prop := ∀ n, ∃ count, o.writes n = .room count ∧ 0 < count

theorem Sound.write {o o' : Outside} {answer : WriteAnswer} (h : o.Sound)
    (hw : o.write = (answer, o')) : o'.Sound := by
  cases hw
  exact fun n => ⟨(h (n + 1)).1, (h (n + 1)).2.1, (h n).2.2⟩

theorem Sound.now {o : Outside} (h : o.Sound) : o.now.2.Sound := h

theorem Takes.write {o o' : Outside} {answer : WriteAnswer} (h : o.Takes)
    (hw : o.write = (answer, o')) : o'.Takes := by
  cases hw
  exact fun n => h (n + 1)

end Outside

/-! ## A stream that does not break -/

namespace Upstream

variable {u : Upstream} {o : Outside}

theorem watchWrites_sound (watch : Bool) (h : o.Sound) : (u.watchWrites watch o).2.Sound := by
  rw [watchWrites]
  split <;> exact h

theorem watchWrites_closed (u : Upstream) (watch : Bool) (o : Outside) :
    (u.watchWrites watch o).1.closed = u.closed ∧ (u.watchWrites watch o).1.writeRetryAt =
      u.writeRetryAt ∧
      (u.watchWrites watch o).1.outgoing = u.outgoing := by
  rw [watchWrites]
  split
  · exact ⟨rfl, rfl, rfl⟩
  · dsimp only
    split <;> exact ⟨rfl, rfl, rfl⟩

theorem flushLoop_sound (turns : Nat) : ∀ (u : Upstream) {o : Outside}, o.Sound →
    (flushLoop turns u o).2.1.closed = u.closed ∧ (flushLoop turns u o).2.2.Sound := by
  induction turns with
  | zero => exact fun _ _ h => ⟨rfl, h⟩
  | succ turns ih =>
    intro u o h
    rw [flushLoop]
    split
    · exact ⟨rfl, h⟩
    split
    next count o' hw =>
      have hcount : count ≠ 0 := by
        rintro rfl
        exact (h 0).2.1 (congrArg Prod.fst hw)
      rw [if_neg hcount]
      exact ih (u.wrote count) (h.write hw)
    next o' hw =>
      have hsound := (h.write hw).now
      exact ⟨(watchWrites_closed _ _ _).1, watchWrites_sound true hsound⟩
    · next o' hw => exact ⟨rfl, h.write hw⟩
    · next o' hw => exact absurd (congrArg Prod.fst hw) (h 0).1

theorem waitsToRetry_sound (h : o.Sound) : (u.waitsToRetry o).2.Sound := by
  rw [waitsToRetry]
  split <;> exact h

theorem flush_sound (u : Upstream) (h : o.Sound) :
    (u.flush o).1.closed = u.closed ∧ (u.flush o).2.Sound := by
  have hwait := waitsToRetry_sound (u := u) h
  rw [flush]
  split
  next hresult =>
    rw [hresult] at hwait
    exact ⟨rfl, hwait⟩
  next o' hresult =>
    rw [hresult] at hwait
    obtain ⟨hclosed, hsound⟩ := flushLoop_sound (u.outgoing.length + 1) { u with writeRetryAt :=
      none } hwait
    split
    next hflush =>
      rw [hflush] at hclosed hsound
      exact ⟨hclosed, hsound⟩
    next hflush =>
      rw [hflush] at hclosed hsound
      split
      · exact ⟨(watchWrites_closed _ _ _).1.trans hclosed, watchWrites_sound false hsound⟩
      · exact ⟨hclosed, hsound⟩

theorem readLoop_sound (turns : Nat) : ∀ (room : Nat) (data : Bytes) {o : Outside}, o.Sound →
    (readLoop turns room data o).2.1 ≠ .failed ∧ (readLoop turns room data o).2.2.Sound := by
  induction turns with
  | zero => exact fun _ _ _ h => ⟨by simp [readLoop], h⟩
  | succ turns ih =>
    intro room data o h
    have hnext : ({ o with reads := fun n => o.reads (n + 1) } : Outside).Sound :=
      fun n => ⟨(h n).1, (h n).2.1, (h (n + 1)).2.2⟩
    rw [readLoop]
    split
    · exact ⟨by simp, h⟩
    dsimp only
    split
    · split
      · exact ⟨by simp, hnext⟩
      · exact ih room _ hnext
    · exact ⟨by simp, hnext⟩
    · exact ⟨by simp, hnext⟩
    · next hfailed => exact absurd hfailed (h 0).2.2

theorem read_sound (u : Upstream) (room : Nat) (h : o.Sound) :
    (u.read room o).2.2.1.closed = u.closed ∧ (u.read room o).2.2.2.Sound := by
  obtain ⟨hend, hsound⟩ := readLoop_sound room room [] h
  rw [read]
  dsimp only
  split
  · exact ⟨rfl, hsound⟩
  · exact ⟨rfl, hsound⟩
  · exact ⟨rfl, hsound⟩
  · next hfailed => exact absurd hfailed hend

theorem advance_sound (u : Upstream) (data : Bytes) (h : o.Sound) :
    (u.advance data o).2.1.closed = u.closed := by
  rw [advance]
  split
  · rfl
  · split
    · rfl
    · exact (flush_sound _ h).1
    · rfl
    · rfl

/-! ## A stream that takes everything -/

theorem flushLoop_takes (turns : Nat) : ∀ {u : Upstream} {o : Outside}, u.closed = false → o.Takes →
    u.outgoing.length < turns →
    (flushLoop turns u o).1 = false ∧ (flushLoop turns u o).2.1.outgoing = [] ∧
      (flushLoop turns u o).2.1.writeRetryAt = u.writeRetryAt ∧
        (flushLoop turns u o).2.2.Takes := by
  induction turns with
  | zero => exact fun _ _ hlen => absurd hlen (Nat.not_lt_zero _)
  | succ turns ih =>
    intro u o hclosed htakes hlen
    rw [flushLoop]
    split
    next hempty =>
      have hnil : u.outgoing = [] := by simpa [hclosed] using hempty
      exact ⟨rfl, hnil, rfl, htakes⟩
    next hempty =>
      have hnil : u.outgoing ≠ [] := by simpa [hclosed] using hempty
      obtain ⟨count, hcount, hpos⟩ := htakes 0
      have hw : o.write = (.room count, { o with writes := fun n => o.writes (n + 1) }) := by
        rw [write, hcount]
      rw [hw]
      dsimp only
      rw [if_neg (Nat.ne_of_gt hpos)]
      have hshorter : (u.wrote count).outgoing.length < turns := by
        have hgiven : 0 < u.outgoing.length := length_pos_of_ne_nil hnil
        show (u.outgoing.drop count).length < turns
        rw [length_drop]
        omega
      exact ih hclosed (htakes.write hw) hshorter

theorem flush_takes (hwait : (u.waitsToRetry o).1 = false) (hclosed : u.closed = false)
    (htakes : o.Takes) :
    (u.flush o).1.outgoing = [] ∧ (u.flush o).1.writeRetryAt = none ∧ (u.flush o).2.Takes := by
  have htakes' : (u.waitsToRetry o).2.Takes := by
    rw [waitsToRetry]
    split <;> exact htakes
  rw [flush]
  split
  next hresult =>
    rw [hresult] at hwait
    cases hwait
  next o' hresult =>
    rw [hresult] at htakes'
    obtain ⟨hdone, hempty, hretry, hrest⟩ :=
      flushLoop_takes (u.outgoing.length + 1) (u := { u with writeRetryAt := none }) hclosed htakes'
        (Nat.lt_succ_self _)
    split
    next hflush =>
      rw [hflush] at hdone
      cases hdone
    next hflush =>
      rw [hflush] at hempty hretry hrest
      split
      · obtain ⟨-, hretry', hout⟩ := watchWrites_closed _ false _
        refine ⟨hout.trans hempty, hretry'.trans hretry, ?_⟩
        rw [watchWrites]
        split <;> exact hrest
      · exact ⟨hempty, hretry, hrest⟩

theorem flush_empty (o : Outside) (h : u.outgoing = []) : (u.flush o).1.outgoing = [] := by
  have hsuffix := (flush_flushed u o).suffix
  rw [h] at hsuffix
  exact suffix_nil.1 hsuffix

end Upstream

/-! ## One flow -/

/-- A state in which the pump may remove a flow. -/
def Socket.removable (s : Socket) :
    Bool := s.state == .listen || s.state == .closed || s.state == .timeWait

theorem Socket.canRecv_eq (s : Socket) : s.canRecv = !s.unread.isEmpty := by
  rw [canRecv, mayRecv]
  split <;> simp

namespace TcpFlow

variable {flow : TcpFlow} {s : Socket} {socket : Option Socket} {o : Outside}

/-- Whenever the pump may remove the flow of an application that has ended its side, the stream
takes everything that is left. -/
def TakesRest (flow : TcpFlow) (socket : Option Socket) (o : Outside) : Prop :=
  ∀ s, socket = some s → s.finReceived = true → s.removable = true → flow.upstream.outgoing ++
    s.unread ≠ [] →
    (flow.upstream.waitsToRetry o).1 = false ∧ o.Takes

/-- A stream that broke is one of a flow that never gets a socket. -/
def Unbroken (flow : TcpFlow) : Prop := flow.upstream.closed = true → flow.Settled ∧
    flow.socket = none

theorem readProxy_closed (hsound : o.Sound) :
    (flow.readProxy o).1.upstream.closed = flow.upstream.closed := by
  rw [readProxy]
  split
  · exact (Upstream.read_sound _ _ hsound).1
  · rfl

theorem endUpstream_closed (flow : TcpFlow) (s : Socket) :
    (flow.endUpstream s).upstream.closed = flow.upstream.closed ∧
      (flow.endUpstream s).upstream.outgoing = flow.upstream.outgoing := by
  rw [endUpstream]
  split <;> exact ⟨rfl, rfl⟩

theorem relay_closed (s : Socket) (hsound : o.Sound) :
    (flow.relay s o).2.1.upstream.closed = flow.upstream.closed := by
  simp only [relay]
  obtain ⟨hclosed, hsound'⟩ := Upstream.flush_sound
    { flow.upstream with outgoing :=
      (takeFromApp s.unread.length flow.upstream.outgoing s).1 } hsound
  rw [(endUpstream_closed _ _).1, sendApp_upstream]
  exact (readProxy_closed hsound').trans hclosed

theorem pumpConnecting_closed (hsound : o.Sound) :
    (flow.pumpConnecting o).2.upstream.closed = flow.upstream.closed := by
  rw [pumpConnecting, Upstream.pollConnect]
  cases o.connect with
  | failed reason => rfl
  | waiting =>
    dsimp only
    split <;> rfl
  | opened => exact (Upstream.flush_sound
      { flow.upstream with connecting := false, connected := true } hsound).1

theorem pumpHandshake_closed (hsound : o.Sound) :
    (flow.pumpHandshake o).2.upstream.closed = flow.upstream.closed := by
  obtain ⟨hread, hsound'⟩ := Upstream.read_sound flow.upstream 4096 hsound
  obtain ⟨_, heq, rfl | rfl⟩ := pumpHandshake_flow flow o <;> rw [heq]
  · exact hread
  · exact (Upstream.advance_sound _ _ hsound').trans hread

theorem pump_closed (socket : Option Socket) (hsound : o.Sound) :
    (flow.pump socket o).2.1.upstream.closed = flow.upstream.closed := by
  obtain ⟨hflush, hsound'⟩ := Upstream.flush_sound flow.upstream hsound
  rcases flow.stages with hconn | ⟨hconn, hshake⟩ | hsettled
  · rw [pump_of_connecting socket hconn]
    exact pumpConnecting_closed hsound
  · rw [pump_of_handshake socket hconn hshake]
    exact (pumpHandshake_closed hsound').trans hflush
  cases socket with
  | none =>
    rw [pump_of_settled_none hsettled]
    exact hflush
  | some s =>
    rw [pump_of_settled_some s hsettled]
    exact (relay_closed s hsound').trans hflush

theorem pump_unbroken (h : flow.Unbroken) (socket : Option Socket) (hsound : o.Sound) :
    (flow.pump socket o).2.1.Unbroken := by
  intro hclosed
  rw [pump_closed socket hsound] at hclosed
  obtain ⟨hsettled, hnone⟩ := h hclosed
  exact ⟨(pump_sameStage socket o hsettled).settled hsettled, (pump_socket _ _ _).trans hnone⟩

/-! ### What the relaying leaves -/

theorem takeFromApp_all (turns : Nat) : ∀ {outgoing : Bytes} {s : Socket}, s.unread.length ≤ turns →
    outgoing.length + s.unread.length ≤ tcpReceiveBuffer → (takeFromApp turns outgoing s).2.unread =
      [] := by
  induction turns with
  | zero => exact fun hlen _ => length_eq_zero_iff.1 (Nat.le_zero.1 hlen)
  | succ turns ih =>
    intro outgoing s hlen hroom
    rw [takeFromApp]
    split
    next hcan =>
      have hnil : s.unread ≠ [] := by
        rw [canRecv_eq] at hcan
        intro heq
        simp [heq] at hcan
      have hmay : s.mayRecv = true := by
        rw [mayRecv]
        split <;> simp [hnil]
      rw [recvSlice, if_pos hmay]
      dsimp only
      have hpos : 0 < s.unread.length := length_pos_of_ne_nil hnil
      have htaken : (s.unread.take bufferLength).length = min bufferLength s.unread.length :=
        length_take
      have hbuffer : 0 < bufferLength := by decide
      rw [if_neg]
      · apply ih
        · rw [length_drop]
          omega
        · rw [length_append, length_drop]
          omega
      · intro hempty
        have hzero : (s.unread.take bufferLength).length = 0 := by simpa using hempty
        omega
    next hcan =>
      by_contra hnil
      apply hcan
      have hlimit : tcpReceiveBuffer < pendingLimit := by decide
      rw [canRecv_eq]
      simp only [Bool.and_eq_true, Bool.not_eq_true', decide_eq_true_eq]
      refine ⟨by simpa using hnil, by omega⟩

theorem pumpOut_rest (hqueue : flow.upstream.outgoing = []) (hclosed : flow.upstream.closed = false)
    (hbound : s.unread.length ≤ tcpReceiveBuffer)
    (hrest : s.unread = [] ∨ (flow.upstream.writeRetryAt = none ∧ o.Takes)) :
    (flow.pumpOut s o).1.upstream.outgoing = [] ∧ (flow.pumpOut s o).2.1.unread = [] := by
  rcases hrest with hnil | ⟨hretry, htakes⟩
  · refine ⟨?_, ?_⟩
    · rw [pumpOut, hnil]
      exact Upstream.flush_empty o hqueue
    · rw [pumpOut, hnil]
      exact hnil
  refine ⟨?_, ?_⟩
  · have hwait : ({ flow.upstream with
        outgoing := (takeFromApp s.unread.length flow.upstream.outgoing s).1 }.waitsToRetry o).1 =
          false := by
      rw [Upstream.waitsToRetry, hretry]
    exact (Upstream.flush_takes hwait hclosed htakes).1
  · apply takeFromApp_all s.unread.length (Nat.le_refl _)
    rw [hqueue]
    simpa using hbound

theorem readProxy_outgoing (flow : TcpFlow) (o : Outside) :
    (flow.readProxy o).1.upstream.outgoing = flow.upstream.outgoing := by
  rw [readProxy]
  split
  · rw [Upstream.read]
    dsimp only
    split <;> rfl
  · rfl

theorem relay_socket_unread (s : Socket) :
    (flow.relay s o).2.2.unread = (flow.pumpOut s o).2.1.unread ∧ (flow.relay s o).2.2.finReceived =
      s.finReceived := by
  have hends : ∀ (f g : TcpFlow) (t : Socket), (f.abortApp (g.closeApp t)).unread = t.unread ∧
      (f.abortApp (g.closeApp t)).finReceived = t.finReceived := by
    intro f g t
    rw [abortApp, closeApp]
    split <;> split <;> exact ⟨rfl, rfl⟩
  obtain ⟨taken, unread, accepted, queued, hsocket, hunread⟩ :=
    sendApp_pumpOut_eq ((flow.pumpOut s o).1.readProxy (flow.pumpOut s o).2.2).1 flow s o
  simp only [relay]
  rw [(hends _ _ _).1, (hends _ _ _).2, hsocket]
  exact ⟨hunread.symm, rfl⟩

/-- A flow that is over, with a stream that did not break, has a socket that was already closed, in
TIME-WAIT or still listening. -/
theorem relay_removable (s : Socket) (hclosed : flow.upstream.closed = false) (hsound : o.Sound)
    (hover : (flow.relay s o).1 = .finished) : s.removable = true := by
  have hunbroken : (flow.relay s o).2.1.upstream.closed = false :=
    (relay_closed s hsound).trans hclosed
  simp only [relay] at hover hunbroken
  split at hover
  next hisover =>
    have habort : ∀ (f : TcpFlow) (t : Socket), f.upstream.closed = false → f.abortApp t = t := by
      intro f t hf
      rw [abortApp, if_neg (by simp [hf])]
    rw [habort _ _ hunbroken] at hisover
    obtain ⟨taken, unread, accepted, queued, hsocket, -⟩ :=
      sendApp_pumpOut_eq ((flow.pumpOut s o).1.readProxy (flow.pumpOut s o).2.2).1 flow s o
    rw [hsocket] at hisover
    rw [closeApp] at hisover
    split at hisover
    next hcloses =>
      -- A socket that may still send is closing now, and not over.
      simp only [Bool.and_eq_true] at hcloses
      have hmay := hcloses.2
      rw [maySend] at hmay
      split at hmay
      next hst =>
        dsimp only at hst
        simp [isOver, close, hst] at hisover
      next hst =>
        dsimp only at hst
        simp [isOver, close, hst] at hisover
      · cases hmay
    · rw [isOver] at hisover
      rw [removable]
      simp only [Bool.or_eq_true, Bool.and_eq_true] at hisover ⊢
      rcases hisover with (⟨hlisten, -⟩ | hcl) | htw
      · exact .inl (.inl hlisten)
      · exact .inl (.inr hcl)
      · exact .inr htw
  · cases hover

/-- When the pump removes the flow of an application that has ended its side, and the stream takes
what is left, every byte of the application was written. -/
theorem pump_removed {exit : Exit} {k : FlowKey} {s' : Socket}
    (hcarries : flow.Carries exit k socket)
    (hwell : flow.WellFormed) (hsocket : socket.isSome = flow.socket.isSome)
    (hunbroken : flow.Unbroken) (hsound : o.Sound) (hrest : flow.TakesRest socket o)
    (hout : (flow.pump socket o).1 = .finished ∨ ∃ reason, (flow.pump socket o).1 = .refused reason)
    (hs' : (flow.pump socket o).2.2 = some s') (hfin : s'.finReceived = true) :
    ∃ said, exit.Dialogue k.remote said ∧
      (flow.pump socket o).2.1.upstream.stream.written = said ++ s'.arrived := by
  -- A flow with a socket is settled, and was relaying.
  have hin : socket.isSome = true := by
    rw [← pump_isSome flow socket o, hs']
    rfl
  obtain ⟨s, rfl⟩ := isSome_iff_exists.1 hin
  have hhandle : flow.socket ≠ none := by
    rw [← isSome_iff_ne_none, ← hsocket]
    rfl
  have hsettled := hwell.socket hhandle
  have hclosed : flow.upstream.closed = false := by
    by_contra hbroken
    exact hhandle (hunbroken (by simpa using hbroken)).2
  have hgoes := pump_settled_outcome (some s) o hsettled
  have hover : (flow.pump (some s) o).1 = .finished := by
    rcases hout with hout | ⟨reason, hout⟩
    · exact hout
    · rcases hgoes with hg | hg <;> cases hg.symm.trans hout
  obtain ⟨hcarries', -⟩ := pump_carries_open (o := o) hcarries hsettled
  obtain ⟨said, heard, hdialogue, -, hgiven, -⟩ := hcarries'.relayed s' hs'
  refine ⟨said, hdialogue, ?_⟩
  have hbound := hcarries.bounded s rfl
  obtain ⟨hflushClosed, hsound'⟩ := Upstream.flush_sound flow.upstream hsound
  rw [pump_of_settled_some s hsettled] at hover hs' hgiven ⊢
  cases hs'
  obtain ⟨hunread, hsame⟩ :
      ((flow.afterFlush o).relay s (flow.upstream.flush o).2).2.2.unread =
          ((flow.afterFlush o).pumpOut s (flow.upstream.flush o).2).2.1.unread ∧
        ((flow.afterFlush o).relay s (flow.upstream.flush o).2).2.2.finReceived = s.finReceived :=
    relay_socket_unread s
  have hremovable := relay_removable s (hflushClosed.trans hclosed) hsound' hover
  -- Nothing is left in the queue before the taking, and what is taken goes out.
  have hqueue : (flow.afterFlush o).upstream.outgoing = [] ∧
      (s.unread = [] ∨ ((flow.afterFlush o).upstream.writeRetryAt = none ∧
        (flow.upstream.flush o).2.Takes)) := by
    by_cases hnothing : flow.upstream.outgoing ++ s.unread = []
    · rw [append_eq_nil_iff] at hnothing
      exact ⟨Upstream.flush_empty o hnothing.1, .inl hnothing.2⟩
    · obtain ⟨hwait, htakes⟩ := hrest s rfl (hsame.symm.trans hfin) hremovable hnothing
      obtain ⟨hempty, hretry, htakes'⟩ := Upstream.flush_takes hwait hclosed htakes
      exact ⟨hempty, .inr ⟨hretry, htakes'⟩⟩
  obtain ⟨hempty, hnounread⟩ := pumpOut_rest hqueue.1 (hflushClosed.trans hclosed) hbound hqueue.2
  have hout' : ((flow.afterFlush o).relay s (flow.upstream.flush o).2).2.1.upstream.outgoing =
      [] := by
    simp only [relay]
    rw [(endUpstream_closed _ _).2, sendApp_upstream, readProxy_outgoing]
    exact hempty
  rw [Upstream.given, hout', append_nil] at hgiven
  rw [hgiven, arrived, hunread, hnounread, append_nil]

end TcpFlow

/-! ## Runs -/

/-- No write to a stream and no read of one fails. -/
def Event.Sound : Event → Prop
  | .turn _ _ outside _ => ∀ k, (outside k).Sound
  | .ready _ _ outside => outside.Sound
  | _ => True

/-- When a turn may remove the flow of an application that has ended its side, the flow's stream
takes everything that is left, and nothing is left of such a flow when the stack is shut down. -/
def Event.TakesRest (c : Config Forwarding Event (List Removed)) : Event → Prop
  | .turn first _ outside _ =>
    ∀ e ∈ c.state.tcp.entries, e.2.TakesRest ((c.state.poll first).socketOf e.2) (outside e.1)
  | .shutdown _ =>
    ∀ e ∈ c.state.tcp.entries, ∀ s, c.state.socketOf e.2 = some s → s.finReceived = true →
      e.2.upstream.outgoing ++ s.unread = []
  | _ => True

/-- Every byte of an application that ended its side was written. -/
def Removed.Delivered (exit : Exit) (r : Removed) : Prop :=
  ∀ s, r.socket = some s → s.finReceived = true →
    ∃ said, exit.Dialogue r.key.remote said ∧ r.flow.upstream.stream.written = said ++ s.arrived

namespace Forwarding

variable {s : Forwarding} {exit : Exit} {k : FlowKey} {flow : TcpFlow}

/-- No byte of any flow is lost, added or moved. -/
structure AllCarry (exit : Exit) (s : Forwarding) : Prop where
  owned : s.Owned
  dials : s.exit = exit
  carries : ∀ k flow, s.tcp.get? k = some flow → flow.Carries exit k (s.socketOf flow)

theorem listenOn_streams {endpoint : SocketAddr} {fresh : Socket}
    (h : listenOn endpoint = some fresh) :
    fresh.taken = [] ∧ fresh.unread = [] ∧ fresh.accepted = [] := by
  rw [listenOn] at h
  split at h
  · cases h
  · rw [← some.inj h]
    exact ⟨rfl, rfl, rfl⟩

variable {flow' : TcpFlow}

theorem AcceptedAs.carries {leftover : Bytes} {socket : Option Socket}
    (h : AcceptedAs k flow leftover flow' socket) (hcarries : flow.Carries exit k none)
    (hagreed : TcpFlow.Agreed exit k flow leftover) : flow'.Carries exit k socket := by
  rcases h with ⟨rfl, rfl⟩ | ⟨handle, fresh, hlisten, rfl, rfl⟩
  · exact hcarries.flushed (Upstream.closed_flushed flow.upstream)
  obtain ⟨htaken, hunread, haccepted⟩ := listenOn_streams hlisten
  refine ⟨hcarries.connecting, hcarries.shaking, fun s hs => ?_, fun s hs => ?_⟩
  · cases hs
    obtain ⟨said, heard, hdialogue, hanswers, hgiven, hread⟩ := hagreed
    exact ⟨said, heard, hdialogue, hanswers, by simpa [htaken] using hgiven, by simpa
      [haccepted] using hread⟩
  · rw [← some.inj hs, hunread]
    exact Nat.zero_le _

variable {removed : List Removed} {s' : Forwarding} {packet : Bytes}

theorem PacketEffect.carries (h : PacketEffect s packet s' removed) (hsame : s'.exit = s.exit)
    (hs : s.AllCarry exit) : s'.AllCarry exit := by
  refine ⟨h.owned hs.owned, hsame.trans hs.dials, fun _ _ => h.flows hs.owned hs.carries
    (fun _ _ _ hflow => ⟨hflow.connecting, hflow.shaking, hflow.relayed, hflow.bounded⟩)
    fun k token sequence now => ?_⟩
  rw [hs.dials]
  exact TcpFlow.opened_carries token exit k packet sequence now

/-! ### The exit of the stack -/

/-- What every step keeps, a fold keeps. -/
theorem foldl_keeps {σ β ν : Type} (g : σ → ν) {f : σ → β → σ} (hf : ∀ a b, g (f a b) = g a)
    (bs : List β) :
    ∀ a, g (bs.foldl f a) = g a := by
  induction bs with
  | nil => exact fun a => rfl
  | cons b bs ih => exact fun a => (ih _).trans (hf a b)

theorem removeTcp_exit (s : Forwarding) (k : FlowKey) : (s.removeTcp k).1.exit = s.exit := by
  rw [removeTcp]
  split <;> rfl

theorem removeAll_exit (keys : List FlowKey) (s : Forwarding) :
    (s.removeAll keys).1.exit = s.exit := by
  induction keys generalizing s with
  | nil => rfl
  | cons k keys ih => exact (ih (s.removeTcp k).1).trans (s.removeTcp_exit k)

theorem acceptTcp_exit (s : Forwarding) (k : FlowKey) (leftover : Bytes) :
    (s.acceptTcp k leftover).exit = s.exit := by
  rw [acceptTcp]
  split
  · rfl
  · split <;> rfl

theorem refuseHeld_exit (s : Forwarding) (k : FlowKey) : (s.refuseHeld k).exit = s.exit := by
  rw [refuseHeld]
  split <;> rfl

theorem pumpOne_exit (outside : FlowKey → Outside) (p : Pumped) (k : FlowKey) :
    (pumpOne outside p k).state.exit = p.state.exit := by
  rw [pumpOne]
  split
  · rfl
  · dsimp only
    split <;> rfl

theorem pumpFlows_exit (s : Forwarding) (order : List FlowKey) (outside : FlowKey → Outside) :
    (s.pumpFlows order outside).state.exit = s.exit :=
  foldl_keeps (fun p : Pumped => p.state.exit) (pumpOne_exit outside) _ _

theorem pumpTcp_exit (s : Forwarding) (order : List FlowKey) (outside : FlowKey → Outside) :
    (s.pumpTcp order outside).1.exit = s.exit := by
  rw [pumpTcp, removeAll_exit]
  refine (foldl_keeps exit (fun s (e : FlowKey × String) => s.refuseHeld_exit e.1) _ _).trans ?_
  refine (foldl_keeps exit (fun s (e : FlowKey × Bytes) => s.acceptTcp_exit e.1 e.2) _ _).trans ?_
  exact s.pumpFlows_exit order outside

theorem openTcp_exit (s : Forwarding) (k : FlowKey) (syn : Bytes) (sequence : UInt32)
    (token : Token) (dialled : Bool)
    (now : Instant) : (s.openTcp k syn sequence token dialled now).exit = s.exit := by
  rw [openTcp]
  split
  · rfl
  · split <;> rfl

theorem onAppPacket_exit (s : Forwarding) (packet : Bytes) (token : Token) (dialled : Bool)
    (now : Instant) :
    (s.onAppPacket packet token dialled now).1.exit = s.exit := by
  rw [onAppPacket]
  split
  · rfl
  split
  · rfl
  split
  · rfl
  dsimp only
  split
  · split
    · exact s.removeTcp_exit _
    · split
      · rfl
      · split <;> rfl
  · split
    · exact s.openTcp_exit _ _ _ _ _ _
    · split <;> rfl

theorem step_exit (s : Forwarding) (e : Event) : (s.step e).1.exit = s.exit := by
  cases e with
  | packet bytes token dialled now => exact s.onAppPacket_exit bytes token dialled now
  | ready key readable o =>
    rw [step, ready]
    split <;> rfl
  | turn first order outside second => exact (s.poll first).pumpTcp_exit order outside
  | shutdown order => exact s.removeAll_exit _

/-! ### One event -/

theorem ready_carries (hs : s.AllCarry exit) (j : FlowKey) (readable : Bool) (o : Outside)
    (hget : (s.ready j readable o).tcp.get? k = some flow') :
    flow'.Carries exit k ((s.ready j readable o).socketOf flow') := by
  obtain ⟨flow, hflow, hsocket, rfl | rfl⟩ := ready_flow hget
  · rw [hsocket]
    exact hs.carries k _ hflow
  have hcarries := hs.carries k flow hflow
  have hmarked : ({ flow with upstream := { flow.upstream with
      readPending := flow.upstream.readPending || readable } } : TcpFlow).Carries exit k
        (s.socketOf flow) :=
    ⟨hcarries.connecting, hcarries.shaking, hcarries.relayed, hcarries.bounded⟩
  rw [hsocket]
  exact hmarked.flushed (Upstream.flush_flushed _ o)

variable {order : List FlowKey} {outside : FlowKey → Outside} {first second : Reactions}

theorem turn_carries (hs : s.AllCarry exit)
    (hget : (s.turn first order outside second).1.tcp.get? k = some flow') :
    flow'.Carries exit k ((s.turn first order outside second).1.socketOf flow') := by
  obtain ⟨flow, socket, hflow, hdrift, hcase⟩ := turn_flow hs.owned hget
  have hsome := (poll_owned hs.owned first).socketOf_isSome hflow
  have hwell := hs.owned.wellFormed k flow hflow
  have hpump := TcpFlow.pump_carries (o := outside k)
    ((hs.carries k flow hflow).drifts (poll_socketOf s first flow)) hwell hsome
  rcases hcase with ⟨hout, rfl, hsocket⟩ | ⟨leftover, fresh, hout, hacc, hfresh⟩
  · rw [hsocket]
    exact (hpump (by simp [hout])).1.drifts hdrift
  obtain ⟨hcarries, hagreed⟩ := hpump (by simp [hout])
  -- A flow that is accepted now had no socket.
  have hnone : (flow.pump ((s.poll first).socketOf flow) (outside k)).2.2 = none := by
    rw [← isNone_iff_eq_none, ← not_isSome, TcpFlow.pump_isSome, hsome,
      (TcpFlow.pump_accepted hwell hout).1]
    rfl
  rw [hnone] at hcarries
  exact (hacc.carries hcarries (hagreed leftover hout)).drifts hfresh

theorem step_carries (hs : s.AllCarry exit) (e : Event) : (s.step e).1.AllCarry exit := by
  have hdials := (s.step_exit e).trans hs.dials
  cases e with
  | packet bytes token dialled now =>
    exact (onAppPacket_effect s bytes token dialled now).carries
      (s.onAppPacket_exit bytes token dialled now) hs
  | ready key readable o =>
    exact ⟨ready_owned hs.owned readable o, hdials, fun k flow hget =>
      ready_carries hs key readable o hget⟩
  | turn first order outside second => exact ⟨turn_owned hs.owned, hdials, fun k flow hget =>
    turn_carries hs hget⟩
  | shutdown order =>
    refine ⟨step_owned hs.owned _, hdials, fun k flow hget => ?_⟩
    exact absurd hget (by rw [step, shutdown_empty hs.owned order k]; simp)

/-- In every flow, only one that never gets a socket has a stream that broke. -/
def AllUnbroken (s : Forwarding) : Prop := ∀ k flow, s.tcp.get? k = some flow → flow.Unbroken

theorem PacketEffect.unbroken (h : PacketEffect s packet s' removed) (ho : s.Owned)
    (hs : s.AllUnbroken) : s'.AllUnbroken := by
  refine fun _ _ => h.flows (P := fun _ f _ => f.Unbroken) ho hs (fun _ _ _ => id)
    fun k token sequence now hclosed => ?_
  cases hexit : s.exit <;> simp [hexit, TcpFlow.opened, Upstream.dial] at hclosed

theorem turn_unbroken (ho : s.Owned) (hs : s.AllUnbroken) (hsound : ∀ k, (outside k).Sound) :
    (s.turn first order outside second).1.AllUnbroken := by
  intro k flow' hget
  obtain ⟨flow, socket, hflow, -, hcase⟩ := turn_flow ho hget
  have hpump := TcpFlow.pump_unbroken (hs k flow hflow) ((s.poll first).socketOf flow) (hsound k)
  rcases hcase with ⟨-, rfl, -⟩ | ⟨leftover, fresh, hout, hacc, -⟩
  · exact hpump
  obtain ⟨hnone, hsettled⟩ := TcpFlow.pump_accepted (ho.wellFormed k flow hflow) hout
  rcases hacc with ⟨rfl, -⟩ | ⟨handle, socket', -, rfl, -⟩
  · exact fun _ => ⟨hsettled, (TcpFlow.pump_socket _ _ _).trans hnone⟩
  intro hclosed
  -- The dial was not over before, so that the stream had not broken.
  rw [TcpFlow.pump_closed _ (hsound k)] at hclosed
  have hnot := (hs k flow hflow hclosed).1
  rcases TcpFlow.pump_settled_outcome ((s.poll first).socketOf flow) (outside k) hnot with
    hgoes | hgoes <;>
    cases hgoes.symm.trans hout

theorem step_unbroken (ho : s.Owned) (hs : s.AllUnbroken) {e : Event} (hsound : e.Sound) :
    (s.step e).1.AllUnbroken := by
  cases e with
  | packet bytes token dialled now =>
    exact (onAppPacket_effect s bytes token dialled now).unbroken ho hs
  | ready key readable o =>
    intro k flow' hget
    obtain ⟨flow, hflow, -, rfl | rfl⟩ := ready_flow hget
    · exact hs k _ hflow
    intro hclosed
    have hsame := (Upstream.flush_sound
      { flow.upstream with readPending := flow.upstream.readPending || readable } hsound).1
    obtain ⟨hsettled, hnone⟩ := hs k flow hflow (hsame.symm.trans hclosed)
    have hflushed := Upstream.flush_flushed
      { flow.upstream with readPending := flow.upstream.readPending || readable } o
    exact ⟨⟨hflushed.handshake.trans hsettled.1, hflushed.connecting.trans hsettled.2⟩, hnone⟩
  | turn first order outside second => exact turn_unbroken ho hs hsound
  | shutdown order =>
    intro k flow hget
    rw [step, shutdown_empty ho order k] at hget
    cases hget

/-! ### The flows an event removes -/

variable {r : Removed}

theorem PacketEffect.delivered (h : PacketEffect s packet s' removed) (ho : s.Owned)
    (hr : r ∈ removed) : r.Delivered exit := by
  cases h with
  | same | queued | held | opened => exact absurd hr not_mem_nil
  | cancelled k flow hget hnone =>
    -- A flow that is cancelled has no socket yet.
    obtain ⟨hkey, hflow, hsocket⟩ := (removeTcp_removes ho k).reported r hr
    intro socket hs
    rw [mem_singleton.1 hkey, hget] at hflow
    rw [hsocket, socketOf, ← some.inj hflow, hnone] at hs
    cases hs

theorem turn_delivered (hs : s.AllCarry exit) (hunbroken : s.AllUnbroken)
    (hsound : ∀ k, (outside k).Sound)
    (hrest : ∀ e ∈ s.tcp.entries, e.2.TakesRest ((s.poll first).socketOf e.2) (outside e.1))
    (hr : r ∈ (s.turn first order outside second).2) : r.Delivered exit := by
  obtain ⟨flow, hflow, hout, hrflow, hrsocket⟩ := turn_removed hs.owned hr
  intro socket hsocket hfin
  rw [hrflow]
  exact TcpFlow.pump_removed ((hs.carries r.key flow hflow).drifts (poll_socketOf s first flow))
    (hs.owned.wellFormed r.key flow hflow) ((poll_owned hs.owned first).socketOf_isSome hflow)
    (hunbroken r.key flow hflow) (hsound r.key)
      (hrest (r.key, flow) (get?_eq_some_iff.1 hflow)) hout
    (hrsocket.symm.trans hsocket) hfin

theorem shutdown_delivered (hs : s.AllCarry exit)
    (hrest : ∀ e ∈ s.tcp.entries, ∀ socket, s.socketOf e.2 = some socket →
      socket.finReceived = true →
      e.2.upstream.outgoing ++ socket.unread = []) (hr :
      r ∈ (s.shutdown order).2) : r.Delivered exit := by
  obtain ⟨-, hflow, hrsocket⟩ := (shutdown_removes hs.owned order).reported r hr
  intro socket hsocket hfin
  rw [hrsocket] at hsocket
  have hnothing := hrest (r.key, r.flow) (get?_eq_some_iff.1 hflow) socket hsocket hfin
  rw [append_eq_nil_iff] at hnothing
  obtain ⟨said, heard, hdialogue, -, hgiven, -⟩ :=
    (hs.carries r.key r.flow hflow).relayed socket hsocket
  refine ⟨said, hdialogue, ?_⟩
  rw [Upstream.given, hnothing.1, append_nil] at hgiven
  rw [hgiven, arrived, hnothing.2, append_nil]

variable {c : Config Forwarding Event (List Removed)}

theorem step_delivered {e : Event} (hs : c.state.AllCarry exit) (hunbroken : c.state.AllUnbroken)
    (hsound : e.Sound) (hrest : e.TakesRest c) (hr : r ∈ (c.state.step e).2) :
    r.Delivered exit := by
  cases e with
  | packet bytes token dialled now =>
    exact (onAppPacket_effect c.state bytes token dialled now).delivered hs.owned hr
  | ready key readable o => exact absurd hr not_mem_nil
  | turn first order outside second => exact turn_delivered hs hunbroken hsound hrest hr
  | shutdown order => exact shutdown_delivered hs hrest hr

/-! ### Whole runs -/

/-- A run in which nothing fails and the streams take what is left of the flows that are removed. -/
structure DeliversAll (exit : Exit) (c : Config Forwarding Event (List Removed)) : Prop where
  carries : c.state.AllCarry exit
  unbroken : c.state.AllUnbroken
  delivered : ∀ entry ∈ c.log, ∀ r ∈ entry.2, r.Delivered exit

theorem advance_delivers {e : Event} (hsound : e.Sound) (hrest : e.TakesRest c)
    (h : DeliversAll exit c) : DeliversAll exit (advance step c e) where
  carries := step_carries h.carries e
  unbroken := step_unbroken h.carries.owned h.unbroken hsound
  delivered entry hentry r hr := by
    rcases mem_snoc.1 hentry with hold | rfl
    · exact h.delivered entry hold r hr
    · exact step_delivered h.carries h.unbroken hsound hrest hr

theorem new_carries (client : Octets) (exit : Exit) : (new client exit).AllCarry exit :=
  ⟨new_owned client exit, rfl, fun _ _ h => nomatch h⟩

/-- What was written to a stream after the handshake is the beginning of what the application sent,
and what the application was given is the beginning of what was read after the handshake. -/
theorem AllCarry.prefixes (hs : s.AllCarry exit) {socket : Socket} (hget : s.tcp.get? k = some flow)
    (hsocket : s.socketOf flow = some socket) :
    ∃ said heard, exit.Dialogue k.remote said ∧ exit.Answers heard ∧
      flow.upstream.stream.written <+: said ++ socket.arrived ∧
      heard ++ socket.accepted <+: flow.upstream.stream.read := by
  obtain ⟨said, heard, hdialogue, hanswers, hgiven, hread⟩ :=
    (hs.carries k flow hget).relayed socket hsocket
  refine ⟨said, heard, hdialogue, hanswers, ?_, ?_⟩
  · calc flow.upstream.stream.written
        <+: flow.upstream.given := prefix_append _ _
      _ = said ++ socket.taken := hgiven
      _ <+: said ++ socket.taken ++ socket.unread := prefix_append _ _
      _ = said ++ socket.arrived := by rw [arrived, append_assoc]
  · rw [hread, ← append_assoc]
    exact prefix_append _ _

/-- In every run the sockets and the flows that the application reached belong together: a socket is
of exactly one flow, and what a flow has is a socket. -/
theorem sockets_owned_once (client : Octets) (exit : Exit) (events : List Event) :
    let s := (exec step (new client exit) events).state
    (∀ h socket, s.sockets.get? h = some socket → ∃! k, ∃ flow, s.tcp.get? k = some flow ∧
      flow.socket = some h) ∧
      ∀ k flow h, s.tcp.get? k = some flow → flow.socket = some h → (s.sockets.get? h).isSome := by
  intro s
  have howned : s.Owned := (exec_invariant (I := fun c => AllCarry exit c.state)
    (new_carries client exit) (fun c e hc => step_carries hc e) events).owned
  refine ⟨fun h socket hget => ?_, fun k flow h hflow hsocket => ?_⟩
  · obtain ⟨k, flow, hflow, hsocket⟩ := howned.owned h socket hget
    refine ⟨k, ⟨flow, hflow, hsocket⟩, fun k' hk' => ?_⟩
    obtain ⟨flow', hflow', hsocket'⟩ := hk'
    exact howned.distinct k' k flow' flow h hflow' hflow hsocket' hsocket
  · exact isSome_iff_ne_none.2 (howned.occupied k flow h hflow hsocket)

/-- In every run, whatever happens on the streams, what was written to one is the beginning of what
its application sent and what the application was given is the beginning of what was read. And in
every run in which no write and no read fails: if the stream of a flow takes everything that is left
whenever the flow is removed though its application ended in an orderly way, every byte of such an
application was written when its flow is removed. -/
theorem no_byte_is_lost (client : Octets) (exit : Exit) (events : List Event) :
    (∀ k flow socket, (exec step (new client exit) events).state.tcp.get? k = some flow →
      (exec step (new client exit) events).state.socketOf flow = some socket →
      ∃ said heard, exit.Dialogue k.remote said ∧ exit.Answers heard ∧
        flow.upstream.stream.written <+: said ++ socket.arrived ∧
        heard ++ socket.accepted <+: flow.upstream.stream.read) ∧
    (Meets step (fun c e => e.Sound ∧ e.TakesRest c) ⟨new client exit, []⟩ events →
      ∀ entry ∈ (exec step (new client exit) events).log, ∀ r ∈ entry.2, r.Delivered exit) := by
  constructor
  · have hall : (exec step (new client exit) events).state.AllCarry exit :=
      exec_invariant (I := fun c => AllCarry exit c.state) (new_carries client exit)
        (fun c e hc => step_carries hc e) events
    exact fun k flow socket hget hsocket => hall.prefixes hget hsocket
  intro hmeets
  have hall : DeliversAll exit (exec step (new client exit) events) := by
    apply execFrom_invariant_of_meets (I := DeliversAll exit)
      (fun c e hok hc => advance_delivers hok.1 hok.2 hc)
      events _ hmeets
    exact ⟨new_carries client exit, fun _ _ h => absurd h (by simp [new]), nofun⟩
  exact hall.delivered

/-! ## How many flows there are -/

theorem size_put (h : s.tcp.get? k = some flow) (flow' : TcpFlow) :
    (s.tcp.insert k flow').size = s.tcp.size :=
  (size_insert _ _ _).trans (size_erase_of_get?_some h)

theorem size_acceptTcp (s : Forwarding) (k : FlowKey) (leftover : Bytes) :
    (s.acceptTcp k leftover).tcp.size = s.tcp.size := by
  rw [acceptTcp]
  cases hget : s.tcp.get? k with
  | none => rfl
  | some flow => cases listenOn k.remote <;> exact size_put hget _

theorem size_pumpOne (outside : FlowKey → Outside) (p : Pumped) (k : FlowKey) :
    (pumpOne outside p k).state.tcp.size = p.state.tcp.size := by
  rw [pumpOne]
  cases hget : p.state.tcp.get? k with
  | none => rfl
  | some flow =>
    dsimp only
    split <;> exact size_put hget _

theorem size_removeTcp_le (s : Forwarding) (k : FlowKey) :
    (s.removeTcp k).1.tcp.size ≤ s.tcp.size := by
  rw [removeTcp]
  cases s.tcp.get? k with
  | none => exact le_rfl
  | some flow => exact size_erase_le _ _

theorem size_removeAll_le (keys : List FlowKey) :
    ∀ s : Forwarding, (s.removeAll keys).1.tcp.size ≤ s.tcp.size := by
  induction keys with
  | nil => exact fun s => le_rfl
  | cons k keys ih => exact fun s => (ih _).trans (size_removeTcp_le s k)

theorem size_turn_le (s : Forwarding) (first : Reactions) (order : List FlowKey)
    (outside : FlowKey → Outside)
    (second : Reactions) : (s.turn first order outside second).1.tcp.size ≤ s.tcp.size := by
  have haccept : ∀ (s : Forwarding) (e : FlowKey × Bytes), (s.acceptTcp e.1 e.2).tcp.size =
      s.tcp.size :=
    fun s e => size_acceptTcp s e.1 e.2
  have hrefuse : ∀ (s : Forwarding) (e : FlowKey × String), (s.refuseHeld e.1).tcp.size =
      s.tcp.size := by
    intro s e
    unfold refuseHeld
    split <;> rfl
  refine (size_removeAll_le _ _).trans (le_of_eq ?_)
  refine (foldl_keeps (fun s : Forwarding => s.tcp.size) hrefuse _ _).trans ?_
  refine (foldl_keeps (fun s : Forwarding => s.tcp.size) haccept _ _).trans ?_
  exact foldl_keeps (fun p : Pumped => p.state.tcp.size) (size_pumpOne outside) _ _

/-- Only a flow that is opened is new, and it is opened where there is room. -/
theorem size_onAppPacket_le (h : s.tcp.size ≤ maxTcpFlows) (packet : Bytes) (token : Token)
    (dialled : Bool)
    (now : Instant) : (s.onAppPacket packet token dialled now).1.tcp.size ≤ maxTcpFlows := by
  unfold onAppPacket
  split
  · exact h
  split
  · exact h
  split
  · exact h
  dsimp only
  split
  next flow hget =>
    split
    · exact (size_removeTcp_le s _).trans h
    split
    · exact h
    split
    · exact (size_put hget _).trans_le h
    · exact h
  next =>
    split
    · unfold openTcp
      split
      · exact h
      next hfull =>
        split
        · exact (size_erase_le _ _).trans_lt (Nat.lt_of_not_le hfull)
        · exact h
    · split <;> exact h

/-- In every run there are never more flows than allowed. -/
theorem flows_bounded (client : Octets) (exit : Exit) (events : List Event) :
    (exec step (new client exit) events).state.tcp.size ≤ maxTcpFlows := by
  refine exec_invariant (I := fun c : Config Forwarding Event (List Removed) => c.state.tcp.size ≤
    maxTcpFlows)
    (Nat.zero_le _) (fun c e h => ?_) events
  cases e with
  | packet bytes token dialled now => exact size_onAppPacket_le h bytes token dialled now
  | ready key readable outside =>
    show (c.state.ready key readable outside).tcp.size ≤ _
    rw [ready]
    cases hget : c.state.tcp.get? key with
    | none => exact h
    | some flow => exact (size_put hget _).trans_le h
  | turn first order outside second =>
    exact (size_turn_le c.state first order outside second).trans h
  | shutdown order => exact (size_removeAll_le _ c.state).trans h

end Forwarding

/-! ## Runs that show it -/

/-- A segment that ends the application's side brings its last three bytes, half open connections
open, and the end of the stack's side is acknowledged. -/
def Reactions.finishing : Reactions where
  segment _ s g :=
    if g.fin = true ∧ s.unread = [] ∧ s.finReceived = false ∧ s.state = .established then
      { s with state := .closeWait, unread := [1, 2, 3], finReceived := true }
    else if g.fin = true ∧ s.unread = [] ∧ s.finReceived = false ∧ s.state = .finWait1 then
      { s with state := .timeWait, unread := [1, 2, 3], finReceived := true }
    else s
  segment_moves _ s g := by
    split
    next h =>
      refine ⟨rfl, rfl, rfl, rfl, ⟨[1, 2, 3], by simp [h.2.1], fun hfin => ?_⟩,
        fun _ => by simp [tcpReceiveBuffer], fun _ => rfl, fun _ => rfl, nofun, nofun, fun hc => ?_⟩
      · cases h.2.2.1.symm.trans hfin
      · cases h.2.2.2.symm.trans hc
    split
    next h =>
      refine ⟨rfl, rfl, rfl, rfl, ⟨[1, 2, 3], by simp [h.2.1], fun hfin => ?_⟩,
        fun _ => by simp [tcpReceiveBuffer], fun _ => rfl, fun _ => rfl, nofun, nofun, fun hc => ?_⟩
      · cases h.2.2.1.symm.trans hfin
      · cases h.2.2.2.symm.trans hc
    · exact Moves.refl g.rst s
  egress _ s :=
    if s.state = .lastAck then { s with state := .closed } else Reactions.opening.egress 0 s
  egress_moves _ s := by
    split
    next h =>
      refine ⟨rfl, rfl, rfl, rfl, ⟨[], (append_nil _).symm, fun _ => rfl⟩, id, id,
        nofun, nofun, nofun,
        fun _ => rfl⟩
    · exact Reactions.opening.egress_moves 0 s
  reassembled _ _ := none

/-- The application ends its side. -/
def webFin : Event := .packet (bareSegment ⟨(10, 207, 0, 2), 50000⟩ webFlow.remote 0x11) 2 true 0

/-- A turn in which the application's end arrives, with these answers to the writes and reads of
every stream. -/
def finishingTurn (write : WriteAnswer) (reads : List ReadAnswer) : Event :=
  .turn Reactions.finishing []
    (fun _ => { idle with writes := fun _ => write, reads := fun n => reads.getD n .wouldBlock })
    Reactions.finishing

theorem finishingTurn_sound {write : WriteAnswer} {reads : List ReadAnswer}
    (hwrite : write ≠ .failed ∧ write ≠ .room 0)
    (hreads : ReadAnswer.failed ∉ reads) : (finishingTurn write reads).Sound := by
  intro k n
  refine ⟨hwrite.1, hwrite.2, fun hfailed => ?_⟩
  dsimp only at hfailed
  rw [getD_eq_getElem?_getD] at hfailed
  cases hget : reads[n]? with
  | none => simp [hget] at hfailed
  | some answer =>
    rw [hget] at hfailed
    exact hreads (hfailed ▸ mem_of_getElem? hget)

variable {c : Config Forwarding Event (List Removed)}

theorem finishingTurn_takesRest {count : Nat} {reads : List ReadAnswer}
    (hpos : 0 < count) (hretry : ∀ e ∈ c.state.tcp.entries, e.2.upstream.writeRetryAt = none) :
    (finishingTurn (.room count) reads).TakesRest c := by
  intro e he s _ _ _ _
  refine ⟨?_, fun _ => ⟨count, rfl, hpos⟩⟩
  rw [Upstream.waitsToRetry, hretry e he]

theorem idle_sound : idle.Sound :=
  fun _ => ⟨by simp [idle], by simp [idle, bufferLength], by simp [idle]⟩

theorem openingTurn_sound : openingTurn.Sound := fun _ => idle_sound

theorem openingTurn_takesRest
    (hretry : ∀ e ∈ c.state.tcp.entries, e.2.upstream.writeRetryAt = none) :
    openingTurn.TakesRest c := by
  intro e he s _ _ _ _
  refine ⟨?_, fun _ => ⟨bufferLength, rfl, by decide⟩⟩
  rw [Upstream.waitsToRetry, hretry e he]

/-- The application ends its side first, and then the far end. -/
def appFirst : List Event :=
  [webSyn, openingTurn, webFin, finishingTurn (.room 2) [], .ready webFlow true idle,
    finishingTurn (.room 2) [.data []], finishingTurn (.room 2) []]

/-- The flow is removed, and its last bytes were written, in two writes. -/
theorem no_byte_is_lost_app_first :
    Meets step (fun c e => e.Sound ∧ e.TakesRest c) ⟨.new (10, 207, 0, 2) .adapter, []⟩ appFirst ∧
      (exec step (.new (10, 207, 0, 2) .adapter) appFirst).log.flatMap (fun entry =>
        entry.2.map fun r => (r.flow.upstream.stream.written, r.socket.map fun s => (s.finReceived,
          s.arrived))) =
          [([1, 2, 3], some (true, [1, 2, 3]))] ∧
      ∀ entry ∈ (exec step (.new (10, 207, 0, 2) .adapter) appFirst).log, ∀ r ∈ entry.2,
        r.Delivered .adapter := by
  have hsound : ∀ reads, ReadAnswer.failed ∉ reads → (finishingTurn (.room 2) reads).Sound :=
    fun reads hreads => finishingTurn_sound ⟨by simp, by simp⟩ hreads
  have hmeets : Meets step (fun c e => e.Sound ∧ e.TakesRest c) ⟨.new (10, 207, 0, 2) .adapter, []⟩
      appFirst := by
    refine ⟨⟨trivial, trivial⟩, ⟨openingTurn_sound, openingTurn_takesRest ?_⟩, ⟨trivial, trivial⟩,
      ⟨hsound _ (by simp), finishingTurn_takesRest (by decide) ?_⟩, ⟨idle_sound, trivial⟩,
      ⟨hsound _ (by simp), finishingTurn_takesRest (by decide) ?_⟩,
      ⟨hsound _ (by simp), finishingTurn_takesRest (by decide) ?_⟩, trivial⟩ <;> decide +kernel
  exact ⟨hmeets, by decide +kernel, (no_byte_is_lost _ _ _).2 hmeets⟩

/-- The far end ends first, so that the application's end takes the socket to TIME-WAIT, and in that
turn the stream would block. -/
def farEndFirst : List Event :=
  [webSyn, openingTurn, finishingTurn (.room 2) [.data []], webFin, finishingTurn .wouldBlock []]

/-- The last bytes of the application are lost with the flow, although no write and no read failed.
-/
theorem last_bytes_are_lost :
    (∀ e ∈ farEndFirst, e.Sound) ∧
      ∃ entry ∈ (exec step (.new (10, 207, 0, 2) .adapter) farEndFirst).log, ∃ r ∈ entry.2,
        ∃ s, r.socket = some s ∧ s.finReceived = true ∧ s.arrived = [1, 2, 3] ∧
          r.flow.upstream.stream.written = [] ∧ ¬ r.Delivered .adapter := by
  constructor
  · intro e he
    simp only [farEndFirst, List.mem_cons, List.not_mem_nil, or_false] at he
    rcases he with rfl | rfl | rfl | rfl | rfl
    · trivial
    · exact openingTurn_sound
    · exact finishingTurn_sound ⟨by simp, by simp⟩ (by simp)
    · trivial
    · exact finishingTurn_sound ⟨by simp, by simp⟩ (by simp)
  have hrun : ∃ entry ∈ (exec step (.new (10, 207, 0, 2) .adapter) farEndFirst).log, ∃ r ∈ entry.2,
      r.socket.map (fun s => (s.finReceived, s.arrived)) = some (true, [1, 2, 3]) ∧
        r.flow.upstream.stream.written = [] := by
    decide +kernel
  obtain ⟨entry, hentry, r, hr, hparts, hwritten⟩ := hrun
  obtain ⟨s, hs, hsparts⟩ := Option.map_eq_some_iff.1 hparts
  obtain ⟨hfin, harrived⟩ := Prod.mk.inj hsparts
  refine ⟨entry, hentry, r, hr, s, hs, hfin, harrived, hwritten, fun hdelivered => ?_⟩
  -- Nothing was said to the adapter, and nothing was written.
  obtain ⟨said, -, hall⟩ := hdelivered s hs hfin
  rw [hwritten, harrived] at hall
  exact absurd hall (by simp)

end GamePath.Engine.Tun2socks
