import GamePath.Engine.Tun2socks.FlowTurns

/-!
# The bytes of a flow, both ways

What the stack has written to a flow's stream, after what it said in the handshake, is the beginning
of what the application sent; and what it handed to the application is the beginning of what it
read, after the proxy's answers. `TcpFlow.Carries` says so of one flow, at every stage of it, and
`pump_carries` that pumping keeps it.
-/

namespace GamePath.Engine.Tun2socks

open List Upstream
open Socks (SocketAddr Token)

/-- Everything said to the exit to have a connection opened. -/
def Exit.Dialogue : Exit → SocketAddr → Bytes → Prop
  | .proxy credentials, target, said => Handshake.Dialogue credentials .connect target said
  | .adapter, _, said => said = []

/-- Everything the exit answers to that. -/
def Exit.Answers : Exit → Bytes → Prop
  | .proxy _, heard => Handshake.Answers heard
  | .adapter, heard => heard = []

/-- Everything a stream was given to write. -/
def Upstream.given (u : Upstream) : Bytes := u.stream.written ++ u.outgoing

/-- Everything the application sent so far. -/
def Socket.arrived (s : Socket) : Bytes := s.taken ++ s.unread

/-! ## Reading and taking -/

namespace Upstream

theorem read_given (u : Upstream) (room : Nat) (o : Outside) :
    (u.read room o).2.2.1.given = u.given ∧ (u.read room o).2.2.1.stream.read = u.stream.read ++
      (u.read room o).1 := by
  rw [read]
  dsimp only
  split <;> exact ⟨rfl, rfl⟩

/-- What a call of `advance` does that is no error, in terms of the handshake. -/
inductive Advanced (u : Upstream) (data : Bytes) : Option Bytes → Upstream → Prop where
  | said (h h' : Handshake) (bytes : Bytes) (u' : Upstream) (hshake : u.handshake = some h)
      (hreceive : h.receive data = .ok (.send bytes, h')) (hshake' : u'.handshake = some h')
      (hgiven : u'.given = u.given ++ bytes) (hread : u'.stream.read = u.stream.read)
      (hconn : u'.connecting = u.connecting) : Advanced u data none u'
  | waits (h h' : Handshake) (u' : Upstream) (hshake : u.handshake = some h)
      (hreceive : h.receive data = .ok (.wait, h')) (hshake' : u'.handshake = some h')
      (hgiven : u'.given = u.given) (hread : u'.stream.read = u.stream.read)
        (hconn : u'.connecting = u.connecting) :
      Advanced u data none u'
  | done (h h' : Handshake) (bound : IpAddr × UInt16) (leftover : Bytes) (u' : Upstream)
      (hshake : u.handshake = some h) (hreceive : h.receive data = .ok (.done bound leftover, h'))
      (hshake' : u'.handshake = none) (hgiven : u'.given = u.given) (hread : u'.stream.read =
        u.stream.read)
      (hconn : u'.connecting = u.connecting) : Advanced u data (some leftover) u'

theorem advance_advanced {u : Upstream} {data : Bytes} {o : Outside} (hsome : u.handshake ≠ none)
    {answer : Option ((IpAddr × UInt16) × Bytes)} (hok : (u.advance data o).1 = .ok answer) :
    Advanced u data (answer.map Prod.snd) (u.advance data o).2.1 := by
  cases hshake : u.handshake with
  | none => exact absurd hshake hsome
  | some h =>
    simp only [advance, hshake] at hok ⊢
    cases hreceive : h.receive data with
    | error reason => simp [hreceive] at hok
    | ok result =>
      obtain ⟨step, h'⟩ := result
      cases step with
      | send bytes =>
        have hflushed := flush_flushed
          { u with handshake := some h', outgoing := u.outgoing ++ bytes } o
        obtain rfl : answer = none := by simpa [hreceive] using hok.symm
        refine .said h h' bytes _ hshake hreceive hflushed.handshake ?_ hflushed.read
            hflushed.connecting
        refine hflushed.sent.trans ?_
        rw [given, append_assoc]
      | wait =>
        obtain rfl : answer = none := by simpa [hreceive] using hok.symm
        exact .waits h h' _ hshake hreceive rfl rfl rfl rfl
      | done bound leftover =>
        obtain rfl : answer = some (bound, leftover) := by simpa [hreceive] using hok.symm
        exact .done h h' bound leftover _ hshake hreceive rfl rfl rfl rfl

end Upstream

/-! ## What a flow carries -/

namespace TcpFlow

/-- No byte of a flow is lost, added or moved, in either direction and at any stage. -/
structure Carries (exit : Exit) (k : FlowKey) (flow : TcpFlow) (socket : Option Socket) : Prop where
  connecting : flow.upstream.connecting = true →
    exit = .adapter ∧ flow.upstream.given = [] ∧ flow.upstream.stream.read = []
  shaking : ∀ h, flow.upstream.handshake = some h →
    exit = .proxy h.credentials ∧ h.command = .connect ∧ h.target = k.remote ∧
      h.Said flow.upstream.given ∧
      ∃ heard, h.Heard heard ∧ flow.upstream.stream.read = heard ++ h.input
  relayed : ∀ s, socket = some s → ∃ said heard, exit.Dialogue k.remote said ∧ exit.Answers heard ∧
    flow.upstream.given = said ++ s.taken ∧ flow.upstream.stream.read = heard ++
      (s.accepted ++ flow.toApp)
  bounded : ∀ s, socket = some s → s.unread.length ≤ tcpReceiveBuffer

/-- The connection is open, and nothing was relayed yet but what came behind the proxy's reply. -/
def Agreed (exit : Exit) (k : FlowKey) (flow : TcpFlow) (leftover : Bytes) : Prop :=
  ∃ said heard, exit.Dialogue k.remote said ∧ exit.Answers heard ∧ flow.upstream.given = said ∧
    flow.upstream.stream.read = heard ++ leftover

variable {exit : Exit} {k : FlowKey} {flow : TcpFlow} {socket : Option Socket} {o : Outside}

theorem opened_carries (token : Token) (exit : Exit) (k : FlowKey) (syn : Bytes) (sequence : UInt32)
    (now : Instant) :
    (opened (dial token exit .connect k.remote) syn sequence now).Carries exit k none := by
  cases exit with
  | proxy credentials =>
    refine ⟨nofun, fun h hshake => ?_, nofun,
      nofun⟩
    cases hshake
    exact ⟨rfl, rfl, rfl, rfl, [], rfl, rfl⟩
  | adapter =>
    exact ⟨fun _ => ⟨rfl, rfl, rfl⟩, nofun,
      nofun, nofun⟩

theorem Carries.flushed (h : flow.Carries exit k socket) {u : Upstream}
    (hflushed : flow.upstream.Flushed u) :
    ({ flow with upstream := u } : TcpFlow).Carries exit k socket where
  connecting hconn := by
    obtain ⟨hexit, hgiven, hread⟩ := h.connecting (hflushed.connecting.symm.trans hconn)
    exact ⟨hexit, hflushed.sent.trans hgiven, hflushed.read.trans hread⟩
  shaking hs hshake := by
    obtain ⟨hexit, hcommand, htarget, hsaid, heard, hheard, hread⟩ := h.shaking hs
      (hflushed.handshake.symm.trans hshake)
    refine ⟨hexit, hcommand, htarget, ?_, heard, hheard, hflushed.read.trans hread⟩
    have hgiven : u.given = flow.upstream.given := hflushed.sent
    rw [hgiven]
    exact hsaid
  relayed s hs := by
    obtain ⟨said, heard, hdialogue, hanswers, hgiven, hread⟩ := h.relayed s hs
    exact ⟨said, heard, hdialogue, hanswers, hflushed.sent.trans hgiven, hflushed.read.trans hread⟩
  bounded := h.bounded

theorem Carries.drifts (h : flow.Carries exit k socket) {socket' : Option Socket}
    (hdrift : Option.Rel Socket.Drifts socket socket') : flow.Carries exit k socket' := by
  refine ⟨h.connecting, h.shaking, fun s hs => ?_, fun s hs => ?_⟩
  · cases hdrift with
    | none => cases hs
    | some hsd =>
      cases hs
      obtain ⟨said, heard, hdialogue, hanswers, hgiven, hread⟩ := h.relayed _ rfl
      exact ⟨said, heard, hdialogue,
        hanswers, by rw [hsd.taken]; exact hgiven, by rw [hsd.accepted]; exact hread⟩
  · cases hdrift with
    | none => cases hs
    | some hsd =>
      cases hs
      exact hsd.bounded (h.bounded _ rfl)

/-! ### A pump of a flow without a socket -/

theorem pumpConnecting_carries (h : flow.Carries exit k socket)
    (hconn : flow.upstream.connecting = true) (hnone : socket = none) :
    (flow.pumpConnecting o).2.Carries exit k socket ∧
      ∀ leftover, (flow.pumpConnecting o).1 = .accepted leftover →
        Agreed exit k (flow.pumpConnecting o).2 leftover := by
  obtain ⟨hexit, hgiven, hread⟩ := h.connecting hconn
  subst hexit
  have hflushed := flush_flushed { flow.upstream with connecting := false, connected := true } o
  rw [pumpConnecting, pollConnect]
  cases o.connect with
  | failed reason => exact ⟨h, by rintro _ ⟨⟩⟩
  | waiting =>
    dsimp only
    split <;> exact ⟨h, by rintro _ ⟨⟩⟩
  | opened =>
    refine ⟨⟨fun hc => ?_, fun hs hshake => ?_, fun s hs => absurd hs (by simp [hnone]),
      fun s hs => absurd hs (by simp [hnone])⟩, fun leftover hacc => ?_⟩
    · cases hflushed.connecting.symm.trans hc
    · obtain ⟨hexit', -⟩ := h.shaking hs (hflushed.handshake.symm.trans hshake)
      cases hexit'
    · obtain rfl : [] = leftover := by simpa using hacc
      exact ⟨[], [], rfl, rfl, hflushed.sent.trans hgiven, hflushed.read.trans hread⟩

/-- What `advance` does to a flow in its handshake, after a read. -/
theorem Advanced.carries (flow : TcpFlow) {u u' : Upstream} {data : Bytes} {answer : Option Bytes}
    (hadv : u.Advanced data answer u') (hconn : u.connecting = false)
    (hshaking : ∀ h, u.handshake = some h → exit = .proxy h.credentials ∧ h.command = .connect ∧
      h.target = k.remote ∧ h.Said u.given ∧ ∃ heard, h.Heard heard ∧ u.stream.read = heard ++
        h.input ++ data) :
    ({ flow with upstream := u' } : TcpFlow).Carries exit k none ∧
      ∀ leftover, answer = some leftover → Agreed exit k { flow with upstream := u' } leftover := by
  cases hadv with
  | said h h' bytes u' hshake hreceive hshake' hgiven hread hconn' =>
    obtain ⟨hexit, hcommand, htarget, hsaid, heard, hheard, hinput⟩ := hshaking h hshake
    obtain ⟨hreceived, hsame⟩ := Handshake.receive_received hsaid hheard hreceive
    cases hreceived with
    | send _ heard' _ hsaid' hheard' hinput' =>
      refine ⟨⟨fun hc => absurd (hconn'.symm.trans hc) (by simp [hconn]), fun hs hs' => ?_,
        fun s hs => absurd hs (by simp), by rintro _ ⟨⟩⟩, fun _ hnone => absurd hnone (by simp)⟩
      cases hshake'.symm.trans hs'
      refine ⟨by rw [hsame.credentials]; exact hexit, hsame.command.trans hcommand,
        hsame.target.trans htarget, ?_, heard', hheard', ?_⟩
      · show Handshake.Said h' u'.given
        rw [hgiven]
        exact hsaid'
      · exact hread.trans (hinput.trans hinput')
  | waits h h' u' hshake hreceive hshake' hgiven hread hconn' =>
    obtain ⟨hexit, hcommand, htarget, hsaid, heard, hheard, hinput⟩ := hshaking h hshake
    obtain ⟨hreceived, hsame⟩ := Handshake.receive_received hsaid hheard hreceive
    cases hreceived with
    | wait _ hsaid' hheard' hinput' =>
      refine ⟨⟨fun hc => absurd (hconn'.symm.trans hc) (by simp [hconn]), fun hs hs' => ?_,
        fun s hs => absurd hs (by simp), by rintro _ ⟨⟩⟩, fun _ hnone => absurd hnone (by simp)⟩
      cases hshake'.symm.trans hs'
      refine ⟨by rw [hsame.credentials]; exact hexit, hsame.command.trans hcommand,
        hsame.target.trans htarget, ?_, heard, hheard', ?_⟩
      · rw [hgiven]
        exact hsaid'
      · exact hread.trans (hinput.trans hinput')
  | done h h' bound leftover u' hshake hreceive hshake' hgiven hread hconn' =>
    obtain ⟨hexit, hcommand, htarget, hsaid, heard, hheard, hinput⟩ := hshaking h hshake
    obtain ⟨hreceived, -⟩ := Handshake.receive_received hsaid hheard hreceive
    cases hreceived with
    | done _ _ heard' _ hdialogue hanswers hinput' =>
      refine ⟨⟨fun hc => absurd (hconn'.symm.trans hc) (by simp [hconn]), fun hs hs' => ?_,
        fun s hs => absurd hs (by simp), by rintro _ ⟨⟩⟩, fun l hl => ?_⟩
      · cases hshake'.symm.trans hs'
      · cases hl
        rw [hcommand, htarget] at hdialogue
        subst hexit
        exact ⟨u.given, heard', hdialogue, hanswers, hgiven, hread.trans (hinput.trans hinput')⟩

theorem pumpHandshake_carries (h : flow.Carries exit k none)
    (hconn : flow.upstream.connecting = false)
    (hshake : flow.upstream.handshake ≠ none) (hkept : ∀ reason,
      (flow.pumpHandshake o).1 ≠ .refused reason) :
    (flow.pumpHandshake o).2.Carries exit k none ∧
      ∀ leftover, (flow.pumpHandshake o).1 = .accepted leftover →
        Agreed exit k (flow.pumpHandshake o).2 leftover := by
  obtain ⟨hgiven, hread⟩ := read_given flow.upstream 4096 o
  have hstage := read_handshake flow.upstream 4096 o
  have hconn' := (read_connecting flow.upstream 4096 o).trans hconn
  -- The handshake after the read, with what was read behind what it has already taken note of.
  have hshaking : ∀ hs, (flow.upstream.read 4096 o).2.2.1.handshake = some hs →
      exit = .proxy hs.credentials ∧ hs.command = .connect ∧ hs.target = k.remote ∧
        hs.Said (flow.upstream.read 4096 o).2.2.1.given ∧
        ∃ heard, hs.Heard heard ∧
          (flow.upstream.read 4096 o).2.2.1.stream.read = heard ++ hs.input ++
            (flow.upstream.read 4096 o).1 := by
    intro hs hs'
    obtain ⟨hexit, hcommand, htarget, hsaid, heard, hheard, hinput⟩ := h.shaking hs
      (hstage.symm.trans hs')
    rw [hgiven, hread, hinput]
    exact ⟨hexit, hcommand, htarget, hsaid, heard, hheard, rfl⟩
  rw [pumpHandshake] at hkept ⊢
  dsimp only at hkept ⊢
  split
  next hempty =>
    have hdata : (flow.upstream.read 4096 o).1 = [] := by
      simp only [Bool.and_eq_true, List.isEmpty_iff] at hempty
      exact hempty.1.1
    have hcarries : ({ flow with upstream := (flow.upstream.read 4096 o).2.2.1 } :
        TcpFlow).Carries exit k none := by
      refine ⟨fun hc => absurd (hconn'.symm.trans hc) (by simp), fun hs hs' => ?_, by rintro _ ⟨⟩,
        by rintro _ ⟨⟩⟩
      obtain ⟨hexit, hcommand, htarget, hsaid, heard, hheard, hinput⟩ := hshaking hs hs'
      rw [hdata, append_nil] at hinput
      exact ⟨hexit, hcommand, htarget, hsaid, heard, hheard, hinput⟩
    split <;> exact ⟨hcarries, by rintro _ ⟨⟩⟩
  next hdone =>
    rw [if_neg hdone] at hkept
    have hsome : (flow.upstream.read 4096 o).2.2.1.handshake ≠ none := by
      rw [hstage]
      exact hshake
    split
    next hresult =>
      have hadv := advance_advanced hsome (congrArg Prod.fst hresult)
      rw [hresult] at hadv
      obtain ⟨hcarries, hagreed⟩ := Advanced.carries flow hadv hconn' hshaking
      refine ⟨hcarries, fun leftover hacc => hagreed leftover ?_⟩
      simpa using hacc
    next hresult =>
      have hadv := advance_advanced hsome (congrArg Prod.fst hresult)
      rw [hresult] at hadv
      obtain ⟨hcarries, -⟩ := Advanced.carries flow hadv hconn' hshaking
      split <;> exact ⟨hcarries, by rintro _ ⟨⟩⟩
    next hresult =>
      rw [hresult] at hkept
      exact absurd rfl (hkept _)

/-! ### A pump of an open connection -/

/-- The streams of a flow and its socket, in both directions. -/
structure Relays (said heard : Bytes) (flow : TcpFlow) (s : Socket) : Prop where
  given : flow.upstream.given = said ++ s.taken
  read : flow.upstream.stream.read = heard ++ (s.accepted ++ flow.toApp)
  bounded : s.unread.length ≤ tcpReceiveBuffer

variable {said heard : Bytes} {s : Socket}

section

variable (h : Relays said heard flow s)
include h

theorem pumpOut_relays :
    Relays said heard (flow.pumpOut s o).1 (flow.pumpOut s o).2.1 := by
  obtain ⟨bytes, hbytes, htakes⟩ := takeFromApp_takes s.unread.length flow.upstream.outgoing s
  have hflushed := flush_flushed
    { flow.upstream with outgoing := (takeFromApp s.unread.length flow.upstream.outgoing s).1 } o
  have htaken : (takeFromApp s.unread.length flow.upstream.outgoing s).2.taken =
      s.taken ++ bytes := by rw [htakes.eq]
  have haccepted : (takeFromApp s.unread.length flow.upstream.outgoing s).2.accepted =
      s.accepted := by rw [htakes.eq]
  refine ⟨?_, ?_, ?_⟩
  · calc (flow.pumpOut s o).1.upstream.given
        = flow.upstream.stream.written ++
          (takeFromApp s.unread.length flow.upstream.outgoing s).1 := hflushed.sent
      _ = flow.upstream.given ++ bytes := by rw [hbytes, given, append_assoc]
      _ = said ++ (flow.pumpOut s o).2.1.taken := by
          rw [h.given, append_assoc]
          exact congrArg (said ++ ·) htaken.symm
  · rw [pumpOut]
    rw [hflushed.read, haccepted]
    exact h.read
  have hlen := congrArg List.length htakes.unread
  rw [length_append] at hlen
  have hbound := h.bounded
  rw [pumpOut]
  dsimp only
  omega

theorem readProxy_relays : Relays said heard (flow.readProxy o).1 s := by
  rw [readProxy]
  split
  · obtain ⟨hgiven, hread⟩ := read_given flow.upstream (pendingLimit - flow.toApp.length) o
    refine ⟨hgiven.trans h.given, ?_, h.bounded⟩
    rw [hread, h.read, append_assoc, append_assoc]
  · exact h

theorem sendApp_relays :
    Relays said heard (flow.sendApp s).1 (flow.sendApp s).2 := by
  rw [sendApp]
  split
  · rw [Socket.sendSlice]
    split
    next sent s' hsent =>
      split at hsent
      · obtain ⟨rfl, rfl⟩ := hsent
        refine ⟨h.given, ?_, h.bounded⟩
        rw [append_assoc, take_append_drop]
        exact h.read
      · cases hsent
    next s' hsent =>
      split at hsent
      · cases hsent
      · rw [← (Prod.mk.inj hsent).2]
        exact h
  · exact h

theorem relays_ends :
    Relays said heard (flow.endUpstream (flow.closeApp s))
      ((flow.endUpstream (flow.closeApp s)).abortApp (flow.closeApp s)) := by
  have hclose : Relays said heard flow (flow.closeApp s) := by
    rw [closeApp]
    split
    · exact ⟨h.given, h.read, h.bounded⟩
    · exact h
  have hend : Relays said heard (flow.endUpstream (flow.closeApp s)) (flow.closeApp s) := by
    rw [endUpstream]
    split
    · exact ⟨hclose.given, hclose.read, hclose.bounded⟩
    · exact hclose
  rw [abortApp]
  split
  · exact ⟨hend.given, hend.read, hend.bounded⟩
  · exact hend

theorem relay_relays :
    Relays said heard (flow.relay s o).2.1 (flow.relay s o).2.2 := by
  apply relays_ends
  apply sendApp_relays
  apply readProxy_relays
  exact pumpOut_relays h

end

theorem pump_carries_open (h : flow.Carries exit k (some s)) (hsettled : flow.Settled) :
    (flow.pump (some s) o).2.1.Carries exit k (flow.pump (some s) o).2.2 ∧
      ∀ leftover, (flow.pump (some s) o).1 = .accepted leftover →
        Agreed exit k (flow.pump (some s) o).2.1 leftover := by
  have hflush := h.flushed (flush_flushed flow.upstream o)
  obtain ⟨said, heard, hdialogue, hanswers, hgiven, hread⟩ := hflush.relayed s rfl
  have hrelays := relay_relays (o := (flow.upstream.flush o).2)
    (⟨hgiven, hread, h.bounded s rfl⟩ : Relays said heard (flow.afterFlush o) s)
  have hover := (pump_sameStage (some s) o hsettled).settled hsettled
  have houtcome := pump_settled_outcome (some s) o hsettled
  rw [pump_of_settled_some s hsettled] at hover houtcome ⊢
  refine ⟨⟨fun hc => ?_, fun hs hs' => ?_, fun s' hs' => ?_, fun s' hs' => ?_⟩,
    fun leftover hacc => ?_⟩
  · cases hover.2.symm.trans hc
  · cases hover.1.symm.trans hs'
  · cases hs'
    exact ⟨said, heard, hdialogue, hanswers, hrelays.given, hrelays.read⟩
  · cases hs'
    exact hrelays.bounded
  · rcases houtcome with hout | hout <;> cases hout.symm.trans hacc

/-- Pumping loses nothing, unless the flow is refused. -/
theorem pump_carries (h : flow.Carries exit k socket) (hwell : flow.WellFormed)
    (hsocket : socket.isSome = flow.socket.isSome) (hkept : ∀ reason,
      (flow.pump socket o).1 ≠ .refused reason) :
    (flow.pump socket o).2.1.Carries exit k (flow.pump socket o).2.2 ∧
      ∀ leftover, (flow.pump socket o).1 = .accepted leftover →
        Agreed exit k (flow.pump socket o).2.1 leftover := by
  -- A flow that is not settled has no socket.
  have hnone : ¬ flow.Settled → socket = none := by
    intro hnot
    have hout : flow.socket = none := by_contra fun hsome => hnot (hwell.socket hsome)
    simpa [hout] using hsocket
  rcases flow.stages with hconn | ⟨hconn, hshake⟩ | hsettled
  · rw [pump_of_connecting socket hconn]
    exact pumpConnecting_carries h hconn (hnone fun hs => by simp [hs.2] at hconn)
  · obtain rfl := hnone fun hs => hshake hs.1
    rw [pump_of_handshake none hconn hshake] at hkept ⊢
    have hstage := afterFlush_sameStage flow o
    exact pumpHandshake_carries (h.flushed (flush_flushed flow.upstream o))
      (hstage.connecting.trans hconn)
      (by rw [hstage.handshake]; exact hshake) hkept
  · cases socket with
    | none =>
      rw [pump_of_settled_none hsettled]
      exact ⟨h.flushed (flush_flushed flow.upstream o), nofun⟩
    | some s => exact pump_carries_open h hsettled

end TcpFlow

end GamePath.Engine.Tun2socks
