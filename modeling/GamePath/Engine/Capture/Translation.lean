import GamePath.Engine.CaptureLocality
import GamePath.Engine.Capture.Loops

/-!
# Whether a reply gets its own addresses back

A reply is put back to where the newest packet under its return key came from
(`returned_to_latest`). The key holds the protocol, the remote address and the ports. It does not
hold the local address, and of a redirected lookup it holds the tunnel's resolver, not the one that
was asked. So a reply has its own addresses back exactly when the newest packet under its key had
those of the packet it answers (`reply_returned_iff`).
-/

namespace GamePath.Engine.SplitCapture

open Lib List KeyedMap

/-! ## Rewriting the addresses of a packet -/

theorem length_setOctets (bytes : Bytes) (i : Nat) (octets : Octets) :
    (setOctets bytes i octets).length = bytes.length := by
  simp [setOctets]

variable {bytes : Bytes} (octets : Octets)

theorem getD_setOctets_of_outside {i j : Nat} (h : j < i ∨ i + 4 ≤ j) :
    (setOctets bytes i octets).getD j 0 = bytes.getD j 0 := by
  simp only [setOctets, getD_eq_getElem?_getD]
  rw [getElem?_set_ne (by omega), getElem?_set_ne (by omega), getElem?_set_ne (by omega),
    getElem?_set_ne (by omega)]

theorem octetsAt_setOctets_of_outside {i j : Nat} (h : j + 4 ≤ i ∨ i + 4 ≤ j) :
    octetsAt (setOctets bytes i octets) j = octetsAt bytes j := by
  simp only [octetsAt]
  rw [getD_setOctets_of_outside octets (by omega), getD_setOctets_of_outside octets (by omega),
    getD_setOctets_of_outside octets (by omega), getD_setOctets_of_outside octets (by omega)]

theorem octetsAt_setOctets {i : Nat} (h : i + 4 ≤ bytes.length) :
    octetsAt (setOctets bytes i octets) i = octets := by
  simp only [octetsAt, setOctets, getD_eq_getElem?_getD, getElem?_set, length_set]
  have h0 : i < bytes.length := by omega
  have h1 : i + 1 < bytes.length := by omega
  have h2 : i + 2 < bytes.length := by omega
  have h3 : i + 3 < bytes.length := by omega
  simp [h0, h1, h2, h3]

section

variable {bytes : Bytes} {fields : Ipv4Fields} (h : ipv4Fields bytes = some fields)
include h

theorem ipv4Fields_setOctets {i : Nat} (hi : 10 ≤ i ∧ i + 4 ≤ 20) (octets : Octets) :
    ipv4Fields (setOctets bytes i octets) =
      some { fields with
        source := octetsAt (setOctets bytes i octets) 12
        destination := octetsAt (setOctets bytes i octets) 16 } := by
  have hsame : ∀ j, j < 10 ∨ 20 ≤ j → (setOctets bytes i octets).getD j 0 = bytes.getD j 0 :=
    fun j hj =>
    getD_setOctets_of_outside octets (by omega)
  have hheader : headerLength (setOctets bytes i octets) = headerLength bytes := by
    rw [headerLength, headerLength, hsame 0 (by omega)]
  have hword : ∀ j, 20 ≤ j → Dns.u16At (setOctets bytes i octets) j = Dns.u16At bytes j :=
    fun j hj => by
    rw [Dns.u16At, Dns.u16At, hsame j (by omega), hsame (j + 1) (by omega)]
  simp only [ipv4Fields] at h ⊢
  rw [length_setOctets, hsame 0 (by omega), hsame 9 (by omega), hheader]
  split at h
  · cases h
  next hversion =>
    split at h
    · cases h
    next hlong =>
      cases h
      have hfirst := hword (headerLength bytes) (by omega)
      have hsecond := hword (headerLength bytes + 2) (by omega)
      have hthird := hword (headerLength bytes + 4) (by omega)
      rw [if_neg hversion, if_neg hlong, hfirst, hsecond, hthird]

theorem long_of_ipv4Fields :
    20 ≤ bytes.length ∧ fields.source = octetsAt bytes 12 ∧ fields.destination =
      octetsAt bytes 16 := by
  simp only [ipv4Fields] at h
  split at h
  · cases h
  · split at h
    · cases h
    · cases h
      exact ⟨by omega, rfl, rfl⟩

theorem ipv4Fields_setSource (octets : Octets) :
    ipv4Fields (setOctets bytes 12 octets) = some { fields with source := octets } := by
  obtain ⟨hlong, -, hdestination⟩ := long_of_ipv4Fields h
  rw [ipv4Fields_setOctets h (by omega), octetsAt_setOctets octets (by omega),
    octetsAt_setOctets_of_outside octets (by omega), ← hdestination]

theorem ipv4Fields_setDestination (octets : Octets) :
    ipv4Fields (setOctets bytes 16 octets) = some { fields with destination := octets } := by
  obtain ⟨hlong, hsource, -⟩ := long_of_ipv4Fields h
  rw [ipv4Fields_setOctets h (by omega), octetsAt_setOctets octets (by omega),
    octetsAt_setOctets_of_outside octets (by omega), ← hsource]

omit h in
theorem ipv4Fields_readdressed {bytes : Bytes} {call : Routed}
    (h : ipv4Fields bytes = some call.fields) (nodes : SessionNodes) (node : UInt8) :
    ipv4Fields (readdressed nodes node call.redirect bytes) =
      some { call.tunnelFields with source := nodes.address node } := by
  have hsource := ipv4Fields_setSource h (nodes.address node)
  simp only [readdressed, Routed.tunnelFields]
  split
  · exact ipv4Fields_setDestination hsource tunnelResolver
  · exact hsource

theorem ipv4Fields_returned (path : ReturnPath) :
    ipv4Fields (returned path bytes) =
      some { fields with
        source := path.resolver.getD fields.source, destination := path.localIp } := by
  have hdestination := ipv4Fields_setDestination h path.localIp
  simp only [returned]
  cases hresolver : path.resolver with
  | none => exact hdestination
  | some resolver => exact ipv4Fields_setSource hdestination resolver

end

/-! ## Packets and their answers -/

/-- The fields of an answer: addresses and ports are swapped. -/
def Ipv4Fields.swapped (fields : Ipv4Fields) : Ipv4Fields :=
  ⟨fields.destination, fields.source, fields.protocol, fields.destinationPort, fields.sourcePort⟩

/-- A remote host answers a packet of the tunnel. An ICMP error, which names its packet by a quote,
is no answer. -/
structure Answers (reply tunnelled : Bytes) : Prop where
  no_error : icmpErrorQuote reply = none
  swapped : ∃ fields, ipv4Fields tunnelled = some fields ∧ ipv4Fields reply = some fields.swapped

/-- The packet comes from where the captured one was sent, and goes to where that one came from. -/
def ReturnsTo (injected captured : Bytes) : Prop :=
  ∃ fields, ipv4Fields captured = some fields ∧ ipv4Fields injected = some fields.swapped

/-- The newest packet under a return key. -/
def LoopState.latest (s : LoopState) (key : ReturnKey) : Option Routed :=
  s.history.find? fun call => decide (call.returnKey = key)

/-- A call is about a packet, and redirects it from the resolver that the packet asks if it
redirects it. -/
structure Routed.Of (call : Routed) (captured : Captured) : Prop where
  fields : ipv4Fields captured.bytes = some call.fields
  redirect : ∀ resolver, call.redirect = some resolver → resolver = call.fields.destination

section Classification

variable {registry : Registry} {table : SelectorTable} {sockets : Sockets} {bytes : Bytes}
  {fields : Ipv4Fields}
  {direct remoteDns first : Bool} {redirect : Option Octets} {choice : Choice} {call : Routed}

theorem conclude_call {ff : Bool}
    (h : conclude registry sockets fields first direct remoteDns redirect choice =
      .routed call ff) :
    call.fields = fields ∧ call.redirect = redirect := by
  simp only [conclude] at h
  split at h
  · cases h
    exact ⟨rfl, rfl⟩
  · cases h

theorem decideSyn_call {ff : Bool}
    (h : decideSyn registry sockets bytes fields first direct remoteDns redirect choice =
      .routed call ff) :
    call.fields = fields ∧ call.redirect = redirect := by
  simp only [decideSyn] at h
  split at h
  · split at h
    · exact conclude_call h
    · cases h
  · exact conclude_call h

theorem classify_call {ff : Bool} (h : classify registry table sockets bytes = .routed call ff) :
    ipv4Fields bytes = some call.fields ∧
      ∀ resolver, call.redirect = some resolver → resolver = call.fields.destination := by
  simp only [classify] at h
  split at h
  · cases h
  split at h
  · cases h
  next fields hfields =>
    split at h
    · cases h
    obtain ⟨hcall, hredirect⟩ := decideSyn_call h
    refine ⟨hcall ▸ hfields, fun resolver hresolver => ?_⟩
    rw [hredirect, redirectOf] at hresolver
    split at hresolver
    · rw [hcall]
      exact (Option.some.inj hresolver).symm
    · cases hresolver

theorem decidePending_call {look : SecondLook}
    (h : decidePending registry look fields = some call) :
    call.fields = fields ∧ call.redirect = none := by
  simp only [decidePending] at h
  split at h
  · cases h
  split at h
  · cases h
  · split at h
    · cases h
    · cases h
      exact ⟨rfl, rfl⟩

end Classification

/-! ## Runs -/

variable {registry : Registry} {limits : Limits}

/-- What a thread has in its hands is a packet and a call about it, whose path is kept once it is
sent. -/
def Stage.Returning (history : List Routed) : Stage → Prop
  | .routing decided call _ => call.Of decided.captured
  | .sending decided call _ _ => call.Of decided.captured ∧ call ∈ history
  | _ => True

/-- What went into the tunnel is a packet whose path is kept, with its addresses in the tunnel. -/
def Answer.Returning (history : List Routed) : Answer → Prop
  | .carried decided call (.tunnelled bytes _) =>
    call.Of decided.captured ∧ call ∈ history ∧
      ∃ nodes node, bytes = readdressed nodes node call.redirect decided.captured.bytes
  | _ => True

/-- Each path under a key is that of the newest packet under it. -/
structure LoopState.Returning (s : LoopState) : Prop where
  stages : ∀ thread, (s.stages thread).Returning s.history
  pending : ∀ held ∈ s.pending, ipv4Fields held.1.bytes = some held.2
  history : ∀ call ∈ s.history, ∀ resolver, call.redirect = some resolver →
    resolver = call.fields.destination
  paths : ∀ key path, (key, path) ∈ s.paths.entries → ∀ call, s.latest key = some call →
    path.localIp = call.fields.source ∧ path.resolver = call.redirect

theorem afterwards_returning {history : List Routed} {captured : Captured}
    (ticket : Option FragmentRouter.Ticket)
    (route : FragmentRouter.Route) : (afterwards captured ticket route).Returning history := by
  cases ticket <;> exact trivial

theorem dispatchTo_returning {history : List Routed} (route : FragmentRouter.Route)
    (followers : List Follower) :
    (dispatchTo route followers).Returning history := by
  cases followers <;> exact trivial

theorem mem_of_mem_makeRoom {paths : ReturnPaths} {key : ReturnKey} {now pick : Nat}
    {entry : ReturnKey × ReturnPath}
    (h : entry ∈ (makeRoom paths key now pick).entries) : entry ∈ paths.entries := by
  simp only [makeRoom] at h
  split at h
  · split at h
    · exact (mem_erase.1 h).1
    · exact h
  · exact h

namespace LoopState

variable {s : LoopState} {thread : Thread}

theorem Returning.stage (h : s.Returning) {stage : Stage} (hstage : s.stages thread = stage) :
    stage.Returning s.history :=
  hstage ▸ h.stages thread

theorem Returning.goTo (h : s.Returning) {stage : Stage} (hstage : stage.Returning s.history) :
    (s.goTo thread stage).Returning := by
  refine ⟨fun thread' => ?_, h.pending, h.history, h.paths⟩
  show (Function.update s.stages thread stage thread').Returning s.history
  by_cases hsame : thread' = thread
  · subst hsame
    rw [Function.update_self]
    exact hstage
  · rw [Function.update_of_ne hsame]
    exact h.stages thread'

theorem Returning.apart (h : s.Returning) (fragments : FragmentRouter Interface)
    (nodes : SessionNodes) (stopped : Bool)
    (begun : List (FragmentRouter.Ticket × Captured)) {pending : List (Captured × Ipv4Fields)}
    (hpending : ∀ held ∈ pending, ipv4Fields held.1.bytes = some held.2) :
    Returning ⟨fragments, s.paths, nodes, pending, stopped, s.stages, begun, s.history⟩ :=
  ⟨h.stages, hpending, h.history, h.paths⟩

theorem Returning.used (h : s.Returning) {paths : ReturnPaths}
    (hpaths : ∀ key path, (key, path) ∈ paths.entries → ∃ kept, (key, kept) ∈ s.paths.entries ∧
      path.localIp = kept.localIp ∧ path.resolver = kept.resolver) :
        Returning { s with paths := paths } := by
  refine ⟨h.stages, h.pending, h.history, fun key path hpath call hlatest => ?_⟩
  obtain ⟨kept, hkept, hlocal, hresolver⟩ := hpaths key path hpath
  rw [hlocal, hresolver]
  exact h.paths key kept hkept call hlatest

theorem Returning.replied (h : s.Returning) (bytes : Bytes) (now : Nat) :
    Returning { s with paths := (injectReply s.nodes s.paths bytes now).1 } := by
  refine h.used fun key path hpath => ?_
  simp only [injectReply] at hpath
  split at hpath
  · exact ⟨path, hpath, rfl, rfl⟩
  split at hpath
  · exact ⟨path, hpath, rfl, rfl⟩
  split at hpath
  · exact ⟨path, hpath, rfl, rfl⟩
  split at hpath
  · exact ⟨path, hpath, rfl, rfl⟩
  next kept hget =>
    rcases mem_insert.1 hpath with heq | ⟨hmem, -⟩
    · cases heq
      exact ⟨kept, get?_eq_some_iff.1 hget, rfl, rfl⟩
    · exact ⟨path, hmem, rfl, rfl⟩

theorem Returning.recorded (h : s.Returning) {decided : Decided} {call : Routed}
    {ticket : Option FragmentRouter.Ticket} (hcall : call.Of decided.captured) (now pick : Nat) :
    Returning ({ s with
        paths := (recordPath s.paths call decided.captured.address now pick).1
        history := call :: s.history }.goTo thread
      (.sending decided call
        (recordPath s.paths call decided.captured.address now pick).2 ticket)) := by
  have hsending : (Stage.sending decided call
      (recordPath s.paths call decided.captured.address now pick).2
      ticket).Returning (call :: s.history) := ⟨hcall, mem_cons_self⟩
  suffices hrecorded : Returning { s with
      paths := (recordPath s.paths call decided.captured.address now pick).1
      history := call :: s.history } from hrecorded.goTo hsending
  refine ⟨fun thread' => ?_, h.pending, fun call' hmem => ?_,
    fun key path hpath call' hlatest => ?_⟩
  · have hstage := h.stages thread'
    cases hthread : s.stages thread' with
    | sending decided' call' node' ticket' =>
      rw [hthread] at hstage
      exact ⟨hstage.1, mem_cons_of_mem _ hstage.2⟩
    | routing decided' call' ticket' =>
      rw [hthread] at hstage
      exact hstage
    | idle | deciding | settling | dispatching => exact trivial
  · rcases mem_cons.1 hmem with rfl | hmem
    · exact hcall.redirect
    · exact h.history call' hmem
  · change List.find? _ (call :: s.history) = some call' at hlatest
    rw [find?_cons] at hlatest
    rcases mem_insert.1 hpath with heq | ⟨hmem, hother⟩
    · cases heq
      simp only [decide_true] at hlatest
      cases hlatest
      exact ⟨rfl, rfl⟩
    · have hne : decide (call.returnKey = key) = false := decide_eq_false fun hkey =>
        hother hkey.symm
      rw [hne] at hlatest
      exact h.paths key path (mem_of_mem_makeRoom hmem) call' hlatest

theorem Returning.carried {history : List Routed} {decided : Decided} {call : Routed}
    (hcall : call.Of decided.captured ∧ call ∈ history) (nodes : SessionNodes) (node : UInt8)
    (transmission : Transmission) :
    (Answer.carried decided call
      (transmit nodes limits node call.redirect transmission decided.captured.bytes)).Returning
          history := by
  have hhanded : ∀ checksummed answers, (Answer.carried decided call
      (handOver nodes limits node call.redirect checksummed answers
          decided.captured.bytes)).Returning history := by
    intro checksummed answers
    simp only [handOver]
    split
    · split
      · exact ⟨hcall.1, hcall.2, nodes, node, rfl⟩
      · exact trivial
    · exact trivial
  simp only [transmit]
  split
  · exact hhanded _ _
  · split
    · split
      · exact trivial
      · exact hhanded _ _
    · exact hhanded _ _

theorem returning_move {s' : LoopState} {answer : Answer} (h : s.Returning)
    (hmove : Moves registry limits s s' answer) :
    s'.Returning ∧ answer.Returning s'.history ∧ s.history <:+ s'.history := by
  have hsame : s.history <:+ s.history := suffix_refl _
  have hrest : ∀ {held : Captured × Ipv4Fields} {rest : List (Captured × Ipv4Fields)}, s.pending =
      held :: rest →
      ∀ waiting ∈ rest, ipv4Fields waiting.1.bytes = some waiting.2 :=
        fun hpending waiting hwaiting =>
    h.pending waiting (hpending ▸ mem_cons_of_mem _ hwaiting)
  cases hmove with
  | stays => exact ⟨h, trivial, hsame⟩
  | asks packet address now pick => exact ⟨h.apart _ s.nodes s.stopped s.begun h.pending,
    trivial, hsame⟩
  | follows worker hroute =>
    exact ⟨(h.apart _ s.nodes s.stopped s.begun h.pending).goTo trivial, trivial, hsame⟩
  | begins worker packet captured now pick =>
    exact ⟨(h.apart _ s.nodes s.stopped _ h.pending).goTo trivial, trivial, hsame⟩
  | takes | passesUnreadable | passesSyn => exact ⟨h.goTo trivial, trivial, hsame⟩
  | drops | reinjects | failsOpen => exact ⟨h.goTo (afterwards_returning _ _), trivial, hsame⟩
  | queues hstage hverdict =>
    refine ⟨(h.apart s.fragments s.nodes s.stopped s.begun fun held hheld => ?_).goTo trivial,
      trivial, hsame⟩
    rcases mem_snoc.1 hheld with hheld | rfl
    · exact h.pending held hheld
    · exact (classify_pending_iff.1 hverdict).readable
  | @selects worker captured ticket call first hstage hverdict =>
    obtain ⟨hfields, hredirect⟩ := classify_call hverdict
    have hcall : call.Of captured := ⟨hfields, hredirect⟩
    exact ⟨h.goTo hcall, trivial, hsame⟩
  | @selectsAgain captured fields rest look call hpending hcall =>
    obtain ⟨hfields, hredirect⟩ := decidePending_call hcall
    have hreadable : ipv4Fields captured.bytes = some fields := h.pending (captured, fields)
      (hpending ▸ mem_cons_self)
    have hof : call.Of captured := by
      refine ⟨hfields ▸ hreadable, fun resolver hresolver => ?_⟩
      rw [hredirect] at hresolver
      cases hresolver
    exact ⟨(h.apart s.fragments s.nodes s.stopped s.begun (hrest hpending)).goTo hof,
      trivial, hsame⟩
  | passesAgain hpending hnone =>
    exact ⟨h.apart s.fragments s.nodes s.stopped s.begun (hrest hpending), trivial, hsame⟩
  | records now pick hstage =>
    have hcall := h.stage hstage
    exact ⟨h.recorded hcall now pick, trivial, suffix_cons _ _⟩
  | carries transmission hstage | holds transmission hstage =>
    have hcall := h.stage hstage
    exact ⟨h.goTo (afterwards_returning _ _), Returning.carried hcall s.nodes _ transmission, hsame⟩
  | settles now hstage =>
    exact ⟨(h.apart _ s.nodes s.stopped s.begun h.pending).goTo (dispatchTo_returning _ _),
      trivial, hsame⟩
  | dispatchesTunnel | dispatchesBypass | dispatchesDrop =>
    exact ⟨h.goTo (dispatchTo_returning _ _), trivial, hsame⟩
  | replies bytes now | losesReply bytes now => exact ⟨h.replied bytes now, trivial, hsame⟩
  | removes keep =>
    exact ⟨h.used fun key path hpath => ⟨path, (mem_retain.1 hpath).1, rfl, rfl⟩, trivial, hsame⟩
  | readdresses node address => exact ⟨h.apart s.fragments _ s.stopped s.begun h.pending,
    trivial, hsame⟩
  | stops => exact ⟨h.apart s.fragments s.nodes _ s.begun h.pending, trivial, hsame⟩

end LoopState

theorem Answer.Returning.mono {history history' : List Routed} (hmore : history <:+ history')
    {answer : Answer} (h : answer.Returning history) : answer.Returning history' := by
  cases answer with
  | carried decided call carriage =>
    cases carriage with
    | tunnelled bytes pieces => exact ⟨h.1, hmore.subset h.2.1, h.2.2⟩
    | answered | failed => exact trivial
  | quiet | passed | passedFollower | carriedFollower | replied => exact trivial

/-- In every run, each path is that of the newest packet under its key, and what went into the
tunnel has such a path. -/
theorem returning_run (registry : Registry) (limits : Limits) (carried : CarriedFlows)
    (nodes : SessionNodes) (events : List Event) :
    (loopRun registry limits carried nodes events).state.Returning ∧
      ∀ x ∈ (loopRun registry limits carried nodes events).log,
        x.2.Returning (loopRun registry limits carried nodes events).state.history := by
  refine Run.exec_invariant (I := fun c : Run.Config LoopState Event Answer =>
    c.state.Returning ∧ ∀ x ∈ c.log, x.2.Returning c.state.history) ?_ ?_ events
  · refine ⟨⟨fun _ => trivial, fun held hheld => absurd hheld not_mem_nil,
      nofun, fun key path hpath call hlatest => ?_⟩,
      fun x hx => nomatch hx⟩
    simp [LoopState.latest, LoopState.start] at hlatest
  rintro c event ⟨hstate, hlog⟩
  obtain ⟨hnext, hanswer, hmore⟩ := LoopState.returning_move hstate
    (LoopState.step_moves registry limits c.state event)
  refine ⟨hnext, fun x hx => ?_⟩
  rcases mem_snoc.1 hx with hx | rfl
  · exact (hlog x hx).mono hmore
  · exact hanswer

/-- An answer to a packet of the tunnel is put back to where the newest packet under its key came
from. -/
theorem returned_to_latest {carried : CarriedFlows} {nodes : SessionNodes} {events : List Event}
    {event : Event} {decided : Decided} {call : Routed} {pieces : List Bytes}
    (htunnelled : (event, Answer.carried decided call (.tunnelled bytes pieces)) ∈
      (loopRun registry limits carried nodes events).log)
    {reply : Bytes} (hanswers : Answers reply bytes) {now : Nat} {injected : Bytes}
    (hinjected : (injectReply (loopRun registry limits carried nodes events).state.nodes
      (loopRun registry limits carried nodes events).state.paths reply now).2 =
        .injected injected) :
    ipv4Fields decided.captured.bytes = some call.fields ∧
      ∃ newest, (loopRun registry limits carried nodes events).state.latest call.returnKey =
        some newest ∧
        ipv4Fields injected =
          some { call.fields.swapped with
            source := newest.fields.destination, destination := newest.fields.source } := by
  obtain ⟨hstate, hlog⟩ := returning_run registry limits carried nodes events
  obtain ⟨hcall, hrecorded, nodes', node, rfl⟩ := hlog _ htunnelled
  refine ⟨hcall.fields, ?_⟩
  -- The reply comes under the key of the packet it answers.
  obtain ⟨fields, hfields, hreply⟩ := hanswers.swapped
  rw [ipv4Fields_readdressed hcall.fields, Option.some.injEq] at hfields
  have hkey : ReturnKey.inbound fields.swapped = call.returnKey := by
    rw [← hfields]
    rfl
  have hsome : ((loopRun registry limits carried nodes events).state.latest call.returnKey).isSome =
      true := by
    rw [LoopState.latest, find?_isSome]
    exact ⟨call, hrecorded, by simp⟩
  obtain ⟨newest, hlatest⟩ := Option.isSome_iff_exists.1 hsome
  refine ⟨newest, hlatest, ?_⟩
  simp only [injectReply, hreply, hanswers.no_error, hkey] at hinjected
  split at hinjected
  · cases hinjected
  split at hinjected
  · cases hinjected
  next path hget =>
    cases hinjected
    obtain ⟨hlocal, hresolver⟩ := hstate.paths _ _ (get?_eq_some_iff.1 hget) newest hlatest
    rw [ipv4Fields_returned hreply, hlocal, hresolver, ← hfields]
    -- A redirected lookup comes from the resolver it asked, any other packet from the key's remote
    -- address.
    have hsource : newest.redirect.getD call.tunnelFields.destination =
        newest.fields.destination := by
      have hsame : newest.returnKey = call.returnKey := by simpa using find?_some hlatest
      have hremote : newest.tunnelFields.destination = call.tunnelFields.destination :=
        congrArg ReturnKey.remoteIp hsame
      cases hredirect : newest.redirect with
      | none =>
        rw [← hremote]
        simp [Routed.tunnelFields, hredirect]
      | some resolver =>
        exact hstate.history newest (mem_of_find?_eq_some hlatest) resolver hredirect
    have hports : call.tunnelFields.protocol = call.fields.protocol ∧
        call.tunnelFields.sourcePort = call.fields.sourcePort ∧
        call.tunnelFields.destinationPort = call.fields.destinationPort := by
      simp only [Routed.tunnelFields]
      split <;> exact ⟨rfl, rfl, rfl⟩
    obtain ⟨hprotocol, hsourcePort, hdestinationPort⟩ := hports
    simp only [Ipv4Fields.swapped]
    rw [hsource, hprotocol, hsourcePort, hdestinationPort]

/-- For every run and every answer that is injected: the answer comes from where the packet was sent
and goes to where it came from exactly when the newest packet under its return key had that packet's
own source and destination. -/
theorem reply_returned_iff (registry : Registry) (limits : Limits) (carried : CarriedFlows)
    (nodes : SessionNodes)
    (events : List Event) {event : Event} {decided : Decided} {call : Routed} {bytes : Bytes}
    {pieces : List Bytes}
    (htunnelled : (event, Answer.carried decided call (.tunnelled bytes pieces)) ∈
      (loopRun registry limits carried nodes events).log)
    {reply : Bytes} (hanswers : Answers reply bytes) {now : Nat} {injected : Bytes}
    (hinjected : (injectReply (loopRun registry limits carried nodes events).state.nodes
      (loopRun registry limits carried nodes events).state.paths reply now).2 =
        .injected injected) :
    ReturnsTo injected decided.captured.bytes ↔
      ∃ newest, (loopRun registry limits carried nodes events).state.latest call.returnKey =
        some newest ∧
        newest.fields.source = call.fields.source ∧
            newest.fields.destination = call.fields.destination := by
  obtain ⟨hcaptured, newest, hlatest, hfields⟩ := returned_to_latest htunnelled hanswers hinjected
  constructor
  · rintro ⟨fields, hown, hreturned⟩
    cases hcaptured.symm.trans hown
    have hsame := Option.some.inj (hfields.symm.trans hreturned)
    exact ⟨newest, hlatest, congrArg Ipv4Fields.destination hsame, congrArg Ipv4Fields.source hsame⟩
  · rintro ⟨newest', hlatest', hsource, hdestination⟩
    cases hlatest.symm.trans hlatest'
    refine ⟨call.fields, hcaptured, ?_⟩
    rw [hfields, hsource, hdestination]
    rfl

/-! ## Two resolvers -/

/-- A lookup from port 50000 that asks a resolver. -/
def lookupOf (resolver : Octets) : Captured :=
  ⟨[0x45, 0, 0, 28, 0, 1, 0x40, 0, 64, 17, 0, 0, 192, 168, 1, 20, resolver.1, resolver.2.1,
    resolver.2.2.1, resolver.2.2.2, 0xc3, 0x50, 0, 53, 0, 8, 0, 0],
    ⟨0, 0⟩, ⟨[], KeyedMap.empty, 0⟩, unknownSockets, []⟩

/-- One worker takes a lookup and tunnels it. -/
def lookupSent (resolver : Octets) : List Event :=
  [.receive 0 (lookupOf resolver) 0 0, .decide 0 true, .record (.worker 0) 0 0,
    .send (.worker 0) ⟨false, true, [some true]⟩]

/-- The answer of the tunnel's resolver. -/
def lookupAnswer : Bytes :=
  [0x45, 0, 0, 28, 0, 2, 0x40, 0, 64, 17, 0, 0, 8, 8, 8, 8, 10, 2, 0, 2, 0, 53, 0xc3, 0x50,
    0, 8, 0, 0]

/-- The answer as it is injected, from a resolver. -/
def answerFrom (resolver : Octets) : Bytes :=
  [0x45, 0, 0, 28, 0, 2, 0x40, 0, 64, 17, 0, 0, resolver.1, resolver.2.1, resolver.2.2.1,
    resolver.2.2.2, 192, 168, 1, 20, 0, 53, 0xc3, 0x50, 0, 8, 0, 0]

/-- A packet is in the tunnel for a captured one. -/
def Answer.isTunnelled (captured tunnelled : Bytes) (call : Routed) : Answer → Bool
  | .carried decided call' (.tunnelled bytes _) =>
    decide (decided.captured.bytes = captured ∧ call' = call ∧ bytes = tunnelled)
  | _ => false

theorem exists_tunnelled {log : List (Event × Answer)} {captured tunnelled : Bytes} {call : Routed}
    (h : (log.any fun x => x.2.isTunnelled captured tunnelled call) = true) :
    ∃ event decided pieces, decided.captured.bytes = captured ∧
      (event, Answer.carried decided call (.tunnelled tunnelled pieces)) ∈ log := by
  obtain ⟨⟨event, answer⟩, hmem, hanswer⟩ := any_eq_true.1 h
  simp only [Answer.isTunnelled] at hanswer
  split at hanswer
  next decided call' bytes pieces =>
    obtain ⟨hcaptured, rfl, rfl⟩ := of_decide_eq_true hanswer
    exact ⟨event, decided, pieces, hcaptured, hmem⟩
  · cases hanswer

/-- What a lookup to the router is routed as. -/
def lookupCall : Routed :=
  ⟨⟨(192, 168, 1, 20), (192, 168, 1, 1), 17, 50000, 53⟩, none, 0, true, some (192, 168, 1, 1)⟩

/-- The lookup in the tunnel. -/
def lookupTunnelled : Bytes :=
  [0x45, 0, 0, 28, 0, 1, 0x40, 0, 64, 17, 0, 0, 10, 2, 0, 2, 8, 8, 8, 8, 0xc3, 0x50, 0, 53,
    0, 8, 0, 0]

theorem lookupAnswer_answers : Answers lookupAnswer lookupTunnelled :=
  ⟨by decide +kernel, ⟨(10, 2, 0, 2), (8, 8, 8, 8), 17, 50000,
    53⟩, by decide +kernel, by decide +kernel⟩

/-- One lookup gets its answer from the router it asked. -/
theorem reply_returned_iff_router :
    ReturnsTo (answerFrom (192, 168, 1, 1)) (lookupOf (192, 168, 1, 1)).bytes := by
  have htunnelled : ((loopRun plainRegistry ⟨fun _ => 1280, true⟩ noFlows oneNode
      (lookupSent (192, 168, 1, 1))).log.any fun x =>
        x.2.isTunnelled (lookupOf (192, 168, 1, 1)).bytes lookupTunnelled lookupCall) = true := by
    decide +kernel
  obtain ⟨event, decided, pieces, hcaptured, hmem⟩ := exists_tunnelled htunnelled
  have hinjected : (injectReply (loopRun plainRegistry ⟨fun _ => 1280, true⟩ noFlows oneNode
      (lookupSent (192, 168, 1, 1))).state.nodes (loopRun plainRegistry ⟨fun _ => 1280,
        true⟩ noFlows oneNode
      (lookupSent (192, 168, 1, 1))).state.paths lookupAnswer 0).2 =
        .injected (answerFrom (192, 168, 1, 1)) := by
    decide +kernel
  rw [← hcaptured]
  exact (reply_returned_iff plainRegistry ⟨fun _ => 1280, true⟩ noFlows oneNode
    (lookupSent (192, 168, 1, 1)) hmem
    lookupAnswer_answers hinjected).2 ⟨lookupCall, by decide +kernel, rfl, rfl⟩

/-- A lookup to the router and one to another resolver, from one port: the answer to the first comes
from the second. -/
theorem resolvers_are_mixed_up :
    ¬ ∀ (registry : Registry) (limits : Limits) (carried : CarriedFlows) (nodes : SessionNodes)
        (events : List Event)
      (event : Event) (decided : Decided) (call : Routed) (bytes : Bytes) (pieces : List Bytes)
      (reply : Bytes) (now : Nat) (injected : Bytes),
      (event, Answer.carried decided call (.tunnelled bytes pieces)) ∈
        (loopRun registry limits carried nodes events).log → Answers reply bytes →
      (injectReply (loopRun registry limits carried nodes events).state.nodes
        (loopRun registry limits carried nodes events).state.paths reply now).2 =
          .injected injected →
      ReturnsTo injected decided.captured.bytes := by
  intro h
  have htunnelled : ((loopRun plainRegistry ⟨fun _ => 1280, true⟩ noFlows oneNode
      (lookupSent (192, 168, 1, 1) ++ lookupSent (10, 0, 0, 1))).log.any fun x =>
        x.2.isTunnelled (lookupOf (192, 168, 1, 1)).bytes lookupTunnelled lookupCall) = true := by
    decide +kernel
  obtain ⟨event, decided, pieces, hcaptured, hmem⟩ := exists_tunnelled htunnelled
  obtain ⟨fields, hfields, hreturned⟩ := h _ _ _ _ _ _ _ _ _ _ lookupAnswer 0
    (answerFrom (10, 0, 0, 1)) hmem
    lookupAnswer_answers (by decide +kernel)
  rw [hcaptured] at hfields
  have hasked : ipv4Fields (lookupOf (192, 168, 1, 1)).bytes =
      some lookupCall.fields := by decide +kernel
  cases hasked.symm.trans hfields
  exact absurd hreturned (by decide +kernel)

end GamePath.Engine.SplitCapture
