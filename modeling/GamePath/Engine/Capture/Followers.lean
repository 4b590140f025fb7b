import GamePath.Engine.Capture.FailClosed

/-!
# Later fragments go where their first one went

`FragmentVerdict` says of the router alone that a verdict is the newest ticket's. Here the tickets
are in the hands of the threads: a thread that has one is deciding about its first fragment
(`Stage.Followed`), and the verdict that it settles on puts fragments back on the stack only if the
first fragment was put back. Tickets are told apart by their generation, a machine integer that
wraps, so all this is for fewer than 2 ^ 64 first fragments. A thread that keeps its ticket for
longer than that settles a datagram that is not its own (`generation_comes_around`).
-/

namespace GamePath.Engine.SplitCapture

open Lib List LoopState FragmentRouter KeyedMap Option
open FragmentRouter (Ticket Key Route Datagram)
open FragmentRouter (finish_cases first keyed_step mem_of_mem_housekeep second step_generation)

variable {registry : Registry} {limits : Limits} {start : Nat}

/-- What a thread knows of its ticket, and what it makes of the later fragments in its hands. -/
def Stage.Followed (registry : Registry) (begun : List (Ticket × Captured)) : Stage → Prop
  | .idle => True
  | .deciding captured ticket => ∀ t, ticket = some t → (t, captured) ∈ begun
  | .routing decided _ ticket => ∀ t, ticket = some t → (t, decided.captured) ∈ begun
  | .sending decided _ _ ticket => ∀ t, ticket = some t → (t, decided.captured) ∈ begun
  | .settling captured ticket _ => (ticket, captured) ∈ begun
  | .dispatching route followers =>
    route = .bypass → ∀ follower ∈ followers, ∀ first, follower.first = some first →
      ¬ Protected registry first

namespace LoopState

variable {s : LoopState}

/-- The entry of a datagram belongs to its newest first fragment, or was opened by a later one, and
its verdict puts fragments back only if that first fragment may leave. -/
def EntryFollows (registry : Registry) (s : LoopState) (key : Key) (d : Datagram Interface) :
    Prop :=
  ∀ ticket first, s.newest key = some (ticket, first) →
    (d.generation = 0 ∨ d.generation = ticket.generation) ∧
      (d.route = some .bypass → ¬ Protected registry first)

/-- What holds of every state while the generations do not wrap. -/
structure Followed (registry : Registry) (start : Nat) (s : LoopState) : Prop where
  count : s.fragments.generation.toNat = start + s.begun.length
  numbered : ∀ entry ∈ s.begun, entry.1.generation ≠ 0 ∧ entry.1.generation.toNat ≤
    s.fragments.generation.toNat
  distinct : (s.begun.map fun entry => entry.1.generation).Nodup
  keyed : Keyed s.fragments
  entries : ∀ entry ∈ s.fragments.datagrams.entries, s.EntryFollows registry entry.1 entry.2
  stages : ∀ thread, (s.stages thread).Followed registry s.begun

/-! ## The newest first fragment -/

theorem mem_of_newest {key : Key} {entry : Ticket × Captured} (h : s.newest key = some entry) :
    entry ∈ s.begun ∧ entry.1.key = key :=
  ⟨mem_of_find?_eq_some h, by simpa using find?_some h⟩

theorem exists_newest {entry : Ticket × Captured} (h : entry ∈ s.begun) :
    ∃ newest, s.newest entry.1.key = some newest := by
  have hsome : (s.newest entry.1.key).isSome = true := by
    rw [newest, find?_isSome]
    exact ⟨entry, h, by simp⟩
  exact isSome_iff_exists.1 hsome

theorem Followed.eq_of_generation (h : s.Followed registry start) {entry entry' : Ticket × Captured}
    (hentry : entry ∈ s.begun) (hentry' : entry' ∈ s.begun)
    (hsame : entry.1.generation = entry'.1.generation) :
    entry = entry' :=
  inj_on_of_nodup_map h.distinct hentry hentry' hsame

variable {captured : Captured} {d : Datagram Interface}

theorem Followed.newest_of_generation (h : s.Followed registry start) {ticket : Ticket}
    (hticket : (ticket, captured) ∈ s.begun)
    (hmem : (ticket.key, d) ∈ s.fragments.datagrams.entries)
    (hgeneration : d.generation = ticket.generation) :
    s.newest ticket.key = some (ticket, captured) := by
  obtain ⟨⟨newest, first⟩, hnewest⟩ := exists_newest hticket
  obtain ⟨hmine, -⟩ := mem_of_newest hnewest
  have hne := (h.numbered _ hticket).1
  have hsame : newest.generation = ticket.generation := by
    rcases (h.entries _ hmem newest first hnewest).1 with hzero | hsame
    · exact absurd (hgeneration.symm.trans hzero) hne
    · exact hsame.symm.trans hgeneration
  rw [h.eq_of_generation hticket hmine hsame.symm]
  exact hnewest

/-! ## The entries of the router -/

theorem Followed.follows_entry (h : s.Followed registry start) (call : Call Interface) (key : Key)
    (now : Instant) : s.EntryFollows registry key ((s.fragments.housekeep call).entry key now) := by
  unfold entry
  cases hget : (s.fragments.housekeep call).datagrams.get? key with
  | none => exact fun ticket first hnewest => ⟨.inl rfl, nofun⟩
  | some d =>
    exact h.entries (key, d) (mem_of_mem_housekeep (get?_eq_some_iff.1 hget))

theorem Followed.follows_later (h : s.Followed registry start) (packet : Ipv4Packet)
    (address : Interface) (now : Instant) (pick : Nat) {key : Key}
    (hmem : (key, d) ∈ (s.fragments.later packet address now pick).1.datagrams.entries) :
    s.EntryFollows registry key d := by
  rcases mem_later_entries hmem with hkept | hlater
  · have hbefore : (key, d) ∈ (s.fragments.housekeep
        (.later packet address now pick)).datagrams.entries := hkept
    exact h.entries (key, d) (mem_of_mem_housekeep hbefore)
  obtain ⟨packet', address', now', pick', hcall, rfl, hgeneration, hroute, -⟩ := hlater
  have hentry := h.follows_entry (.later packet address now pick) (Key.of packet') now'
  intro ticket first hnewest
  obtain ⟨hbelongs, hbypass⟩ := hentry ticket first hnewest
  refine ⟨hgeneration ▸ hbelongs, fun hd => ?_⟩
  rcases hroute with hroute | hroute
  · exact hbypass (hroute ▸ hd)
  · rw [hroute] at hd
    cases hd

variable {route : Route}

theorem Followed.follows_finish (h : s.Followed registry start) {ticket : Ticket}
    (hticket : (ticket, captured) ∈ s.begun)
    (hroute : route = .bypass → ¬ Protected registry captured) (now : Instant) {key : Key}
    (hmem : (key, d) ∈ (s.fragments.finish ticket route now).1.datagrams.entries) :
    s.EntryFollows registry key d := by
  rcases mem_finish_entries hmem with hkept | hfinish
  · exact h.entries _ hkept
  obtain ⟨ticket', route', now', old, hcall, rfl, hold, hgeneration, hsame, -, hverdict⟩ := hfinish
  cases hcall
  have hnewest := h.newest_of_generation hticket hold hgeneration
  intro newest first hfound
  rw [hnewest, some.injEq] at hfound
  obtain ⟨rfl, rfl⟩ := hfound
  refine ⟨.inr (hsame.trans hgeneration), fun hd => ?_⟩
  rcases hverdict with hverdict | ⟨hverdict, -⟩
  · rw [hverdict] at hd
    cases hd
  · rw [hverdict, some.injEq] at hd
    exact hroute hd

theorem Followed.released (h : s.Followed registry start) {ticket : Ticket}
    (hticket : (ticket, captured) ∈ s.begun) (now : Instant) {waited : Ipv4Packet × Interface}
    (hmem : waited ∈ (s.fragments.finish ticket route now).2) :
    s.newest (Key.of waited.1) = some (ticket, captured) := by
  rcases finish_cases s.fragments ticket route now with ⟨-, heq⟩ | ⟨d, hget, hgeneration, hcases⟩
  · rw [heq] at hmem
    exact absurd hmem not_mem_nil
  have hentry := get?_eq_some_iff.1 hget
  rcases hcases with ⟨-, heq⟩ | ⟨-, -, heq⟩
  · rw [heq] at hmem
    exact absurd hmem not_mem_nil
  · rw [heq] at hmem
    rw [h.keyed _ hentry waited hmem]
    exact h.newest_of_generation hticket hentry hgeneration

theorem Followed.routed (h : s.Followed registry start) {packet : Ipv4Packet} {address : Interface}
    {now : Instant}
    {pick : Nat} (hroute : (s.fragments.later packet address now pick).2 = .route .bypass)
    {ticket : Ticket}
    {first : Captured} (hnewest : s.newest (Key.of packet) = some (ticket, first)) :
    ¬ Protected registry first := by
  have hentry := h.follows_entry (.later packet address now pick)
    (Key.of packet) now ticket first hnewest
  rcases hold_cases (s.fragments.prepare (Key.of packet) now pick) (Key.of packet)
    ((s.fragments.prepare (Key.of packet) now pick).entry (Key.of packet) now) packet address with
    ⟨route, hd, heq⟩ | ⟨-, -, heq⟩ | ⟨-, -, heq⟩
  · have hsame : Action.route route = .route .bypass := (congrArg Prod.snd heq).symm.trans hroute
    rw [Action.route.injEq] at hsame
    subst hsame
    exact hentry.2 hd
  · have hdrop : Action.route .drop = .route .bypass := (congrArg Prod.snd heq).symm.trans hroute
    cases hdrop
  · have hheld : Action.held = .route .bypass := (congrArg Prod.snd heq).symm.trans hroute
    cases hheld

/-! ## Steps -/

theorem followed_mono {begun begun' : List (Ticket × Captured)}
    (hsub : ∀ entry ∈ begun, entry ∈ begun') {stage : Stage}
    (h : stage.Followed registry begun) : stage.Followed registry begun' := by
  cases stage with
  | idle => exact trivial
  | deciding | routing | sending => exact fun t ht => hsub _ (h t ht)
  | settling captured ticket route => exact hsub _ h
  | dispatching route followers => exact h

variable {thread : Thread}

section

variable (h : s.Followed registry start)
include h

theorem Followed.ticket {stage : Stage} (hstage : s.stages thread = stage) :
    stage.Followed registry s.begun :=
  hstage ▸ h.stages thread

theorem Followed.goTo {stage : Stage} (hstage : stage.Followed registry s.begun) :
    (s.goTo thread stage).Followed registry start := by
  refine ⟨h.count, h.numbered, h.distinct, h.keyed, h.entries, fun thread' => ?_⟩
  show (Function.update s.stages thread stage thread').Followed registry s.begun
  by_cases hsame : thread' = thread
  · subst hsame
    rw [Function.update_self]
    exact hstage
  · rw [Function.update_of_ne hsame]
    exact h.stages thread'

theorem Followed.asked {fragments : FragmentRouter Interface}
    (hgeneration : fragments.generation = s.fragments.generation) (hkeyed : Keyed fragments)
    (hentries : ∀ key d, (key, d) ∈ fragments.datagrams.entries → s.EntryFollows registry key d) :
    Followed registry start { s with fragments := fragments.takeDiscarded.1 } where
  count := hgeneration ▸ h.count
  numbered := fun entry hentry =>
    ⟨(h.numbered entry hentry).1, (h.numbered entry hentry).2.trans_eq
      (congrArg UInt64.toNat hgeneration).symm⟩
  distinct := h.distinct
  keyed := hkeyed
  entries := fun entry hentry => hentries entry.1 entry.2 hentry
  stages := h.stages

theorem Followed.later (packet : Ipv4Packet) (address : Interface) (now : Instant) (pick : Nat) :
    Followed registry start
      { s with fragments := (s.fragments.later packet address now pick).1.takeDiscarded.1 } :=
  h.asked (step_generation s.fragments (.later packet address now pick))
    (keyed_step h.keyed (.later packet address now pick))
    fun _ _ => h.follows_later packet address now pick

omit h in
theorem newest_begun (ticket : Ticket) (captured : Captured) (key : Key)
    (fragments : FragmentRouter Interface) :
    LoopState.newest { s with fragments := fragments, begun := (ticket, captured) :: s.begun } key =
      if ticket.key = key then some (ticket, captured) else s.newest key := by
  show List.find? _ (_ :: _) = _
  by_cases hkey : ticket.key = key
  · simp [hkey]
  · simp [hkey, newest]

theorem Followed.begun (packet : Ipv4Packet) (captured : Captured) (now : Instant) (pick : Nat)
    (hbound : start + (s.begun.length + 1) < 2 ^ 64) :
    Followed registry start
      { s with
        fragments := (s.fragments.begin packet now pick).1
        begun := ((s.fragments.begin packet now pick).2, captured) :: s.begun } := by
  have hcount := h.count
  have hgeneration : (s.fragments.begin packet now pick).1.generation =
      max (s.fragments.generation + 1) 1 :=
    step_generation s.fragments (.begin packet now pick)
  have hnext : (max (s.fragments.generation + 1) 1).toNat = s.fragments.generation.toNat + 1 :=
    toNat_nextGeneration (by omega)
  have hticket := begin_ticket s.fragments packet now pick
  refine ⟨?_, ?_, ?_, keyed_step h.keyed (.begin packet now pick), ?_, ?_⟩
  · show (s.fragments.begin packet now pick).1.generation.toNat = start + (s.begun.length + 1)
    rw [hgeneration]
    omega
  · intro entry hentry
    rw [hgeneration, hnext]
    rcases mem_cons.1 hentry with rfl | hentry
    · rw [hticket]
      exact ⟨nextGeneration_ne_zero _, Nat.le_of_eq hnext⟩
    · exact ⟨(h.numbered entry hentry).1, Nat.le_succ_of_le (h.numbered entry hentry).2⟩
  · rw [map_cons, nodup_cons]
    refine ⟨fun hmem => ?_, h.distinct⟩
    obtain ⟨entry, hentry, hsame⟩ := mem_map.1 hmem
    have hle := (h.numbered entry hentry).2
    rw [hsame, hticket, hnext] at hle
    omega
  · rintro ⟨key, d⟩ hmem ticket first hnewest
    rw [newest_begun] at hnewest
    rcases mem_begin_entries hmem with ⟨hkept, hother⟩ | hbegin
    · have hne : (s.fragments.begin packet now pick).2.key ≠ key := by
        rw [hticket]
        exact fun hkey => hother hkey.symm
      rw [if_neg hne] at hnewest
      have hbefore : (key, d) ∈ (s.fragments.housekeep
          (.begin packet now pick)).datagrams.entries := hkept
      exact h.entries (key, d) (mem_of_mem_housekeep hbefore) ticket first hnewest
    have hkey : (s.fragments.begin packet now pick).2.key = key := by
      rw [hticket]
      exact hbegin.begins
    rw [if_pos hkey, some.injEq] at hnewest
    obtain ⟨rfl, -⟩ := hnewest
    refine ⟨.inr ?_, fun hroute => ?_⟩
    · rw [hticket]
      exact hbegin.generation
    · rw [hbegin.route] at hroute
      cases hroute
  · exact fun thread => followed_mono (fun entry hentry => mem_cons_of_mem _ hentry)
      (h.stages thread)

end

variable {answer : Answer} {s' : LoopState}

theorem begun_move (hmove : Moves registry limits s s' answer) :
    s.begun <:+ s'.begun := by
  cases hmove with
  | begins worker packet captured now pick => exact suffix_cons _ _
  | _ => exact suffix_refl _

theorem afterwards_followed {begun : List (Ticket × Captured)} {ticket : Option Ticket}
    (h : ∀ t, ticket = some t → (t, captured) ∈ begun) (route : Route) :
    (afterwards captured ticket route).Followed registry begun := by
  cases ticket with
  | none => exact trivial
  | some ticket => exact h ticket rfl

theorem dispatchTo_followed {begun : List (Ticket × Captured)} {followers : List Follower}
    (h : route = .bypass → ∀ follower ∈ followers, ∀ first, follower.first = some first →
      ¬ Protected registry first) :
    (dispatchTo route followers).Followed registry begun := by
  cases followers with
  | nil => exact trivial
  | cons follower rest => exact h

theorem newest_of_follower {piece : Ipv4Packet} {first : Captured}
    (h : (s.follower piece).first = some first) :
    ∃ ticket, s.newest (Key.of piece) = some (ticket, first) := by
  obtain ⟨⟨ticket, first'⟩, hnewest, rfl⟩ := map_eq_some_iff.1 h
  exact ⟨ticket, hnewest⟩

theorem Followed.apart (h : s.Followed registry start) (pending : List (Captured × Ipv4Fields))
    (paths : ReturnPaths) (nodes : SessionNodes) (stopped : Bool) (history : List Routed) :
    Followed registry start
      ⟨s.fragments, paths, nodes, pending, stopped, s.stages, s.begun, history⟩ :=
  ⟨h.count, h.numbered, h.distinct, h.keyed, h.entries, h.stages⟩

theorem Followed.settled (h : s.Followed registry start) (hguarded : s.Guarded registry)
    {ticket : Ticket} (hstage : s.stages thread = .settling captured ticket route) (now : Instant) :
    Followed registry start
      ({ s with fragments := (s.fragments.finish ticket route now).1.takeDiscarded.1 }.goTo thread
        (dispatchTo route
          ((s.fragments.finish ticket route now).2.map fun waited : Ipv4Packet × Interface =>
          s.follower waited.1))) := by
  have hticket := h.stages thread
  have hroute := hguarded.stages thread
  rw [hstage] at hticket hroute
  have hfinished : Followed registry start
      { s with fragments := (s.fragments.finish ticket route now).1.takeDiscarded.1 } :=
    h.asked (step_generation s.fragments (.finish ticket route now))
      (keyed_step h.keyed (.finish ticket route now))
      fun _ _ => h.follows_finish hticket hroute now
  refine hfinished.goTo (dispatchTo_followed fun hbypass follower hmem first hfirst => ?_)
  obtain ⟨waited, hwaited, rfl⟩ := mem_map.1 hmem
  obtain ⟨newest, hnewest⟩ := newest_of_follower hfirst
  rw [h.released hticket now hwaited, some.injEq, Prod.mk.injEq] at hnewest
  rw [← hnewest.2]
  exact hroute hbypass

/-- A later fragment that is put back has a first one that may leave. -/
def FollowerLeaves (registry : Registry) : Answer → Prop
  | .passedFollower follower => ∀ first, follower.first = some first → ¬ Protected registry first
  | _ => True

theorem followed_move (h : s.Followed registry start) (hguarded : s.Guarded registry)
    (hmove : Moves registry limits s s' answer) (hbound : start + s'.begun.length < 2 ^ 64) :
    s'.Followed registry start := by
  cases hmove with
  | stays => exact h
  | asks packet address now pick => exact h.later packet address now pick
  | @follows worker packet address now pick route hroute =>
    refine (h.later packet address now pick).goTo ?_
    rintro rfl follower hmem first hfirst
    rw [mem_singleton.1 hmem] at hfirst
    obtain ⟨ticket, hnewest⟩ := newest_of_follower hfirst
    exact h.routed hroute hnewest
  | begins worker packet captured now pick =>
    refine (h.begun packet captured now pick hbound).goTo ?_
    rintro t ht
    rw [← some.inj ht]
    exact mem_cons_self
  | takes worker captured => exact h.goTo nofun
  | passesUnreadable | passesSyn => exact h.goTo trivial
  | drops hstage | reinjects hstage | carries _ hstage | holds _ hstage | failsOpen hstage =>
    exact h.goTo (afterwards_followed (h.ticket hstage) _)
  | queues hstage hverdict => exact (h.apart _ s.paths s.nodes s.stopped s.history).goTo trivial
  | selects hstage hverdict =>
    have hticket := h.ticket hstage
    exact h.goTo hticket
  | selectsAgain hpending hcall =>
    exact (h.apart _ s.paths s.nodes s.stopped s.history).goTo nofun
  | passesAgain hpending hnone => exact h.apart _ s.paths s.nodes s.stopped s.history
  | records now pick hstage =>
    have hticket := h.ticket hstage
    exact (h.apart s.pending _ s.nodes s.stopped _).goTo hticket
  | settles now hstage => exact h.settled hguarded hstage now
  | dispatchesTunnel | dispatchesDrop => exact h.goTo (dispatchTo_followed nofun)
  | dispatchesBypass hstage =>
    exact h.goTo (dispatchTo_followed fun hbypass follower hmem =>
      h.ticket hstage hbypass follower (mem_cons_of_mem _ hmem))
  | replies | losesReply | removes => exact h.apart s.pending _ s.nodes s.stopped s.history
  | readdresses node address => exact h.apart s.pending s.paths _ s.stopped s.history
  | stops => exact h.apart s.pending s.paths s.nodes _ s.history

theorem followerLeaves_move (h : s.Followed registry start)
    (hmove : Moves registry limits s s' answer) : FollowerLeaves registry answer := by
  cases hmove with
  | dispatchesBypass hstage => exact h.ticket hstage rfl _ mem_cons_self
  | _ => exact trivial

end LoopState

/-! ## Every run -/

theorem followed_run (registry : Registry) (limits : Limits) (carried : CarriedFlows)
    (nodes : SessionNodes) (events : List Event) (hbound : carried.fragments.generation.toNat +
      (loopRun registry limits carried nodes events).state.begun.length < 2 ^ 64) :
    (loopRun registry limits carried nodes events).state.Followed registry
        carried.fragments.generation.toNat := by
  let I := fun c : Run.Config LoopState Event Answer => c.state.Guarded registry ∧
    (carried.fragments.generation.toNat + c.state.begun.length < 2 ^ 64 →
      c.state.Followed registry carried.fragments.generation.toNat)
  have hrun : I (loopRun registry limits carried nodes events) := Run.exec_invariant ?_ ?_ events
  · exact hrun.2 hbound
  · refine ⟨⟨fun _ => trivial, fun held hheld => nomatch hheld⟩, fun _ => ?_⟩
    refine ⟨rfl, fun entry hentry => absurd hentry not_mem_nil, nodup_nil, carried.keyed, ?_,
      fun _ => trivial⟩
    exact fun entry hentry ticket first hnewest => nomatch hnewest
  rintro c event ⟨hguarded, hfollowed⟩
  have hmove := step_moves registry limits c.state event
  refine ⟨(guarded_move hguarded hmove).1, fun hnext => ?_⟩
  have hmore := (begun_move hmove).length_le
  rw [Run.advance_state] at hnext ⊢
  exact followed_move (hfollowed (by omega)) hguarded hmove hnext

/-- In every run of a capture that is not stopped, over any order of its threads' steps and any
answers of the driver and the tunnel: no step puts a packet back on the stack that the kill switch
or remote DNS holds at any look at it, and, as long as fewer than 2 ^ 64 first fragments have come,
none puts back a later fragment whose newest first fragment was held. -/
theorem kill_switch_fails_closed (registry : Registry) (limits : Limits) (carried : CarriedFlows)
    (nodes : SessionNodes) (events : List Event) (event : Event)
    (hrunning : (loopRun registry limits carried nodes events).state.stopped = false) :
    (∀ decided, (LoopState.step registry limits
      (loopRun registry limits carried nodes events).state event).2 =
        .passed decided → ∀ captured ∈ decided.looks,
          ∀ fields, ¬ KillSwitched registry captured fields) ∧
    (∀ decided, (LoopState.step registry limits
      (loopRun registry limits carried nodes events).state event).2 =
        .passed decided → ∀ captured ∈ decided.looks,
          ∀ fields, ¬ RemoteLookup registry captured fields) ∧
    (carried.fragments.generation.toNat +
      (loopRun registry limits carried nodes events).state.begun.length < 2 ^ 64 →
      ∀ follower first,
        (LoopState.step registry limits
          (loopRun registry limits carried nodes events).state event).2 =
          .passedFollower follower → follower.first = some first → ¬ Protected registry first) := by
  have hmove := LoopState.step_moves registry limits
    (loopRun registry limits carried nodes events).state event
  have hanswer := (LoopState.guarded_move
    (guarded_run registry limits carried nodes events) hmove).2 hrunning
  refine ⟨fun decided hpassed captured hlook fields hkill => ?_,
    fun decided hpassed captured hlook fields hremote => ?_,
    fun hbound follower first hpassed hfirst => ?_⟩
  · rw [hpassed] at hanswer
    exact hanswer ⟨captured, hlook, fields, .inl hkill⟩
  · rw [hpassed] at hanswer
    exact hanswer ⟨captured, hlook, fields, .inr hremote⟩
  · have hleaves := LoopState.followerLeaves_move
      (followed_run registry limits carried nodes events hbound) hmove
    rw [hpassed] at hleaves
    exact hleaves first hfirst

/-! ## Fragments that no rule takes -/

/-- A relay that rebuilds what was split. -/
def relayLimits : Limits := ⟨fun _ => 1280, true⟩

/-- A first fragment, with the flows the rules have when it is taken. -/
def firstFragment (flows : KeyedMap FlowKey Selection) : Captured :=
  ⟨first.bytes, ⟨0, 0⟩, ⟨[], flows, 1⟩, unknownSockets, []⟩

/-- Its last fragment. -/
def lastFragment : Captured :=
  ⟨second.bytes, ⟨0, 0⟩, ⟨[], empty, 0⟩, unknownSockets, []⟩

/-- It comes before a rule takes its flow. -/
def unruled : Captured := firstFragment empty

/-- It comes when a rule takes its flow. -/
def ruled : Captured := firstFragment (empty.insert (17, 0, some 0) ⟨none, some 77, 0⟩)

/-- A fragment that no rule takes is put back, and its later fragment follows it. -/
theorem kill_switch_fails_closed_unruled :
    (LoopState.step plainRegistry relayLimits (loopRun plainRegistry relayLimits noFlows oneNode
      [.receive 0 unruled 0 0, .decide 0 true, .settle (.worker 0) 0,
        .receive 1 lastFragment 0 0]).state
      (.dispatch (.worker 1) true [])).2 = .passedFollower ⟨second, some unruled⟩ ∧
    ¬ Protected plainRegistry unruled :=
  ⟨rfl, (kill_switch_fails_closed plainRegistry relayLimits noFlows oneNode
      [.receive 0 unruled 0 0, .decide 0 true, .settle (.worker 0) 0, .receive 1 lastFragment 0 0]
      (.dispatch (.worker 1) true []) rfl).2.2 (by decide) ⟨second, some unruled⟩ unruled rfl rfl⟩

/-! ## A generation that comes around

A worker that has put a fragment back stops before it tells the router. Meanwhile a rule takes the
flow, and another worker tunnels the first fragments of datagrams that have the same identification,
until the generation is what it was when the first worker stopped. What that worker tells the router
now is the verdict for the newest datagram. -/

/-- The datagram of the fragments. -/
def datagramKey : Key := Key.of first

/-- A router that knows one datagram, of the newest generation. -/
def routerAt (generation : UInt64) (route : Option Route) : FragmentRouter Interface :=
  ⟨⟨[(datagramKey, ⟨0, generation, route, []⟩)], nodup_singleton _⟩, generation, 0, 0, false⟩

theorem begin_routerAt (generation : UInt64) (route : Option Route) :
    (routerAt generation route).begin first 0 0 =
      (routerAt (max (generation + 1) 1) none, ⟨datagramKey, max (generation + 1) 1⟩) := by
  have hprepare : (routerAt generation route).prepare datagramKey 0 0 =
      routerAt generation route := by
    cases route <;> rfl
  have hget : (routerAt generation route).datagrams.get? datagramKey = some ⟨0, generation, route,
      []⟩ := rfl
  show ((routerAt generation route).prepare datagramKey 0 0).reserve datagramKey 0 = _
  rw [hprepare]
  obtain ⟨hticket, ⟨hnone, -⟩ | ⟨old, hold, -, heq⟩ | ⟨old, hold, -, heq⟩⟩ :=
    reserve_cases (routerAt generation route) datagramKey 0
  · cases hnone
  · cases hget.symm.trans hold
    exact Prod.ext heq hticket
  · cases hget.symm.trans hold
    exact Prod.ext heq hticket

theorem finish_routerAt (generation : UInt64) (route : Option Route) (route' : Route)
    (hopen : route ≠ some .drop) (hroute : route' ≠ .drop) :
    (routerAt generation route).finish ⟨datagramKey, generation⟩ route' 0 =
      (routerAt generation (some route'), []) := by
  rcases finish_cases (routerAt generation route) ⟨datagramKey, generation⟩ route' 0 with
    ⟨hother, -⟩ | ⟨d, hget, -, ⟨hdrop, -⟩ | ⟨-, -, heq⟩⟩
  · exact absurd rfl (hother ⟨0, generation, route, []⟩ rfl)
  · obtain rfl : (⟨0, generation, route, []⟩ : Datagram Interface) = d := some.inj hget
    simp [verdict, hopen, hroute] at hdrop
  · obtain rfl : (⟨0, generation, route, []⟩ : Datagram Interface) = d := some.inj hget
    exact heq

/-- What the fragment is routed as once the rule takes it. -/
def ruledCall : Routed := ⟨⟨(10, 0, 0, 2), (9, 9, 9, 9), 17, 0, 0⟩, some 77, 0, true, none⟩

/-- The return paths with its own only. -/
def ruledPaths : ReturnPaths := (recordPath empty ruledCall ⟨0, 0⟩ 0 0).1

/-- Worker 0 has put the fragment back and has not told the router. -/
def stalled (generation : UInt64) (route : Option Route) (paths : ReturnPaths)
    (begun : List (Ticket × Captured)) (history : List Routed) : LoopState :=
  ⟨routerAt generation route, paths, oneNode, [], false,
    Function.update (fun _ => .idle) (.worker 0) (.settling unruled ⟨datagramKey, 1⟩ .bypass),
      begun, history⟩

/-- Worker 1 tunnels the fragment. -/
def round : List Event :=
  [.receive 1 ruled 0 0, .decide 1 true, .record (.worker 1) 0 0, .send (.worker 1) ⟨false, true,
    [some true]⟩, .settle (.worker 1) 0]

namespace LoopState

variable {s : LoopState} {thread : Thread} {decided : Decided} {call : Routed} {node : UInt8}
  {ticket : Option Ticket}

@[simp] theorem goTo_goTo (s : LoopState) (thread : Thread) (stage stage' : Stage) :
    (s.goTo thread stage).goTo thread stage' = s.goTo thread stage' := by
  simp [goTo]

theorem goTo_self {stage : Stage} (h : s.stages thread = stage) : s.goTo thread stage = s := by
  subst h
  simp [goTo]

theorem goTo_stages (s : LoopState) (thread : Thread) (stage : Stage) :
    (s.goTo thread stage).stages thread = stage :=
  Function.update_self ..

theorem decideCaptured_of_routed {worker : Nat} {captured : Captured} {first : Bool} (room : Bool)
    (hstage : s.stages (.worker worker) = .deciding captured ticket)
    (hverdict : classify (captured.rules registry) captured.table
      (captured.socketsNow s.paths) captured.bytes =
      .routed call first) :
    decideCaptured registry s worker room =
      (s.goTo (.worker worker) (.routing ⟨captured, none⟩ call ticket), .quiet) := by
  simp only [decideCaptured, hstage, hverdict]

theorem send_of_carried {transmission : Transmission}
    (hstage : s.stages thread = .sending decided call node ticket)
    (hcarried : (transmit s.nodes limits node call.redirect transmission
        decided.captured.bytes).isCarried = true) :
    (send limits s thread transmission).1 =
      s.goTo thread (SplitCapture.afterwards decided.captured ticket
        (.tunnel call.redirect node)) := by
  simp only [send, hstage, hcarried, if_true]

end LoopState

section Rounds

variable (generation : UInt64) (route : Option Route) (paths : ReturnPaths)
  (begun : List (Ticket × Captured)) (history : List Routed) (ticket : Ticket)

theorem receive_stalled : (stalled generation route paths begun history).receive 1 ruled 0 0 =
    (stalled (max (generation + 1) 1) none paths ((⟨datagramKey, max (generation + 1) 1⟩,
      ruled) :: begun)
      history).goTo (.worker 1) (.deciding ruled (some ⟨datagramKey, max (generation + 1) 1⟩)) := by
  have hbegin : (stalled generation route paths begun history).receive 1 ruled 0 0 =
      { stalled generation route paths begun history with
        fragments := ((routerAt generation route).begin first 0 0).1
        begun := (((routerAt generation route).begin first 0 0).2, ruled) :: begun }.goTo
          (.worker 1)
        (.deciding ruled (some ((routerAt generation route).begin first 0 0).2)) := rfl
  rw [hbegin, begin_routerAt]
  rfl

theorem decide_stalled :
    LoopState.decideCaptured plainRegistry ((stalled generation route paths begun history).goTo
      (.worker 1)
        (.deciding ruled (some ticket))) 1 true =
      ((stalled generation route paths begun history).goTo (.worker 1)
        (.routing ⟨ruled, none⟩ ruledCall (some ticket)), .quiet) := by
  have hverdict : ∀ carried, classify (ruled.rules plainRegistry) ruled.table
      { ruled.sockets with carried := carried }
      ruled.bytes = .routed ruledCall true := by
    decide +kernel
  rw [decideCaptured_of_routed true (goTo_stages ..) (hverdict _), goTo_goTo]

theorem record_stalled (hpaths : recordPath paths ruledCall ⟨0, 0⟩ 0 0 = (ruledPaths, 0)) :
    ((stalled generation route paths begun history).goTo (.worker 1)
        (.routing ⟨ruled, none⟩ ruledCall (some ticket))).record (.worker 1) 0 0 =
      (stalled generation route ruledPaths begun (ruledCall :: history)).goTo (.worker 1)
        (.sending ⟨ruled, none⟩ ruledCall 0 (some ticket)) := by
  have hrecord : ((stalled generation route paths begun history).goTo (.worker 1)
        (.routing ⟨ruled, none⟩ ruledCall (some ticket))).record (.worker 1) 0 0 =
      ((stalled generation route (recordPath paths ruledCall ⟨0, 0⟩ 0 0).1 begun
        (ruledCall :: history)).goTo (.worker 1)
        (.routing ⟨ruled, none⟩ ruledCall (some ticket))).goTo (.worker 1)
        (.sending ⟨ruled, none⟩ ruledCall (recordPath paths ruledCall ⟨0, 0⟩ 0 0).2
          (some ticket)) := rfl
  rw [hrecord, hpaths, goTo_goTo]

theorem send_stalled :
    (LoopState.send relayLimits ((stalled generation route paths begun history).goTo (.worker 1)
        (.sending ⟨ruled, none⟩ ruledCall 0 (some ticket))) (.worker 1) ⟨false, true,
          [some true]⟩).1 =
      (stalled generation route paths begun history).goTo (.worker 1)
        (.settling ruled ticket (.tunnel none 0)) := by
  have hcarried : (transmit oneNode relayLimits 0 none ⟨false, true,
      [some true]⟩ ruled.bytes).isCarried = true := by
    decide +kernel
  have hsend : (LoopState.send relayLimits ((stalled generation route paths begun history).goTo
      (.worker 1)
        (.sending ⟨ruled, none⟩ ruledCall 0 (some ticket))) (.worker 1) ⟨false, true,
          [some true]⟩).1 =
      ((stalled generation route paths begun history).goTo (.worker 1)
        (.sending ⟨ruled, none⟩ ruledCall 0 (some ticket))).goTo (.worker 1)
          (.settling ruled ticket (.tunnel none 0)) :=
    send_of_carried (goTo_stages ..) hcarried
  rw [hsend, goTo_goTo]

theorem settle_stalled :
    ((stalled generation none paths begun history).goTo (.worker 1)
        (.settling ruled ⟨datagramKey, generation⟩ (.tunnel none 0))).settle (.worker 1) 0 =
      stalled generation (some (.tunnel none 0)) paths begun history := by
  have hfinish : ((stalled generation none paths begun history).goTo (.worker 1)
        (.settling ruled ⟨datagramKey, generation⟩ (.tunnel none 0))).settle (.worker 1) 0 =
      (({ stalled generation none paths begun history with
          fragments := ((routerAt generation none).finish ⟨datagramKey, generation⟩ (.tunnel none 0)
            0).1.takeDiscarded.1 }.goTo (.worker 1)
        (.settling ruled ⟨datagramKey, generation⟩ (.tunnel none 0))).goTo (.worker 1)
        (dispatchTo (.tunnel none 0) (((routerAt generation none).finish ⟨datagramKey, generation⟩
          (.tunnel none 0)
          0).2.map fun waited : Ipv4Packet × Interface =>
            (stalled generation none paths begun history).follower waited.1))) := rfl
  rw [hfinish, finish_routerAt generation none (.tunnel none 0) (by simp) (by simp), goTo_goTo]
  exact goTo_self rfl

theorem round_stalled (hpaths : recordPath paths ruledCall ⟨0, 0⟩ 0 0 = (ruledPaths, 0))
    (log : List (Event × Answer)) :
    (Run.execFrom (LoopState.step plainRegistry relayLimits)
      ⟨stalled generation route paths begun history, log⟩
      round).state =
      stalled (max (generation + 1) 1) (some (.tunnel none 0)) ruledPaths
        ((⟨datagramKey, max (generation + 1) 1⟩, ruled) :: begun) (ruledCall :: history) := by
  show (LoopState.send relayLimits ((LoopState.decideCaptured plainRegistry
      ((stalled generation route paths begun
    history).receive 1 ruled 0 0) 1 true).1.record (.worker 1) 0 0) (.worker 1) ⟨false, true,
      [some true]⟩).1.settle
      (.worker 1) 0 = _
  rw [receive_stalled, decide_stalled, record_stalled _ _ _ _ _ _ hpaths, send_stalled,
    settle_stalled]

end Rounds

/-- Several rounds. -/
def rounds (count : Nat) : List Event := (List.replicate count round).flatten

theorem rounds_succ (count : Nat) : rounds (count + 1) = rounds count ++ round := by
  rw [rounds, replicate_succ']
  simp [rounds]

/-- Worker 0 stops. -/
def stall : List Event := [.receive 0 unruled 0 0, .decide 0 true]

theorem stall_stalled : (loopRun plainRegistry relayLimits noFlows oneNode stall).state =
    stalled 1 none empty [(⟨datagramKey, 1⟩, unruled)] [] := by
  have hstall : (loopRun plainRegistry relayLimits noFlows oneNode stall).state =
      (LoopState.goTo ⟨routerAt 1 none, empty, oneNode, [], false, fun _ => .idle,
        [(⟨datagramKey, 1⟩, unruled)], []⟩ (.worker 0)
          (.deciding unruled (some ⟨datagramKey, 1⟩))).goTo (.worker 0)
          (.settling unruled ⟨datagramKey, 1⟩ .bypass) := rfl
  rw [hstall, goTo_goTo]
  rfl

/-- One more round. -/
theorem run_round {events : List Event} {generation : UInt64} {route : Option Route}
    {paths : ReturnPaths} {begun : List (Ticket × Captured)} {history : List Routed}
    (h : (loopRun plainRegistry relayLimits noFlows oneNode events).state =
      stalled generation route paths begun history)
    (hpaths : recordPath paths ruledCall ⟨0, 0⟩ 0 0 = (ruledPaths, 0)) :
    (loopRun plainRegistry relayLimits noFlows oneNode (events ++ round)).state =
      stalled (max (generation + 1) 1) (some (.tunnel none 0)) ruledPaths
        ((⟨datagramKey, max (generation + 1) 1⟩, ruled) :: begun) (ruledCall :: history) := by
  rw [loopRun_append h]
  exact round_stalled generation route paths begun history hpaths _

theorem rounds_stalled (count : Nat) (hcount : count + 2 < 2 ^ 64) :
    ∃ begun history, (loopRun plainRegistry relayLimits noFlows oneNode
      (stall ++ rounds (count + 1))).state =
      stalled (UInt64.ofNat (count + 2)) (some (.tunnel none 0)) ruledPaths begun history := by
  induction count with
  | zero => exact ⟨_, _, run_round stall_stalled rfl⟩
  | succ count ih =>
    obtain ⟨begun, history, hstate⟩ := ih (by omega)
    have hround := run_round hstate rfl
    have hsmall : (UInt64.ofNat (count + 2)).toNat = count + 2 :=
      UInt64.toNat_ofNat_of_lt' (show count + 2 < 2 ^ 64 by omega)
    have hnext : max (UInt64.ofNat (count + 2) + 1) 1 = UInt64.ofNat (count + 1 + 2) := by
      rw [← UInt64.toNat_inj, toNat_nextGeneration (by omega), hsmall,
        UInt64.toNat_ofNat_of_lt' (show count + 1 + 2 < 2 ^ 64 by omega)]
    rw [hnext, append_assoc, ← rounds_succ] at hround
    exact ⟨_, _, hround⟩

theorem comes_around (count : Nat) (hcount : count + 3 = 2 ^ 64) :
    ∃ begun history, (loopRun plainRegistry relayLimits noFlows oneNode
      (stall ++ rounds (count + 2))).state =
      stalled 1 (some (.tunnel none 0)) ruledPaths ((⟨datagramKey, 1⟩, ruled) ::
        begun) history := by
  obtain ⟨begun, history, hstate⟩ := rounds_stalled count (by omega)
  have hround := run_round hstate rfl
  have hwrapped : max (UInt64.ofNat (count + 2) + 1) 1 = 1 := by
    rw [show count + 2 = 2 ^ 64 - 1 by omega]
    decide
  rw [hwrapped, append_assoc, ← rounds_succ] at hround
  exact ⟨_, _, hround⟩

/-- Worker 0 goes on, and worker 2 meets the last fragment of the newest datagram. -/
def resume : List Event := [.settle (.worker 0) 0, .receive 2 lastFragment 0 0]

theorem resume_stalled (begun : List (Ticket × Captured)) (history : List Routed)
    (log : List (Event × Answer)) :
    (Run.execFrom (LoopState.step plainRegistry relayLimits)
      ⟨stalled 1 (some (.tunnel none 0)) ruledPaths ((⟨datagramKey, 1⟩, ruled) :: begun) history,
        log⟩ resume).state =
      ((stalled 1 (some .bypass) ruledPaths ((⟨datagramKey, 1⟩, ruled) :: begun) history).goTo
        (.worker 0) .idle).goTo
        (.worker 2) (.dispatching .bypass [⟨second, some ruled⟩]) := rfl

theorem resumed (count : Nat) (hcount : count + 3 = 2 ^ 64) :
    ∃ begun history,
      (loopRun plainRegistry relayLimits noFlows oneNode (stall ++ rounds (count + 2) ++
        resume)).state =
        ((stalled 1 (some .bypass) ruledPaths ((⟨datagramKey, 1⟩, ruled) :: begun) history).goTo
          (.worker 0) .idle).goTo
          (.worker 2) (.dispatching .bypass [⟨second, some ruled⟩]) := by
  obtain ⟨begun, history, hstate⟩ := comes_around count hcount
  refine ⟨begun, history, ?_⟩
  rw [loopRun_append hstate]
  exact resume_stalled begun history _

theorem protected_ruled : Protected plainRegistry ruled := by
  exact ⟨ruledCall.fields, .inl ⟨rfl, rfl, rfl, by decide, ⟨⟨none, some 77, 0⟩, rfl, rfl⟩,
    rfl, by decide +kernel, rfl⟩⟩

/-- Without a bound on the first fragments, a later fragment can leave whose newest first fragment
is held. -/
theorem generation_comes_around :
    ¬ ∀ (registry : Registry) (limits : Limits) (carried : CarriedFlows) (nodes : SessionNodes)
        (events : List Event)
      (event : Event), (loopRun registry limits carried nodes events).state.stopped = false →
        (∀ decided, (LoopState.step registry limits
          (loopRun registry limits carried nodes events).state event).2 =
            .passed decided → ∀ captured ∈ decided.looks,
              ∀ fields, ¬ KillSwitched registry captured fields) ∧
        (∀ decided, (LoopState.step registry limits
          (loopRun registry limits carried nodes events).state event).2 =
            .passed decided → ∀ captured ∈ decided.looks,
              ∀ fields, ¬ RemoteLookup registry captured fields) ∧
        ∀ follower first,
          (LoopState.step registry limits
            (loopRun registry limits carried nodes events).state event).2 =
            .passedFollower follower → follower.first = some first →
              ¬ Protected registry first := by
  intro h
  obtain ⟨count, hcount⟩ : ∃ count, count + 3 = 2 ^ 64 := ⟨2 ^ 64 - 3, by norm_num⟩
  obtain ⟨begun, history, hstate⟩ := resumed count hcount
  have hclosed := h plainRegistry relayLimits noFlows oneNode
    (stall ++ rounds (count + 2) ++ resume) (.dispatch (.worker 2) true [])
  rw [hstate] at hclosed
  exact (hclosed rfl).2.2 ⟨second, some ruled⟩ ruled rfl rfl protected_ruled

end GamePath.Engine.SplitCapture
