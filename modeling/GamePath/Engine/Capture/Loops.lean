import GamePath.Engine.FragmentVerdict
import GamePath.Engine.Capture.Routing

/-!
# The threads of a split capture

Several workers run `run_selected_capture`, one thread runs `run_pending_syns` and one
`run_reply_injector`. They share the fragment router and the return paths, each behind its lock, and
the queue of held SYNs. A step here is what a thread does between two points at which another one
can come in: under one lock, or between two locks. A run is a list of steps of any threads, so it is
any interleaving of them.

What a thread is told from outside while it decides about a packet comes with the packet. `begun`
and `history` are not in the source: they are the first fragments and the selected packets so far,
the latest first.
-/

namespace GamePath.Engine.SplitCapture

open Lib
open FragmentRouter (Ticket Key Route)

/-! ## State -/

/-- A packet that was taken off the stack, with what the worker is told while it decides. The
addresses learned for the direct list and the answers about sockets can be others for each packet.
-/
structure Captured where
  bytes : Bytes
  address : Interface
  table : SelectorTable
  sockets : Sockets
  learned : List Octets

namespace Captured

/-- The rules and the learned addresses as a packet meets them. -/
def rules (captured : Captured) (registry : Registry) : Registry :=
  { registry with directLearned := captured.learned }

/-- The answers about a packet, with what the return paths say of its flow. -/
def socketsNow (captured : Captured) (paths : ReturnPaths) : Sockets :=
  { captured.sockets with
    carried := (ipv4Fields captured.bytes).any fun fields =>
      (paths.get? (ReturnKey.outbound fields)).isSome }

end Captured

/-- What the thread of the held SYNs meets. -/
structure Look where
  table : SelectorTable
  proxyOwns : UInt8 → Bool

/-- A packet that was decided, once or twice. -/
structure Decided where
  captured : Captured
  second : Option Look

/-- A thread that captures packets or decides about held ones. -/
inductive Thread where
  | worker (index : Nat)
  | pendingSyns
  deriving DecidableEq

/-- A later fragment whose way is known, with the newest first fragment of its datagram at that
time. -/
structure Follower where
  piece : Ipv4Packet
  first : Option Captured

/-- Where a thread is. -/
inductive Stage where
  | idle
  | deciding (captured : Captured) (ticket : Option Ticket)
  /-- `route_selected_packet` before the return paths are locked. -/
  | routing (decided : Decided) (call : Routed) (ticket : Option Ticket)
  | sending (decided : Decided) (call : Routed) (node : UInt8) (ticket : Option Ticket)
  /-- `finish_fragments` before the router is locked. -/
  | settling (captured : Captured) (ticket : Ticket) (route : Route)
  | dispatching (route : Route) (followers : List Follower)

/-- What the threads share, and where each of them is. -/
structure LoopState where
  fragments : FragmentRouter Interface
  paths : ReturnPaths
  nodes : SessionNodes
  pending : List (Captured × Ipv4Fields)
  stopped : Bool
  stages : Thread → Stage
  begun : List (Ticket × Captured)
  history : List Routed

/-- `CarriedFlows`: what a capture takes over from the one it replaces. Every fragment that waits in
the router waits under its own datagram. -/
structure CarriedFlows where
  fragments : FragmentRouter Interface
  keyed : FragmentRouter.Keyed fragments
  returnPaths : ReturnPaths

/-- A capture that replaces no other one. -/
def noFlows : CarriedFlows := ⟨FragmentRouter.default, nofun, KeyedMap.empty⟩

/-- Whatever calls of a router leave behind can be taken over. -/
def flowsAfter (calls : List (FragmentRouter.Call Interface)) (paths : ReturnPaths) :
    CarriedFlows :=
  ⟨(FragmentRouter.routerRun calls).state, FragmentRouter.keyed_run calls, paths⟩

-- A piece that came before its first fragment goes on waiting.
example : (flowsAfter [.later ⟨List.replicate 20 0, by decide⟩ ⟨1, 0⟩ 0 0]
    .empty).fragments.datagrams.size = 1 := by
  decide

/-- A session of one node. -/
def oneNode : SessionNodes := ⟨[(10, 2, 0, 2)], by simp⟩

/-- A capture that starts. -/
def LoopState.start (carried : CarriedFlows) (nodes : SessionNodes) : LoopState :=
  ⟨carried.fragments, carried.returnPaths, nodes, [], false, fun _ => .idle, [], []⟩

namespace LoopState

/-- One thread goes on. -/
def goTo (s : LoopState) (thread : Thread) (stage : Stage) : LoopState :=
  { s with stages := Function.update s.stages thread stage }

/-- The newest first fragment of a datagram. -/
def newest (s : LoopState) (key : Key) : Option (Ticket × Captured) :=
  s.begun.find? fun entry => decide (entry.1.key = key)

/-- A later fragment that is routed now. -/
def follower (s : LoopState) (piece : Ipv4Packet) :
    Follower := ⟨piece, (s.newest (Key.of piece)).map Prod.snd⟩

end LoopState

/-! ## Steps -/

/-- One step of a thread. -/
inductive Event where
  /-- A worker takes a packet and, if it is a fragment, asks the router. -/
  | receive (worker : Nat) (captured : Captured) (now : Instant) (pick : Nat)
  /-- A worker decides. `room` says whether the queue of held SYNs takes one more. -/
  | decide (worker : Nat) (room : Bool)
  /-- The next held SYN is decided again. -/
  | lookAgain (look : Look)
  | record (thread : Thread) (now pick : Nat)
  | send (thread : Thread) (transmission : Transmission)
  | settle (thread : Thread) (now : Instant)
  | dispatch (thread : Thread) (checksummed : Bool) (answers : List (Option Bool))
  /-- A packet came back, and the driver takes what is made of it or not. -/
  | reply (bytes : Bytes) (now : Nat) (delivered : Bool)
  /-- `remove_owned_routes`. -/
  | removePaths (keep : ReturnKey → ReturnPath → Bool)
  | setAddress (node : Nat) (address : Octets)
  | stop

/-- What is seen of a step from outside. -/
inductive Answer where
  | quiet
  /-- `reinject` or `send_bypass`. -/
  | passed (decided : Decided)
  /-- `reinject` for a later fragment. -/
  | passedFollower (follower : Follower)
  /-- A selected packet was carried, or held. -/
  | carried (decided : Decided) (call : Routed) (carriage : Carriage)
  | carriedFollower (follower : Follower) (carriage : Carriage)
  | replied (reply : Reply)

/-- The packet as the fragment router takes it. -/
def asPacket (bytes : Bytes) : Option Ipv4Packet :=
  if h : 20 ≤ bytes.length then some ⟨bytes, h⟩ else none

/-- Where a thread goes with later fragments to dispatch. -/
def dispatchTo (route : Route) : List Follower → Stage
  | [] => .idle
  | followers => .dispatching route followers

/-- Where a thread goes once a packet was decided: its later fragments are told, if it is a first
one. -/
def afterwards (captured : Captured) (ticket : Option Ticket) (route : Route) : Stage :=
  match ticket with
  | some ticket => .settling captured ticket route
  | none => .idle

namespace LoopState

variable (registry : Registry) (limits : Limits) (s : LoopState)

/-- A worker takes a packet off the stack. -/
def receive (worker : Nat) (captured : Captured) (now : Instant) (pick : Nat) : LoopState :=
  match s.stages (.worker worker), asPacket captured.bytes with
  | .idle, some packet =>
    if isLaterFragment captured.bytes then
      let asked := s.fragments.later packet captured.address now pick
      let s := { s with fragments := asked.1.takeDiscarded.1 }
      match asked.2 with
      | .route route => s.goTo (.worker worker) (.dispatching route [s.follower packet])
      | .held => s
    else if isFirstFragment captured.bytes then
      let begun := s.fragments.begin packet now pick
      { s with fragments := begun.1, begun := (begun.2, captured) :: s.begun }.goTo (.worker worker)
        (.deciding captured (some begun.2))
    else s.goTo (.worker worker) (.deciding captured none)
  | .idle, none => s.goTo (.worker worker) (.deciding captured none)
  | _, _ => s

/-- A worker decides about the packet it took. -/
def decideCaptured (worker : Nat) (room : Bool) : LoopState × Answer :=
  match s.stages (.worker worker) with
  | .deciding captured ticket =>
    match classify (captured.rules registry) captured.table
      (captured.socketsNow s.paths) captured.bytes with
    | .followsFirst => (s, .quiet)
    | .unreadable _ =>
      (s.goTo (.worker worker) (afterwards captured ticket .drop),
        if ticket.isSome then .quiet else .passed ⟨captured, none⟩)
    | .held _ => (s.goTo (.worker worker) (afterwards captured ticket .drop), .quiet)
    | .pending fields =>
      if room then ({ s with pending := s.pending ++ [(captured, fields)] }.goTo
        (.worker worker) .idle, .quiet)
      else (s.goTo (.worker worker) .idle, .passed ⟨captured, none⟩)
    | .reinjected _ => (s.goTo (.worker worker) (afterwards captured ticket .bypass),
      .passed ⟨captured, none⟩)
    | .routed call _ => (s.goTo (.worker worker) (.routing ⟨captured, none⟩ call ticket), .quiet)
  | _ => (s, .quiet)

/-- The thread of the held SYNs takes the next one. -/
def lookAgain (look : Look) : LoopState × Answer :=
  match s.stages .pendingSyns, s.pending with
  | .idle, (captured, fields) :: rest =>
    let s := { s with pending := rest }
    match decidePending registry ⟨true, s.stopped, look.table, look.proxyOwns⟩ fields with
    | some call => (s.goTo .pendingSyns (.routing ⟨captured, some look⟩ call none), .quiet)
    | none => (s, .passed ⟨captured, some look⟩)
  | _, _ => (s, .quiet)

/-- The way back of a selected packet is kept. -/
def record (thread : Thread) (now pick : Nat) : LoopState :=
  match s.stages thread with
  | .routing decided call ticket =>
    let recorded := recordPath s.paths call decided.captured.address now pick
    { s with paths := recorded.1, history := call :: s.history }.goTo thread
      (.sending decided call recorded.2 ticket)
  | _ => s

/-- A selected packet is handed to the tunnel; one that the tunnel does not take is held or put
back. -/
def send (thread : Thread) (transmission : Transmission) : LoopState × Answer :=
  match s.stages thread with
  | .sending decided call node ticket =>
    let carriage := transmit s.nodes limits node call.redirect transmission decided.captured.bytes
    if carriage.isCarried then
      (s.goTo thread (afterwards decided.captured ticket (.tunnel call.redirect node)),
        .carried decided call carriage)
    else if call.holdOnFailure then
      (s.goTo thread (afterwards decided.captured ticket .drop), .carried decided call carriage)
    else (s.goTo thread (afterwards decided.captured ticket .bypass), .passed decided)
  | _ => (s, .quiet)

/-- The later fragments of a decided first one are released. -/
def settle (thread : Thread) (now : Instant) : LoopState :=
  match s.stages thread with
  | .settling _ ticket route =>
    let finished := s.fragments.finish ticket route now
    let s := { s with fragments := finished.1.takeDiscarded.1 }
    s.goTo thread (dispatchTo route (finished.2.map fun waited => s.follower waited.1))
  | _ => s

/-- `dispatch_fragment` for the next later fragment of a thread. -/
def dispatch (thread : Thread) (checksummed : Bool) (answers : List (Option Bool)) :
    LoopState × Answer :=
  match s.stages thread with
  | .dispatching route (follower :: rest) =>
    let s := s.goTo thread (dispatchTo route rest)
    match route with
    | .tunnel redirect node =>
      (s, .carriedFollower follower
        (handOver s.nodes limits node redirect checksummed answers follower.piece.bytes))
    | .bypass => (s, .passedFollower follower)
    | .drop => (s, .quiet)
  | _ => (s, .quiet)

/-- One step. -/
def step : Event → LoopState × Answer
  | .receive worker captured now pick => (receive s worker captured now pick, .quiet)
  | .decide worker room => decideCaptured registry s worker room
  | .lookAgain look => lookAgain registry s look
  | .record thread now pick => (record s thread now pick, .quiet)
  | .send thread transmission => send limits s thread transmission
  | .settle thread now => (settle s thread now, .quiet)
  | .dispatch thread checksummed answers => dispatch limits s thread checksummed answers
  | .reply bytes now delivered =>
    let reply := injectReply s.nodes s.paths bytes now
    ({ s with paths := reply.1 }, if delivered then .replied reply.2 else .quiet)
  | .removePaths keep => ({ s with paths := s.paths.retain keep }, .quiet)
  | .setAddress node address => ({ s with nodes := s.nodes.setAddress node address }, .quiet)
  | .stop => ({ s with stopped := true }, .quiet)

end LoopState

/-! ## What a step can do -/

section Moves

variable (registry : Registry) (limits : Limits)

/-- What a step can do. Every result about runs goes through these cases and opens no step. -/
inductive Moves (s : LoopState) : LoopState → Answer → Prop where
  | stays : Moves s s .quiet
  /-- A later fragment waits for its first one. -/
  | asks (packet : Ipv4Packet) (address : Interface) (now : Instant) (pick : Nat) :
      Moves s { s with fragments :=
        (s.fragments.later packet address now pick).1.takeDiscarded.1 } .quiet
  /-- A later fragment goes where its first one went. -/
  | follows (worker : Nat) {packet : Ipv4Packet} {address : Interface} {now : Instant} {pick : Nat}
    {route : Route}
      (hroute : (s.fragments.later packet address now pick).2 = .route route) :
      Moves s
        ({ s with fragments := (s.fragments.later packet address now pick).1.takeDiscarded.1 }.goTo
          (.worker worker)
          (.dispatching route [s.follower packet])) .quiet
  | begins (worker : Nat) (packet : Ipv4Packet) (captured : Captured) (now : Instant) (pick : Nat) :
      Moves s
        ({ s with
            fragments := (s.fragments.begin packet now pick).1
            begun := ((s.fragments.begin packet now pick).2, captured) :: s.begun }.goTo
              (.worker worker)
          (.deciding captured (some (s.fragments.begin packet now pick).2))) .quiet
  | takes (worker : Nat) (captured : Captured) :
      Moves s (s.goTo (.worker worker) (.deciding captured none)) .quiet
  /-- A packet without fields is put back, unless it is a first fragment. -/
  | passesUnreadable {worker : Nat} {captured : Captured} {first : Bool}
      (hstage : s.stages (.worker worker) = .deciding captured none)
      (hverdict : classify (captured.rules registry) captured.table
        (captured.socketsNow s.paths) captured.bytes =
        .unreadable first) :
      Moves s (s.goTo (.worker worker) .idle) (.passed ⟨captured, none⟩)
  | drops {worker : Nat} {captured : Captured} {ticket : Option Ticket}
      (hstage : s.stages (.worker worker) = .deciding captured ticket) :
      Moves s (s.goTo (.worker worker) (afterwards captured ticket .drop)) .quiet
  | queues {worker : Nat} {captured : Captured} {ticket : Option Ticket} {fields : Ipv4Fields}
      (hstage : s.stages (.worker worker) = .deciding captured ticket)
      (hverdict : classify (captured.rules registry) captured.table
        (captured.socketsNow s.paths) captured.bytes =
        .pending fields) :
      Moves s ({ s with pending := s.pending ++ [(captured, fields)] }.goTo
        (.worker worker) .idle) .quiet
  | passesSyn {worker : Nat} {captured : Captured} {ticket : Option Ticket} {fields : Ipv4Fields}
      (hstage : s.stages (.worker worker) = .deciding captured ticket)
      (hverdict : classify (captured.rules registry) captured.table
        (captured.socketsNow s.paths) captured.bytes =
        .pending fields) :
      Moves s (s.goTo (.worker worker) .idle) (.passed ⟨captured, none⟩)
  | reinjects {worker : Nat} {captured : Captured} {ticket : Option Ticket} {first : Bool}
      (hstage : s.stages (.worker worker) = .deciding captured ticket)
      (hverdict : classify (captured.rules registry) captured.table
        (captured.socketsNow s.paths) captured.bytes =
        .reinjected first) :
      Moves s (s.goTo (.worker worker) (afterwards captured ticket .bypass))
        (.passed ⟨captured, none⟩)
  | selects {worker : Nat} {captured : Captured} {ticket : Option Ticket} {call : Routed}
    {first : Bool}
      (hstage : s.stages (.worker worker) = .deciding captured ticket)
      (hverdict : classify (captured.rules registry) captured.table
        (captured.socketsNow s.paths) captured.bytes =
        .routed call first) :
      Moves s (s.goTo (.worker worker) (.routing ⟨captured, none⟩ call ticket)) .quiet
  | selectsAgain {captured : Captured} {fields : Ipv4Fields} {rest : List (Captured × Ipv4Fields)}
    {look : Look}
      {call : Routed} (hpending : s.pending = (captured, fields) :: rest)
      (hcall : decidePending registry ⟨true, s.stopped, look.table, look.proxyOwns⟩ fields =
        some call) :
      Moves s ({ s with pending := rest }.goTo .pendingSyns
        (.routing ⟨captured, some look⟩ call none)) .quiet
  | passesAgain {captured : Captured} {fields : Ipv4Fields} {rest : List (Captured × Ipv4Fields)}
    {look : Look}
      (hpending : s.pending = (captured, fields) :: rest)
      (hnone : decidePending registry ⟨true, s.stopped, look.table, look.proxyOwns⟩ fields = none) :
      Moves s { s with pending := rest } (.passed ⟨captured, some look⟩)
  | records {thread : Thread} {decided : Decided} {call : Routed} {ticket : Option Ticket}
    (now pick : Nat)
      (hstage : s.stages thread = .routing decided call ticket) :
      Moves s
        ({ s with
            paths := (recordPath s.paths call decided.captured.address now pick).1
            history := call :: s.history }.goTo thread
          (.sending decided call
            (recordPath s.paths call decided.captured.address now pick).2 ticket)) .quiet
  | carries {thread : Thread} {decided : Decided} {call : Routed} {node : UInt8}
    {ticket : Option Ticket}
      (transmission : Transmission) (hstage : s.stages thread = .sending decided call node ticket) :
      Moves s (s.goTo thread (afterwards decided.captured ticket (.tunnel call.redirect node)))
        (.carried decided call
          (transmit s.nodes limits node call.redirect transmission decided.captured.bytes))
  | holds {thread : Thread} {decided : Decided} {call : Routed} {node : UInt8}
    {ticket : Option Ticket}
      (transmission : Transmission) (hstage : s.stages thread = .sending decided call node ticket) :
      Moves s (s.goTo thread (afterwards decided.captured ticket .drop))
        (.carried decided call
          (transmit s.nodes limits node call.redirect transmission decided.captured.bytes))
  /-- A packet that nothing holds is put back when the tunnel fails. -/
  | failsOpen {thread : Thread} {decided : Decided} {call : Routed} {node : UInt8}
    {ticket : Option Ticket}
      (hstage : s.stages thread = .sending decided call node ticket)
        (hhold : call.holdOnFailure = false) :
      Moves s (s.goTo thread (afterwards decided.captured ticket .bypass)) (.passed decided)
  | settles {thread : Thread} {captured : Captured} {ticket : Ticket} {route : Route}
    (now : Instant)
      (hstage : s.stages thread = .settling captured ticket route) :
      Moves s
        ({ s with fragments := (s.fragments.finish ticket route now).1.takeDiscarded.1 }.goTo thread
          (dispatchTo route
            ((s.fragments.finish ticket route now).2.map fun waited : Ipv4Packet × Interface =>
            s.follower waited.1))) .quiet
  | dispatchesTunnel {thread : Thread} {redirect : Option Octets} {node : UInt8}
    {follower : Follower}
      {rest : List Follower} (carriage : Carriage)
      (hstage : s.stages thread = .dispatching (.tunnel redirect node) (follower :: rest)) :
      Moves s (s.goTo thread (dispatchTo (.tunnel redirect node) rest))
        (.carriedFollower follower carriage)
  | dispatchesBypass {thread : Thread} {follower : Follower} {rest : List Follower}
      (hstage : s.stages thread = .dispatching .bypass (follower :: rest)) :
      Moves s (s.goTo thread (dispatchTo .bypass rest)) (.passedFollower follower)
  | dispatchesDrop {thread : Thread} {follower : Follower} {rest : List Follower}
      (hstage : s.stages thread = .dispatching .drop (follower :: rest)) :
      Moves s (s.goTo thread (dispatchTo .drop rest)) .quiet
  | replies (bytes : Bytes) (now : Nat) :
      Moves s { s with paths := (injectReply s.nodes s.paths bytes now).1 }
        (.replied (injectReply s.nodes s.paths bytes now).2)
  | losesReply (bytes : Bytes) (now : Nat) :
      Moves s { s with paths := (injectReply s.nodes s.paths bytes now).1 } .quiet
  | removes (keep : ReturnKey → ReturnPath → Bool) :
    Moves s { s with paths := s.paths.retain keep } .quiet
  | readdresses (node : Nat) (address : Octets) :
    Moves s { s with nodes := s.nodes.setAddress node address } .quiet
  | stops : Moves s { s with stopped := true } .quiet

end Moves

namespace LoopState

variable {registry : Registry} {limits : Limits} {s : LoopState}

theorem receive_moves (worker : Nat) (captured : Captured) (now : Instant) (pick : Nat) :
    Moves registry limits s (s.receive worker captured now pick) .quiet := by
  unfold receive
  split
  next packet hstage hpacket =>
    split
    · dsimp only
      split
      · next route hroute => exact .follows worker hroute
      · exact .asks packet captured.address now pick
    · split
      · exact .begins worker packet captured now pick
      · exact .takes worker captured
  · exact .takes worker captured
  · exact .stays

theorem decideCaptured_moves (worker : Nat) (room : Bool) :
    Moves registry limits s (decideCaptured registry s worker room).1
      (decideCaptured registry s worker room).2 := by
  unfold decideCaptured
  split
  next captured ticket hstage =>
    split
    · exact .stays
    next first hverdict =>
      cases ticket with
      | none => exact .passesUnreadable hstage hverdict
      | some ticket => exact .drops hstage
    · exact .drops hstage
    next fields hverdict =>
      split
      · exact .queues hstage hverdict
      · exact .passesSyn hstage hverdict
    · next first hverdict => exact .reinjects hstage hverdict
    · next call first hverdict => exact .selects hstage hverdict
  · exact .stays

theorem lookAgain_moves (look : Look) :
    Moves registry limits s (lookAgain registry s look).1 (lookAgain registry s look).2 := by
  unfold lookAgain
  split
  next captured fields rest hstage hpending =>
    dsimp only
    split
    · next call hcall => exact .selectsAgain hpending hcall
    · next hnone => exact .passesAgain hpending hnone
  · exact .stays

theorem send_moves (thread : Thread) (transmission : Transmission) :
    Moves registry limits s (send limits s thread transmission).1
      (send limits s thread transmission).2 := by
  unfold send
  split
  next decided call node ticket hstage =>
    dsimp only
    split
    · exact .carries transmission hstage
    · split
      · exact .holds transmission hstage
      · next hhold => exact .failsOpen hstage (by simpa using hhold)
  · exact .stays

theorem dispatch_moves (thread : Thread) (checksummed : Bool) (answers : List (Option Bool)) :
    Moves registry limits s (dispatch limits s thread checksummed answers).1
      (dispatch limits s thread checksummed answers).2 := by
  unfold dispatch
  split
  next route follower rest hstage =>
    split
    · exact .dispatchesTunnel _ hstage
    · exact .dispatchesBypass hstage
    · exact .dispatchesDrop hstage
  · exact .stays

/-- Every step is one of the moves. -/
theorem step_moves (registry : Registry) (limits : Limits) (s : LoopState) (event : Event) :
    Moves registry limits s (step registry limits s event).1 (step registry limits s event).2 := by
  cases event with
  | receive worker captured now pick => exact receive_moves worker captured now pick
  | decide worker room => exact decideCaptured_moves worker room
  | lookAgain look => exact lookAgain_moves look
  | record thread now pick =>
    show Moves registry limits s (s.record thread now pick) .quiet
    unfold record
    split
    · next decided call ticket hstage => exact .records now pick hstage
    · exact .stays
  | send thread transmission => exact send_moves thread transmission
  | settle thread now =>
    show Moves registry limits s (s.settle thread now) .quiet
    unfold settle
    split
    · next captured ticket route hstage => exact .settles now hstage
    · exact .stays
  | dispatch thread checksummed answers => exact dispatch_moves thread checksummed answers
  | reply bytes now delivered =>
    cases delivered with
    | false => exact .losesReply bytes now
    | true => exact .replies bytes now
  | removePaths keep => exact .removes keep
  | setAddress node address => exact .readdresses node address
  | stop => exact .stops

end LoopState

/-- A run of a capture. -/
def loopRun (registry : Registry) (limits : Limits) (carried : CarriedFlows) (nodes : SessionNodes)
    (events : List Event) :
    Run.Config LoopState Event Answer :=
  Run.exec (LoopState.step registry limits) (LoopState.start carried nodes) events

/-- A run goes on from the state it has come to. -/
theorem loopRun_append {registry : Registry} {limits : Limits} {carried : CarriedFlows}
    {nodes : SessionNodes} {events : List Event} {s : LoopState}
    (h : (loopRun registry limits carried nodes events).state = s) (more : List Event) :
    (loopRun registry limits carried nodes (events ++ more)).state =
      (Run.execFrom (LoopState.step registry limits)
        ⟨s, (loopRun registry limits carried nodes events).log⟩
        more).state := by
  subst h
  exact congrArg Run.Config.state (Run.execFrom_append _ events more)

end GamePath.Engine.SplitCapture
