import Mathlib.Logic.Relation
import GamePath.Relay.EndpointTable
import GamePath.Relay.Serve

/-!
# What one turn can do to a session

A frame, a reply or a wakeup of the flusher takes a session through a few kinds of moves: endpoints
are pruned or told a policy, a frame is sealed under the next sequence and sent, a packet is written
to the TUN, and what concerns none of these changes. `Move` lists them with what they rest on. Every
operation of a session is a sequence of moves, so an invariant of the sessions is proved once for
each move and not for each operation.
-/

namespace GamePath.Relay

open Relation Engine Engine.Protocol Engine.Fec

/-- One move of a turn for `peer`, whose virtual address is `address`. `source` is where the frame
of the turn came from, if it has one. -/
inductive Move (crypto : SessionCrypto) (env : Environment) (peer : Peer) (address : Octets)
    (source : Option SocketAddr) : Progress → Progress → Prop where
  /-- Nothing the other moves are about changes. -/
  | keep {p : Progress} (session : SessionState) (readings picks : Nat)
      (endpoints : session.endpoints = p.session.endpoints)
      (sequence : session.outboundSequence = p.session.outboundSequence)
      (fragments : session.fragments = p.session.fragments) :
      Move crypto env peer address source p ⟨session, readings, picks, p.sent⟩
  | prune {p : Progress} (now : Instant) :
      Move crypto env peer address source p
        (p.update fun s => { s with endpoints := s.endpoints.prune now })
  | apply {p : Progress} (endpoint : SocketAddr) (policy : PathPolicy) (healthy : Bool)
      (sequence : UInt64) (now : Instant) (hsource : source = some endpoint) :
      Move crypto env peer address source p (p.update fun s =>
        { s with endpoints := s.endpoints.apply endpoint policy healthy sequence now })
  /-- The sequence moves on and sealing fails. -/
  | fail {p : Progress} (flags : UInt8) (payload : Bytes)
      (hfailed : p.nextSequence.sealFrame crypto peer flags payload = none) :
      Move crypto env peer address source p p.nextSequence
  | emit {p : Progress} (flags : UInt8) (payload frame : Bytes) (endpoints : List SocketAddr)
      (hsealed : p.nextSequence.sealFrame crypto peer flags payload = some frame)
      (hendpoints : ∀ endpoint ∈ endpoints, source = some endpoint ∨
        ∃ entry ∈ p.session.endpoints.entries, entry.address = endpoint) :
      Move crypto env peer address source p (p.nextSequence.emit peer endpoints frame)
  /-- A packet of the client's own address is written, or kept back as a fragment. Only frames bring
  packets. -/
  | write {p : Progress} (sequence : UInt64) (packet : Bytes)
      (hsource : ipv4Source packet = some address) (hframe : source.isSome = true) :
      Move crypto env peer address source p (p.writeToTun env sequence packet)

/-- Any number of moves. -/
abbrev Moves (crypto : SessionCrypto) (env : Environment) (peer : Peer) (address : Octets)
    (source : Option SocketAddr) : Progress → Progress → Prop :=
  ReflTransGen (Move crypto env peer address source)

section Moves

variable {crypto : SessionCrypto} {env : Environment} {peer : Peer} {address : Octets}
variable {source : Option SocketAddr}

/-- What every move keeps is kept by a turn. -/
theorem Moves.invariant {I : Progress → Prop}
    (hmove : ∀ p q, Move crypto env peer address source p q → I p → I q) {p q : Progress}
    (h : Moves crypto env peer address source p q) (hp : I p) : I q := by
  induction h with
  | refl => exact hp
  | tail _ hlast ih => exact hmove _ _ hlast ih

namespace Progress

/-! ## Towards the client -/

variable (p : Progress)

/-- A frame takes one sequence number, whatever paths it goes over. -/
theorem moves_fanOut (flags : UInt8) (payload : Bytes) :
    Moves crypto env peer address source p (p.fanOut crypto env peer flags payload).1 := by
  unfold fanOut
  dsimp only
  generalize htarget : (if decide (flags &&& flagRepair ≠ 0) = true then
    Endpoints.repairTarget _ _ _ else none : Option SocketAddr) = target
  generalize hturn : (if decide (flags &&& flagRepair ≠ 0) = true then _ else _ : Progress) = q
  have hprune : Moves crypto env peer address source p
      (p.tick.update fun s => { s with endpoints := s.endpoints.prune (p.now env) }) := by
    apply (ReflTransGen.single (Move.keep p.session (p.readings + 1) p.picks rfl rfl rfl)).tail
    exact Move.prune (p.now env)
  have hendpoints : q.session.endpoints = p.session.endpoints.prune (p.now env) := by
    rw [← hturn]
    split <;> rfl
  have hq : Moves crypto env peer address source p q := by
    refine hprune.tail ?_
    rw [← hturn]
    split <;> exact Move.keep _ _ _ rfl rfl rfl
  have hin : ∀ endpoint, target = some endpoint →
      ∃ entry ∈ q.session.endpoints.entries, entry.address = endpoint := by
    intro endpoint heq
    rw [← htarget] at heq
    split at heq
    · rw [hendpoints]
      exact Endpoints.exists_mem_of_repairTarget heq
    · cases heq
  split
  · exact hq
  cases hsealed : q.nextSequence.sealFrame crypto peer (flags ||| flagServerToClient) payload with
  | none => exact hq.tail (Move.fail _ _ hsealed)
  | some frame =>
    refine hq.tail (Move.emit _ _ _ _ hsealed ?_)
    intro endpoint hendpoint
    cases target with
    | none => exact .inr (Endpoints.exists_mem_of_mem_targets hendpoint)
    | some target =>
      rw [List.mem_singleton.1 hendpoint]
      exact .inr (hin target rfl)

variable (endpoint : SocketAddr)

theorem moves_answer (payload : Bytes) :
    Moves crypto env peer address (some endpoint) p (p.answer crypto peer endpoint payload) := by
  unfold answer
  dsimp only
  cases hsealed : p.nextSequence.sealFrame crypto peer (flagControl ||| flagServerToClient)
      payload with
  | none => exact .single (Move.fail _ _ hsealed)
  | some frame =>
    refine .single (Move.emit _ _ _ _ hsealed ?_)
    intro other hother
    rw [List.mem_singleton.1 hother]
    exact .inl rfl

variable (header : FrameHeader)

theorem moves_applyPathPolicy (policy : PathPolicy) (endpoint : SocketAddr) :
    Moves crypto env peer address (some endpoint) p
      (p.applyPathPolicy crypto env peer header policy endpoint) := by
  have htick : Move crypto env peer address (some endpoint) p p.tick :=
    Move.keep p.session (p.readings + 1) p.picks rfl rfl rfl
  have happly := (ReflTransGen.single htick).tail
    (Move.apply endpoint policy (!header.has flagPathUnhealthy) header.sequence (p.now env) rfl)
  exact happly.trans (moves_answer _ _ _)

/-- A repair offer changes neither paths, numbers nor fragments. -/
theorem takeOffer_kept (s : SessionState) (sequence : UInt64) (offer : Offer) :
    (takeOffer s sequence offer).1.endpoints = s.endpoints ∧
      (takeOffer s sequence offer).1.outboundSequence = s.outboundSequence ∧
      (takeOffer s sequence offer).1.fragments = s.fragments := by
  unfold takeOffer
  dsimp only
  split <;> exact ⟨rfl, rfl, rfl⟩

theorem moves_applyRepairOffer (sequence : UInt64) (offer : Offer) (endpoint : SocketAddr) :
    Moves crypto env peer address (some endpoint) p
      (p.applyRepairOffer crypto env peer sequence offer endpoint) := by
  obtain ⟨hendpoints, hsequence, hfragments⟩ := takeOffer_kept p.session sequence offer
  have htake : Moves crypto env peer address (some endpoint) p
      { p with session := (takeOffer p.session sequence offer).1 } :=
    .single (Move.keep _ _ _ hendpoints hsequence hfragments)
  refine .trans ?_ (moves_answer _ _ _)
  split
  · exact htake.trans (moves_fanOut _ _ _)
  · exact htake

theorem moves_sendReply (packet : Bytes) :
    Moves crypto env peer address source p (p.sendReply crypto env peer packet) := by
  have hsent : Moves crypto env peer address source p (p.fanOut crypto env peer 0 packet).1 :=
    moves_fanOut p 0 packet
  unfold sendReply
  generalize p.fanOut crypto env peer 0 packet = result at hsent
  obtain ⟨q, sequence⟩ := result
  cases sequence with
  | none => exact hsent
  | some sequence =>
    dsimp only at hsent ⊢
    split
    · exact hsent
    · split
      · refine .trans ?_ (moves_fanOut _ _ _)
        exact hsent.tail (Move.keep _ _ _ rfl rfl rfl)
      · exact hsent.tail (Move.keep _ _ _ rfl rfl rfl)

/-! ## Towards the TUN -/

theorem move_remember (sequence : UInt64) (packet : Bytes) (recovered : Nat) :
    Move crypto env peer address source p (p.remember sequence packet recovered) :=
  Move.keep _ _ _ rfl rfl rfl

theorem moves_admitRebuilt (p : Progress) (sequence : UInt64) (packet : Bytes) :
    Moves crypto env peer address (some endpoint) p
      (p.admitRebuilt env address sequence packet) := by
  unfold admitRebuilt
  split
  · exact .refl
  next hsource =>
    have hsource := not_not.1 hsource
    dsimp only
    split
    · refine ((ReflTransGen.single ?_).tail (Move.write sequence packet hsource rfl)).tail
        (move_remember _ _ _ _)
      exact Move.keep _ _ _ rfl rfl rfl
    · exact .single (Move.keep _ _ _ rfl rfl rfl)

theorem move_retry :
    Move crypto env peer address source p (p.retry env).1 := by
  unfold retry
  split
  · exact Move.keep p.session p.readings p.picks rfl rfl rfl
  · split
    · exact Move.keep _ _ _ rfl rfl rfl
    · exact Move.keep p.session p.readings p.picks rfl rfl rfl

/-- The packets that repairs rebuilt are written one after another. -/
theorem moves_retryLoop (fuel : Nat) :
    ∀ p : Progress,
      Moves crypto env peer address (some endpoint) p (retryLoop env address fuel p) := by
  induction fuel with
  | zero => exact fun p => .refl
  | succ fuel ih =>
    intro p
    have hretry : Move crypto env peer address (some endpoint) p (p.retry env).1 := move_retry p
    rw [retryLoop]
    generalize p.retry env = result at hretry
    obtain ⟨q, rebuilt⟩ := result
    cases rebuilt with
    | none => exact .single hretry
    | some packet =>
      refine .trans ?_ (ih _)
      exact (ReflTransGen.single hretry).trans (moves_admitRebuilt endpoint q _ _)

/-! ## Turns -/

theorem moves_handleControl (plaintext : Bytes) (endpoint : SocketAddr) :
    Moves crypto env peer address (some endpoint) p
      (p.handleControl crypto env peer header plaintext endpoint) := by
  unfold handleControl
  split
  · exact moves_applyPathPolicy _ _ _ _
  · split
    · exact moves_applyRepairOffer _ _ _ _
    · split
      · exact moves_answer _ _ _
      · exact .refl

theorem moves_handleRepair (p : Progress) (plaintext : Bytes) :
    Moves crypto env peer address (some endpoint) p (p.handleRepair env address plaintext) := by
  unfold handleRepair
  split
  · exact .refl
  refine .trans ?_ (moves_retryLoop endpoint _ _)
  split
  · refine .trans (ReflTransGen.single ?_) (moves_admitRebuilt endpoint _ _ _)
    exact Move.keep _ _ _ rfl rfl rfl
  · exact .single (Move.keep _ _ _ rfl rfl rfl)

theorem moves_handleData (p : Progress) (sequence : UInt64) (plaintext : Bytes) :
    Moves crypto env peer address (some endpoint) p
      (p.handleData env address sequence plaintext) := by
  unfold handleData
  split
  · exact .refl
  next hsource =>
    have hwrite : Move crypto env peer address (some endpoint) p
        (p.writeToTun env sequence plaintext) :=
      Move.write sequence plaintext (not_not.1 hsource) rfl
    dsimp only
    split
    · exact .single hwrite
    · exact ((ReflTransGen.single hwrite).tail (move_remember _ _ _ _)).trans
        (moves_retryLoop endpoint _ _)

/-- A frame is answered, rebuilt from or written, by what its flags say. -/
theorem moves_handle (plaintext : Bytes) (endpoint : SocketAddr) :
    Moves crypto env peer address (some endpoint) p
      (p.handle crypto env peer address header plaintext endpoint) := by
  have haccept : Moves crypto env peer address (some endpoint) p
      (p.update fun s => { s with replay := (p.session.replay.accept header.sequence).1 }) :=
    .single (Move.keep _ _ _ rfl rfl rfl)
  unfold handle
  dsimp only
  refine haccept.trans ?_
  split
  · exact .single (Move.keep _ _ _ rfl rfl rfl)
  · split
    · exact moves_handleControl _ _ _ _
    · split
      · exact moves_handleRepair endpoint _ _
      · exact moves_handleData endpoint _ _ _

/-- Every piece of a reply is sent by itself. -/
theorem moves_sendReplies (pieces : List Bytes) :
    ∀ p : Progress, Moves crypto env peer address source p
      (pieces.foldl (sendReply crypto env peer) p) := by
  induction pieces with
  | nil => exact fun p => .refl
  | cons piece pieces ih => exact fun p => (moves_sendReply p piece).trans (ih _)

end Progress

/-- A group that is due leaves in a repair. -/
theorem moves_flushSession (now : Instant) (session : SessionState) :
    Moves crypto env peer address source ⟨session, 0, 0, []⟩
      (flushSession crypto now env peer session) := by
  unfold flushSession
  dsimp only
  split
  · exact .refl
  · split
    · refine .trans ?_ (Progress.moves_fanOut _ _ _)
      exact .single (Move.keep _ _ _ rfl rfl rfl)
    · exact .single (Move.keep _ _ _ rfl rfl rfl)

end Moves

end GamePath.Relay
