import GamePath.Engine.FragmentTags
import GamePath.Relay.Serve

/-!
# Replayed frames at the relay

A session's replay window admits each sequence once, and a fragment that waits in its reassembler
leaves it once, so while a session lives no frame's payload reaches the TUN twice. The window goes
with the session: a session that is dropped and created again under the same id has another life, in
which it has forgotten what it wrote before.

`Sound` is the invariant of one life, next to what was written in the earlier ones. `writes_once`
says that over a whole run nothing is written twice as long as no frame of an earlier life is played
to a later one; `expired_session_replays` is a run in which one is.
-/

namespace GamePath.Relay

open Lib List KeyedMap RelayClient Output Engine Engine.Protocol Engine.Ipv4Fragments Engine.Replay
open Engine.Fec
open Multiset (coe_add coe_nodup mem_add nodup_of_le ofList)

/-- The sequences of the frames whose payload an output writes to the TUN. -/
def Output.sequences : Output → List UInt64
  | .tun sequences _ => sequences
  | .udp _ _ => []
  | .sealed _ _ _ => []

/-- The sequences written to the TUN so far. -/
def Progress.written (p : Progress) : List UInt64 := p.sent.flatMap sequences

/-- The sequences a frame can bring to the TUN: its own, or those its repair covers. -/
def carried (header : FrameHeader) (plaintext : Bytes) : List UInt64 :=
  if header.has flagControl then []
  else if header.has flagRepair then covers plaintext
  else [header.sequence]

/-! ## One session -/

/-- What decides whether a sequence is written: the window, the fragments that are kept back and the
repairs that wait for more of their members. -/
structure Guard where
  replay : ReplayWindow
  fragments : Reassembler UInt64
  repairs : List Repair

/-- The repairs a session keeps. -/
def SessionState.repairs (s : SessionState) : List Repair :=
  (s.repair.map fun repair => repair.decoder.pending).getD []

/-- The guard of a session. -/
def SessionState.guard (s : SessionState) : Guard := ⟨s.replay, s.fragments, s.repairs⟩

/-- The sequences of the fragments a guard keeps back. -/
def Guard.heldBack (g : Guard) : Multiset UInt64 := waiting g.fragments.partials

/-- `earlier` was written before this life of the session, `done` in it. With the fragments that are
kept back all of that is different, the window knows what belongs to this life, and no repair that
waits covers anything of the earlier ones. -/
structure Sound (earlier done : List UInt64) (g : Guard) : Prop where
  accepted : ∃ accepted, ReplayWindow.Represents g.replay accepted ∧
    ∀ sequence ∈ ofList done + g.heldBack, sequence ∈ accepted
  once : (ofList earlier + (ofList done + g.heldBack)).Nodup
  fenced : ∀ repair ∈ g.repairs, ∀ member ∈ repair.members, member ∉ earlier

section Life

variable {earlier done : List UInt64}

theorem sound_new (h : earlier.Nodup) (now : Instant) (micros : UInt64) :
    Sound earlier [] (SessionState.new now micros).guard where
  accepted := ⟨∅, ReplayWindow.represents_default, fun sequence hmem => absurd hmem (by
    exact Multiset.notMem_zero sequence)⟩
  once := by
    show (ofList earlier + 0).Nodup
    rw [add_zero]
    exact coe_nodup.2 h
  fenced := nofun

theorem Sound.accept {g : Guard} (h : Sound earlier done g) (sequence : UInt64) :
    Sound earlier done { g with replay := (g.replay.accept sequence).1 } := by
  obtain ⟨accepted, hrepresents, hin⟩ := h.accepted
  refine ⟨⟨_, (ReplayWindow.accept_represents hrepresents sequence).2, ?_⟩, h.once, h.fenced⟩
  intro other hother
  split
  · exact Finset.mem_insert_of_mem (hin other hother)
  · exact hin other hother

/-- A sequence is accepted, and its payload is written, kept back or dropped, perhaps with others
that were kept back. -/
theorem Sound.write {out : List UInt64} {g : Guard} (h : Sound earlier done g) {sequence : UInt64}
    (hnew : (g.replay.accept sequence).2 = true) (hunwritten : sequence ∉ earlier)
    {r : Reassembler UInt64} (hle : ofList out + waiting r.partials ≤ g.heldBack + {sequence}) :
    Sound earlier (done ++ out)
      { g with replay := (g.replay.accept sequence).1, fragments := r } := by
  obtain ⟨accepted, hrepresents, hin⟩ := h.accepted
  obtain ⟨hanswer, haccepted⟩ := ReplayWindow.accept_represents hrepresents sequence
  have hfresh : ReplayWindow.Fresh accepted sequence := by
    rw [hanswer, decide_eq_true_iff] at hnew
    exact hnew
  rw [if_pos hfresh] at haccepted
  have hle' : ofList (done ++ out) + waiting r.partials ≤
      ofList done + g.heldBack + {sequence} := by
    rw [← coe_add, add_assoc, add_assoc]
    exact add_le_add_right hle _
  refine ⟨⟨_, haccepted, fun other hother => ?_⟩, ?_, h.fenced⟩
  · rcases mem_add.1 (Multiset.mem_of_le hle' hother) with hmem | hmem
    · exact Finset.mem_insert_of_mem (hin other hmem)
    · rw [Multiset.mem_singleton.1 hmem]
      exact Finset.mem_insert_self _ _
  -- Everything there is now was there before, or is the new sequence.
  apply nodup_of_le (add_le_add_right hle' _)
  rw [← add_assoc, Multiset.nodup_add]
  refine ⟨h.once, Multiset.nodup_singleton _, ?_⟩
  rw [Multiset.disjoint_singleton, mem_add, not_or]
  exact ⟨hunwritten, fun hmem => hfresh.1 (hin sequence hmem)⟩

theorem Sound.withRepairs {g : Guard} (h : Sound earlier done g) {repairs : List Repair}
    (hfenced : ∀ repair ∈ repairs, ∀ member ∈ repair.members, member ∉ earlier) :
    Sound earlier done { g with repairs := repairs } :=
  ⟨h.accepted, h.once, hfenced⟩

/-! ## A frame in progress -/

namespace Progress

/-- What a frame in progress has of replay protection: the guard and the writes. -/
def inbound (p : Progress) : Guard × List UInt64 := (p.session.guard, p.written)

/-- The invariant in the middle of a frame, `done` being what this life wrote before it. -/
def Ok (earlier done : List UInt64) (p : Progress) : Prop :=
  Sound earlier (done ++ p.written) p.session.guard

theorem Ok.congr {p q : Progress} (h : p.Ok earlier done) (heq : q.inbound = p.inbound) :
    q.Ok earlier done := by
  have hwritten : q.written = p.written := congrArg Prod.snd heq
  have hguard : q.session.guard = p.session.guard := congrArg Prod.fst heq
  rw [Ok, hwritten, hguard]
  exact h

/-! ### Sending to the client leaves it alone -/

variable {crypto : SessionCrypto} {env : Environment} {peer : Peer}

theorem inbound_emit (p : Progress) (endpoints : List SocketAddr) (frame : Bytes) :
    (p.emit peer endpoints frame).inbound = p.inbound := by
  have hnone : (endpoints.map fun endpoint => udp endpoint frame).flatMap sequences =
      [] := by
    induction endpoints with
    | nil => rfl
    | cons endpoint endpoints ih => exact ih
  have hwritten : (p.emit peer endpoints frame).written = p.written := by
    show (p.sent ++ _).flatMap sequences = _
    rw [flatMap_append, flatMap_cons, hnone]
    exact append_nil _
  exact Prod.ext rfl hwritten

variable {p : Progress}

theorem inbound_setRepair {repair repair' : RepairState} (hrepair : p.session.repair = some repair)
    (hpending : repair'.decoder.pending = repair.decoder.pending) :
    (p.update fun s => { s with repair := some repair' }).inbound = p.inbound := by
  have hrepairs : p.session.repairs = repair'.decoder.pending := by
    rw [SessionState.repairs, hrepair, hpending]
    rfl
  show ((⟨_, _, repair'.decoder.pending⟩ : Guard), p.written) = (⟨_, _, p.session.repairs⟩,
      p.written)
  rw [hrepairs]
  rfl

theorem inbound_fanOut (p : Progress) (flags : UInt8) (payload : Bytes) :
    (p.fanOut crypto env peer flags payload).1.inbound = p.inbound := by
  unfold fanOut
  dsimp only
  generalize hturn : (if decide (flags &&& flagRepair ≠ 0) = true then _ else _ : Progress) = q
  have hq : q.inbound = p.inbound := by
    rw [← hturn]
    split <;> rfl
  split
  · exact hq
  · split
    · exact hq
    · exact (inbound_emit _ _ _).trans hq

theorem inbound_answer (p : Progress) (endpoint : SocketAddr) (payload : Bytes) :
    (p.answer crypto peer endpoint payload).inbound = p.inbound := by
  unfold answer
  dsimp only
  split
  · rfl
  · exact inbound_emit p.nextSequence [endpoint] _

theorem inbound_applyPathPolicy (p : Progress) (header : FrameHeader) (policy : PathPolicy)
    (endpoint : SocketAddr) :
    (p.applyPathPolicy crypto env peer header policy endpoint).inbound = p.inbound :=
  inbound_answer _ _ _

theorem guard_takeOffer (s : SessionState) (sequence : UInt64) (offer : Offer) :
    (takeOffer s sequence offer).1.guard = s.guard := by
  have hrepairs : (s.repair.getD (RepairState.new offer)).decoder.pending = s.repairs := by
    unfold SessionState.repairs
    cases s.repair with
    | none | some => rfl
  unfold takeOffer
  dsimp only
  split
  · show (⟨s.replay, s.fragments, (s.repair.getD (RepairState.new offer)).decoder.pending⟩ :
        Guard) = _
    rw [hrepairs]
    rfl
  · show (⟨s.replay, s.fragments, (s.repair.getD (RepairState.new offer)).decoder.pending⟩ :
        Guard) = _
    rw [hrepairs]
    rfl

theorem inbound_applyRepairOffer (p : Progress) (sequence : UInt64) (offer : Offer)
    (endpoint : SocketAddr) :
    (p.applyRepairOffer crypto env peer sequence offer endpoint).inbound = p.inbound := by
  have hsession : ({ p with session := (takeOffer p.session sequence offer).1 } :
      Progress).inbound =
      p.inbound :=
    Prod.ext (guard_takeOffer p.session sequence offer) rfl
  unfold applyRepairOffer
  rw [inbound_answer]
  split
  · rw [inbound_fanOut]
    exact hsession
  · exact hsession

theorem inbound_sendReply (p : Progress) (packet : Bytes) :
    (p.sendReply crypto env peer packet).inbound = p.inbound := by
  have hsent : (p.fanOut crypto env peer 0 packet).1.inbound = p.inbound :=
    inbound_fanOut p 0 packet
  unfold sendReply
  generalize p.fanOut crypto env peer 0 packet = result at hsent
  obtain ⟨q, sequence⟩ := result
  cases sequence with
  | none => exact hsent
  | some sequence =>
    dsimp only at hsent ⊢
    split
    · exact hsent
    rename_i repair hrepair
    have hpushed : (q.tick.update fun s => { s with repair := some { repair with
        encoder := (repair.encoder.push sequence packet (q.now env)).1 } }).inbound =
        p.inbound :=
      (inbound_setRepair (p := q.tick) hrepair rfl).trans hsent
    split
    · rw [inbound_fanOut]
      exact hpushed
    · exact hpushed

theorem inbound_handleControl (p : Progress) (header : FrameHeader) (plaintext : Bytes)
    (endpoint : SocketAddr) :
    (p.handleControl crypto env peer header plaintext endpoint).inbound = p.inbound := by
  unfold handleControl
  split
  · exact inbound_applyPathPolicy _ _ _ _
  · split
    · exact inbound_applyRepairOffer _ _ _ _
    · split
      · exact inbound_answer _ _ _
      · rfl

/-! ### Writing to the TUN -/

/-- The window accepts a sequence. -/
def acceptSequence (p : Progress) (sequence : UInt64) : Progress :=
  p.update fun s => { s with replay := (p.session.replay.accept sequence).1 }

theorem Ok.accept (h : p.Ok earlier done) (sequence : UInt64) :
    (p.acceptSequence sequence).Ok earlier done :=
  Sound.accept h sequence

/-- What a packet written to the TUN, or kept back as a fragment, does to the session. -/
theorem writeToTun_cases (env : Environment) (p : Progress) (sequence : UInt64) (packet : Bytes) :
    ∃ (r : Reassembler UInt64) (out : List UInt64),
      ofList out + waiting r.partials ≤ waiting p.session.fragments.partials + {sequence} ∧
        (p.writeToTun env sequence packet).inbound =
          ({ p.session.guard with fragments := r }, p.written ++ out) := by
  unfold writeToTun
  split
  · -- A fragment goes to the reassembler, which writes the datagram once it is whole.
    rename_i hfragment
    generalize hpush : p.session.fragments.push ⟨packet, hfragment.1⟩ sequence (p.now env)
      (env.pick p.picks) = result
    have hle := Reassembler.push_tags_le p.session.fragments ⟨packet, hfragment.1⟩ sequence
      (p.now env) (env.pick p.picks)
    rw [hpush] at hle
    obtain ⟨r, output⟩ := result
    cases output with
    | none =>
      refine ⟨r, [], hle, ?_⟩
      rw [append_nil]
      rfl
    | some rebuilt =>
      refine ⟨r, rebuilt.2, hle, Prod.ext rfl ?_⟩
      show (p.sent ++ [_]).flatMap sequences = _
      rw [flatMap_append, flatMap_singleton]
      rfl
  · -- Anything else is written as it is.
    refine ⟨p.session.fragments, [sequence], ?_, Prod.ext rfl ?_⟩
    · rw [add_comm]
      exact le_refl _
    · show (p.sent ++ [_]).flatMap sequences = _
      rw [flatMap_append]
      rfl

variable {sequence : UInt64}

section

variable (h : p.Ok earlier done)
include h

theorem Ok.write (hnew : (p.session.replay.accept sequence).2 = true)
    (hunwritten : sequence ∉ earlier) (packet : Bytes) :
    ((p.acceptSequence sequence).writeToTun env sequence packet).Ok earlier done := by
  obtain ⟨r, out, hle, hinbound⟩ :=
    writeToTun_cases env (p.acceptSequence sequence) sequence packet
  have hwritten : ((p.acceptSequence sequence).writeToTun env sequence packet).written =
      p.written ++ out := congrArg Prod.snd hinbound
  have hguard : ((p.acceptSequence sequence).writeToTun env sequence packet).session.guard =
      { p.session.guard with
        replay := (p.session.guard.replay.accept sequence).1, fragments := r } :=
    congrArg Prod.fst hinbound
  rw [Ok, hwritten, hguard, ← append_assoc]
  exact Sound.write h hnew hunwritten hle

omit h in
theorem inbound_remember (p : Progress) (sequence : UInt64) (packet : Bytes) (recovered : Nat) :
    (p.remember sequence packet recovered).inbound = p.inbound := by
  have hrepairs : (p.remember sequence packet recovered).session.repairs = p.session.repairs :=
    pending_remember p sequence packet recovered
  show ((⟨_, _, (p.remember sequence packet recovered).session.repairs⟩ : Guard), p.written) =
    (⟨_, _, p.session.repairs⟩, p.written)
  rw [hrepairs]
  rfl

variable (virtualIpv4 : Octets)

theorem Ok.admitRebuilt (hunwritten : sequence ∉ earlier) (packet : Bytes) :
    (p.admitRebuilt env virtualIpv4 sequence packet).Ok earlier done := by
  unfold Progress.admitRebuilt
  split
  · exact h
  · dsimp only
    split
    · rename_i hnew
      exact (h.write hnew hunwritten packet).congr (inbound_remember _ _ _ _)
    · exact h.accept sequence

theorem Ok.setRepair {repair : RepairState}
    (hfenced : ∀ r ∈ repair.decoder.pending, ∀ member ∈ r.members, member ∉ earlier) :
    (p.tick.update fun s => { s with repair := some repair }).Ok earlier done :=
  Sound.withRepairs h hfenced

theorem Ok.fenced_of_repair {repair : RepairState} (hrepair : p.session.repair = some repair) :
    ∀ r ∈ repair.decoder.pending, ∀ member ∈ r.members, member ∉ earlier := by
  have hrepairs : p.session.guard.repairs = repair.decoder.pending := by
    show p.session.repairs = _
    rw [SessionState.repairs, hrepair]
    rfl
  rw [← hrepairs]
  exact h.fenced

theorem Ok.retry (env : Environment) :
    (p.retry env).1.Ok earlier done ∧
      ∀ packet, (p.retry env).2 = some packet → packet.1 ∉ earlier := by
  unfold Progress.retry
  cases hrepair : p.session.repair with
  | none => exact ⟨h, nofun⟩
  | some repair =>
    have hfenced := h.fenced_of_repair hrepair
    obtain ⟨hkept, hrebuilt⟩ := retryPending_from_pending repair.decoder (p.now env)
      p.session.delivered
    dsimp only
    split
    · refine ⟨h.setRepair fun r hr => hfenced r (hkept r hr), fun packet hsome => ?_⟩
      obtain ⟨r, hr, hmember⟩ := hrebuilt packet hsome
      exact hfenced r hr packet.1 hmember
    · exact ⟨h, nofun⟩

theorem Ok.retryTurn (env : Environment) (virtualIpv4 : Octets) :
    (p.retryTurn env virtualIpv4).state.Ok earlier done := by
  obtain ⟨hretry, hunwritten⟩ := h.retry env
  unfold Progress.retryTurn
  generalize p.retry env = result at hretry hunwritten
  obtain ⟨q, rebuilt⟩ := result
  cases rebuilt with
  | none => exact hretry
  | some packet =>
    apply Ok.admitRebuilt hretry
    exact hunwritten packet rfl

omit h in
theorem Ok.retryLoop (fuel : Nat) :
    ∀ p : Progress, p.Ok earlier done →
      (Progress.retryLoop env virtualIpv4 fuel p).Ok earlier done :=
  (Progress.isLoop_retryLoop env virtualIpv4).invariant (I := fun p => p.Ok earlier done)
    (fun _ h => h.retryTurn env virtualIpv4) fuel

theorem Ok.handleRepair {plaintext : Bytes}
    (hunwritten : ∀ sequence ∈ covers plaintext, sequence ∉ earlier) :
    (p.handleRepair env virtualIpv4 plaintext).Ok earlier done := by
  unfold Progress.handleRepair
  cases hrepair : p.session.repair with
  | none => exact h
  | some repair =>
    have hfenced := h.fenced_of_repair hrepair
    have hdecoder : (p.tick.update fun s => { s with repair := some { repair with
        decoder := (repair.decoder.acceptRepair plaintext (p.now env) p.session.delivered).1 } }).Ok
        earlier done := by
      apply h.setRepair
      intro r hr member hmember
      rcases mem_pending_acceptRepair hr with hr | hcovers
      · exact hfenced r hr member hmember
      · rw [hcovers] at hmember
        exact hunwritten member hmember
    apply Ok.retryLoop
    split
    · rename_i sequence packet hsome
      apply Ok.admitRebuilt hdecoder
      exact hunwritten _ (member_of_acceptRepair hsome)
    · exact hdecoder

theorem Ok.handleData (hnew : (p.session.replay.accept sequence).2 = true)
    (hunwritten : sequence ∉ earlier) (plaintext : Bytes) :
    ((p.acceptSequence sequence).handleData env virtualIpv4 sequence plaintext).Ok earlier
        done := by
  have hwrite : ((p.acceptSequence sequence).writeToTun env sequence plaintext).Ok earlier done :=
    h.write hnew hunwritten plaintext
  unfold Progress.handleData
  split
  · exact h.accept sequence
  · dsimp only
    split
    · exact hwrite
    · apply Ok.retryLoop
      exact hwrite.congr (inbound_remember _ _ _ _)

/-- An authenticated frame writes nothing that was written or kept back before, in this life or, if
it carries nothing of them, in the earlier ones. -/
theorem Ok.handle {header : FrameHeader} {plaintext : Bytes}
    (hunwritten : ∀ sequence ∈ carried header plaintext, sequence ∉ earlier)
    (endpoint : SocketAddr) :
    (p.handle crypto env peer virtualIpv4 header plaintext endpoint).Ok earlier done := by
  have haccepted := h.accept header.sequence
  unfold carried at hunwritten
  unfold Progress.handle
  dsimp only
  cases hnew : (p.session.replay.accept header.sequence).2 with
  | false => exact haccepted.congr rfl
  | true =>
    by_cases hcontrol : header.has flagControl = true
    · rw [if_pos hcontrol]
      exact haccepted.congr (inbound_handleControl _ _ _ _)
    rw [if_neg hcontrol] at hunwritten ⊢
    by_cases hflag : header.has flagRepair = true
    · rw [if_pos hflag] at hunwritten ⊢
      exact haccepted.handleRepair virtualIpv4 hunwritten
    · rw [if_neg hflag] at hunwritten ⊢
      exact h.handleData virtualIpv4 hnew
        (hunwritten header.sequence (mem_singleton.2 rfl)) plaintext

end

end Progress

end Life

/-! ## The sessions of a relay -/

/-- The session under a client id and a session id. -/
def session? (clients : Clients) (key : ClientId × UInt64) : Option SessionState :=
  (clients.get? key.1).bind fun client => client.sessions.get? key.2

/-- Every session there is now was there before, with the same guard. -/
def Inherits (clients clients' : Clients) : Prop :=
  ∀ key s', session? clients' key = some s' →
    ∃ s, session? clients key = some s ∧ s'.guard = s.guard

theorem Inherits.refl (clients : Clients) : Inherits clients clients :=
  fun _ s' h => ⟨s', h, rfl⟩

theorem session?_insert (clients : Clients) (clientId : ClientId) (client : RelayClient)
    (key : ClientId × UInt64) :
    session? (clients.insert clientId client) key =
      if key.1 = clientId then client.sessions.get? key.2 else session? clients key := by
  unfold session?
  rw [get?_insert]
  by_cases hkey : key.1 = clientId
  · rw [if_pos hkey, if_pos hkey]
    rfl
  · rw [if_neg hkey, if_neg hkey]

variable {env : Environment} (records : KeyedMap ClientId Enrolment)

theorem session?_mapValues
    (f : ClientId → Enrolment → RelayClient) (key : ClientId × UInt64) :
    session? (records.mapValues f) key =
      (records.get? key.1).bind fun enrolment => (f key.1 enrolment).sessions.get? key.2 := by
  unfold session?
  rw [get?_mapValues, Option.bind_map]
  rfl

variable {sessionId : UInt64} {s : SessionState}

theorem get?_evict (fuel : Nat) :
    ∀ sessions : KeyedMap UInt64 SessionState,
      (evict env fuel sessions).get? sessionId = some s →
        sessions.get? sessionId = some s := by
  induction fuel with
  | zero => exact fun sessions h => h
  | succ fuel ih =>
    intro sessions h
    rw [evict] at h
    split at h
    · split at h
      · have hrest := ih _ h
        rw [get?_erase] at hrest
        split at hrest
        · cases hrest
        · exact hrest
      · exact h
    · exact h

variable {client : RelayClient}

theorem get?_fresh {now : Instant} (h : (client.fresh now).get? sessionId = some s) :
    client.sessions.get? sessionId = some s := by
  unfold fresh at h
  rw [get?_retain, Option.filter_eq_some_iff] at h
  exact h.1

theorem get?_admitSession {sessionId other : UInt64}
    (h : (client.admitSession sessionId env).1.get? other = some s) :
    client.sessions.get? other = some s := by
  unfold admitSession at h
  dsimp only at h
  split at h
  · exact get?_fresh h
  · exact get?_fresh (get?_evict _ _ h)

/-! ## The other threads -/

theorem inbound_sendReplies {crypto : SessionCrypto} {peer : Peer} (pieces : List Bytes) :
    ∀ p : Progress, (pieces.foldl (Progress.sendReply crypto env peer) p).inbound = p.inbound := by
  induction pieces with
  | nil => exact fun p => rfl
  | cons piece pieces ih =>
    intro p
    rw [foldl_cons, ih, Progress.inbound_sendReply]

variable {clientId : ClientId} {clients : Clients}

/-- One session is replaced by one with the same guard. -/
theorem inherits_insert {s s' : SessionState} (hclient : clients.get? clientId = some client)
    (hsession : client.sessions.get? sessionId = some s) (hguard : s'.guard = s.guard) :
    Inherits clients (clients.insert clientId
      { client with sessions := client.sessions.insert sessionId s' }) := by
  intro key found hfound
  rw [session?_insert] at hfound
  split at hfound
  · rename_i hkey
    have hclients : session? clients key = client.sessions.get? key.2 := by
      rw [session?, hkey, hclient]
      rfl
    rw [hclients]
    rw [get?_insert] at hfound
    split at hfound
    · rename_i hid
      rw [hid, ← Option.some.inj hfound]
      exact ⟨s, hsession, hguard⟩
    · exact ⟨found, hfound, rfl⟩
  · exact ⟨found, hfound, rfl⟩

variable (crypto : SessionCrypto)

theorem inherits_forwardReply (clients : Clients) (packet : Bytes)
    (env : Environment) : Inherits clients (forwardReply crypto clients packet env).1 := by
  unfold forwardReply
  split
  · exact Inherits.refl clients
  dsimp only
  split
  · exact Inherits.refl clients
  rename_i clientId client howner
  split
  · exact Inherits.refl clients
  · rename_i sessionId session hnewest
    apply inherits_insert
    · exact get?_eq_some_iff.2 (mem_filter.1 (mem_of_getElem? howner)).1
    · exact get?_eq_some_iff.2 (mem_of_maxBy hnewest)
    · exact congrArg Prod.fst (inbound_sendReplies _ _)

theorem guard_flushSession (now : Instant) (env : Environment)
    (peer : Peer) (session : SessionState) :
    (flushSession crypto now env peer session).session.guard = session.guard := by
  have hinbound : (flushSession crypto now env peer session).inbound = (session.guard, []) := by
    unfold flushSession
    dsimp only
    split
    · rfl
    rename_i repair hrepair
    have hflushed : ((⟨session, 0, 0, []⟩ : Progress).update fun s => { s with
        repair := some { repair with encoder := (repair.encoder.flushDue now).1 } }).inbound =
        (session.guard, []) :=
      Progress.inbound_setRepair hrepair rfl
    split
    · rw [Progress.inbound_fanOut]
      exact hflushed
    · exact hflushed
  exact congrArg Prod.fst hinbound

theorem inherits_flushRepairs (clients : Clients) (now : Instant)
    (env : ClientId → UInt64 → Environment) :
    Inherits clients (flushRepairs crypto clients now env).1 := by
  intro key s' hs'
  unfold flushRepairs session? at hs'
  rw [get?_mapValues, Option.bind_map, Option.bind_eq_some_iff] at hs'
  obtain ⟨client, hclient, hs'⟩ := hs'
  dsimp only [Function.comp_apply] at hs'
  rw [get?_mapValues, Option.map_eq_some_iff] at hs'
  obtain ⟨session, hsession, rfl⟩ := hs'
  refine ⟨session, ?_, guard_flushSession _ _ _ _ _⟩
  unfold session?
  rw [hclient]
  exact hsession

theorem inherits_reconcileClients (clients : Clients) (records : KeyedMap ClientId Enrolment) :
    Inherits clients (reconcileClients clients records) := by
  intro key s' hs'
  unfold reconcileClients at hs'
  rw [session?_mapValues, Option.bind_eq_some_iff] at hs'
  obtain ⟨enrolment, -, hs'⟩ := hs'
  have hnone : (enrolled enrolment).sessions.get? key.2 ≠ some s' := by
    show (none : Option SessionState) ≠ some s'
    simp
  cases hclient : clients.get? key.1 with
  | none =>
    rw [hclient] at hs'
    exact absurd hs' hnone
  | some current =>
    rw [hclient] at hs'
    dsimp only at hs'
    split at hs'
    · refine ⟨s', ?_, rfl⟩
      unfold session?
      rw [hclient]
      exact hs'
    · exact absurd hs' hnone

/-! ## Whole runs -/

/-- The sequences an event wrote for a session. -/
def writtenBy (key : ClientId × UInt64) (outcome : Outcome) : List UInt64 :=
  if outcome.admitted = some key then outcome.sent.flatMap sequences else []

/-- The sequences of the frames of a session whose payload a run has written to the TUN. -/
def writtenFor (key : ClientId × UInt64) (log : List (Event × Outcome)) : List UInt64 :=
  log.flatMap fun e => writtenBy key e.2

/-- One more event: what was written before the present life of a session, and what in it. -/
def outlive (key : ClientId × UInt64) (lives : List UInt64 × List UInt64) (e : Event × Outcome) :
    List UInt64 × List UInt64 :=
  if e.2.admitted = some key ∧ e.2.created = true then (lives.1 ++ lives.2, writtenBy key e.2)
  else (lives.1, lives.2 ++ writtenBy key e.2)

/-- What a run has written for a session before its present life, and what in it. -/
def lives (key : ClientId × UInt64) (log : List (Event × Outcome)) : List UInt64 × List UInt64 :=
  log.foldl (outlive key) ([], [])

/-- What was written before the life a frame meets: everything, if the frame begins a new one. -/
def earlierWrites (key : ClientId × UInt64) (log : List (Event × Outcome)) (created : Bool) :
    List UInt64 :=
  if created then writtenFor key log else (lives key log).1

/-- The event plays a frame of an earlier life to a session, or a repair that covers one. -/
def replays (cfg : Run.Config Clients Event Outcome) : Event → Bool
  | .frame _ bytes env =>
    match authenticate crypto cfg.state bytes with
    | none => false
    | some (header, client, plaintext) =>
      (carried header plaintext).any fun sequence => decide (sequence ∈
        earlierWrites (header.clientId, header.sessionId) cfg.log
          (client.creates header.sessionId (env.clock 0)))
  | _ => false

/-- The event plays nothing of an earlier life to a session. -/
def NoReplay (cfg : Run.Config Clients Event Outcome) (event : Event) :
    Prop :=
  replays crypto cfg event = false

instance (crypto : SessionCrypto) (cfg : Run.Config Clients Event Outcome) (event : Event) :
    Decidable (NoReplay crypto cfg event) :=
  inferInstanceAs (Decidable (_ = _))

/-- Every session there is keeps its guard over what it has written, and nothing was written twice
for any session. -/
structure Once (cfg : Run.Config Clients Event Outcome) : Prop where
  live : ∀ key s, session? cfg.state key = some s →
    Sound (lives key cfg.log).1 (lives key cfg.log).2 s.guard
  once : ∀ key, (writtenFor key cfg.log).Nodup

section

variable (key : ClientId × UInt64) (log : List (Event × Outcome))
include key log

theorem writtenFor_append (e : Event × Outcome) :
    writtenFor key (log ++ [e]) = writtenFor key log ++ writtenBy key e.2 := by
  rw [writtenFor, flatMap_append, flatMap_singleton]
  rfl

theorem lives_append (e : Event × Outcome) :
    lives key (log ++ [e]) = outlive key (lives key log) e := by
  rw [lives, foldl_append]
  rfl

theorem writtenFor_eq_lives :
    writtenFor key log = (lives key log).1 ++ (lives key log).2 := by
  induction log using List.reverseRecOn with
  | nil => rfl
  | append_singleton log e ih =>
    rw [writtenFor_append, lives_append, ih, outlive]
    split
    · rfl
    · exact append_assoc _ _ _

end

variable {outcome : Outcome} {key : ClientId × UInt64}

theorem writtenBy_of_ne (h : outcome.admitted ≠ some key) : writtenBy key outcome = [] :=
  if_neg h

theorem lives_append_of_ne {e : Event × Outcome} (h : e.2.admitted ≠ some key)
    (log : List (Event × Outcome)) :
    lives key (log ++ [e]) = lives key log := by
  rw [lives_append, outlive, if_neg fun hboth => h hboth.1, writtenBy_of_ne h, append_nil]

theorem once_load : Once ⟨loadClients records, []⟩ := by
  refine ⟨fun key s h => ?_, fun key => nodup_nil⟩
  rw [loadClients, session?_mapValues, Option.bind_eq_some_iff] at h
  obtain ⟨enrolment, -, h⟩ := h
  cases show (none : Option SessionState) = some s from h

variable {cfg : Run.Config Clients Event Outcome} {event : Event}

theorem Once.inherit (h : Once cfg) (hinherits : Inherits cfg.state clients)
    (hadmitted : outcome.admitted = none) : Once ⟨clients, cfg.log ++ [(event, outcome)]⟩ := by
  have hne : ∀ key, (event, outcome).2.admitted ≠ some key := by
    intro key hsome
    rw [hadmitted] at hsome
    cases hsome
  refine ⟨fun key s' hs' => ?_, fun key => ?_⟩
  · obtain ⟨s, hs, hguard⟩ := hinherits key s' hs'
    rw [lives_append_of_ne (hne key), hguard]
    exact h.live key s hs
  · rw [writtenFor_append, writtenBy_of_ne (hne key), append_nil]
    exact h.once key

theorem authenticate_client {crypto : SessionCrypto} {frame : Bytes} {header : FrameHeader}
    {plaintext : Bytes} (h : authenticate crypto clients frame = some (header, client, plaintext)) :
    clients.get? header.clientId = some client := by
  unfold authenticate at h
  split at h
  · cases h
  split at h
  · cases h
  split at h
  · cases h
  split at h
  · cases h
  rename_i found hfound
  obtain ⟨opened, -, heq⟩ := Option.map_eq_some_iff.1 h
  have hheader := congrArg Prod.fst heq
  have hclient := congrArg (fun authenticated => authenticated.2.1) heq
  dsimp only at hheader hclient
  rw [← hheader, ← hclient]
  exact hfound

/-- The life of a session a frame is admitted to goes on, or begins with nothing written. -/
theorem sound_admitSession (h : Once cfg) (hclient : cfg.state.get? clientId = some client)
    (sessionId : UInt64) (env : Environment) :
    Sound
      (earlierWrites (clientId, sessionId) cfg.log (client.creates sessionId (env.clock 0)))
      (if client.creates sessionId (env.clock 0) then []
        else (lives (clientId, sessionId) cfg.log).2)
      (client.admitSession sessionId env).2.guard := by
  unfold admitSession earlierWrites creates
  dsimp only
  cases hfresh : (client.fresh (env.clock 0)).get? sessionId with
  | some s =>
    apply h.live
    unfold session?
    rw [hclient]
    exact get?_fresh hfresh
  | none => exact sound_new (h.once _) _ _

/-- What was written for the session of a frame, after the frame. -/
theorem lives_append_frame (hadmitted : outcome.admitted = some key)
    (log : List (Event × Outcome)) :
    lives key (log ++ [(event, outcome)]) =
      (earlierWrites key log outcome.created,
        (if outcome.created then [] else (lives key log).2) ++
          outcome.sent.flatMap sequences) := by
  have hwritten : writtenBy key outcome = outcome.sent.flatMap sequences := if_pos hadmitted
  rw [lives_append, outlive, hwritten]
  cases hcreated : outcome.created with
  | true =>
    rw [if_pos ⟨hadmitted, rfl⟩, ← writtenFor_eq_lives]
    rfl
  | false =>
    rw [if_neg fun hboth => Bool.false_ne_true hboth.2]
    rfl

/-- A frame leaves its own session with a guard over what was written for it, and takes others away
or leaves them alone. -/
theorem Once.frame (h : Once cfg) (hclient : cfg.state.get? clientId = some client)
    {sessions : KeyedMap UInt64 SessionState}
    (hsessions : ∀ other found, sessions.get? other = some found →
      client.sessions.get? other = some found)
    (hadmitted : outcome.admitted = some (clientId, sessionId))
    (hsound : Sound (lives (clientId, sessionId) (cfg.log ++ [(event, outcome)])).1
      (lives (clientId, sessionId) (cfg.log ++ [(event, outcome)])).2 s.guard) :
    Once ⟨cfg.state.insert clientId { client with sessions := sessions.insert sessionId s },
      cfg.log ++ [(event, outcome)]⟩ := by
  have hother : ∀ key, key ≠ (clientId, sessionId) → (event, outcome).2.admitted ≠ some key := by
    intro key hkey heq
    rw [hadmitted] at heq
    exact hkey (Option.some.inj heq).symm
  refine ⟨fun key found hfound => ?_, fun key => ?_⟩
  · by_cases hkey : key = (clientId, sessionId)
    · subst hkey
      rw [session?_insert, if_pos rfl, get?_insert_self] at hfound
      rw [← Option.some.inj hfound]
      exact hsound
    -- Another session is as it was, or belongs to the same client and was not dropped.
    rw [lives_append_of_ne (hother key hkey)]
    apply h.live
    rw [session?_insert] at hfound
    split at hfound
    · rename_i hid
      rw [get?_insert, if_neg fun heq => hkey (Prod.ext hid heq)] at hfound
      unfold session?
      rw [hid, hclient]
      exact hsessions _ _ hfound
    · exact hfound
  · by_cases hkey : key = (clientId, sessionId)
    · subst hkey
      rw [writtenFor_eq_lives, ← coe_nodup]
      exact nodup_of_le (add_le_add_right (Multiset.le_add_right _ _) _) hsound.once
    · rw [writtenFor_append, writtenBy_of_ne (hother key hkey), append_nil]
      exact h.once key

theorem Once.serveFrame {crypto : SessionCrypto} (h : Once cfg) {endpoint : SocketAddr}
    {frame : Bytes} {header : FrameHeader} {plaintext : Bytes}
    (hclient : cfg.state.get? header.clientId = some client)
    (hunwritten : ∀ sequence ∈ carried header plaintext,
      sequence ∉ earlierWrites (header.clientId, header.sessionId) cfg.log
        (client.creates header.sessionId (env.clock 0))) :
    Once ⟨(Relay.serveFrame crypto env cfg.state client header plaintext endpoint).1,
      cfg.log ++ [(.frame endpoint frame env,
        (Relay.serveFrame crypto env cfg.state client header plaintext endpoint).2)]⟩ := by
  have hstart : Progress.Ok
      (earlierWrites (header.clientId, header.sessionId) cfg.log
        (client.creates header.sessionId (env.clock 0)))
      (if client.creates header.sessionId (env.clock 0) then []
        else (lives (header.clientId, header.sessionId) cfg.log).2)
      ⟨(client.admitSession header.sessionId env).2.observeEndpoint endpoint (env.clock 2), 3,
        maxSessionsPerClient, []⟩ := by
    show Sound _ (_ ++ []) _
    rw [append_nil]
    exact sound_admitSession h hclient header.sessionId env
  apply h.frame hclient
  · exact fun other found hfound => get?_admitSession hfound
  · rfl
  · rw [lives_append_frame rfl]
    exact hstart.handle client.enrolment.virtualIpv4 hunwritten endpoint

/-- One event that plays nothing of an earlier life to a session. -/
theorem Once.advance {crypto : SessionCrypto} (h : Once cfg) (hreplay : NoReplay crypto cfg event) :
    Once (Run.advance (step crypto) cfg event) := by
  cases event with
  | reply packet env =>
    apply h.inherit (inherits_forwardReply crypto cfg.state packet env)
    show (forwardReply crypto cfg.state packet env).2.admitted = none
    unfold forwardReply
    split
    · rfl
    · dsimp only
      split
      · rfl
      · split <;> rfl
  | flush now env => exact h.inherit (inherits_flushRepairs crypto cfg.state now env) rfl
  | reload records => exact h.inherit (inherits_reconcileClients cfg.state records) rfl
  | frame endpoint bytes env =>
    show Once ⟨(receive crypto cfg.state endpoint bytes env).1,
      cfg.log ++ [(_, (receive crypto cfg.state endpoint bytes env).2)]⟩
    unfold receive
    unfold NoReplay replays at hreplay
    cases hauthenticate : authenticate crypto cfg.state bytes with
    | none => exact h.inherit (Inherits.refl _) rfl
    | some authenticated =>
      obtain ⟨header, client, plaintext⟩ := authenticated
      dsimp only at hreplay ⊢
      rw [hauthenticate, any_eq_false] at hreplay
      cases hprobe : statelessProbeReply crypto client header plaintext env.micros with
      -- A probe of a session that is not there is answered without one.
      | some reply => exact h.inherit (Inherits.refl _) rfl
      | none =>
        apply h.serveFrame (authenticate_client hauthenticate)
        intro sequence hsequence hmem
        exact hreplay sequence hsequence (decide_eq_true hmem)

/-- In a run in which nothing of an earlier life is played to a session, no frame's payload is
written to the TUN twice. -/
theorem writes_once (crypto : SessionCrypto) (records : KeyedMap ClientId Enrolment)
    (events : List Event)
    (h : Run.Meets (step crypto) (NoReplay crypto) ⟨loadClients records, []⟩ events)
    (key : ClientId × UInt64) : (writtenFor key (serve crypto records events).log).Nodup := by
  have hrun : Once (serve crypto records events) :=
    Run.execFrom_invariant_of_meets (I := Once)
      (fun cfg event hreplay hcfg => hcfg.advance hreplay) events _ h (once_load records)
  exact hrun.once key

/-! ## A frame that is sent again -/

/-- A stand-in for the AEAD that opens every frame to what stands between its header and its tag. -/
def nullCrypto : SessionCrypto where
  openClient := fun _ _ frame =>
    some ((frame.drop headerLen).take (frame.length - headerLen - tagLen))
  sealServer := fun _ _ _ payload => some payload

/-- The client the samples come from. -/
def sampleClient : ClientId := Vector.replicate 16 0

/-- A relay with that client enrolled. -/
def sampleRecords : KeyedMap ClientId Enrolment :=
  KeyedMap.empty.insert sampleClient ⟨(10, 203, 0, 2), List.replicate 32 0⟩

/-- A data frame of the client's session 7. -/
def sampleFrame (sequence : UInt8) : Bytes :=
  [0x47, 0x50, 0x54, 0x48, 1, 0, 0, 40] ++ List.replicate 16 0 ++ [0, 0, 0, 0, 0, 0, 0, 7] ++
    [0, 0, 0, 0, 0, 0, 0, sequence] ++
    [0x45, 0, 0, 20, 0, 0, 0, 0, 64, 17, 0, 0, 10, 203, 0, 2, 1, 1, 1, 1] ++ List.replicate 16 0

/-- A frame arrives. -/
def arrivesAt (now : Instant) (sequence : UInt8) : Event :=
  .frame (.v4 (127, 0, 0, 1) 5000) (sampleFrame sequence) ⟨fun _ => now, 0, fun _ => 0⟩

/-- A frame, a copy of it a second later, and the next frame when the session has expired. -/
theorem writes_once_after_expiry :
    writtenFor (sampleClient, 7) (serve nullCrypto sampleRecords
        [arrivesAt 0 1, arrivesAt (secs 1) 1, arrivesAt (secs 182) 2]).log = [1, 2] ∧
      (writtenFor (sampleClient, 7) (serve nullCrypto sampleRecords
        [arrivesAt 0 1, arrivesAt (secs 1) 1, arrivesAt (secs 182) 2]).log).Nodup :=
  ⟨by decide +kernel, writes_once nullCrypto sampleRecords
    [arrivesAt 0 1, arrivesAt (secs 1) 1, arrivesAt (secs 182) 2]
    ⟨by decide +kernel, by decide +kernel, by decide +kernel, trivial⟩ (sampleClient, 7)⟩

/-- The frame again after its session has expired: its payload is written a second time. -/
theorem expired_session_replays :
    writtenFor (sampleClient, 7) (serve nullCrypto sampleRecords
        [arrivesAt 0 1, arrivesAt (secs 181) 1]).log = [1, 1] ∧
      ¬ (writtenFor (sampleClient, 7) (serve nullCrypto sampleRecords
        [arrivesAt 0 1, arrivesAt (secs 181) 1]).log).Nodup := by
  have htwice : writtenFor (sampleClient, 7) (serve nullCrypto sampleRecords
      [arrivesAt 0 1, arrivesAt (secs 181) 1]).log = [1, 1] := by
    decide +kernel
  refine ⟨htwice, ?_⟩
  decide

end GamePath.Relay
