import GamePath.Engine.Session.Ingress

/-!
# Each relay sequence is delivered at most once, and right

What the client's ingress hands to the inbound queue over a whole run. `RelayTraffic` is what the
relay is assumed to do: it puts one frame under each sequence, and its repairs come from an encoder
fed with its data frames. `Sound` is the invariant: what was handed over so far was accepted by the
replay window, each sequence once, and the decoder knows nothing but the relay's data.
-/

namespace GamePath.Engine.Session

open Lib List RelayIngress Progress Protocol Replay Fec

/-! ## The relay's side -/

/-- A frame the relay sends to the client. -/
inductive RelayFrame where
  | data (packet : Bytes)
  | repair (payload : Bytes)
  deriving DecidableEq

/-- What the relay sends: one frame under each sequence it uses, every repair being an output of an
encoder that was fed with data frames. -/
structure RelayTraffic where
  sent : UInt64 → Option RelayFrame
  repairs : ∀ sequence payload, sent sequence = some (.repair payload) →
    ∃ groupSize maxPacket ops op group,
      (op, some (payload, group)) ∈ (encoderRun groupSize maxPacket ops).log ∧
        ∀ packet ∈ pushed ops, sent packet.1 = some (.data packet.2)

/-- The call brings a frame of the relay, or one the ingress turns away by its header. -/
def RelayTraffic.Carries (traffic : RelayTraffic) (clientId : ClientId) (sessionId : UInt64) :
    Call → Prop
  | .authenticated header plaintext _ =>
    (new clientId sessionId).isOurs header = true → header.has flagRepair = false →
      traffic.sent header.sequence = some (.data plaintext)
  | .repair header payload _ =>
    (new clientId sessionId).isOurs header = true → header.has flagRepair = true →
      traffic.sent header.sequence = some (.repair payload)

/-- The relay's data frames, as the decoder's stream of known packets. -/
def RelayTraffic.stream (traffic : RelayTraffic) : Stream where
  known := fun packet => traffic.sent packet.1 = some (.data packet.2)
  unique := by
    intro m p q hp hq
    rw [hp, Option.some.injEq, RelayFrame.data.injEq] at hq
    exact hq

/-! ## The invariant -/

/-- The state of the ingress and everything it has handed to the queue. -/
structure Sound (stream : Stream) (fresh : RelayIngress) (i : RelayIngress)
    (handed : List Sent) : Prop where
  ids : i.clientId = fresh.clientId ∧ i.sessionId = fresh.sessionId
  accepted : ∃ accepted, ReplayWindow.Represents i.replay accepted ∧
    ∀ packet ∈ handed, packet.1 ∈ accepted
  once : (handed.map Prod.fst).Nodup
  right : ∀ packet ∈ handed, stream.known packet
  decoder : Faithful stream i.repair

variable {stream : Stream} {fresh : RelayIngress}

theorem sound_new (clientId : ClientId) (sessionId : UInt64) :
    Sound stream (new clientId sessionId) (new clientId sessionId) [] where
  ids := ⟨rfl, rfl⟩
  accepted := ⟨∅, ReplayWindow.represents_default, nofun⟩
  once := nodup_nil
  right := nofun
  decoder := faithful_default

variable {i : RelayIngress} {handed : List Sent}

section

variable (h : Sound stream fresh i handed)
include h

theorem Sound.isOurs_eq (header : FrameHeader) :
    i.isOurs header = fresh.isOurs header := by
  unfold isOurs
  rw [h.ids.1, h.ids.2]

theorem Sound.withRepair {d : Decoder} (hd : Faithful stream d) :
    Sound stream fresh { i with repair := d } handed :=
  ⟨h.ids, h.accepted, h.once, h.right, hd⟩

theorem Sound.accept (sequence : UInt64) :
    Sound stream fresh { i with replay := (i.replay.accept sequence).1 } handed := by
  obtain ⟨accepted, hrepresents, hin⟩ := h.accepted
  refine ⟨h.ids, ⟨_, (ReplayWindow.accept_represents hrepresents sequence).2, ?_⟩, h.once, h.right,
    h.decoder⟩
  intro packet hp
  split
  · exact Finset.mem_insert_of_mem (hin packet hp)
  · exact hin packet hp

theorem Sound.deliver {packet : Sent} (hknown : stream.known packet)
    (hfresh : i.replay.wouldAccept packet.1 = true) :
    Sound stream fresh { i with replay := (i.replay.accept packet.1).1 } (handed ++ [packet]) := by
  obtain ⟨accepted, hrepresents, hin⟩ := h.accepted
  rw [ReplayWindow.wouldAccept_eq_fresh hrepresents, decide_eq_true_iff] at hfresh
  have haccept := (ReplayWindow.accept_represents hrepresents packet.1).2
  rw [if_pos hfresh] at haccept
  -- The sequence is not among the accepted ones, and those include all that were handed over.
  have hnew : packet.1 ∉ handed.map Prod.fst := by
    intro hmem
    obtain ⟨other, hother, heq⟩ := mem_map.1 hmem
    exact hfresh.1 (heq ▸ hin other hother)
  refine ⟨h.ids, ⟨_, haccept, ?_⟩, ?_, ?_, h.decoder⟩
  · intro other hother
    rcases mem_snoc.1 hother with hother | rfl
    · exact Finset.mem_insert_of_mem (hin other hother)
    · exact Finset.mem_insert_self _ _
  · rw [map_append]
    exact List.Nodup.append h.once (nodup_singleton _) (disjoint_singleton.2 hnew)
  · intro other hother
    rcases mem_snoc.1 hother with hother | rfl
    · exact h.right other hother
    · exact hknown

end

/-! ## One call -/

/-- The invariant in the middle of a call, `before` being what earlier calls handed over. -/
def Progress.Ok (stream : Stream) (fresh : RelayIngress) (before : List Sent) (p : Progress) :
    Prop :=
  Sound stream fresh p.ingress (before ++ p.handed)

variable {before : List Sent}

theorem ok_start (h : Sound stream fresh i before) :
    i.start.Ok stream fresh before := by
  show Sound stream fresh i (before ++ [])
  rw [append_nil]
  exact h

variable {p : Progress}

/-- Remembering a known packet, offering it to the queue and accepting its sequence if there was
room. -/
theorem ok_offer (h : p.Ok stream fresh before) {sequence : UInt64} {packet : Bytes}
    (hknown : stream.known (sequence, packet))
    (hfresh : p.ingress.replay.wouldAccept sequence = true) (env : Environment) :
    (((p.remember sequence packet).trySend env sequence packet).2 = false →
      ((p.remember sequence packet).trySend env sequence packet).1.Ok stream fresh before) ∧
    (((p.remember sequence packet).trySend env sequence packet).2 = true →
      (((p.remember sequence packet).trySend env sequence packet).1.accept sequence).Ok stream
        fresh before) := by
  have hremember := h.withRepair (faithful_remember h.decoder hknown)
  unfold trySend
  cases hroom : env.room (p.remember sequence packet).sends with
  | false =>
    exact ⟨fun _ => hremember, nofun⟩
  | true =>
    refine ⟨nofun, fun _ => ?_⟩
    have hdeliver := hremember.deliver hknown hfresh
    rw [append_assoc] at hdeliver
    exact hdeliver

theorem ok_admitRebuilt (h : p.Ok stream fresh before) {packet : Sent}
    (hknown : stream.known packet) (env : Environment) :
    (p.admitRebuilt env packet.1 packet.2).1.Ok stream fresh before := by
  unfold admitRebuilt
  cases hfresh : p.ingress.replay.wouldAccept packet.1 with
  | false =>
    exact h
  | true =>
    obtain ⟨hfull, hroom⟩ := ok_offer h hknown hfresh env
    generalize (p.remember packet.1 packet.2).trySend env packet.1 packet.2 = result at hfull hroom
    obtain ⟨q, taken⟩ := result
    cases taken with
    | false =>
      have hq : Sound stream fresh q.ingress (before ++ q.handed) := hfull rfl
      exact ⟨hq.ids, hq.accepted, hq.once, hq.right, hq.decoder⟩
    | true =>
      have hq : Sound stream fresh (q.accept packet.1).ingress
        (before ++ (q.accept packet.1).handed) := hroom rfl
      exact ⟨hq.ids, hq.accepted, hq.once, hq.right, hq.decoder⟩

theorem ok_retry (h : p.Ok stream fresh before) (env : Environment) :
    (p.retry env).1.Ok stream fresh before ∧
      ∀ packet, (p.retry env).2 = some packet → stream.known packet := by
  obtain ⟨hfaithful, hrebuilt⟩ := faithful_retryPending h.decoder (env.clock p.readings)
    p.ingress.delivered
  exact ⟨h.withRepair hfaithful, fun packet hsome => (hrebuilt packet hsome).1⟩

theorem ok_retryTurn (h : p.Ok stream fresh before) (env : Environment) :
    (p.retryTurn env).state.Ok stream fresh before := by
  obtain ⟨hretry, hrebuilt⟩ := ok_retry h env
  unfold retryTurn
  generalize p.retry env = result at hretry hrebuilt
  obtain ⟨q, rebuilt⟩ := result
  split
  · cases rebuilt with
    | none => exact hretry
    | some packet => exact ok_admitRebuilt hretry (hrebuilt packet rfl) env
  · exact h

theorem ok_retryLoop (env : Environment) (fuel : Nat) :
    ∀ p : Progress, p.Ok stream fresh before →
      (retryLoop env fuel p).Ok stream fresh before :=
  (isLoop_retryLoop env).invariant (I := fun p => p.Ok stream fresh before)
    (fun _ h => ok_retryTurn h env) fuel

theorem ok_enqueueAuthenticated (h : Sound stream fresh i before) (env : Environment)
    (header : FrameHeader) (plaintext : Bytes)
    (hknown : fresh.isOurs header = true → header.has flagRepair = false →
      stream.known (header.sequence, plaintext)) :
    (i.enqueueAuthenticated env header plaintext).1.Ok stream fresh before := by
  have hstart := ok_start h
  unfold enqueueAuthenticated
  split
  · exact hstart
  rename_i hheader
  split
  · exact hstart
  rename_i hwould
  rw [Bool.or_eq_true, not_or, Bool.not_eq_true, Bool.not_eq_true, Bool.not_eq_false'] at hheader
  rw [h.isOurs_eq] at hheader
  rw [Bool.not_eq_true, Bool.not_eq_false'] at hwould
  obtain ⟨hfull, hroom⟩ := ok_offer hstart (hknown hheader.1 hheader.2) hwould env
  generalize (i.start.remember header.sequence plaintext).trySend env header.sequence
    plaintext = result at hfull hroom
  obtain ⟨q, taken⟩ := result
  cases taken with
  | false => exact hfull rfl
  | true => exact ok_retryLoop env _ _ (hroom rfl)

theorem ok_enqueueRepair (h : Sound stream fresh i before) (env : Environment)
    (header : FrameHeader) (payload : Bytes)
    (hstands : fresh.isOurs header = true → header.has flagRepair = true →
      ∃ group, Stands payload group ∧ ∀ packet ∈ group, stream.known packet) :
    (i.enqueueRepair env header payload).1.Ok stream fresh before := by
  have hstart := ok_start h
  have haccept : (i.start.accept header.sequence).Ok stream fresh before := hstart.accept _
  unfold enqueueRepair
  split
  · exact hstart
  rename_i hheader
  split
  · exact haccept
  rw [Bool.or_eq_true, not_or, Bool.not_eq_true, Bool.not_eq_true, Bool.not_eq_false',
    Bool.not_eq_false'] at hheader
  rw [h.isOurs_eq] at hheader
  -- A repair that is ours is one of the relay's own: it stands for packets of the stream.
  obtain ⟨group, hgroup, hknown⟩ := hstands hheader.1 hheader.2
  obtain ⟨hfaithful, hrebuilt⟩ := faithful_acceptRepair haccept.decoder hgroup hknown
    (env.clock (i.start.accept header.sequence).readings)
    (i.start.accept header.sequence).ingress.delivered
  have hrepair : Ok stream fresh before
      { i.start.accept header.sequence with
        ingress := { (i.start.accept header.sequence).ingress with
          repair := ((i.start.accept header.sequence).ingress.repair.acceptRepair payload
            (env.clock (i.start.accept header.sequence).readings)
            (i.start.accept header.sequence).ingress.delivered).1 }
        readings := (i.start.accept header.sequence).readings + 1 } :=
    haccept.withRepair hfaithful
  apply ok_retryLoop
  split
  · rename_i sequence packet hsome
    exact ok_admitRebuilt hrepair (hrebuilt (sequence, packet) hsome).1 env
  · exact hrepair

/-! ## Whole runs -/

/-- A run of calls on a new ingress. -/
def ingressRun (clientId : ClientId) (sessionId : UInt64) (calls : List Call) :
    Run.Config RelayIngress Call (List Sent) :=
  Run.exec step (new clientId sessionId) calls

/-- Everything a run handed to the inbound queue, in order, with the sequences. -/
def delivered (c : Run.Config RelayIngress Call (List Sent)) : List Sent :=
  c.log.flatMap Prod.snd

theorem sound_step {traffic : RelayTraffic} {clientId : ClientId} {sessionId : UInt64} {call : Call}
    (h : Sound traffic.stream (new clientId sessionId) i before)
    (hcall : traffic.Carries clientId sessionId call) :
    Sound traffic.stream (new clientId sessionId) (i.step call).1
      (before ++ (i.step call).2) := by
  cases call with
  | authenticated header plaintext env =>
    exact ok_enqueueAuthenticated h env header plaintext hcall
  | repair header payload env =>
    apply ok_enqueueRepair h env header payload
    intro hours hflag
    obtain ⟨groupSize, maxPacket, ops, op, group, hlog, hdata⟩ :=
      traffic.repairs header.sequence payload (hcall hours hflag)
    obtain ⟨hstands, hpushed⟩ := (covered_run groupSize maxPacket ops).repairs op payload group
      hlog
    rw [encoderRun_inputs] at hpushed
    exact ⟨group, hstands, fun packet hp => hdata packet (hpushed packet hp)⟩

theorem sound_run {traffic : RelayTraffic} {clientId : ClientId} {sessionId : UInt64}
    {calls : List Call} (hcalls : ∀ call ∈ calls, traffic.Carries clientId sessionId call) :
    Sound traffic.stream (new clientId sessionId)
      (ingressRun clientId sessionId calls).state
      (delivered (ingressRun clientId sessionId calls)) := by
  have hmeets : Run.Meets step (fun _ call => traffic.Carries clientId sessionId call)
      ⟨new clientId sessionId, []⟩ calls :=
    Run.meets_of_forall (fun call hmem _ => hcalls call hmem) _
  refine Run.execFrom_invariant_of_meets
    (I := fun c => Sound traffic.stream (new clientId sessionId) c.state (delivered c))
    ?_ calls _ hmeets (sound_new clientId sessionId)
  intro c call hcall h
  have hlog : delivered (Run.advance step c call) =
      delivered c ++ (c.state.step call).2 := by
    rw [delivered, Run.advance_log, flatMap_append, flatMap_singleton]
    rfl
  rw [hlog]
  exact sound_step h hcall

/-- Over every run of calls that carry the relay's frames, in any order, with any copies and losses
and any pattern of the queue being full: each sequence reaches the inbound queue at most once, and
always with the packet the relay sent under it. -/
theorem ingress_delivers_once (clientId : ClientId) (sessionId : UInt64) (traffic : RelayTraffic)
    (calls : List Call) (hcalls : ∀ call ∈ calls, traffic.Carries clientId sessionId call) :
    ((delivered (ingressRun clientId sessionId calls)).map Prod.fst).Nodup ∧
      ∀ packet ∈ delivered (ingressRun clientId sessionId calls),
        traffic.sent packet.1 = some (.data packet.2) := by
  have hsound := sound_run hcalls
  exact ⟨hsound.once, hsound.right⟩

/-- Two data frames and the repair of their group, sent under sequence 12. -/
def twoPackets : RelayTraffic where
  sent := fun sequence =>
    if sequence = 10 then some (.data [1, 2, 3])
    else if sequence = 11 then some (.data [9])
    else if sequence = 12 then some (.repair [1, 0, 0, 0, 0, 0, 0, 0, 10, 2, 1, 0, 2, 8, 2, 3])
    else none
  repairs := by
    intro sequence payload hsent
    refine ⟨2, 1400, [.push 10 [1, 2, 3] 0, .push 11 [9] 0, .flushDue (millis 5)],
      .flushDue (millis 5), [(10, [1, 2, 3]), (11, [9])], ?_, by decide⟩
    split at hsent
    · cases hsent
    split at hsent
    · cases hsent
    · split at hsent
      · cases Option.some.inj hsent
        exact mem_of_getElem? (i := 2) rfl
      · cases hsent

/-- A header of the client's session with the given flags. -/
def headerOf (flags : UInt8) (sequence : UInt64) : FrameHeader :=
  ⟨flags, Vector.replicate 16 7, 123, sequence⟩

/-- The repair arrives first and waits; the first data frame completes it and the second packet is
rebuilt, so that the frame that carries it comes too late. -/
def rescue : List Call :=
  let env : Environment := ⟨fun _ => 0, fun _ => true⟩
  [.repair (headerOf 6 12) [1, 0, 0, 0, 0, 0, 0, 0, 10, 2, 1, 0, 2, 8, 2, 3] env,
    .authenticated (headerOf 2 10) [1, 2, 3] env, .authenticated (headerOf 2 11) [9] env]

theorem ingress_delivers_once_rescue :
    delivered (ingressRun (Vector.replicate 16 7) 123 rescue) = [(10, [1, 2, 3]), (11, [9])] ∧
      ((delivered (ingressRun (Vector.replicate 16 7) 123 rescue)).map Prod.fst).Nodup ∧
      ∀ packet ∈ delivered (ingressRun (Vector.replicate 16 7) 123 rescue),
        twoPackets.sent packet.1 = some (.data packet.2) := by
  refine ⟨by decide +kernel, ingress_delivers_once _ _ twoPackets rescue fun call hcall => ?_⟩
  rcases List.mem_cons.1 hcall with rfl | hcall
  · exact fun _ _ => rfl
  · rcases List.mem_cons.1 hcall with rfl | hcall
    · exact fun _ _ => rfl
    · rw [List.mem_singleton.1 hcall]
      exact fun _ _ => rfl

end GamePath.Engine.Session
