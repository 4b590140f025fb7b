import GamePath.Electron.RelayFailover

/-!
# A session moves on agreed evidence, and at most once

Whenever the watch of a session answers `failover`, the trace ends in an unbroken run of
observations with every path down and the uplink up, long enough by itself or with the direct probes
that failed in it. What carries the proof is that an epoch of the watch has at most one such run,
and that the one slot for probes is free when a probe of the run is sent: from then on no probe but
one of the run is under way.
-/

namespace GamePath.Electron

open List

/-! ## Evidence -/

/-- Observations of a session with every path down and the uplink up, the first of them at `since`.
None was missed. -/
structure Unbroken (session since : Nat) (run : List Entry) : Prop where
  starts : ∃ action witness rest, run = .observed session false .up since action witness :: rest
  silent : ∀ connected uplink now action witness,
    .observed session connected uplink now action witness ∈ run →
    connected = false ∧ uplink = .up
  seen : .dropped session ∉ run

/-- Outage probes of a session that were sent and failed, and none was answered among them. -/
structure Failed (session : Nat) (probed : List Entry) (ids : List Nat) : Prop where
  nodup : ids.Nodup
  requested : ∀ id ∈ ids, .requested id session true ∈ probed
  failed : ∀ id ∈ ids, .answered id session true false ∈ probed
  unanswered : ∀ id other, .answered id other true true ∉ probed

/-- What a move rests on: the session was connected once, and the trace ends in an unbroken run that
has lasted long enough, by itself where there is no direct witness, or with enough failed probes
that were sent in it. -/
def Evidence (trace : List Entry) (session now : Nat) (witness : Bool) : Prop :=
  (∃ uplink earlier action w, .observed session true uplink earlier action w ∈ trace) ∧
    ∃ before run probed ids since, trace = before ++ (run ++ probed) ∧
      Unbroken session since (run ++ probed) ∧
      Failed session probed ids ∧
      ((witness = false ∧ outageWithoutWitnessMs ≤ now - since) ∨
        (directFailuresRequired ≤ ids.length ∧ outageWithWitnessMs ≤ now - since))

/-- The trace ends in an outage of a session: the run so far, the probes of it that failed, and the
probe under way, which is one of the run or, before any of the run was sent, an older one. -/
def InOutage (trace : List Entry) (probes : List Probe)
    (session epoch failures since : Nat) : Prop :=
  ∃ before run probed ids, trace = before ++ (run ++ probed) ∧
    Unbroken session since (run ++ probed) ∧
    Failed session probed ids ∧ ids.length = failures ∧
    ∀ p ∈ probes, p.noted = false →
      (p.session = session ∧ p.outage = true ∧ p.epoch = epoch ∧
        .requested p.id session true ∈ probed ∧ p.id ∉ ids) ∨
        (probed = [] ∧ ¬ (p.session = session ∧ p.outage = true ∧ p.epoch = epoch))

variable {trace : List Entry} {probes probes' : List Probe} {session epoch failures since : Nat}
  {e : Entry}

/-- The entry does not break a run of the session. -/
structure Entry.Extends (session : Nat) (e : Entry) : Prop where
  silent : ∀ connected uplink now action witness,
    e = .observed session connected uplink now action witness →
    connected = false ∧ uplink = .up
  seen : e ≠ .dropped session

theorem Unbroken.snoc {run : List Entry} (h : Unbroken session since run) (he : e.Extends session) :
    Unbroken session since (run ++ [e]) := by
  obtain ⟨action, witness, rest, rfl⟩ := h.starts
  refine ⟨⟨action, witness, rest ++ [e], rfl⟩, fun connected uplink now action' witness' hmem => ?_,
    fun hmem => ?_⟩
  · rcases mem_snoc.1 hmem with hmem | hmem
    · exact h.silent _ _ _ _ _ hmem
    · exact he.silent _ _ _ _ _ hmem.symm
  · rcases mem_snoc.1 hmem with hmem | hmem
    · exact h.seen hmem
    · exact he.seen hmem.symm

theorem Failed.snoc {probed : List Entry} {ids : List Nat} (h : Failed session probed ids)
    (he : ∀ id other, e ≠ .answered id other true true) : Failed session (probed ++ [e]) ids := by
  refine ⟨h.nodup, fun id hid => mem_append_left _ (h.requested id hid),
    fun id hid => mem_append_left _ (h.failed id hid), fun id other hmem => ?_⟩
  rcases mem_snoc.1 hmem with hmem | hmem
  · exact h.unanswered id other hmem
  · exact he id other hmem.symm

namespace InOutage

theorem begins {now : Nat} {action : Action} {witness : Bool} (trace : List Entry)
    (hstale : ∀ p ∈ probes, p.noted = false → ¬ (p.session = session ∧ p.outage = true ∧
      p.epoch = epoch)) :
    InOutage (trace ++
      [.observed session false .up now action witness]) probes session epoch 0 now := by
  refine ⟨trace, [.observed session false .up now action witness], [], [], rfl,
    ⟨⟨action, witness, [], rfl⟩, ?_, ?_⟩, ⟨nodup_nil, nofun, nofun,
      nofun⟩, rfl, fun p hp hnoted => .inr ⟨rfl, hstale p hp hnoted⟩⟩
  · intro connected uplink now' action' witness' hmem
    rw [append_nil, mem_singleton] at hmem
    cases hmem
    exact ⟨rfl, rfl⟩
  · intro hmem
    rw [append_nil, mem_singleton] at hmem
    cases hmem

theorem snoc (h : InOutage trace probes session epoch failures since) (he : e.Extends session)
    (hanswer : ∀ id other, e ≠ .answered id other true true) :
    InOutage (trace ++ [e]) probes session epoch failures since := by
  obtain ⟨before, run, probed, ids, rfl, hunbroken, hfailed, hlen, hprobes⟩ := h
  have hnext := hunbroken.snoc he
  by_cases hempty : probed = []
  · -- No probe of the run was sent yet, and none is by this.
    subst hempty
    refine ⟨before, run ++ [e], [], ids, by simp, by simpa using hnext, hfailed, hlen, hprobes⟩
  · refine ⟨before, run, probed ++ [e], ids, by simp, by simpa using hnext,
      hfailed.snoc hanswer, hlen, fun p hp hnoted => ?_⟩
    rcases hprobes p hp hnoted with ⟨hsession, houtage, hepoch, hreq, hid⟩ | ⟨hnone, -⟩
    · exact .inl ⟨hsession, houtage, hepoch, mem_append_left _ hreq, hid⟩
    · exact absurd hnone hempty

theorem mono (h : InOutage trace probes session epoch failures since)
    (hsub : ∀ p ∈ probes', p.noted = false → p ∈ probes) :
    InOutage trace probes' session epoch failures since := by
  obtain ⟨before, run, probed, ids, htrace, hunbroken, hfailed, hlen, hprobes⟩ := h
  exact ⟨before, run, probed, ids, htrace, hunbroken, hfailed, hlen, fun p hp hnoted => hprobes p
    (hsub p hp hnoted) hnoted⟩

theorem request (h : InOutage trace [] session epoch failures since) (id : Nat)
    (hfresh : ∀ id' other outage, .requested id' other outage ∈ trace → id' < id) :
    InOutage (trace ++ [.requested id session true])
      [⟨id, session, true, epoch, false⟩] session epoch failures since := by
  obtain ⟨before, run, probed, ids, rfl, hunbroken, hfailed, hlen, -⟩ := h
  have he : (Entry.requested id session true).Extends session := ⟨by simp, by simp⟩
  have hnext := hunbroken.snoc he
  refine ⟨before, run, probed ++ [.requested id session true], ids, by simp, by simpa using hnext,
    hfailed.snoc (by simp), hlen, fun p hp _ => .inl ?_⟩
  rw [mem_singleton.1 hp]
  refine ⟨rfl, rfl, rfl, mem_append_right _ mem_cons_self, fun hid => ?_⟩
  have hold := hfresh id session true
    (mem_append_right _ (mem_append_right _ (hfailed.requested id hid)))
  omega

theorem older {p : Probe} (h : InOutage trace [p] session epoch failures since)
    (hnoted : p.noted = false)
    (hold : ¬ (p.session = session ∧ p.outage = true ∧ p.epoch = epoch)) (reachable : Bool) :
    InOutage (trace ++ [.answered p.id p.session p.outage reachable])
      [{ p with noted := true }] session epoch failures
      since := by
  obtain ⟨before, run, probed, ids, rfl, hunbroken, hfailed, hlen, hprobes⟩ := h
  rcases hprobes p mem_cons_self hnoted with ⟨hsession, houtage, hepoch, -⟩ | ⟨rfl, -⟩
  · exact absurd ⟨hsession, houtage, hepoch⟩ hold
  have he : (Entry.answered p.id p.session p.outage reachable).Extends session := ⟨by simp, by simp⟩
  have hnext := hunbroken.snoc he
  refine ⟨before, run ++ [.answered p.id p.session p.outage reachable], [],
    ids, by simp, by simpa using hnext, hfailed, hlen, fun q hq hq' => ?_⟩
  rw [mem_singleton.1 hq] at hq'
  cases hq'

theorem fail {p : Probe} (h : InOutage trace [p] session epoch failures since)
    (hnoted : p.noted = false) (hrun : p.session = session ∧ p.outage = true ∧ p.epoch = epoch) :
    InOutage (trace ++ [.answered p.id p.session p.outage false])
      [{ p with noted := true }] session epoch (failures + 1)
      since := by
  obtain ⟨before, run, probed, ids, rfl, hunbroken, hfailed, hlen, hprobes⟩ := h
  rcases hprobes p mem_cons_self hnoted with ⟨hsession, houtage, -, hreq, hid⟩ | ⟨-, hold⟩
  · have he : (Entry.answered p.id p.session p.outage false).Extends session := ⟨by simp, by simp⟩
    have hnext := hunbroken.snoc he
    refine ⟨before, run, probed ++ [.answered p.id p.session p.outage false],
      p.id :: ids, by simp, by simpa using hnext,
      ⟨nodup_cons.2 ⟨hid, hfailed.nodup⟩, fun id hmem => ?_, fun id hmem => ?_,
        fun id other hmem => ?_⟩,
      by simp [hlen], fun q hq hq' => ?_⟩
    · rcases mem_cons.1 hmem with rfl | hmem
      · exact mem_append_left _ hreq
      · exact mem_append_left _ (hfailed.requested id hmem)
    · rcases mem_cons.1 hmem with rfl | hmem
      · rw [hsession, houtage]
        exact mem_append_right _ mem_cons_self
      · exact mem_append_left _ (hfailed.failed id hmem)
    · rcases mem_snoc.1 hmem with hmem | hmem
      · exact hfailed.unanswered id other hmem
      · exact absurd hmem (by simp)
    · rw [mem_singleton.1 hq] at hq'
      cases hq'
  · exact absurd hrun hold

theorem evidence (h : InOutage trace probes session epoch failures since) {now : Nat}
    {witness : Bool}
    (hconnected : ∃ uplink earlier action w, .observed session true uplink earlier action w ∈ trace)
    (hlong : (witness = false ∧ outageWithoutWitnessMs ≤ now - since) ∨
      (directFailuresRequired ≤ failures ∧ outageWithWitnessMs ≤ now - since)) :
        Evidence trace session now witness := by
  obtain ⟨before, run, probed, ids, htrace, hunbroken, hfailed, hlen, -⟩ := h
  refine ⟨hconnected, before, run, probed, ids, since, htrace, hunbroken, hfailed, ?_⟩
  rw [hlen]
  exact hlong

end InOutage

end GamePath.Electron
