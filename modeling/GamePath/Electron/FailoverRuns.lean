import GamePath.Electron.FailoverEvidence

/-!
# Every run of the failover controller

The invariant of the controller and its proof, one event after the other. Only the watch of the
current session is ever asked again, so what it saw is all that has to be followed; a chain that
answers for an earlier session changes a watch that nobody looks at.
-/

namespace GamePath.Electron

open List Option

/-! ## The trace -/

/-- Every answer `failover` rests on evidence, and no move is called for a session after one that
was not to be tried again. -/
structure Traced (history : List Entry) : Prop where
  evidence : ∀ (i session : Nat) (connected : Bool) (uplink : Uplink) (now : Nat) (witness : Bool),
    history[i]? = some (.observed session connected uplink now .failover witness) →
      connected = false ∧ uplink = .up ∧ Evidence (history.take (i + 1)) session now witness
  once : ∀ (i j session : Nat) (outcome : Outcome) (silentMs : Nat) (witness : Bool),
    history[i]? = some (.resolved session outcome) → outcome ≠ .standbyDown →
      history[j]? = some (.called session silentMs witness) → j < i

theorem Traced.nil : Traced [] :=
  ⟨nofun, nofun⟩

theorem Traced.snoc {history : List Entry} {e : Entry} (h : Traced history)
    (hevidence : ∀ session connected uplink now witness,
      e = .observed session connected uplink now .failover witness →
      connected = false ∧ uplink = .up ∧ Evidence (history ++ [e]) session now witness)
    (honce : ∀ session silentMs witness, e = .called session silentMs witness →
      ∀ outcome, .resolved session outcome ∈ history → outcome = .standbyDown) :
        Traced (history ++ [e]) := by
  have hat : ∀ {i : Nat} {a : Entry}, (history ++ [e])[i]? = some a →
      (i < history.length ∧ history[i]? = some a) ∨ (i = history.length ∧ e = a) := by
    intro i a ha
    rcases Nat.lt_or_ge i history.length with hlt | hge
    · rw [getElem?_append_left hlt] at ha
      exact .inl ⟨hlt, ha⟩
    · have hi := (List.getElem?_eq_some_iff.1 ha).1
      rw [length_append, length_singleton] at hi
      obtain rfl : i = history.length := by omega
      rw [getElem?_append_right (Nat.le_refl _), Nat.sub_self] at ha
      exact .inr ⟨rfl, some.inj ha⟩
  refine ⟨fun i session connected uplink now witness hi => ?_,
    fun i j session outcome silentMs witness hi houtcome hj => ?_⟩
  · rcases hat hi with ⟨hlt, hold⟩ | ⟨rfl, he⟩
    · rw [take_append_of_le_length (by omega)]
      exact h.evidence i _ _ _ _ _ hold
    · rw [take_of_length_le (by simp)]
      exact hevidence _ _ _ _ _ he
  rcases hat hi with ⟨hlt, hold⟩ | ⟨rfl, -⟩ <;> rcases hat hj with ⟨hlt', hold'⟩ | ⟨rfl, he'⟩
  · exact h.once i j session outcome silentMs witness hold houtcome hold'
  · exact absurd (honce session silentMs witness he' outcome (mem_of_getElem? hold)) houtcome
  · exact hlt'
  · rw [he'] at hi
    rw [getElem?_append_right (Nat.le_refl _), Nat.sub_self] at hi
    cases some.inj hi

theorem Traced.snoc_other {history : List Entry} {e : Entry} (h : Traced history)
    (hobserved : ∀ session connected uplink now witness,
      e ≠ .observed session connected uplink now .failover witness)
    (hcalled : ∀ session silentMs witness, e ≠ .called session silentMs witness) :
    Traced (history ++ [e]) :=
  h.snoc (fun _ _ _ _ _ he => absurd he (hobserved _ _ _ _ _))
    (fun _ _ _ he => absurd he (hcalled _ _ _))

/-! ## The invariant -/

namespace Controller

/-- What the watch of the current session has seen. -/
structure Follows (s : Controller) (session : Nat) (w : Watch) : Prop where
  carried : w.carried = true → ∃ uplink earlier action witness,
    .observed session true uplink earlier action witness ∈ s.trace
  outage : w.outageSince ≠ none → w.carried = true
  past : ∀ since, w.outageSince = some since → since ≤ s.clock ∧ ∀ until', w.aliveUntil =
    some until' → until' ≤ since
  idle : w.outageSince = none → w.directFailures = 0 ∧ ∀ p ∈ s.probes, p.noted = false →
    ¬ (p.session = session ∧ p.outage = true ∧ p.epoch = w.epoch)
  epochs : ∀ p ∈ s.probes, p.session = session → p.epoch ≤ w.epoch
  run : s.moving = false → w.done = false → ∀ since, w.outageSince = some since →
    InOutage s.trace s.probes session w.epoch w.directFailures since

/-- There is at most one probe and one move under way, and their flags say so. -/
structure Slots (s : Controller) : Prop where
  probes : (s.probing = false ∧ s.probes = []) ∨ ∃ p, s.probing = true ∧ s.probes = [p]
  moves : (s.moving = false ∧ s.moves = []) ∨ ∃ m, s.moving = true ∧ s.moves = [m]
  newest : ∀ session, s.current = some session → session + 1 = s.watches.length
  probeSessions : ∀ p ∈ s.probes, p.session < s.watches.length
  moveSessions : ∀ m ∈ s.moves, m.session < s.watches.length
  sent : ∀ id session outage, .requested id session outage ∈ s.trace → id < s.probesSent

/-- The invariant. -/
structure Good (s : Controller) : Prop where
  slots : s.Slots
  traced : Traced s.trace
  follows : ∀ session w, s.current = some session → s.watches[session]? = some w →
    s.Follows session w
  /-- While a move is under way the current session has no run, unless it is the one that moves. -/
  busy : ∀ m ∈ s.moves, ∀ session w, s.current = some session → s.watches[session]? = some w →
    (m.session = session ∧ (m.stage = .resolved → w.done = true ∨ w.outageSince = none)) ∨
      (m.session ≠ session ∧ w.outageSince = none)
  /-- A session whose move is not to be tried again is over for its watch. -/
  settled : ∀ session outcome, .resolved session outcome ∈ s.trace → outcome ≠ .standbyDown →
    (∃ w, s.watches[session]? = some w ∧ w.done = true) ∧ ∀ m ∈ s.moves, m.session = session →
      m.stage = .resolved

theorem new_good (clock : Nat) : (new clock).Good := by
  refine ⟨⟨.inl ⟨rfl, rfl⟩, .inl ⟨rfl, rfl⟩, ?_, ?_, ?_, ?_⟩, Traced.nil, ?_, ?_,
    ?_⟩ <;> exact nofun

variable {s : Controller}

/-! ## Sessions begin and end -/

theorem begin_good (h : s.Good) (watching : Bool) : (s.begin' watching).Good := by
  have hslots := h.slots
  have hwatch : ∀ session w, (s.begin' watching).current = some session →
      (s.begin' watching).watches[session]? = some w →
        session = s.watches.length ∧ w = if watching then Watch.new else Watch.new.finish := by
    intro session w hcurrent hw
    cases hcurrent
    refine ⟨rfl, ?_⟩
    rw [begin'] at hw
    rw [getElem?_append_right (Nat.le_refl _), Nat.sub_self] at hw
    exact (some.inj hw).symm
  have hfresh : ∀ w, (w = if watching then Watch.new else Watch.new.finish) →
      w.carried = false ∧ w.outageSince = none ∧ w.directFailures = 0 := by
    rintro w rfl
    cases watching <;> exact ⟨rfl, rfl, rfl⟩
  refine ⟨⟨hslots.probes, hslots.moves, ?_, ?_, ?_, hslots.sent⟩, h.traced, ?_, ?_, ?_⟩
  · intro session hcurrent
    cases hcurrent
    simp [begin']
  · intro p hp
    have := hslots.probeSessions p hp
    simp only [begin', length_append, length_singleton]
    omega
  · intro m hm
    have := hslots.moveSessions m hm
    simp only [begin', length_append, length_singleton]
    omega
  · intro session w hcurrent hw
    obtain ⟨rfl, hnew⟩ := hwatch session w hcurrent hw
    obtain ⟨hcarried, hnone, hzero⟩ := hfresh w hnew
    have hother : ∀ p ∈ s.probes, p.session ≠ s.watches.length :=
      fun p hp => Nat.ne_of_lt (hslots.probeSessions p hp)
    refine ⟨fun hc => absurd (hcarried.symm.trans hc) (by simp), fun hsome => absurd hnone hsome,
      fun since hsome => absurd (hnone.symm.trans hsome) (by simp),
        fun _ => ⟨hzero, fun p hp _ hsame => ?_⟩,
      fun p hp hsame => absurd hsame (hother p hp), fun _ _ since hsome =>
        absurd (hnone.symm.trans hsome) (by simp)⟩
    exact hother p hp hsame.1
  · intro m hm session w hcurrent hw
    obtain ⟨rfl, hnew⟩ := hwatch session w hcurrent hw
    exact .inr ⟨Nat.ne_of_lt (hslots.moveSessions m hm), (hfresh w hnew).2.1⟩
  · intro session outcome hmem houtcome
    obtain ⟨⟨w, hw, hdone⟩, hmoves⟩ := h.settled session outcome hmem houtcome
    refine ⟨⟨w, ?_, hdone⟩, hmoves⟩
    rw [begin']
    rw [List.getElem?_append_left (List.getElem?_eq_some_iff.1 hw).1]
    exact hw

theorem modifyWatch_get? (s : Controller) (changed : Nat) (f : Watch → Watch) (session : Nat) :
    (s.modifyWatch changed f).watches[session]? =
      if changed = session then s.watches[session]?.map f else s.watches[session]? := by
  rw [modifyWatch]
  rw [getElem?_modify]
  split
  · rfl
  · cases s.watches[session]? <;> rfl

theorem modifyWatch_some {changed session : Nat} {f : Watch → Watch} {w' : Watch}
    (h : (s.modifyWatch changed f).watches[session]? = some w') :
    (changed = session ∧ ∃ w, s.watches[session]? = some w ∧ f w = w') ∨
      (changed ≠ session ∧ s.watches[session]? = some w') := by
  rw [modifyWatch_get?] at h
  split at h
  · next hsame => exact .inl ⟨hsame, by simpa using h⟩
  · next hne => exact .inr ⟨hne, h⟩

theorem Good.settled_modifyWatch (h : s.Good) (changed : Nat) {f : Watch → Watch}
    (hdone : ∀ w, s.watches[changed]? = some w → w.done = true → (f w).done = true) :
    ∀ session outcome, .resolved session outcome ∈ s.trace → outcome ≠ .standbyDown →
      ∃ w, (s.modifyWatch changed f).watches[session]? = some w ∧ w.done = true := by
  intro session outcome hmem houtcome
  obtain ⟨⟨w, hw, hd⟩, -⟩ := h.settled session outcome hmem houtcome
  rw [modifyWatch_get?]
  split
  next hsame =>
    subst hsame
    exact ⟨f w, by rw [hw]; rfl, hdone w hw hd⟩
  · exact ⟨w, hw, hd⟩

theorem end_good (h : s.Good) : s.end'.Good := by
  rw [end']
  cases hcurrent : s.current with
  | none => exact h
  | some session =>
    have hslots := h.slots
    have hlen : (s.modifyWatch session Watch.finish).watches.length = s.watches.length :=
      length_modify _ _ _
    refine ⟨⟨hslots.probes, hslots.moves, nofun, ?_, ?_, hslots.sent⟩, h.traced,
      nofun, nofun, ?_⟩
    · intro p hp
      exact hlen ▸ hslots.probeSessions p hp
    · intro m hm
      exact hlen ▸ hslots.moveSessions m hm
    · intro k outcome hmem houtcome
      refine ⟨h.settled_modifyWatch session (fun w _ _ => rfl) k outcome hmem houtcome, ?_⟩
      exact (h.settled k outcome hmem houtcome).2

/-! ## Observations -/

theorem Good.later (h : s.Good) (elapsed : Nat) : Good { s with clock := s.clock + elapsed } := by
  refine ⟨⟨h.slots.probes, h.slots.moves, h.slots.newest, h.slots.probeSessions,
    h.slots.moveSessions, h.slots.sent⟩,
    h.traced, fun session w hcurrent hw => ?_, h.busy, h.settled⟩
  have hfollows := h.follows session w hcurrent hw
  refine ⟨hfollows.carried, hfollows.outage, fun since hsome => ?_, hfollows.idle, hfollows.epochs,
    hfollows.run⟩
  obtain ⟨hle, halive⟩ := hfollows.past since hsome
  exact ⟨Nat.le_trans hle (Nat.le_add_right _ _), halive⟩

variable {session : Nat}

/-- A watch that leaves its outage, or had none, follows whatever the trace says next. -/
theorem Follows.ended {s s' : Controller} {w w' : Watch} (h : s.Follows session w)
    (hprobes : s'.probes = s.probes) (hnone : w'.outageSince = none)
    (hepoch : (w.outageSince = none ∧ w'.epoch = w.epoch ∧ w'.directFailures = w.directFailures) ∨
      (w'.epoch = w.epoch + 1 ∧ w'.directFailures = 0))
    (hcarried : w'.carried = true → ∃ uplink earlier action witness,
      .observed session true uplink earlier action witness ∈ s'.trace) : s'.Follows session w' := by
  refine ⟨hcarried, fun hsome => absurd hnone hsome, fun since hsome =>
    absurd (hnone.symm.trans hsome) (by simp),
    fun _ => ?_, fun p hp hsame => ?_, fun _ _ since hsome => absurd (hnone.symm.trans hsome)
      (by simp)⟩
  · rcases hepoch with ⟨hidle, hsame, hzero⟩ | ⟨hnext, hzero⟩
    · obtain ⟨hfailures, hstale⟩ := h.idle hidle
      refine ⟨hzero.trans hfailures, fun p hp hnoted => ?_⟩
      rw [hsame]
      exact hstale p (hprobes ▸ hp) hnoted
    · refine ⟨hzero, fun p hp _ hsame => ?_⟩
      -- Whatever is under way was sent in an earlier epoch.
      have hle := h.epochs p (hprobes ▸ hp) hsame.1
      omega
  · have hle := h.epochs p (hprobes ▸ hp) hsame
    rcases hepoch with ⟨-, hsame, -⟩ | ⟨hnext, -⟩ <;> omega

/-- An observation of the current session is noted, and its watch is what it left. -/
theorem Good.observed (h : s.Good) {w w' : Watch} {e : Entry} (hcurrent : s.current = some session)
    (hw : s.watches[session]? = some w) (hdone : w.done = false) (hidle : s.moving = false)
    (he : ∀ id other outage, e ≠ .requested id other outage)
    (he' : ∀ other outcome, e ≠ .resolved other outcome) (htraced : Traced (s.trace ++ [e]))
    (hfollows : ((s.modifyWatch session fun _ => w').note e).Follows session w') :
    ((s.modifyWatch session fun _ => w').note e).Good := by
  have hslots := h.slots
  have hlen : (s.modifyWatch session fun _ => w').watches.length = s.watches.length :=
    length_modify _ _ _
  have hmoves : s.moves = [] := by
    rcases hslots.moves with ⟨-, hnone⟩ | ⟨m, hmoving, -⟩
    · exact hnone
    · cases hidle.symm.trans hmoving
  refine ⟨⟨hslots.probes, hslots.moves, fun k hk => hlen ▸ hslots.newest k hk,
    fun p hp => hlen ▸ hslots.probeSessions p hp,
    fun m hm => hlen ▸ hslots.moveSessions m hm, fun id k outage hmem => ?_⟩, htraced,
      fun k w'' hk hw'' => ?_,
    fun m hm => ?_, fun k outcome hmem houtcome => ?_⟩
  · rcases mem_snoc.1 hmem with hmem | hmem
    · exact hslots.sent id k outage hmem
    · exact absurd hmem.symm (he id k outage)
  · obtain rfl : session = k := some.inj (hcurrent.symm.trans hk)
    have hget := s.modifyWatch_get? session (fun _ => w') session
    rw [if_pos rfl, hw] at hget
    obtain rfl : w' = w'' := some.inj (hget.symm.trans hw'')
    exact hfollows
  · exact absurd (hmoves ▸ hm : m ∈ []) not_mem_nil
  · rcases mem_snoc.1 hmem with hmem | hmem
    · refine ⟨h.settled_modifyWatch session (fun w'' hw'' hdone' => ?_) k outcome hmem houtcome,
        (h.settled k outcome hmem houtcome).2⟩
      cases hw.symm.trans hw''
      cases hdone.symm.trans hdone'
    · exact absurd hmem.symm (he' k outcome)

variable {w : Watch}

theorem Good.dropped (h : s.Good) (hcurrent : s.current = some session)
    (hw : s.watches[session]? = some w) (hbusy : w.done = true ∨ s.moving = true) :
    (s.note (.dropped session)).Good := by
  have hslots := h.slots
  refine ⟨⟨hslots.probes, hslots.moves, hslots.newest, hslots.probeSessions, hslots.moveSessions,
    fun id k outage hmem => ?_⟩, h.traced.snoc_other (by simp) (by simp), fun k w' hk hw' => ?_,
      h.busy,
    fun k outcome hmem houtcome => ?_⟩
  · rcases mem_snoc.1 hmem with hmem | hmem
    · exact hslots.sent id k outage hmem
    · cases hmem
  · obtain rfl : session = k := some.inj (hcurrent.symm.trans hk)
    cases hw.symm.trans hw'
    have hfollows := h.follows session w hcurrent hw
    refine ⟨fun hcarried => ?_, hfollows.outage, hfollows.past, hfollows.idle, hfollows.epochs,
      fun hmoving hdone => ?_⟩
    · obtain ⟨uplink, earlier, action, witness, hmem⟩ := hfollows.carried hcarried
      exact ⟨uplink, earlier, action, witness, mem_append_left _ hmem⟩
    · -- Nothing is asked of a watch that is done, or while a move is under way.
      rcases hbusy with hd | hm
      · cases hdone.symm.trans hd
      · cases hmoving.symm.trans hm
  · refine h.settled k outcome ?_ houtcome
    rcases mem_snoc.1 hmem with hmem | hmem
    · exact hmem
    · cases hmem

/-- A probe the watch asked for is sent, or misses its turn. -/
theorem probe_good (h : s.Good) {outage : Bool} (hcurrent : s.current = some session)
    (hw : s.watches[session]? = some w) (hrun : outage = true ↔ w.outageSince ≠ none) :
    (s.probe session outage w.epoch).Good := by
  have hslots := h.slots
  have hfollows := h.follows session w hcurrent hw
  rw [probe]
  split
  · split
    · -- Only the time of the last probe is forgotten.
      have hlen : (s.modifyWatch session fun w =>
          { w with lastDirectProbeAt := none }).watches.length =
        s.watches.length := length_modify _ _ _
      have hget := s.modifyWatch_get? session
        (fun w => { w with lastDirectProbeAt := none }) session
      rw [if_pos rfl, hw] at hget
      refine ⟨⟨hslots.probes, hslots.moves, fun k hk => hlen ▸ hslots.newest k hk,
        fun p hp => hlen ▸ hslots.probeSessions p hp, fun m hm => hlen ▸ hslots.moveSessions m hm,
          hslots.sent⟩,
        h.traced, fun k w' hk hw' => ?_, fun m hm k w' hk hw' => ?_,
          fun k outcome hmem houtcome => ?_⟩
      · obtain rfl : session = k := some.inj (hcurrent.symm.trans hk)
        cases hget.symm.trans hw'
        exact ⟨hfollows.carried, hfollows.outage, hfollows.past, hfollows.idle, hfollows.epochs,
          hfollows.run⟩
      · obtain rfl : session = k := some.inj (hcurrent.symm.trans hk)
        cases hget.symm.trans hw'
        exact h.busy m hm session w hcurrent hw
      · refine ⟨h.settled_modifyWatch session ?_ k outcome hmem houtcome,
          (h.settled k outcome hmem houtcome).2⟩
        exact fun w _ hdone => hdone
    · exact h
  next hprobing =>
    have hfree : s.probes = [] := by
      rcases hslots.probes with ⟨-, hnone⟩ | ⟨p, htrue, -⟩
      · exact hnone
      · exact absurd htrue hprobing
    have hlt : session < s.watches.length := (List.getElem?_eq_some_iff.1 hw).1
    have hone : ∀ p ∈ s.probes ++ [(⟨s.probesSent, session, outage, w.epoch, false⟩ : Probe)],
        p = ⟨s.probesSent, session, outage, w.epoch, false⟩ := by
      intro p hp
      rw [hfree] at hp
      exact mem_singleton.1 hp
    refine ⟨⟨.inr ⟨⟨s.probesSent, session, outage, w.epoch, false⟩, rfl, by simp [note, hfree]⟩,
      hslots.moves,
      hslots.newest, fun p hp => by rw [hone p hp]; exact hlt, hslots.moveSessions,
        fun id k outage' hmem => ?_⟩,
      h.traced.snoc_other (by simp) (by simp), fun k w' hk hw' => ?_, h.busy,
        fun k outcome hmem houtcome => ?_⟩
    · rcases mem_snoc.1 hmem with hmem | hmem
      · exact Nat.lt_succ_of_lt (hslots.sent id k outage' hmem)
      · have hid := hmem
        simp only [Entry.requested.injEq] at hid
        exact hid.1 ▸ Nat.lt_succ_self _
    · obtain rfl : session = k := some.inj (hcurrent.symm.trans hk)
      obtain rfl : w = w' := some.inj (hw.symm.trans hw')
      refine ⟨fun hcarried => ?_, hfollows.outage, hfollows.past,
        fun hnone => ⟨(hfollows.idle hnone).1, ?_⟩, ?_, ?_⟩
      · obtain ⟨uplink, earlier, action, witness, hmem⟩ := hfollows.carried hcarried
        exact ⟨uplink, earlier, action, witness, mem_append_left _ hmem⟩
      · intro p hp _ hsame
        rw [hone p hp] at hsame
        exact hrun.1 hsame.2.1 hnone
      · intro p hp _
        rw [hone p hp]
      · intro hmoving hdone since hsome
        have houtage : outage = true := hrun.2 (by simp [hsome])
        have hin := hfollows.run hmoving hdone since hsome
        rw [hfree] at hin
        have hnext := hin.request s.probesSent hslots.sent
        subst houtage
        simpa [note, hfree] using hnext
    · refine h.settled k outcome ?_ houtcome
      rcases mem_snoc.1 hmem with hmem | hmem
      · exact hmem
      · cases hmem

theorem move_good (h : s.Good) (hcurrent : s.current = some session)
    (hw : s.watches[session]? = some w) (hdone : w.done = false) (hidle : s.moving = false)
    (silentMs : Nat) :
    (s.move session silentMs).Good := by
  have hslots := h.slots
  have hmoves : s.moves = [] := by
    rcases hslots.moves with ⟨-, hnone⟩ | ⟨m, hmoving, -⟩
    · exact hnone
    · cases hidle.symm.trans hmoving
  have hone : ∀ m ∈ (s.move session silentMs).moves, m = ⟨session, silentMs, .scheduled⟩ := by
    intro m hm
    rw [move, hmoves] at hm
    exact mem_singleton.1 hm
  refine ⟨⟨hslots.probes, .inr ⟨⟨session, silentMs, .scheduled⟩, rfl, by simp [move, hmoves]⟩,
    hslots.newest,
    hslots.probeSessions, fun m hm => ?_, hslots.sent⟩, h.traced, fun k w' hk hw' => ?_,
      fun m hm k w' hk hw' => ?_,
    fun k outcome hmem houtcome => ?_⟩
  · rw [hone m hm]
    exact (List.getElem?_eq_some_iff.1 hw).1
  · have hfollows := h.follows k w' hk hw'
    exact ⟨hfollows.carried, hfollows.outage, hfollows.past, hfollows.idle, hfollows.epochs,
      nofun⟩
  · obtain rfl : session = k := some.inj (hcurrent.symm.trans hk)
    rw [hone m hm]
    exact .inl ⟨rfl, nofun⟩
  · obtain ⟨⟨w', hw', hdone'⟩, -⟩ := h.settled k outcome hmem houtcome
    refine ⟨⟨w', hw', hdone'⟩, fun m hm hsame => ?_⟩
    rw [hone m hm] at hsame
    -- The session that moves is not over for its watch.
    obtain rfl : session = k := hsame
    cases hw.symm.trans hw'
    cases hdone.symm.trans hdone'

section Observed

variable {session : Nat} {w w' : Watch}

theorem noted_get? (hw : s.watches[session]? = some w) (w' : Watch) (e : Entry) :
    ((s.modifyWatch session fun _ => w').note e).watches[session]? = some w' := by
  refine (s.modifyWatch_get? session _ session).trans ?_
  rw [if_pos rfl, hw]
  rfl

section

variable (h : s.Good) (hcurrent : s.current = some session) (hw : s.watches[session]? = some w)
  (hdone : w.done = false) (hidle : s.moving = false)
include h hcurrent hw hdone hidle

/-- An observation that leaves the watch without an outage. -/
theorem Good.observed_ended (connected : Bool) (uplink : Uplink) {action : Action}
    (haction : action ≠ .failover) (hnone : w'.outageSince = none)
    (hepoch : (w.outageSince = none ∧ w'.epoch = w.epoch ∧ w'.directFailures = w.directFailures) ∨
      (w'.epoch = w.epoch + 1 ∧ w'.directFailures = 0))
    (hcarried : w'.carried = true → connected = true ∨ w.carried = true) :
    ((s.modifyWatch session fun _ => w').note
      (.observed session connected uplink s.clock action w.directWitness)).Good := by
  have hfollows := h.follows session w hcurrent hw
  refine h.observed hcurrent hw hdone hidle (by simp) (by simp)
    (h.traced.snoc_other ?_ (by simp)) ?_
  · intro session' connected' uplink' now' witness' heq
    simp only [Entry.observed.injEq] at heq
    exact haction heq.2.2.2.2.1
  · refine hfollows.ended rfl hnone hepoch fun hc => ?_
    rcases hcarried hc with rfl | hold
    · exact ⟨uplink, s.clock, action, w.directWitness, mem_append_right _ mem_cons_self⟩
    · obtain ⟨uplink', earlier, action', witness, hmem⟩ := hfollows.carried hold
      exact ⟨uplink', earlier, action', witness, mem_append_left _ hmem⟩

omit h hcurrent hw hdone hidle in
theorem Follows.outage_goes_on (h : s.Follows session w) (hdone : w.done = false)
    (hidle : s.moving = false) (action : Action) :
    InOutage (s.trace ++
      [.observed session false .up s.clock action w.directWitness]) s.probes session w.epoch
      w.directFailures (w.outageSince.getD s.clock) := by
  cases hsince : w.outageSince with
  | none =>
    obtain ⟨hzero, hstale⟩ := h.idle hsince
    rw [hzero]
    exact InOutage.begins s.trace hstale
  | some since =>
    refine (h.run hidle hdone since hsince).snoc ⟨?_, by simp⟩ (by simp)
    intro connected uplink now action' witness heq
    simp only [Entry.observed.injEq] at heq
    exact ⟨heq.2.1.symm, heq.2.2.1.symm⟩

/-- An observation with every path down and the uplink up, whatever it is answered with. -/
theorem Good.observed_outage (hcarried : w.carried = true)
    (halive : ∀ until', w.aliveUntil = some until' → until' ≤ s.clock) (action : Action)
    (last : Option Nat)
    (hlong : action = .failover → (w.directWitness = false ∧ outageWithoutWitnessMs ≤
      s.clock - w.outageSince.getD s.clock) ∨
      (directFailuresRequired ≤ w.directFailures ∧ outageWithWitnessMs ≤
        s.clock - w.outageSince.getD s.clock)) :
    ((s.modifyWatch session fun _ =>
      { w with outageSince := some (w.outageSince.getD s.clock), lastDirectProbeAt := last }).note
        (.observed session false .up s.clock action w.directWitness)).Good := by
  have hfollows := h.follows session w hcurrent hw
  have hin := hfollows.outage_goes_on hdone hidle action
  obtain ⟨uplink, earlier, action', witness, hmem⟩ := hfollows.carried hcarried
  have hconnected : ∃ uplink earlier action' witness,
      .observed session true uplink earlier action' witness ∈
      s.trace ++ [.observed session false .up s.clock action w.directWitness] :=
    ⟨uplink, earlier, action', witness, mem_append_left _ hmem⟩
  refine h.observed hcurrent hw hdone hidle (by simp) (by simp) (h.traced.snoc ?_ (by simp)) ?_
  · intro session' connected' uplink' now' witness' heq
    simp only [Entry.observed.injEq] at heq
    obtain ⟨rfl, rfl, rfl, rfl, haction, rfl⟩ := heq
    exact ⟨rfl, rfl, hin.evidence hconnected (hlong haction)⟩
  refine ⟨fun _ => hconnected, fun _ => hcarried, fun since hsome => ?_, nofun,
    hfollows.epochs, fun _ _ since hsome => ?_⟩
  · cases hsome
    cases hsince : w.outageSince with
    | none => exact ⟨Nat.le_refl _, halive⟩
    | some since => exact hfollows.past since hsince
  · cases hsome
    exact hin

theorem watchObserves_good (connected : Bool) (uplink : Uplink) :
    (s.watchObserves session w connected uplink).Good := by
  have hfollows := h.follows session w hcurrent hw
  have hended : ∀ v : Watch, v.outageSince = w.outageSince → v.epoch = w.epoch → v.directFailures =
      w.directFailures →
      v.endOutage.outageSince = none ∧
        ((w.outageSince = none ∧ v.endOutage.epoch = w.epoch ∧ v.endOutage.directFailures =
          w.directFailures) ∨
          (v.endOutage.epoch = w.epoch + 1 ∧ v.endOutage.directFailures = 0)) := by
    intro v hsince hepoch hfailures
    rcases v.endOutage_cases with ⟨hnone, heq⟩ | ⟨-, heq⟩
    · rw [heq]
      exact ⟨hnone, .inl ⟨hsince ▸ hnone, hepoch, hfailures⟩⟩
    · rw [heq]
      exact ⟨rfl, .inr ⟨congrArg (· + 1) hepoch, rfl⟩⟩
  rw [watchObserves]
  rcases Watch.observe_cases hdone connected uplink s.clock with
    ⟨rfl, action, last, haction, heq⟩ | ⟨rfl, hquiet, heq⟩ | ⟨rfl, heq⟩ | ⟨rfl, rfl, hcarried,
      halive, heq⟩
  · obtain ⟨hnone, hepoch⟩ := hended { w with carried := true } rfl rfl rfl
    have hplain : action ≠ .failover := by rcases haction with rfl | rfl <;> simp
    have hgood : ((s.modifyWatch session fun _ =>
        { Watch.endOutage { w with carried := true } with lastBaselineAt := last }).note
          (.observed session true uplink s.clock action w.directWitness)).Good :=
      h.observed_ended hcurrent hw hdone hidle true uplink hplain hnone hepoch fun _ => .inl rfl
    rw [heq]
    rcases haction with rfl | rfl
    · exact hgood
    · exact probe_good hgood hcurrent (noted_get? hw _ _) ⟨nofun, fun h => absurd hnone h⟩
  · have hnone : w.outageSince = none := by
      by_contra hsome
      obtain ⟨since, hsince⟩ := ne_none_iff_exists'.1 hsome
      rcases hquiet with hcarried | ⟨until', huntil, hlt⟩
      · cases (hfollows.outage hsome).symm.trans hcarried
      · obtain ⟨hle, halive⟩ := hfollows.past since hsince
        have hend := halive until' huntil
        omega
    rw [heq]
    exact h.observed_ended hcurrent hw hdone hidle false uplink (by simp) hnone
      (.inl ⟨hnone, rfl, rfl⟩) .inr
  · obtain ⟨hnone, hepoch⟩ := hended w rfl rfl rfl
    rw [heq]
    refine h.observed_ended hcurrent hw hdone hidle false uplink
      (by simp) hnone hepoch fun hcarried => .inr ?_
    rcases w.endOutage_cases with ⟨-, hsame⟩ | ⟨-, hsame⟩ <;> rwa [hsame] at hcarried
  · have hgood := h.observed_outage hcurrent hw hdone hidle hcarried halive
    rw [heq]
    rcases w.observeOutage_cases s.clock with ⟨last, hanswer⟩ | hanswer | ⟨hanswer, hlong⟩
    · rw [hanswer]
      exact probe_good (hgood .probeOutage last (by simp)) hcurrent (noted_get? hw _ _)
        ⟨fun _ => by simp, fun _ => rfl⟩
    · rw [hanswer]
      exact hgood .none w.lastDirectProbeAt (by simp)
    · rw [hanswer]
      exact move_good (hgood .failover w.lastDirectProbeAt fun _ => hlong) hcurrent
        (noted_get? hw _ _) hdone hidle _

end

end Observed

theorem observe_good (h : s.Good) (elapsed : Nat) (connected : Bool) (uplink : Uplink) :
    (s.observe elapsed connected uplink).Good := by
  rw [observe]
  cases hcurrent : s.current with
  | none => exact h
  | some session =>
    dsimp only
    cases hw : s.watches[session]? with
    | none => exact h
    | some w =>
      dsimp only
      split
      · next hbusy => exact h.dropped hcurrent hw (by simpa using hbusy)
      next hbusy =>
        rw [Bool.or_eq_true, not_or, Bool.not_eq_true, Bool.not_eq_true] at hbusy
        simpa only [hcurrent] using
          watchObserves_good (h.later elapsed) hcurrent hw hbusy.1 hbusy.2 connected uplink

/-! ## Probes are answered -/

/-- The state after the probe under way was answered, before its watch hears of it. -/
structure Answers (s : Controller) (p : Probe) (reachable : Bool) (s' : Controller) : Prop where
  waiting : s.probes = [p]
  unnoted : p.noted = false
  trace : s'.trace = s.trace ++ [.answered p.id p.session p.outage reachable]
  probes : s'.probes = [{ p with noted := true }]
  clock : s.clock ≤ s'.clock
  moving : s'.moving = s.moving

namespace Answers

variable {s s' : Controller} {p : Probe} {reachable : Bool} {session : Nat} {w : Watch}

section

variable (h : s.Answers p reachable s')
include h

theorem carried (hf : s.Follows session w) (hcarried : w.carried = true) :
    ∃ uplink earlier action witness, .observed session true uplink earlier action witness ∈
      s'.trace := by
  obtain ⟨uplink, earlier, action, witness, hmem⟩ := hf.carried hcarried
  exact ⟨uplink, earlier, action, witness, h.trace ▸ mem_append_left _ hmem⟩

theorem noted {q : Probe} (hq : q ∈ s'.probes) : q = { p with noted := true } := by
  rw [h.probes] at hq
  exact mem_singleton.1 hq

theorem epochs (hf : s.Follows session w) :
    ∀ q ∈ s'.probes, q.session = session → q.epoch ≤ w.epoch := by
  intro q hq hsame
  rw [h.noted hq] at hsame ⊢
  exact hf.epochs p (h.waiting ▸ mem_cons_self) hsame

theorem follows_other (hf : s.Follows session w)
    (hother : w.done = false → ¬ (p.session = session ∧ p.outage = true ∧ p.epoch = w.epoch)) :
    s'.Follows session w := by
  refine ⟨h.carried hf, hf.outage, fun since hsome => ?_, fun hnone => ⟨(hf.idle hnone).1,
    fun q hq hq' => ?_⟩, h.epochs hf, fun hmoving hdone since hsome => ?_⟩
  · exact ⟨Nat.le_trans (hf.past since hsome).1 h.clock, (hf.past since hsome).2⟩
  · rw [h.noted hq] at hq'
    cases hq'
  · have hin := hf.run (h.moving ▸ hmoving) hdone since hsome
    rw [h.waiting] at hin
    rw [h.trace, h.probes]
    exact hin.older h.unnoted (hother hdone) reachable

omit h in
theorem follows_failed (h : s.Answers p false s') (hf : s.Follows session w)
    (hsame : p.session = session ∧ p.outage = true ∧ p.epoch = w.epoch) :
    s'.Follows session { w with directFailures := w.directFailures + 1 } := by
  refine ⟨h.carried (w := w) hf, hf.outage, fun since hsome => ?_, fun hnone => ?_,
    h.epochs (w := w) hf, fun hmoving hdone since hsome => ?_⟩
  · exact ⟨Nat.le_trans (hf.past since hsome).1 h.clock, (hf.past since hsome).2⟩
  · -- A probe of an epoch is only under way while the epoch has a run.
    exact absurd hsame ((hf.idle hnone).2 p (h.waiting ▸ mem_cons_self) h.unnoted)
  · have hin := hf.run (h.moving ▸ hmoving) hdone since hsome
    rw [h.waiting] at hin
    rw [h.trace, h.probes]
    exact hin.fail h.unnoted hsame

omit h in
theorem follows_reached (h : s.Answers p true s') (hf : s.Follows session w) (until' : Nat) :
    s'.Follows session { w.resetOutage with aliveUntil := some until' } := by
  refine ⟨h.carried (w := w) hf, fun hsome => absurd rfl hsome, nofun,
    fun _ => ⟨rfl, fun q hq hq' => ?_⟩, fun q hq hsame => ?_,
    nofun⟩
  · rw [h.noted hq] at hq'
    cases hq'
  · exact Nat.le_succ_of_le (h.epochs hf q hq hsame)

theorem follows_noteOutageProbe (hf : s.Follows p.session w) (houtage : p.outage = true)
    (now : Nat) :
    s'.Follows p.session (w.noteOutageProbe reachable p.epoch now) := by
  rw [Watch.noteOutageProbe]
  split
  next hstale =>
    refine h.follows_other hf fun hdone hsame => ?_
    rcases hstale with hepoch | hd
    · exact hepoch hsame.2.2
    · cases hdone.symm.trans hd
  next hfresh =>
    have hepoch : p.epoch = w.epoch := not_not.1 fun hne => hfresh (.inl hne)
    cases reachable with
    | true => exact h.follows_reached hf _
    | false => exact h.follows_failed hf ⟨rfl, houtage, hepoch⟩

theorem good (hs : s.Good) (hprobing : s'.probing = true) (hcurrent : s'.current = s.current)
    (hwatches : s'.watches = s.watches) (hmoves : s'.moves = s.moves)
    (hsent : s'.probesSent = s.probesSent) {f : Watch → Watch} (hdone : ∀ w, (f w).done = w.done)
    (hnone : ∀ w, w.outageSince = none → (f w).outageSince = none)
    (hf : ∀ w, s.Follows p.session w → s'.Follows p.session (f w)) :
    (s'.modifyWatch p.session f).Good := by
  have hslots := hs.slots
  have hlen : (s'.modifyWatch p.session f).watches.length = s.watches.length :=
    (length_modify _ _ _).trans (congrArg List.length hwatches)
  have hget : ∀ k w', (s'.modifyWatch p.session f).watches[k]? = some w' →
      (p.session = k ∧ ∃ w, s.watches[k]? = some w ∧ f w = w') ∨
        (p.session ≠ k ∧ s.watches[k]? = some w') := by
    intro k w' hw'
    rw [← hwatches]
    exact modifyWatch_some hw'
  refine ⟨⟨.inr ⟨_, hprobing, h.probes⟩, ?_, fun k hk => ?_, fun q hq => ?_, fun m hm => ?_,
    fun id k outage hmem => ?_⟩,
    ?_, fun k w' hk hw' => ?_, fun m hm k w' hk hw' => ?_, fun k outcome hmem houtcome => ?_⟩
  · have hmoves' := hslots.moves
    rw [← hmoves, ← h.moving] at hmoves'
    exact hmoves'
  · rw [hlen]
    exact hslots.newest k (hcurrent ▸ hk)
  · rw [hlen, h.noted hq]
    exact hslots.probeSessions p (h.waiting ▸ mem_cons_self)
  · rw [hlen]
    exact hslots.moveSessions m (hmoves ▸ hm)
  · rw [modifyWatch, h.trace] at hmem
    rcases mem_snoc.1 hmem with hmem | hmem
    · exact hsent ▸ hslots.sent id k outage hmem
    · cases hmem
  · rw [modifyWatch, h.trace]
    exact hs.traced.snoc_other (by simp) (by simp)
  · have hk' : s.current = some k := hcurrent ▸ hk
    suffices hfollows : s'.Follows k w' from
      ⟨hfollows.carried, hfollows.outage, hfollows.past, hfollows.idle, hfollows.epochs,
        hfollows.run⟩
    rcases hget k w' hw' with ⟨rfl, w, hw, rfl⟩ | ⟨hne, hw⟩
    · exact hf w (hs.follows _ w hk' hw)
    · exact h.follows_other (hs.follows k w' hk' hw) fun _ hsame => hne hsame.1
  · have hk' : s.current = some k := hcurrent ▸ hk
    rcases hget k w' hw' with ⟨rfl, w, hw, rfl⟩ | ⟨-, hw⟩
    · rcases hs.busy m (hmoves ▸ hm) _ w hk' hw with ⟨hsame, hstage⟩ | ⟨hne, hidle⟩
      · exact .inl ⟨hsame, fun hr => (hstage hr).imp (fun hd => (hdone w).trans hd) (hnone w)⟩
      · exact .inr ⟨hne, hnone w hidle⟩
    · exact hs.busy m (hmoves ▸ hm) k w' hk' hw
  · rw [modifyWatch, h.trace] at hmem
    rcases mem_snoc.1 hmem with hmem | hmem
    · obtain ⟨⟨w, hw, hd⟩, hm⟩ := hs.settled k outcome hmem houtcome
      refine ⟨?_, fun m hmem' => hm m (hmoves ▸ hmem')⟩
      rw [modifyWatch_get?, hwatches, hw]
      split
      · exact ⟨f w, rfl, (hdone w).trans hd⟩
      · exact ⟨w, rfl, hd⟩
    · cases hmem

end

end Answers

theorem noteOutageProbe_done (w : Watch) (reachable : Bool) (epoch now : Nat) :
    (w.noteOutageProbe reachable epoch now).done = w.done := by
  rw [Watch.noteOutageProbe]
  split
  · rfl
  · split <;> rfl

theorem noteOutageProbe_none (w : Watch) (reachable : Bool) (epoch now : Nat)
    (h : w.outageSince = none) :
    (w.noteOutageProbe reachable epoch now).outageSince = none := by
  rw [Watch.noteOutageProbe]
  split
  · exact h
  · split
    · rfl
    · exact h

theorem probeAnswered_good (h : s.Good) (index elapsed : Nat) (reachable : Bool) :
    (s.probeAnswered index elapsed reachable).Good := by
  rw [probeAnswered]
  cases hp : s.probes[index]? with
  | none => exact h
  | some p =>
    dsimp only
    split
    · exact h
    next hnoted =>
      have hunnoted : p.noted = false := Bool.eq_false_iff.2 hnoted
      -- The slot holds one probe.
      obtain ⟨hprobing, hone, rfl⟩ : s.probing = true ∧ s.probes = [p] ∧ index = 0 := by
        rcases h.slots.probes with ⟨-, hnone⟩ | ⟨q, hprobing, hone⟩
        · rw [hnone] at hp
          cases hp
        rw [hone] at hp
        have hlt := (List.getElem?_eq_some_iff.1 hp).1
        rw [length_singleton] at hlt
        obtain rfl : index = 0 := by omega
        obtain rfl : q = p := some.inj hp
        exact ⟨hprobing, hone, rfl⟩
      have hset : s.probes.set 0 { p with noted := true } =
          [{ p with noted := true }] := by rw [hone]; rfl
      have hanswers : ∀ elapsed, s.Answers p reachable
          { note { s with probes := s.probes.set 0 { p with noted := true } }
              (.answered p.id p.session p.outage reachable) with clock := s.clock + elapsed } :=
        fun elapsed => ⟨hone, hunnoted, rfl, hset, Nat.le_add_right _ _, rfl⟩
      split
      next houtage =>
        refine (hanswers elapsed).good h hprobing rfl rfl rfl rfl
          (fun w => noteOutageProbe_done w _ _ _)
          (fun w => noteOutageProbe_none w _ _ _) fun w hf => ?_
        exact (hanswers elapsed).follows_noteOutageProbe hf houtage _
      next houtage =>
        refine (hanswers 0).good h hprobing rfl rfl rfl rfl (fun w => ?_)
          (fun w hnone => ?_) fun w hf => ?_
        · rw [Watch.noteBaseline]
          split <;> rfl
        · rw [Watch.noteBaseline]
          split <;> exact hnone
        · have hother := (hanswers 0).follows_other hf fun _ hsame => houtage hsame.2.1
          rw [Watch.noteBaseline]
          split
          · exact ⟨hother.carried, hother.outage, hother.past, hother.idle, hother.epochs,
              hother.run⟩
          · exact hother

theorem probeFreed_good (h : s.Good) (index : Nat) : (s.probeFreed index).Good := by
  rw [probeFreed]
  cases hp : s.probes[index]? with
  | none => exact h
  | some p =>
    dsimp only
    split
    next hnoted =>
      have hslots := h.slots
      have hnone : s.probes.eraseIdx index = [] := by
        rcases hslots.probes with ⟨-, hnone⟩ | ⟨q, -, hone⟩
        · rw [hnone]
          rfl
        · rw [hone] at hp ⊢
          have hlt := (List.getElem?_eq_some_iff.1 hp).1
          rw [length_singleton] at hlt
          obtain rfl : index = 0 := by omega
          rfl
      have hempty : ∀ q, q ∉ s.probes.eraseIdx index := fun q hq => not_mem_nil (hnone ▸ hq)
      refine ⟨⟨.inl ⟨rfl, hnone⟩, hslots.moves, hslots.newest, fun q hq => absurd hq (hempty q),
        hslots.moveSessions,
        hslots.sent⟩, h.traced, fun session w hcurrent hw => ?_, h.busy, h.settled⟩
      have hf := h.follows session w hcurrent hw
      exact ⟨hf.carried, hf.outage, hf.past, fun hidle => ⟨(hf.idle hidle).1,
        fun q hq => absurd hq (hempty q)⟩,
        fun q hq => absurd hq (hempty q), fun hmoving hdone since hsome =>
          (hf.run hmoving hdone since hsome).mono fun q hq => absurd hq (hempty q)⟩
    · exact h

/-! ## Moves go on -/

theorem Slots.move_only (h : s.Slots) {index : Nat} {m : Move} (hm : s.moves[index]? = some m) :
    s.moving = true ∧ s.moves = [m] ∧ index = 0 := by
  rcases h.moves with ⟨-, hnone⟩ | ⟨m', hmoving, hone⟩
  · rw [hnone] at hm
    cases hm
  rw [hone] at hm
  have hlt := (List.getElem?_eq_some_iff.1 hm).1
  rw [length_singleton] at hlt
  obtain rfl : index = 0 := by omega
  obtain rfl : m' = m := some.inj hm
  exact ⟨hmoving, hone, rfl⟩

theorem Follows.moving {s s' : Controller} {e : Entry} (h : s.Follows session w)
    (htrace : s'.trace = s.trace ++ [e]) (hprobes : s'.probes = s.probes)
    (hclock : s'.clock = s.clock) (hmoving : s'.moving = true) : s'.Follows session w := by
  refine ⟨fun hcarried => ?_, h.outage, fun since hsome => hclock ▸ h.past since hsome,
    fun hnone => hprobes ▸ h.idle hnone, hprobes ▸ h.epochs,
      fun hidle => nomatch (hidle.symm.trans hmoving)⟩
  obtain ⟨uplink, earlier, action, witness, hmem⟩ := h.carried hcarried
  exact ⟨uplink, earlier, action, witness, htrace ▸ mem_append_left _ hmem⟩

theorem moveCalled_good (h : s.Good) (index : Nat) : (s.moveCalled index).Good := by
  rw [moveCalled]
  cases hm : s.moves[index]? with
  | none => exact h
  | some m =>
    dsimp only
    split
    next hstage =>
      have hslots := h.slots
      obtain ⟨hmoving, hone, rfl⟩ := hslots.move_only hm
      have hmem : m ∈ s.moves := hone ▸ mem_cons_self
      have hset : s.moves.set 0 { m with stage := .running } =
          [{ m with stage := .running }] := by rw [hone]; rfl
      have honly : ∀ m' ∈ s.moves.set 0 { m with stage := .running },
          m' = { m with stage := .running } :=
        fun m' hm' => mem_singleton.1 (hset ▸ hm')
      have hold : ∀ session outcome, .resolved session outcome ∈ s.trace → outcome ≠ .standbyDown →
          m.session ≠ session := by
        intro session outcome hres houtcome hsame
        cases hstage.symm.trans ((h.settled session outcome hres houtcome).2 m hmem hsame)
      refine ⟨⟨hslots.probes, .inr ⟨_, hmoving, hset⟩, hslots.newest, hslots.probeSessions,
        fun m' hm' => ?_, fun id k outage hmem' => ?_⟩, h.traced.snoc (by simp) ?_,
        fun k w hk hw => (h.follows k w hk hw).moving rfl rfl rfl hmoving,
          fun m' hm' k w hk hw => ?_,
        fun k outcome hmem' houtcome => ?_⟩
      · rw [honly m' hm']
        exact hslots.moveSessions m hmem
      · rcases mem_snoc.1 hmem' with hmem' | hmem'
        · exact hslots.sent id k outage hmem'
        · cases hmem'
      · intro session silentMs witness heq outcome hres
        simp only [Entry.called.injEq] at heq
        by_contra houtcome
        exact hold session outcome hres houtcome heq.1
      · rw [honly m' hm']
        rcases h.busy m hmem k w hk hw with ⟨hsame, -⟩ | hother
        · exact .inl ⟨hsame, nofun⟩
        · exact .inr hother
      · rcases mem_snoc.1 hmem' with hmem' | hmem'
        · refine ⟨(h.settled k outcome hmem' houtcome).1, fun m' hm' hsame => ?_⟩
          rw [honly m' hm'] at hsame
          exact absurd hsame (hold k outcome hmem' houtcome)
        · cases hmem'
    · exact h

theorem Follows.resolved {s s' : Controller} {e : Entry} (h : s.Follows session w)
    (htrace : s'.trace = s.trace ++ [e]) (hprobes : s'.probes = s.probes)
    (hclock : s'.clock = s.clock) (hmoving : s'.moving = true) (outcome : Outcome) :
    s'.Follows session (if outcome = .standbyDown then w.resetOutage else w.finish) := by
  have hsame := h.moving htrace hprobes hclock hmoving
  split
  · exact hsame.ended rfl rfl (.inr ⟨rfl, rfl⟩) hsame.carried
  · exact ⟨hsame.carried, hsame.outage, hsame.past, hsame.idle, hsame.epochs, fun hidle =>
      nomatch hidle.symm.trans hmoving⟩

theorem moveResolved_good (h : s.Good) (index : Nat) (outcome : Outcome) :
    (s.moveResolved index outcome).Good := by
  rw [moveResolved]
  cases hm : s.moves[index]? with
  | none => exact h
  | some m =>
    dsimp only
    split
    next hstage =>
      have hslots := h.slots
      obtain ⟨hmoving, hone, rfl⟩ := hslots.move_only hm
      have hmem : m ∈ s.moves := hone ▸ mem_cons_self
      have hset : s.moves.set 0 { m with stage := .resolved } =
          [{ m with stage := .resolved }] := by rw [hone]; rfl
      have honly : ∀ m' ∈ s.moves.set 0 { m with stage := .resolved },
          m' = { m with stage := .resolved } :=
        fun m' hm' => mem_singleton.1 (hset ▸ hm')
      have hdone : ∀ w : Watch, w.done = true →
          (if outcome = .standbyDown then w.resetOutage else w.finish).done = true := by
        intro w hd
        split
        · exact hd
        · rfl
      refine ⟨⟨hslots.probes, .inr ⟨_, hmoving, hset⟩, fun k hk => ?_, fun p hp => ?_,
        fun m' hm' => ?_,
        fun id k outage hmem' => ?_⟩, h.traced.snoc_other (by simp) (by simp),
          fun k w' hk hw' => ?_,
        fun m' hm' k w' hk hw' => ?_, fun k outcome' hmem' houtcome => ?_⟩
      · exact (hslots.newest k hk).trans (length_modify _ _ _).symm
      · exact (hslots.probeSessions p hp).trans_eq (length_modify _ _ _).symm
      · rw [honly m' hm']
        exact (hslots.moveSessions m hmem).trans_eq (length_modify _ _ _).symm
      · rcases mem_snoc.1 hmem' with hmem' | hmem'
        · exact hslots.sent id k outage hmem'
        · cases hmem'
      · rcases modifyWatch_some hw' with ⟨rfl, w, hw, rfl⟩ | ⟨-, hw⟩
        · have hf := h.follows _ w hk hw
          apply Follows.resolved (e := .resolved m.session outcome) hf
          · rfl
          · rfl
          · rfl
          · exact hmoving
        · exact (h.follows k w' hk hw).moving rfl rfl rfl hmoving
      · rw [honly m' hm']
        rcases modifyWatch_some hw' with ⟨rfl, w, hw, rfl⟩ | ⟨hne, hw⟩
        · refine .inl ⟨rfl, fun _ => ?_⟩
          split
          · exact .inr rfl
          · exact .inl rfl
        · rcases h.busy m hmem k w' hk hw with ⟨hsame, -⟩ | hother
          · exact absurd hsame hne
          · exact .inr hother
      · refine ⟨?_, fun m' hm' _ => by rw [honly m' hm']⟩
        rcases mem_snoc.1 hmem' with hmem' | hmem'
        · exact h.settled_modifyWatch m.session (fun w _ hd => hdone w hd) k outcome' hmem' houtcome
        have heq := hmem'
        obtain ⟨rfl, rfl⟩ := heq
        have hlt := hslots.moveSessions m hmem
        refine ⟨s.watches[m.session].finish, (s.modifyWatch_get? m.session _ m.session).trans ?_,
          rfl⟩
        rw [if_pos rfl, getElem?_eq_getElem hlt, map_some, if_neg houtcome]
    · exact h

theorem moveFreed_good (h : s.Good) (index : Nat) : (s.moveFreed index).Good := by
  rw [moveFreed]
  cases hm : s.moves[index]? with
  | none => exact h
  | some m =>
    dsimp only
    split
    next hstage =>
      have hslots := h.slots
      obtain ⟨-, hone, rfl⟩ := hslots.move_only hm
      have hmem : m ∈ s.moves := hone ▸ mem_cons_self
      have hnone : s.moves.eraseIdx 0 = [] := by rw [hone]; rfl
      have hempty : ∀ m', m' ∉ s.moves.eraseIdx 0 := fun m' hm' => not_mem_nil (hnone ▸ hm')
      refine ⟨⟨hslots.probes, .inl ⟨rfl, hnone⟩, hslots.newest, hslots.probeSessions,
        fun m' hm' => absurd hm' (hempty m'), hslots.sent⟩, h.traced, fun k w hk hw => ?_,
        fun m' hm' => absurd hm' (hempty m'), fun k outcome hmem' houtcome =>
          ⟨(h.settled k outcome hmem' houtcome).1, fun m' hm' => absurd hm' (hempty m')⟩⟩
      have hf := h.follows k w hk hw
      refine ⟨hf.carried, hf.outage, hf.past, hf.idle, hf.epochs, fun _ hdone since hsome => ?_⟩
      -- The run the move rested on is over for the watch.
      have hidle : w.outageSince = none := by
        rcases h.busy m hmem k w hk hw with ⟨-, hres⟩ | ⟨-, hidle⟩
        · rcases hres hstage with hd | hidle
          · cases hdone.symm.trans hd
          · exact hidle
        · exact hidle
      cases hidle.symm.trans hsome
    · exact h

theorem step_good (h : s.Good) (e : FailoverEvent) : (s.step e).Good := by
  cases e with
  | begin watching => exact begin_good h watching
  | ended => exact end_good h
  | observe elapsed connected uplink => exact observe_good h elapsed connected uplink
  | probeAnswered index elapsed reachable => exact probeAnswered_good h index elapsed reachable
  | probeFreed index => exact probeFreed_good h index
  | moveCalled index => exact moveCalled_good h index
  | moveResolved index outcome => exact moveResolved_good h index outcome
  | moveFreed index => exact moveFreed_good h index

theorem run_good (clock : Nat) (es : List FailoverEvent) : (es.foldl step (new clock)).Good := by
  induction es using List.reverseRecOn with
  | nil => exact new_good clock
  | append_singleton es e ih =>
    rw [foldl_append]
    exact step_good ih e

/-- A flag is up exactly while an attempt of its kind is under way, so there are never two probes
and never two moves, and each is of a session that began. -/
theorem flags_count_attempts (clock : Nat) (es : List FailoverEvent) :
    let s := es.foldl step (new clock)
    s.probes.length = s.probing.toNat ∧ s.moves.length = s.moving.toNat ∧
      (∀ p ∈ s.probes, p.session < s.watches.length) ∧ ∀ m ∈ s.moves, m.session <
        s.watches.length := by
  intro s
  have hslots : s.Slots := (run_good clock es).slots
  refine ⟨?_, ?_, hslots.probeSessions, hslots.moveSessions⟩
  · rcases hslots.probes with ⟨hflag, hnone⟩ | ⟨p, hflag, hone⟩
    · rw [hflag, hnone]; rfl
    · rw [hflag, hone]; rfl
  · rcases hslots.moves with ⟨hflag, hnone⟩ | ⟨m, hflag, hone⟩
    · rw [hflag, hnone]; rfl
    · rw [hflag, hone]; rfl

/-- A session moves on agreed evidence and at most once. Whatever is observed, and whenever probes
and moves are answered and however: each answer `failover` rests on evidence, no session is moved
again after a move that was not for a standby that is down, and never is more than one move under
way. -/
theorem moves_on_agreed_evidence (clock : Nat) (es : List FailoverEvent) :
    Traced (es.foldl step (new clock)).trace ∧
      ((es.foldl step (new clock)).moves.filter fun m => m.stage = .running).length ≤ 1 := by
  have hgood := run_good clock es
  refine ⟨hgood.traced, (List.length_filter_le _ _).trans ?_⟩
  rcases hgood.slots.moves with ⟨-, hnone⟩ | ⟨m, -, hone⟩
  · rw [hnone]
    exact Nat.zero_le _
  · rw [hone, List.length_singleton]

/-- A session that was connected and is silent for a minute moves. -/
example : (.called 0 60000 false : Entry) ∈
    ([.begin true, .observe 0 true .up, .observe 10 false .up,
    .observe 60000 false .up, .moveCalled 0].foldl step (new 0)).trace := by
  decide

end Controller

end GamePath.Electron
