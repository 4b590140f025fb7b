import GamePath.Engine.OpenVpn.ControlReader

/-!
# What the control channel delivers in one key generation

The server's packets of a key generation are numbered: number 0 is its reset, the others carry the
TLS stream in chunks. Whatever the order they arrive in, a channel delivers the chunks up to the
first packet missing (`Delivering`), with one exception: the reset steps past its number without
looking at what waits behind it. So the whole stream is out once the last missing packet has
arrived, unless that packet is the reset (`stream_is_delivered`, `reset_last_delivers_nothing`).
-/

namespace GamePath.Engine.OpenVpn

open Lib List Run Nat Prod KeyedMap
open ControlChannel (call_quiet payloadOf step_data step_reset)

/-- A packet a channel reads as number `i` of a generation: the reset, or a chunk of the stream. -/
def Numbered (crypto : Crypto) (wrapping : Wrapping) (keyId : UInt8) (chunk : Nat → Bytes) (i : Nat)
    (packet : Bytes) : Prop :=
  ∃ p, ControlChannel.read crypto wrapping keyId packet = .ok (some p) ∧
    p.packetId = some (UInt32.ofNat i) ∧
    if i = 0 then p.opcode = pControlHardResetServerV2
    else p.opcode = pControlV1 ∧ p.payload = chunk i

/-- The call in which number `i` arrives. -/
def Brings (crypto : Crypto) (wrapping : Wrapping) (keyId : UInt8) (chunk : Nat → Bytes) (i : Nat)
    (call : Clock × Call) : Prop :=
  ∃ packet, call.2 = .step packet ∧ Numbered crypto wrapping keyId chunk i packet

/-- A call of a generation of packets up to `n`: one of them arrives, or the session does something
else than receive. -/
def Belongs (crypto : Crypto) (wrapping : Wrapping) (keyId : UInt8) (chunk : Nat → Bytes) (n : Nat)
    (call : Clock × Call) : Prop :=
  (∀ packet, call.2 ≠ .step packet) ∨
    ∃ i, i ≤ n ∧ Brings crypto wrapping keyId chunk i call

theorem ofNat_inj {i j : Nat} (hi : i < 2 ^ 32) (hj : j < 2 ^ 32)
    (h : UInt32.ofNat i = UInt32.ofNat j) : i = j := by
  have heq := congrArg UInt32.toNat h
  rw [UInt32.toNat_ofNat', UInt32.toNat_ofNat', mod_eq_of_lt hi, mod_eq_of_lt hj] at heq
  exact heq

theorem nextId_ofNat (i : Nat) : nextId (UInt32.ofNat i) = UInt32.ofNat (i + 1) := by
  rw [UInt32.ofNat_add]
  rfl

section Generation

variable {crypto : Crypto} {wrapping : Wrapping} {keyId : UInt8} {chunk : Nat → Bytes} {n : Nat}

variable {call : Clock × Call}

theorem Brings.unique {i j : Nat} (hi : i < 2 ^ 32) (hj : j < 2 ^ 32)
    (h : Brings crypto wrapping keyId chunk i call)
    (h' : Brings crypto wrapping keyId chunk j call) :
    i = j := by
  obtain ⟨packet, hstep, p, hread, hid, -⟩ := h
  obtain ⟨packet', hstep', p', hread', hid', -⟩ := h'
  have hsame : packet = packet' := Call.step.inj (hstep.symm.trans hstep')
  rw [← hsame, hread] at hread'
  have hp : p = p' := Option.some.inj (Except.ok.inj hread')
  rw [← hp, hid] at hid'
  exact ofNat_inj hi hj (Option.some.inj hid')

/-! ## The reader in a generation -/

/-- The reader waits for number `k`: everything before has arrived and is delivered, and of the rest
it holds what has arrived. -/
structure Delivering (wrapping : Wrapping) (keyId : UInt8) (chunk : Nat → Bytes) (n : Nat)
    (arrived : Nat → Prop) (k : Nat) (out : Bytes) (r : Reader) : Prop where
  wrapping_eq : r.wrapping = wrapping
  keyId_eq : r.keyId = keyId
  expected : r.expected = UInt32.ofNat k
  le_past : k ≤ n + 1
  reset : k = 0 ↔ ¬ arrived 0
  before : ∀ i, i < k → arrived i
  out_eq : out = (List.range' 1 (k - 1)).flatMap chunk
  waiting : Reorder.Waiting UInt32.ofNat chunk (fun i => i ≠ 0 ∧ arrived i) n k r.reordered

variable {out : Bytes} {r : Reader}

theorem Delivering.congr {arrived arrived' : Nat → Prop} {k : Nat}
    (h : Delivering wrapping keyId chunk n arrived k out r)
    (heq : ∀ i, i ≤ n → (arrived i ↔ arrived' i)) :
    Delivering wrapping keyId chunk n arrived' k out r := by
  have hle := h.le_past
  refine ⟨h.wrapping_eq, h.keyId_eq, h.expected, hle, ?_, ?_, h.out_eq, ?_, ?_, h.waiting.past⟩
  · rw [h.reset, heq 0 (zero_le n)]
  · intro i hi
    exact (heq i (by omega)).1 (h.before i hi)
  · intro i hki hin harrived
    exact h.waiting.there i hki hin ⟨harrived.1, (heq i hin).2 harrived.2⟩
  · intro i hki hin harrived
    exact h.waiting.missing i hki hin fun h' => harrived ⟨h'.1, (heq i hin).1 h'.2⟩

variable {arrived : Nat → Prop}

theorem Delivering.stepPast {k : Nat} (hk : k < 2 ^ 32)
    (h : Delivering wrapping keyId chunk n arrived k out r) :
    ∃ k', k ≤ k' ∧ Delivering wrapping keyId chunk n (fun i => arrived i ∨ i = 0) k' out
      (r.stepPast (UInt32.ofNat 0)) := by
  unfold Reader.stepPast
  rw [h.expected]
  by_cases hzero : k = 0
  · -- The reset was awaited: the numbering moves on to the first chunk.
    subst hzero
    refine ⟨1, zero_le 1, h.wrapping_eq, h.keyId_eq, nextId_ofNat 0, by omega, ?_, ?_, h.out_eq,
      ?_, ?_, h.waiting.past⟩
    · exact iff_of_false one_ne_zero (not_not.2 (.inr rfl))
    · intro i hi
      exact .inr (by omega)
    · intro i hki hin harrived
      refine h.waiting.there i (zero_le i) hin ⟨harrived.1, ?_⟩
      exact harrived.2.resolve_right harrived.1
    · intro i hki hin harrived
      exact h.waiting.missing i (zero_le i) hin fun h' => harrived ⟨h'.1, .inl h'.2⟩
  · -- A copy of the reset.
    have hne : UInt32.ofNat 0 ≠ UInt32.ofNat k := fun heq =>
      hzero (ofNat_inj (by decide) hk heq).symm
    rw [if_neg hne]
    refine ⟨k, le_refl k, h.congr fun i _ => ⟨.inl, ?_⟩⟩
    rintro (harrived | rfl)
    · exact harrived
    · exact h.before 0 (pos_of_ne_zero hzero)

section

variable {k j : Nat} (hn : n < 2 ^ 32) (hj : j ≠ 0) (hjn : j ≤ n)
  (h : Delivering wrapping keyId chunk n arrived k out r)
include hn hj hjn h

theorem Delivering.insert :
    Reorder.Waiting UInt32.ofNat chunk (fun i => i ≠ 0 ∧ (arrived i ∨ i = j)) n k
      (r.reordered.insert (UInt32.ofNat j) (chunk j)) := by
  have hsame : ∀ i, i ≤ n → UInt32.ofNat i = UInt32.ofNat j → i = j := fun i hi =>
    ofNat_inj (by omega) (by omega)
  refine ⟨fun i hki hin harrived => ?_, fun i hki hin harrived => ?_, ?_⟩
  · rw [get?_insert]
    by_cases hij : i = j
    · rw [hij, if_pos rfl]
    · rw [if_neg fun heq => hij (hsame i hin heq)]
      exact h.waiting.there i hki hin ⟨harrived.1, harrived.2.resolve_right hij⟩
  · have hij : i ≠ j := fun heq => harrived ⟨heq ▸ hj, .inr heq⟩
    rw [get?_insert, if_neg fun heq => hij (hsame i hin heq)]
    exact h.waiting.missing i hki hin fun h' => harrived ⟨h'.1, .inl h'.2⟩
  have hpast : UInt32.ofNat (n + 1) ≠ UInt32.ofNat j := by
    intro heq
    have hmod := congrArg UInt32.toNat heq
    rw [UInt32.toNat_ofNat', UInt32.toNat_ofNat'] at hmod
    omega
  rw [get?_insert, if_neg hpast]
  exact h.waiting.past

theorem Delivering.release :
    ∃ k', k ≤ k' ∧ Delivering wrapping keyId chunk n (fun i => arrived i ∨ i = j) k'
        (out ++ (r.drained (UInt32.ofNat j) (chunk j)).2.2.flatten)
        (r.release (UInt32.ofNat j) (chunk j)) ∧
      (k' ≤ n → k' ≠ 0 → ¬ (arrived k' ∨ k' = j)) := by
  have hinj : ∀ a b, k ≤ a → a < b → b ≤ n → UInt32.ofNat b ≠ UInt32.ofNat a := by
    intro a b _ hab hbn heq
    have := ofNat_inj (by omega) (by omega) heq
    omega
  obtain ⟨k', hk'⟩ := Reorder.drain_spec nextId_ofNat hinj h.le_past (h.insert hn hj hjn)
  have hdrained : r.drained (UInt32.ofNat j) (chunk j) =
      Reorder.drain nextId (r.reordered.insert (UInt32.ofNat j) (chunk j)) (UInt32.ofNat k) := by
    rw [Reader.drained, h.expected]
  rw [← hdrained] at hk'
  have hle := hk'.le
  -- Number 0 is never among the chunks, so nothing moves before the reset.
  have hzero : k = 0 → k' = 0 := by
    intro hk
    by_contra hpos
    exact (hk'.taken 0 (by omega) (by omega)).1 rfl
  refine ⟨k', hle, ⟨h.wrapping_eq, h.keyId_eq, hk'.key, hk'.le_past, ?_, ?_, ?_, hk'.waiting⟩, ?_⟩
  · -- The reset is still to come exactly if it was before.
    constructor
    · rintro hz (harrived | hzj)
      · exact (h.reset.1 (by omega)) harrived
      · exact hj hzj.symm
    · intro harrived
      exact hzero (h.reset.2 fun h' => harrived (.inl h'))
  · intro i hi
    by_cases hik : i < k
    · exact .inl (h.before i hik)
    · exact (hk'.taken i (by omega) hi).2
  · -- What came out before and what came out now are adjacent runs of chunks.
    rw [h.out_eq, hk'.values, ← flatMap_def, ← flatMap_append]
    by_cases hk : k = 0
    · rw [hzero hk, hk]
      rfl
    · congr 1
      rw [show k' - 1 = (k - 1) + (k' - k) by omega, ← range'_append]
      congr 2
      omega
  · intro hkn hne harrived
    exact hk'.stopped hkn ⟨hne, harrived⟩

end

/-! ## Whole runs -/

/-- The numbers that have arrived in a list of calls. -/
def Arrived (crypto : Crypto) (wrapping : Wrapping) (keyId : UInt8) (chunk : Nat → Bytes)
    (calls : List (Clock × Call)) (i : Nat) : Prop :=
  ∃ call ∈ calls, Brings crypto wrapping keyId chunk i call

/-- The reader of a run in which the packets of a generation arrive waits for number `k`. -/
def Awaits (crypto : Crypto) (wrapping : Wrapping) (keyId : UInt8) (chunk : Nat → Bytes) (n k : Nat)
    (cfg : Config ControlChannel (Clock × Call) (Except String Received)) : Prop :=
  Delivering wrapping keyId chunk n
    (Arrived crypto wrapping keyId chunk (cfg.log.map fst)) k (delivered cfg.log)
    cfg.state.reader

theorem arrived_append (calls : List (Clock × Call)) {j : Nat}
    (hn : n < 2 ^ 32) (hj : j ≤ n) (hcall : Brings crypto wrapping keyId chunk j call) {i : Nat}
    (hi : i ≤ n) :
    Arrived crypto wrapping keyId chunk calls i ∨ i = j ↔
      Arrived crypto wrapping keyId chunk (calls ++ [call]) i := by
  constructor
  · rintro (⟨other, hmem, hother⟩ | rfl)
    · exact ⟨other, mem_append_left _ hmem, hother⟩
    · exact ⟨call, mem_append_right _ (mem_singleton.2 rfl), hcall⟩
  · rintro ⟨other, hmem, hother⟩
    rcases mem_snoc.1 hmem with hmem | rfl
    · exact .inl ⟨other, hmem, hother⟩
    · exact .inr (hother.unique (by omega) (by omega) hcall)

theorem awaits_iff {cfg : Config ControlChannel (Clock × Call) (Except String Received)} {k : Nat} :
    Awaits crypto wrapping keyId chunk n k (advance (ControlChannel.call crypto) cfg call) ↔
      Delivering wrapping keyId chunk n
        (Arrived crypto wrapping keyId chunk (cfg.log.map fst ++ [call])) k
        (delivered cfg.log ++ payloadOf (cfg.state.call crypto call).2)
        (cfg.state.call crypto call).1.reader := by
  rw [Awaits, advance_log, delivered_append, map_append]
  exact Iff.rfl

section Call

variable {cfg : Config ControlChannel (Clock × Call) (Except String Received)}
  {call : Clock × Call} {k : Nat}

theorem awaits_quiet (hquiet : ∀ packet, call.2 ≠ .step packet)
    (h : Awaits crypto wrapping keyId chunk n k cfg) :
    Awaits crypto wrapping keyId chunk n k (advance (ControlChannel.call crypto) cfg call) := by
  obtain ⟨hreader, hpayload⟩ := call_quiet crypto cfg.state hquiet
  rw [awaits_iff, hreader, hpayload, append_nil]
  refine h.congr fun i _ => ⟨?_, ?_⟩
  · rintro ⟨other, hmem, hother⟩
    exact ⟨other, mem_append_left _ hmem, hother⟩
  rintro ⟨other, hmem, hother⟩
  rcases mem_snoc.1 hmem with hmem | rfl
  · exact ⟨other, hmem, hother⟩
  · obtain ⟨packet, hstep, -⟩ := hother
    exact absurd hstep (hquiet packet)

theorem awaits_reset (hn : n < 2 ^ 32) (hcall : Brings crypto wrapping keyId chunk 0 call)
    (hk : k < 2 ^ 32) (h : Awaits crypto wrapping keyId chunk n k cfg) :
    ∃ k', k ≤ k' ∧ Awaits crypto wrapping keyId chunk n k'
      (advance (ControlChannel.call crypto) cfg call) := by
  have harrived := fun i => arrived_append (i := i) (cfg.log.map fst) hn (zero_le n) hcall
  obtain ⟨clock, call⟩ := call
  obtain ⟨packet, rfl, p, hread, hid, hp⟩ := hcall
  rw [← show cfg.state.wrapping = wrapping from h.wrapping_eq,
    ← show cfg.state.keyId = keyId from h.keyId_eq] at hread
  obtain ⟨hreader, hpayload⟩ := step_reset clock hread hp hid
  obtain ⟨k', hle, hk'⟩ := h.stepPast hk
  refine ⟨k', hle, ?_⟩
  rw [awaits_iff]
  show Delivering _ _ _ _ _ _ (_ ++ payloadOf (cfg.state.step crypto clock packet).2)
    (cfg.state.step crypto clock packet).1.reader
  rw [hreader, hpayload, append_nil]
  exact hk'.congr harrived

theorem awaits_data (hn : n < 2 ^ 32) {j : Nat} (hj : j ≠ 0) (hjn : j ≤ n)
    (hcall : Brings crypto wrapping keyId chunk j call)
    (h : Awaits crypto wrapping keyId chunk n k cfg) :
    ∃ k', k ≤ k' ∧
      Awaits crypto wrapping keyId chunk n k' (advance (ControlChannel.call crypto) cfg call) ∧
      (k' ≤ n → k' ≠ 0 →
        ¬ Arrived crypto wrapping keyId chunk (cfg.log.map fst ++ [call]) k') := by
  have harrived := fun i => arrived_append (i := i) (cfg.log.map fst) hn hjn hcall
  obtain ⟨clock, call⟩ := call
  obtain ⟨packet, rfl, p, hread, hid, hp⟩ := hcall
  rw [if_neg hj] at hp
  rw [← show cfg.state.wrapping = wrapping from h.wrapping_eq,
    ← show cfg.state.keyId = keyId from h.keyId_eq] at hread
  obtain ⟨hreader, hpayload⟩ := step_data clock hread hp.1 hid
  rw [hp.2] at hreader hpayload
  obtain ⟨k', hle, hk', hstop⟩ := h.release hn hj hjn
  refine ⟨k', hle, ?_, ?_⟩
  · rw [awaits_iff]
    show Delivering _ _ _ _ _ _
      (_ ++ payloadOf (cfg.state.step crypto clock packet).2)
      (cfg.state.step crypto clock packet).1.reader
    rw [hreader, hpayload]
    exact hk'.congr harrived
  · intro hkn hne
    rw [← harrived k' hkn]
    exact hstop hkn hne

/-- One call of a generation. When it brings a chunk, nothing that has arrived is held back after
it. -/
theorem awaits_advance (hn : n < 2 ^ 32) (hcall : Belongs crypto wrapping keyId chunk n call)
    (hk : k < 2 ^ 32) (h : Awaits crypto wrapping keyId chunk n k cfg) :
    ∃ k', k ≤ k' ∧
      Awaits crypto wrapping keyId chunk n k'
        (advance (ControlChannel.call crypto) cfg call) ∧
      ∀ j, j ≠ 0 → j ≤ n → Brings crypto wrapping keyId chunk j call → k' ≤ n → k' ≠ 0 →
        ¬ Arrived crypto wrapping keyId chunk (cfg.log.map fst ++ [call]) k' := by
  rcases hcall with hquiet | ⟨j, hjn, hcall⟩
  · refine ⟨k, le_refl k, awaits_quiet hquiet h, ?_⟩
    rintro j - - ⟨packet, hstep, -⟩
    exact absurd hstep (hquiet packet)
  by_cases hzero : j = 0
  · subst hzero
    obtain ⟨k', hle, hk'⟩ := awaits_reset hn hcall hk h
    refine ⟨k', hle, hk', fun i hi hin hbrings => ?_⟩
    exact absurd (hbrings.unique (by omega) (by omega) hcall) hi
  · obtain ⟨k', hle, hk', hstop⟩ := awaits_data hn hzero hjn hcall h
    exact ⟨k', hle, hk', fun _ _ _ _ => hstop⟩

end Call

variable {c : ControlChannel}

theorem awaits_start (hexpected : c.expectedPacketId = 0) (hreordered : c.reordered = empty) :
    Awaits crypto c.wrapping c.keyId chunk n 0 ⟨c, []⟩ := by
  refine ⟨rfl, rfl, hexpected, zero_le _, ?_, ?_, rfl, ?_⟩
  · refine iff_of_true rfl ?_
    rintro ⟨call, hmem, -⟩
    exact not_mem_nil hmem
  · exact fun i hi => absurd hi (not_lt_zero i)
  · show Reorder.Waiting _ _ _ _ _ c.reordered
    rw [hreordered]
    refine ⟨?_, fun _ _ _ _ => rfl, rfl⟩
    rintro i - - ⟨-, call, hmem, -⟩
    exact absurd hmem not_mem_nil

/-- The packets of a generation arrive, the last of them to arrive for the first time being number
`j`. -/
structure Arrivals (crypto : Crypto) (wrapping : Wrapping) (keyId : UInt8) (chunk : Nat → Bytes)
    (n : Nat) (earlier : List (Clock × Call)) (last : Clock × Call) (j : Nat) : Prop where
  belongs : ∀ call ∈ earlier, Belongs crypto wrapping keyId chunk n call
  le : j ≤ n
  brings : Brings crypto wrapping keyId chunk j last
  first : ∀ call ∈ earlier, ¬ Brings crypto wrapping keyId chunk j call
  every : ∀ i, i ≤ n → Arrived crypto wrapping keyId chunk (earlier ++ [last]) i

variable {earlier : List (Clock × Call)} {last : Clock × Call}

section

variable (hexpected : c.expectedPacketId = 0) (hreordered : c.reordered = empty) (hn : n < 2 ^ 32)
include hexpected hreordered hn

theorem awaits_earlier {j : Nat} (h : Arrivals crypto c.wrapping c.keyId chunk n earlier last j) :
    ∃ k, k ≤ j ∧ Awaits crypto c.wrapping c.keyId chunk n k (run crypto c earlier) := by
  -- The number the last call brings has not come, so the reader cannot be past it.
  have hmissing : ∀ cfg : Config ControlChannel (Clock × Call) (Except String Received), ∀ k,
      (∀ call ∈ cfg.log.map fst, call ∈ earlier) →
      Awaits crypto c.wrapping c.keyId chunk n k cfg → k ≤ j := by
    intro cfg k hlog hcfg
    by_contra hlt
    obtain ⟨call, hmem, hbrings⟩ := hcfg.before j (by omega)
    exact h.first call (hlog call hmem) hbrings
  have hmeets : Meets (ControlChannel.call crypto) (fun _ call => call ∈ earlier) ⟨c, []⟩
      earlier := meets_of_forall (fun call hmem _ => hmem) _
  obtain ⟨hlog, k, hk⟩ := execFrom_invariant_of_meets
    (I := fun cfg => (∀ call ∈ cfg.log.map fst, call ∈ earlier) ∧
      ∃ k, Awaits crypto c.wrapping c.keyId chunk n k cfg)
    (fun cfg call hcall hcfg => by
      obtain ⟨hlog, k, hk⟩ := hcfg
      have hkj := hmissing cfg k hlog hk
      have hjn := h.le
      obtain ⟨k', -, hk', -⟩ := awaits_advance hn (h.belongs call hcall) (by omega) hk
      refine ⟨fun other hother => ?_, k', hk'⟩
      rw [advance_log, map_append] at hother
      rcases mem_snoc.1 hother with hother | rfl
      · exact hlog other hother
      · exact hcall)
    earlier _ hmeets ⟨nofun, 0, awaits_start hexpected hreordered⟩
  exact ⟨k, hmissing _ k hlog hk, hk⟩

omit hexpected hreordered hn in
theorem run_append (c : ControlChannel) (calls : List (Clock × Call)) (call : Clock × Call) :
    run crypto c (calls ++ [call]) =
      advance (ControlChannel.call crypto) (run crypto c calls) call :=
  execFrom_append _ _ _

theorem reset_last_delivers_nothing
    (h : Arrivals crypto c.wrapping c.keyId chunk n earlier last 0) :
    delivered (run crypto c (earlier ++ [last])).log = [] := by
  obtain ⟨k, hk0, hk⟩ := awaits_earlier hexpected hreordered hn h
  obtain rfl : k = 0 := by omega
  obtain ⟨clock, call⟩ := last
  obtain ⟨packet, rfl, p, hread, hid, hp⟩ := h.brings
  rw [← show (run crypto c earlier).state.wrapping = c.wrapping from hk.wrapping_eq,
    ← show (run crypto c earlier).state.keyId = c.keyId from hk.keyId_eq] at hread
  obtain ⟨-, hpayload⟩ := step_reset clock hread hp hid
  rw [run_append, advance_log, delivered_append, hk.out_eq]
  exact hpayload

theorem awaits_all {j : Nat} (h : Arrivals crypto c.wrapping c.keyId chunk n earlier last j)
    (hj : n = 0 ∨ j ≠ 0) :
    Awaits crypto c.wrapping c.keyId chunk n (n + 1) (run crypto c (earlier ++ [last])) := by
  obtain ⟨k, hkj, hk⟩ := awaits_earlier hexpected hreordered hn h
  have hjn := h.le
  obtain ⟨k', -, hk', hstop⟩ := awaits_advance hn (.inr ⟨j, hjn, h.brings⟩) (by omega) hk
  rw [← run_append] at hk'
  have hinputs : (run crypto c (earlier ++ [last])).log.map fst = earlier ++ [last] :=
    execFrom_inputs _ _
  have hinputs' : (run crypto c earlier).log.map fst = earlier := execFrom_inputs _ _
  have hpos : k' ≠ 0 := by
    intro hzero
    apply hk'.reset.1 hzero
    rw [hinputs]
    exact h.every 0 (zero_le n)
  -- Everything is there, so a drain cannot stop before the end.
  have hpast : k' = n + 1 := by
    have hle := hk'.le_past
    rcases hj with hn0 | hj
    · omega
    · by_contra hne
      refine hstop j hj hjn h.brings (by omega) hpos ?_
      rw [hinputs']
      exact h.every k' (by omega)
  rw [← hpast]
  exact hk'

end

/-- Past the whole generation the reader stays there, whatever copies arrive, as long as the counter
can hold the next number. -/
theorem awaits_later (hn : n + 1 < 2 ^ 32) {calls : List (Clock × Call)}
    (h : Awaits crypto wrapping keyId chunk n (n + 1) (run crypto c calls))
    {later : List (Clock × Call)}
    (hlater : ∀ call ∈ later, Belongs crypto wrapping keyId chunk n call) :
    Awaits crypto wrapping keyId chunk n (n + 1) (run crypto c (calls ++ later)) := by
  have hmeets : Meets (ControlChannel.call crypto) (fun _ call => call ∈ later)
      (run crypto c calls) later := meets_of_forall (fun call hmem _ => hmem) _
  have hrun : run crypto c (calls ++ later) =
      execFrom (ControlChannel.call crypto) (run crypto c calls) later :=
    execFrom_append _ _ _
  rw [hrun]
  refine execFrom_invariant_of_meets
    (I := Awaits crypto wrapping keyId chunk n (n + 1)) (fun cfg call hcall hcfg => ?_) later _
    hmeets h
  obtain ⟨k', hle, hk', -⟩ := awaits_advance (by omega) (hlater call hcall) hn hcfg
  obtain rfl : k' = n + 1 := le_antisymm hk'.le_past hle
  exact hk'

/-- Once every packet has arrived, in whatever order and with whatever copies, the whole stream has
been delivered exactly when the reset was not the last to come, or there is no stream; and copies
that come later change nothing of that. -/
theorem stream_is_delivered {c : ControlChannel} (hexpected : c.expectedPacketId = 0)
    (hreordered : c.reordered = empty) (hn : n < 2 ^ 32)
    (hchunk : ∀ i, i ≠ 0 → i ≤ n → chunk i ≠ []) {earlier : List (Clock × Call)}
    {last : Clock × Call} {j : Nat}
    (h : Arrivals crypto c.wrapping c.keyId chunk n earlier last j) :
    (delivered (run crypto c (earlier ++ [last])).log = (List.range' 1 n).flatMap chunk ↔
      n = 0 ∨ j ≠ 0) ∧
    (n = 0 ∨ j ≠ 0 → n + 1 < 2 ^ 32 → ∀ later,
      (∀ call ∈ later, Belongs crypto c.wrapping c.keyId chunk n call) →
        delivered (run crypto c (earlier ++ [last] ++ later)).log =
          (List.range' 1 n).flatMap chunk) := by
  refine ⟨⟨fun hall => ?_, fun hj => ?_⟩, fun hj hn1 later hlater => ?_⟩
  · rw [or_iff_not_imp_right, not_not]
    rintro rfl
    rw [reset_last_delivers_nothing hexpected hreordered hn h] at hall
    by_contra hpos
    have hone := List.flatMap_eq_nil_iff.1 hall.symm 1
      (List.mem_range'_1.2 ⟨le_refl 1, by omega⟩)
    exact hchunk 1 one_ne_zero (by omega) hone
  · exact (awaits_all hexpected hreordered hn h hj).out_eq
  · exact (awaits_later hn1 (awaits_all hexpected hreordered hn h hj) hlater).out_eq

end Generation

/-! ## One chunk -/

/-- The session id of the sample packets. -/
def sampleSessionId : SessionId := ⟨[7, 7, 7, 7, 7, 7, 7, 7], rfl⟩

/-- Stand-ins for the primitives, which an unwrapped channel never calls. -/
def noCrypto : Crypto := ⟨fun _ _ _ => [], fun _ _ => id⟩

/-- A packet without acknowledgements under key id 0 as it arrives at an unwrapped channel. -/
def samplePacket (opcode id : UInt8) (payload : Bytes) : Clock × Call :=
  (⟨0, 0⟩, .step ((opcode <<< 3) :: sampleSessionId.bytes ++ [0, 0, 0, 0, id] ++ payload))

theorem sampleReset_brings (chunk : Nat → Bytes) :
    Brings noCrypto .none 0 chunk 0 (samplePacket pControlHardResetServerV2 0 []) :=
  ⟨_, rfl, ⟨pControlHardResetServerV2, 0, sampleSessionId, [], some 0, []⟩, rfl, rfl, rfl⟩

theorem sampleData_brings :
    Brings noCrypto .none 0 (fun _ => [42]) 1 (samplePacket pControlV1 1 [42]) :=
  ⟨_, rfl, ⟨pControlV1, 0, sampleSessionId, [], some 1, [42]⟩, rfl, rfl, rfl, rfl⟩

/-- The reset and one chunk, in the order they were sent. -/
theorem stream_is_delivered_in_order :
    delivered (run noCrypto (.new .none sampleSessionId)
      [samplePacket pControlHardResetServerV2 0 [], samplePacket pControlV1 1 [42]]).log =
        [42] := by
  have hreset := sampleReset_brings fun _ => [42]
  have hdata := sampleData_brings
  have harrivals : Arrivals noCrypto .none 0 (fun _ => [42]) 1
      [samplePacket pControlHardResetServerV2 0 []] (samplePacket pControlV1 1 [42]) 1 := by
    refine ⟨fun call hcall => ?_, le_refl 1, hdata, fun call hcall hbrings => ?_, fun i hi => ?_⟩
    · rw [List.mem_singleton.1 hcall]
      exact .inr ⟨0, zero_le 1, hreset⟩
    · rw [List.mem_singleton.1 hcall] at hbrings
      exact absurd (hbrings.unique (by decide) (by decide) hreset) one_ne_zero
    · rcases le_one_iff_eq_zero_or_eq_one.1 hi with rfl | rfl
      · exact ⟨_, List.mem_cons_self, hreset⟩
      · exact ⟨_, List.mem_cons_of_mem _ List.mem_cons_self, hdata⟩
  exact (stream_is_delivered (c := .new .none sampleSessionId) rfl rfl (by decide)
    (fun _ _ _ => List.cons_ne_nil _ _) harrivals).1.2 (.inr one_ne_zero)

/-- The chunk before the reset: both have arrived and nothing has been delivered. -/
theorem reset_last_loses_the_stream :
    Arrivals noCrypto .none 0 (fun _ => [42]) 1 [samplePacket pControlV1 1 [42]]
      (samplePacket pControlHardResetServerV2 0 []) 0 ∧
    delivered (run noCrypto (.new .none sampleSessionId)
      ([samplePacket pControlV1 1 [42]] ++ [samplePacket pControlHardResetServerV2 0 []])).log ≠
        (List.range' 1 1).flatMap fun _ => [42] := by
  have hreset := sampleReset_brings fun _ => [42]
  have hdata := sampleData_brings
  have harrivals : Arrivals noCrypto .none 0 (fun _ => [42]) 1 [samplePacket pControlV1 1 [42]]
      (samplePacket pControlHardResetServerV2 0 []) 0 := by
    refine ⟨fun call hcall => ?_, zero_le 1, hreset, fun call hcall hbrings => ?_, fun i hi => ?_⟩
    · rw [List.mem_singleton.1 hcall]
      exact .inr ⟨1, le_refl 1, hdata⟩
    · rw [List.mem_singleton.1 hcall] at hbrings
      cases hbrings.unique (by decide) (by decide) hdata
    · rcases le_one_iff_eq_zero_or_eq_one.1 hi with rfl | rfl
      · exact ⟨_, List.mem_cons_of_mem _ List.mem_cons_self, hreset⟩
      · exact ⟨_, List.mem_cons_self, hdata⟩
  refine ⟨harrivals, ?_⟩
  decide

end GamePath.Engine.OpenVpn
