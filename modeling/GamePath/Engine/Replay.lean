import GamePath.Lib.WordBitmap
import GamePath.Lib.Run

/-!
# The replay window

`engine/src/replay.rs`. A window remembers which of the last `window` sequences it has accepted in
a circular bitmap indexed by the sequence itself, so two sequences a multiple of `window` apart
share one bit. `Represents` ties a window to the plain set of sequences it has accepted: the bit of
every sequence still in reach says whether that sequence is in the set. `accept_represents` is the
one step lemma; `accept_run_iff` follows for every run of calls.
-/

namespace GamePath.Engine.Replay

open Lib WordBitmap
open UInt64 (le_iff_toNat_le lt_iff_toNat_lt not_le toNat_div toNat_inj toNat_mod)

/-- `WINDOW`: sequences the window remembers. -/
def window : UInt64 := 8192

/-- `WORDS`: words of the bitmap. -/
def words : Nat := (window / 64).toNat

/-- Sliding replay window over a monotonically allocated sequence space. -/
structure ReplayWindow where
  highest : UInt64
  seen : Vector UInt64 words
  initialized : Bool

namespace ReplayWindow

def default : ReplayWindow := ⟨0, empty words, false⟩

theorem position_lt (sequence : UInt64) : (sequence % window / 64).toNat < words := by
  have h : (sequence % window).toNat < 8192 := by
    exact Nat.mod_lt _ (by decide)
  show (sequence % window).toNat / 64 < 128
  omega

/-- `slot`: the word and the bit a sequence is recorded in. -/
def slot (sequence : UInt64) : Slot words :=
  let position := sequence % window
  (⟨(position / 64).toNat, position_lt sequence⟩, 1 <<< (position % 64))

variable (w : ReplayWindow)

def isSet (sequence : UInt64) : Bool :=
  test w.seen (slot sequence)

def set (sequence : UInt64) : ReplayWindow :=
  { w with seen := insert w.seen (slot sequence) }

def clear (sequence : UInt64) : ReplayWindow :=
  { w with seen := erase w.seen (slot sequence) }

/-- `would_accept`: checks without consuming a sequence. -/
def wouldAccept (sequence : UInt64) : Bool :=
  !w.initialized || decide (w.highest < sequence) ||
    (decide (w.highest - sequence < window) && !w.isSet sequence)

def saturatingSub (a b : UInt64) : UInt64 := if b ≤ a then a - b else 0

def isTooOld (sequence : UInt64) : Bool :=
  w.initialized && decide (window ≤ saturatingSub w.highest sequence)

/-- The sequences strictly between two others, in the order a range loop visits them. -/
def skipped (first last : UInt64) : List UInt64 :=
  (List.range' (first.toNat + 1) (last.toNat - (first.toNat + 1))).map UInt64.ofNat

/-- The bitmap side of moving the window forward to `sequence`. -/
def forget (sequence : UInt64) : ReplayWindow :=
  let advance := sequence - w.highest
  if window ≤ advance then
    -- Nothing recorded is still inside the window.
    { w with seen := empty words }
  else
    (skipped w.highest sequence).foldl clear w

/-- `accept`: records a sequence and reports whether it is the first time it has been seen. -/
def accept (sequence : UInt64) : ReplayWindow × Bool :=
  if !w.initialized then
    (({ w with initialized := true, highest := sequence } : ReplayWindow).set sequence, true)
  else if w.highest < sequence then
    (({ w.forget sequence with highest := sequence } : ReplayWindow).set sequence, true)
  else if window ≤ w.highest - sequence || w.isSet sequence then
    (w, false)
  else
    (w.set sequence, true)

/-! ## The bitmap by sequence -/

/-- The position of a sequence in the circular bitmap. -/
def positionOf (sequence : UInt64) : Fin (64 * words) :=
  ⟨sequence.toNat % 8192, Nat.mod_lt _ (by decide)⟩

theorem slot_eq (sequence : UInt64) : slot sequence = slotOf (positionOf sequence) := by
  have hmod : (sequence % window).toNat = sequence.toNat % 8192 := toNat_mod _ _
  refine Prod.ext (Fin.ext ?_) ?_
  · show (sequence % window / 64).toNat = sequence.toNat % 8192 / 64
    rfl
  show (1 : UInt64) <<< (sequence % window % 64) =
    1 <<< UInt64.ofNat (sequence.toNat % 8192 % 64)
  congr 1
  rw [← toNat_inj, toNat_mod, UInt64.toNat_ofNat']
  show sequence.toNat % 8192 % 64 = _
  omega

/-- Two sequences share a bit when they are congruent modulo the window. -/
def SameBit (a b : UInt64) : Prop := a.toNat % 8192 = b.toNat % 8192

instance (a b : UInt64) : Decidable (SameBit a b) := inferInstanceAs (Decidable (_ = _))

theorem positionOf_eq_iff (a b : UInt64) : positionOf a = positionOf b ↔ SameBit a b := by
  rw [Fin.ext_iff]
  rfl

@[simp] theorem isSet_set (a b : UInt64) :
    (w.set a).isSet b = (decide (SameBit b a) || w.isSet b) := by
  simp only [isSet, set, slot_eq, test_insert, positionOf_eq_iff]

@[simp] theorem isSet_clear (a b : UInt64) :
    (w.clear a).isSet b = (!decide (SameBit b a) && w.isSet b) := by
  simp only [isSet, clear, slot_eq, test_erase, positionOf_eq_iff]

theorem isSet_empty (highest : UInt64) (init : Bool) (s : UInt64) :
    isSet ⟨highest, empty words, init⟩ s = false := by
  simp only [isSet, slot_eq, test_empty]

theorem isSet_foldl_clear (cleared : List UInt64) (w : ReplayWindow) (s : UInt64) :
    (cleared.foldl clear w).isSet s = true ↔
      w.isSet s = true ∧ ∀ c ∈ cleared, ¬ SameBit s c := by
  induction cleared generalizing w with
  | nil => simp
  | cons c cs ih =>
    rw [List.foldl_cons, ih, isSet_clear]
    simp only [Bool.and_eq_true, Bool.not_eq_true', decide_eq_false_iff_not, List.mem_cons,
      forall_eq_or_imp]
    tauto

theorem initialized_foldl_clear (cleared : List UInt64) (w : ReplayWindow) :
    (cleared.foldl clear w).initialized = w.initialized := by
  induction cleared generalizing w with
  | nil => rfl
  | cons c cs ih => exact ih (w.clear c)

theorem mem_skipped {first last s : UInt64} :
    s ∈ skipped first last ↔ first.toNat < s.toNat ∧ s.toNat < last.toNat := by
  unfold skipped
  simp only [List.mem_map, List.mem_range'_1]
  constructor
  · rintro ⟨k, ⟨hlo, hhi⟩, rfl⟩
    have hlast := last.toNat_lt
    have hk : (UInt64.ofNat k).toNat = k :=
      UInt64.toNat_ofNat_of_lt' (show k < 2 ^ 64 by omega)
    omega
  · intro h
    exact ⟨s.toNat, by omega, UInt64.ofNat_toNat⟩

/-! ## Windows and the sets they stand for -/

/-- A sequence the window ought to accept after accepting the sequences `accepted`: not one of
them, and not a whole window behind any of them. -/
def Fresh (accepted : Finset UInt64) (s : UInt64) : Prop :=
  s ∉ accepted ∧ ∀ h ∈ accepted, h.toNat < s.toNat + 8192

instance (accepted : Finset UInt64) (s : UInt64) : Decidable (Fresh accepted s) :=
  inferInstanceAs (Decidable (_ ∧ _))

/-- The window `w` has accepted exactly the sequences `accepted`. Only the bits of sequences less
than a window behind the highest one are tied to the set: the others alias them. -/
structure Represents (w : ReplayWindow) (accepted : Finset UInt64) : Prop where
  unused : w.initialized = false → w.seen = empty words ∧ accepted = ∅
  highest_mem : w.initialized = true → w.highest ∈ accepted
  le_highest : ∀ a ∈ accepted, a.toNat ≤ w.highest.toNat
  isSet_iff : w.initialized = true → ∀ s : UInt64, s.toNat ≤ w.highest.toNat →
    w.highest.toNat < s.toNat + 8192 → (w.isSet s = true ↔ s ∈ accepted)

theorem represents_default : Represents default ∅ where
  unused := fun _ => ⟨rfl, rfl⟩
  highest_mem := nofun
  le_highest := fun a h => absurd h (Finset.notMem_empty a)
  isSet_iff := nofun

theorem window_le_sub_iff {a b : UInt64} (h : b.toNat ≤ a.toNat) :
    window ≤ a - b ↔ b.toNat + 8192 ≤ a.toNat := by
  rw [le_iff_toNat_le, UInt64.toNat_sub_of_le _ _ (le_iff_toNat_le.2 h)]
  show 8192 ≤ a.toNat - b.toNat ↔ _
  omega

section Step

variable {w : ReplayWindow} {accepted : Finset UInt64}

/-- The window refuses a sequence exactly when it is old or already accepted. -/
theorem wouldAccept_eq_fresh (hw : Represents w accepted) (s : UInt64) :
    w.wouldAccept s = decide (Fresh accepted s) := by
  rw [Bool.eq_iff_iff, decide_eq_true_iff]
  unfold wouldAccept Fresh
  cases hinit : w.initialized with
  | false =>
    obtain ⟨-, rfl⟩ := hw.unused hinit
    simp
  | true =>
    have hmem := hw.highest_mem hinit
    by_cases hlt : w.highest.toNat < s.toNat
    · -- Above everything accepted: always fresh.
      have hlt' : w.highest < s := lt_iff_toNat_lt.2 hlt
      have hnot : s ∉ accepted := fun h => absurd (hw.le_highest s h) (by omega)
      have hall : ∀ h ∈ accepted, h.toNat < s.toNat + 8192 := by
        intro h hh
        have := hw.le_highest h hh
        omega
      simp only [hlt', decide_true, Bool.or_true, Bool.true_or, true_iff]
      exact ⟨hnot, hall⟩
    -- Not above: within the window the bit decides, below it nothing is fresh.
    have hlt' : ¬ w.highest < s := fun h => hlt (lt_iff_toNat_lt.1 h)
    have hle : s.toNat ≤ w.highest.toNat := by omega
    have hreach : w.highest - s < window ↔ w.highest.toNat < s.toNat + 8192 := by
      rw [← not_le, window_le_sub_iff hle]
      omega
    simp only [Bool.not_true, hlt', decide_false, Bool.or_false, Bool.false_or,
      Bool.and_eq_true, decide_eq_true_eq, Bool.not_eq_true', hreach]
    constructor
    · rintro ⟨hr, hset⟩
      refine ⟨fun h => ?_, fun h hh => ?_⟩
      · rw [(hw.isSet_iff hinit s hle hr).2 h] at hset
        cases hset
      · have := hw.le_highest h hh
        omega
    · rintro ⟨hnot, hall⟩
      have hr := hall _ hmem
      refine ⟨hr, ?_⟩
      rw [Bool.eq_false_iff]
      exact fun h => hnot ((hw.isSet_iff hinit s hle hr).1 h)

theorem accept_snd_eq_wouldAccept (w : ReplayWindow) (s : UInt64) :
    (w.accept s).2 = w.wouldAccept s := by
  unfold accept wouldAccept
  cases hinit : w.initialized with
  | false => simp
  | true =>
    by_cases hlt : w.highest < s
    · simp [hlt]
    have hreach : (w.highest - s < window) ↔ ¬ window ≤ w.highest - s := not_le.symm
    by_cases hold : window ≤ w.highest - s
    · simp [hlt, hold, hreach]
    · cases hset : w.isSet s with
      | false => simp [hlt, hold, hreach]
      | true => simp [hlt]

theorem accept_fst_of_refused {s : UInt64} (h : (w.accept s).2 = false) :
    (w.accept s).1 = w := by
  unfold accept at h ⊢
  split_ifs at h ⊢ with h1 h2 h3
  rfl

theorem sameBit_iff_eq {a b : UInt64} (h1 : a.toNat < b.toNat + 8192)
    (h2 : b.toNat < a.toNat + 8192) : SameBit a b ↔ a = b := by
  rw [← toNat_inj]
  unfold SameBit
  omega

section

variable (hw : Represents w accepted)
include hw

theorem represents_accept_first (hinit : w.initialized = false) (s : UInt64) :
    Represents (({ w with initialized := true, highest := s } : ReplayWindow).set s)
      (insert s accepted) := by
  obtain ⟨hseen, rfl⟩ := hw.unused hinit
  refine ⟨nofun, fun _ => Finset.mem_insert_self _ _, ?_, ?_⟩
  · intro a ha
    rw [Finset.mem_insert, or_iff_left (Finset.notMem_empty a)] at ha
    rw [ha]
    exact Nat.le_refl _
  intro _ t hle hreach
  change t.toNat ≤ s.toNat at hle
  change s.toNat < t.toNat + 8192 at hreach
  rw [isSet_set, hseen, isSet_empty, Bool.or_false, decide_eq_true_iff,
    sameBit_iff_eq (by omega) hreach]
  simp

/-- After moving forward to `s`, the bits left inside the new window are the ones of accepted
sequences: the skipped ones are clear, and none of the kept ones aliases a skipped one. -/
theorem isSet_forget_iff (hinit : w.initialized = true) {s t : UInt64}
    (hlt : w.highest.toNat < s.toNat)
    (hts : t.toNat < s.toNat) (hreach : s.toNat < t.toNat + 8192) :
    (w.forget s).isSet t = true ↔ t ∈ accepted := by
  unfold forget
  have hjump : window ≤ s - w.highest ↔ w.highest.toNat + 8192 ≤ s.toNat :=
    window_le_sub_iff (by omega)
  by_cases hfar : window ≤ s - w.highest
  · -- A jump past the whole window: every bit is cleared, and nothing accepted is in reach.
    have hnot : t ∉ accepted := by
      intro h
      have := hw.le_highest t h
      have := hjump.1 hfar
      omega
    simp [hfar, isSet_empty, hnot]
  simp only [hfar, ↓reduceIte, isSet_foldl_clear]
  by_cases hold : t.toNat ≤ w.highest.toNat
  · -- An old sequence in reach of the new one: none of the skipped ones shares its bit.
    rw [hw.isSet_iff hinit t hold (by omega), and_iff_left_iff_imp]
    intro _ c hc hsame
    obtain ⟨hc1, hc2⟩ := mem_skipped.1 hc
    rw [sameBit_iff_eq (by omega) (by omega), ← toNat_inj] at hsame
    omega
  · -- A skipped sequence: its bit is among those cleared.
    have hnot : t ∉ accepted := fun h => hold (hw.le_highest t h)
    have hskip : t ∈ skipped w.highest s := mem_skipped.2 ⟨by omega, hts⟩
    simp only [hnot, iff_false, not_and]
    exact fun _ h => h t hskip rfl

omit hw in
theorem initialized_forget (w : ReplayWindow) (s : UInt64) :
    (w.forget s).initialized = w.initialized := by
  unfold forget
  dsimp only
  split
  · rfl
  · exact initialized_foldl_clear _ w

/-- A sequence past the highest one moves the window forward. -/
theorem represents_accept_forward (hinit : w.initialized = true) {s : UInt64}
    (hlt : w.highest.toNat < s.toNat) :
    Represents (({ w.forget s with highest := s } : ReplayWindow).set s) (insert s accepted) := by
  have hinit' : (({ w.forget s with highest := s } : ReplayWindow).set s).initialized = true := by
    show (w.forget s).initialized = true
    rw [initialized_forget, hinit]
  refine ⟨fun h => ?_, fun _ => Finset.mem_insert_self _ _, ?_, ?_⟩
  · rw [hinit'] at h
    cases h
  · intro a ha
    show a.toNat ≤ s.toNat
    rcases Finset.mem_insert.1 ha with rfl | ha
    · exact Nat.le_refl _
    · have := hw.le_highest a ha
      omega
  intro _ t hle hreach
  change t.toNat ≤ s.toNat at hle
  change s.toNat < t.toNat + 8192 at hreach
  -- Both are within one window, so they share a bit only if they are the same.
  rw [isSet_set, Bool.or_eq_true, decide_eq_true_iff, sameBit_iff_eq (by omega) hreach,
    Finset.mem_insert]
  by_cases hts : t = s
  · simp [hts]
  have hts' : t.toNat < s.toNat := by
    have := toNat_inj.not.2 hts
    omega
  have hforget := isSet_forget_iff hw hinit hlt hts' hreach
  simp only [hts, false_or]
  exact hforget

theorem represents_accept_inside (hinit : w.initialized = true) {s : UInt64}
    (hle : s.toNat ≤ w.highest.toNat) (hnear : w.highest.toNat < s.toNat + 8192) :
    Represents (w.set s) (insert s accepted) := by
  refine ⟨fun h => ?_, fun _ => Finset.mem_insert_of_mem (hw.highest_mem hinit), ?_, ?_⟩
  · change w.initialized = false at h
    rw [hinit] at h
    cases h
  · intro a ha
    rcases Finset.mem_insert.1 ha with rfl | ha
    · exact hle
    · exact hw.le_highest a ha
  · intro _ t htle htnear
    change t.toNat ≤ w.highest.toNat at htle
    change w.highest.toNat < t.toNat + 8192 at htnear
    rw [isSet_set, Bool.or_eq_true, decide_eq_true_iff, sameBit_iff_eq (by omega) (by omega),
      hw.isSet_iff hinit t htle htnear, Finset.mem_insert]

/-- One call: the answer is freshness, and an accepted sequence joins the set. -/
theorem accept_represents (s : UInt64) :
    (w.accept s).2 = decide (Fresh accepted s) ∧
      Represents (w.accept s).1 (if Fresh accepted s then insert s accepted else accepted) := by
  have hanswer : (w.accept s).2 = decide (Fresh accepted s) := by
    rw [accept_snd_eq_wouldAccept, wouldAccept_eq_fresh hw]
  refine ⟨hanswer, ?_⟩
  by_cases hfresh : Fresh accepted s
  · have htrue : (w.accept s).2 = true := by rw [hanswer, decide_eq_true hfresh]
    unfold accept at htrue ⊢
    split_ifs at htrue ⊢ with h1 h2 h3
    · exact represents_accept_first hw (by simpa using h1) s
    · exact represents_accept_forward hw (by simpa using h1) (lt_iff_toNat_lt.1 h2)
    · have hinit : w.initialized = true := by simpa using h1
      have hle : s.toNat ≤ w.highest.toNat := by
        rw [lt_iff_toNat_lt] at h2
        omega
      exact represents_accept_inside hw hinit hle (hfresh.2 _ (hw.highest_mem hinit))
  · rw [if_neg hfresh, accept_fst_of_refused (by rw [hanswer, decide_eq_false hfresh])]
    exact hw

end

end Step

/-! ## Whole runs -/

/-- The sequences a log of calls reports as accepted. -/
def acceptedIn (log : List (UInt64 × Bool)) : Finset UInt64 :=
  ((log.filter fun call => call.2).map Prod.fst).toFinset

theorem mem_acceptedIn {log : List (UInt64 × Bool)} {s : UInt64} :
    s ∈ acceptedIn log ↔ (s, true) ∈ log := by
  simp [acceptedIn]

theorem acceptedIn_concat (log : List (UInt64 × Bool)) (s : UInt64) (b : Bool) :
    acceptedIn (log ++ [(s, b)]) = if b then insert s (acceptedIn log) else acceptedIn log := by
  ext t
  cases b <;> simp [mem_acceptedIn, or_comm]

/-- A run of `accept` calls on a new window. -/
def acceptRun (calls : List UInt64) : Run.Config ReplayWindow UInt64 Bool :=
  Run.exec accept default calls

/-- In every reachable state the window stands for the sequences it has answered `true` for. -/
theorem acceptRun_represents (calls : List UInt64) :
    Represents (acceptRun calls).state (acceptedIn (acceptRun calls).log) := by
  refine Run.exec_invariant (I := fun c => Represents c.state (acceptedIn c.log))
    represents_default (fun c s hc => ?_) calls
  obtain ⟨hanswer, hnext⟩ := accept_represents hc s
  rw [Run.advance_log, acceptedIn_concat, hanswer]
  simpa using hnext

theorem acceptRun_initialized (calls : List UInt64) :
    (acceptRun calls).state.initialized = true ↔ calls ≠ [] := by
  constructor
  · rintro h rfl
    cases h
  intro h
  obtain ⟨front, s, rfl⟩ := List.eq_nil_or_concat calls |>.resolve_left h
  have hsplit : acceptRun (front ++ [s]) = Run.advance accept (acceptRun front) s := by
    simp [acceptRun, Run.exec, Run.execFrom_append]
  rw [List.concat_eq_append, hsplit, Run.advance_state]
  unfold accept
  split_ifs with h1 h2 h3
  · rfl
  · show ((acceptRun front).state.forget s).initialized = true
    rw [initialized_forget]
    simpa using h1
  · simpa using h1
  · simpa [set] using h1

/-- The largest sequence a log of calls reports as accepted. -/
def IsHighest (log : List (UInt64 × Bool)) (h : UInt64) : Prop :=
  (h, true) ∈ log ∧ ∀ q, (q, true) ∈ log → q ≤ h

theorem isHighest_iff {calls : List UInt64} (hcalls : calls ≠ []) (h : UInt64) :
    IsHighest (acceptRun calls).log h ↔ h = (acceptRun calls).state.highest := by
  have hrep := acceptRun_represents calls
  have hmem := mem_acceptedIn.1 (hrep.highest_mem ((acceptRun_initialized calls).2 hcalls))
  have hle : ∀ q, (q, true) ∈ (acceptRun calls).log → q ≤ (acceptRun calls).state.highest :=
    fun q hq => le_iff_toNat_le.2 (hrep.le_highest q (mem_acceptedIn.2 hq))
  constructor
  · rintro ⟨hin, hmax⟩
    exact UInt64.le_antisymm (hle h hin) (hmax _ hmem)
  · rintro rfl
    exact ⟨hmem, hle⟩

theorem isTooOld_iff (s : UInt64) :
    w.isTooOld s = true ↔ w.initialized = true ∧ s.toNat + 8192 ≤ w.highest.toNat := by
  unfold isTooOld saturatingSub
  rw [Bool.and_eq_true, decide_eq_true_iff]
  by_cases hle : s ≤ w.highest
  · rw [if_pos hle, window_le_sub_iff (le_iff_toNat_le.1 hle)]
  · rw [if_neg hle]
    rw [le_iff_toNat_le] at hle
    have hzero : ¬ window ≤ 0 := by decide
    simp only [hzero, and_false, false_iff, not_and]
    omega

/-- After any run of calls on a new window, the next call answers `true` exactly for a sequence no
earlier call answered `true` for that is not `window` or more behind the highest one accepted;
`would_accept` announces that answer, and `is_too_old` holds exactly for the sequences `window` or
more behind. -/
theorem accept_run_iff (calls : List UInt64) (s : UInt64) :
    (((acceptRun calls).state.accept s).2 = true ↔
      (s, true) ∉ (acceptRun calls).log ∧
        (calls = [] ∨ ∃ h, IsHighest (acceptRun calls).log h ∧ (h < s ∨ h - s < window))) ∧
    (acceptRun calls).state.wouldAccept s = ((acceptRun calls).state.accept s).2 ∧
    ((acceptRun calls).state.isTooOld s = true ↔
      (acceptRun calls).state.initialized = true ∧
        ∃ h, IsHighest (acceptRun calls).log h ∧ s.toNat + window.toNat ≤ h.toNat) := by
  have hrep := acceptRun_represents calls
  refine ⟨?_, (accept_snd_eq_wouldAccept _ s).symm, ?_⟩
  · rw [(accept_represents hrep s).1, decide_eq_true_iff, Fresh, mem_acceptedIn]
    refine and_congr_right fun _ => ?_
    -- A window that has seen calls has a highest sequence: the first call is always accepted.
    by_cases hcalls : calls = []
    · subst hcalls
      simp [acceptRun, Run.exec, acceptedIn]
    simp only [hcalls, false_or, isHighest_iff hcalls, exists_eq_left]
    have hmem := hrep.highest_mem ((acceptRun_initialized calls).2 hcalls)
    constructor
    · intro hall
      have hnear := hall _ hmem
      by_cases hlt : (acceptRun calls).state.highest < s
      · exact .inl hlt
      · rw [lt_iff_toNat_lt] at hlt
        refine .inr (not_le.1 fun hfar => ?_)
        rw [window_le_sub_iff (by omega)] at hfar
        omega
    intro hnear h hh
    have hle := hrep.le_highest h hh
    by_cases hlt : (acceptRun calls).state.highest < s
    · rw [lt_iff_toNat_lt] at hlt
      omega
    · have hsub := hnear.resolve_left hlt
      rw [lt_iff_toNat_lt] at hlt
      rw [← not_le, window_le_sub_iff (by omega)] at hsub
      omega
  · rw [isTooOld_iff]
    refine and_congr_right fun hinit => ?_
    simp only [isHighest_iff ((acceptRun_initialized calls).1 hinit), exists_eq_left]
    rfl

end ReplayWindow

end GamePath.Engine.Replay
