import Mathlib.Data.List.Nodup
import Mathlib.Tactic

/-!
# Counters that are restarted from a clock

Numbers are issued one after the other by a counter that is forgotten now and then and started again
from a reading of a clock. A history is a list of readings and issued numbers. If each reading is
ahead of every earlier one by more than what was issued in between (`Paced`), the numbers only ever
increase, however often the counter starts again: `Numbered` is kept by a restart
(`Numbered.reading`), by a number that is itself a reading (`Numbered.issueReading`) and by the
counter (`Numbered.next`).
-/

namespace GamePath.Lib.RestartedCounter

open List

/-- What a history is made of. -/
inductive Mark where
  | reading (value : Nat)
  | issue (number : Nat)

/-- The numbers issued. -/
def issued : List Mark → List Nat
  | [] => []
  | .reading _ :: marks => issued marks
  | .issue number :: marks => number :: issued marks

/-- The readings, each with how many numbers are issued before it, counted from `n`. -/
def readingsFrom : Nat → List Mark → List (Nat × Nat)
  | _, [] => []
  | n, .reading value :: marks => (n, value) :: readingsFrom n marks
  | n, .issue _ :: marks => readingsFrom (n + 1) marks

/-- Of any two readings the later one is greater by more than what is issued between them. -/
def Paced : List Mark → Prop
  | [] => True
  | .issue _ :: marks => Paced marks
  | .reading value :: marks =>
    (∀ later ∈ readingsFrom 0 marks, value + later.1 < later.2) ∧ Paced marks

/-- Counting on from any reading stays below the limit. -/
def Bounded (limit : Nat) : List Mark → Prop
  | [] => True
  | .issue _ :: marks => Bounded limit marks
  | .reading value :: marks => value + (issued marks).length < limit ∧ Bounded limit marks

instance decidablePaced : (marks : List Mark) → Decidable (Paced marks)
  | [] => isTrue trivial
  | .issue _ :: marks => decidablePaced marks
  | .reading _ :: marks => @instDecidableAnd _ _ inferInstance (decidablePaced marks)

instance decidableBounded (limit : Nat) : (marks : List Mark) → Decidable (Bounded limit marks)
  | [] => isTrue trivial
  | .issue _ :: marks => decidableBounded limit marks
  | .reading _ :: marks => @instDecidableAnd _ _ inferInstance (decidableBounded limit marks)

/-- Where a counter stands: at the last reading, or past it by what was issued since. -/
def topFrom : Option Nat → List Mark → Option Nat
  | top, [] => top
  | _, .reading value :: marks => topFrom (some value) marks
  | top, .issue _ :: marks => topFrom (top.map (· + 1)) marks

/-- Where a counter stands at the end of a history. -/
def top (marks : List Mark) : Option Nat := topFrom none marks

theorem issued_append (marks marks' : List Mark) :
    issued (marks ++ marks') = issued marks ++ issued marks' := by
  induction marks with
  | nil => rfl
  | cons mark marks ih =>
    cases mark with
    | reading value => exact ih
    | issue number => exact congrArg (number :: ·) ih

variable (marks : List Mark)

theorem issued_concat_reading (value : Nat) :
    issued (marks ++ [.reading value]) = issued marks := by
  rw [issued_append]
  exact append_nil _

theorem topFrom_append (start : Option Nat) (marks marks' : List Mark) :
    topFrom start (marks ++ marks') = topFrom (topFrom start marks) marks' := by
  induction marks generalizing start with
  | nil => rfl
  | cons mark marks ih =>
    cases mark with
    | reading | issue => exact ih _

theorem top_append (marks marks' : List Mark) :
    top (marks ++ marks') = topFrom (top marks) marks' :=
  topFrom_append none marks marks'

theorem mem_readingsFrom (marks rest : List Mark) (value n : Nat) :
    (n + (issued marks).length, value) ∈ readingsFrom n (marks ++ .reading value :: rest) := by
  induction marks generalizing n with
  | nil => exact mem_cons_self
  | cons mark marks ih =>
    cases mark with
    | reading other => exact mem_cons_of_mem _ (ih n)
    | issue number =>
      have hlast := ih (n + 1)
      rw [Nat.add_assoc, Nat.add_comm 1] at hlast
      exact hlast

theorem Paced.topFrom_lt {rest : List Mark} {value : Nat} :
    ∀ start : Option Nat, Paced (marks ++ .reading value :: rest) →
      (∀ k, start = some k → k + (issued marks).length < value) →
      ∀ t, topFrom start marks = some t → t < value := by
  induction marks with
  | nil =>
    intro start _ hstart t ht
    exact hstart t ht
  | cons mark marks ih =>
    intro start hpaced hstart t ht
    cases mark with
    | reading other =>
      refine ih (some other) hpaced.2 ?_ t ht
      intro k hk
      cases hk
      have hlater := hpaced.1 _ (mem_readingsFrom marks rest value 0)
      rw [Nat.zero_add] at hlater
      exact hlater
    | issue number =>
      refine ih (start.map (· + 1)) hpaced ?_ t ht
      intro k hk
      obtain ⟨k', hk', rfl⟩ := Option.map_eq_some_iff.1 hk
      have hbelow : k' + ((issued marks).length + 1) < value := hstart k' hk'
      omega

/-- A reading is ahead of where the counter stands. -/
theorem Paced.top_lt {marks rest : List Mark} {value t : Nat}
    (h : Paced (marks ++ .reading value :: rest)) (ht : top marks = some t) : t < value := by
  refine Paced.topFrom_lt marks none h ?_ t ht
  intro k hk
  cases hk

theorem Bounded.topFrom_lt {limit : Nat} {rest : List Mark} :
    ∀ start : Option Nat, Bounded limit (marks ++ rest) →
      (∀ k, start = some k → k + (issued (marks ++ rest)).length < limit) →
      ∀ t, topFrom start marks = some t → t + (issued rest).length < limit := by
  induction marks with
  | nil =>
    intro start _ hstart t ht
    exact hstart t ht
  | cons mark marks ih =>
    intro start hbounded hstart t ht
    cases mark with
    | reading value =>
      refine ih (some value) hbounded.2 ?_ t ht
      intro k hk
      cases hk
      exact hbounded.1
    | issue number =>
      refine ih (start.map (· + 1)) hbounded ?_ t ht
      intro k hk
      obtain ⟨k', hk', rfl⟩ := Option.map_eq_some_iff.1 hk
      have hbelow : k' + ((issued (marks ++ rest)).length + 1) < limit := hstart k' hk'
      omega

/-- Where the counter stands is below the limit, with what is still to come. -/
theorem Bounded.top_lt {limit : Nat} {marks rest : List Mark} {t : Nat}
    (h : Bounded limit (marks ++ rest)) (ht : top marks = some t) :
    t + (issued rest).length < limit := by
  refine Bounded.topFrom_lt marks none h ?_ t ht
  intro k hk
  cases hk

/-- The numbers issued increase and none is past where the counter stands. -/
structure Numbered (marks : List Mark) : Prop where
  sorted : (issued marks).Pairwise (· < ·)
  below : ∀ number ∈ issued marks, ∃ t, top marks = some t ∧ number ≤ t

theorem numbered_nil : Numbered [] :=
  ⟨List.Pairwise.nil, nofun⟩

section Steps

variable {marks : List Mark} {value t : Nat}

/-- A number past where the counter stands joins the others. -/
theorem Numbered.sorted_concat (h : Numbered marks) {number : Nat}
    (hpast : ∀ t, top marks = some t → t < number) :
    (issued marks ++ [number]).Pairwise (· < ·) := by
  refine pairwise_append.2 ⟨h.sorted, pairwise_singleton _ _, ?_⟩
  intro other hother last hlast
  obtain ⟨t, ht, hle⟩ := h.below other hother
  rw [mem_singleton.1 hlast]
  exact lt_of_le_of_lt hle (hpast t ht)

/-- The counter starts again. -/
theorem Numbered.reading (h : Numbered marks) (hpast : ∀ t, top marks = some t → t < value) :
    Numbered (marks ++ [.reading value]) := by
  constructor
  · rw [issued_concat_reading]
    exact h.sorted
  intro number hnumber
  rw [issued_concat_reading] at hnumber
  obtain ⟨t, ht, hle⟩ := h.below number hnumber
  refine ⟨value, ?_, le_of_lt (lt_of_le_of_lt hle (hpast t ht))⟩
  rw [top_append]
  rfl

/-- A reading is issued as it is. -/
theorem Numbered.issueReading (h : Numbered marks) (hpast : ∀ t, top marks = some t → t < value) :
    Numbered (marks ++ [.reading value, .issue value]) := by
  have htop : top (marks ++ [.reading value, .issue value]) = some (value + 1) := by
    rw [top_append]
    rfl
  constructor
  · rw [issued_append]
    exact h.sorted_concat hpast
  intro number hnumber
  rw [issued_append] at hnumber
  refine ⟨value + 1, htop, ?_⟩
  rcases mem_append.1 hnumber with hold | hnew
  · obtain ⟨t, ht, hle⟩ := h.below number hold
    have hlt := hpast t ht
    omega
  · rw [mem_singleton.1 hnew]
    omega

/-- The counter issues its next number. -/
theorem Numbered.next (h : Numbered marks) (ht : top marks = some t) :
    Numbered (marks ++ [.issue (t + 1)]) ∧ top (marks ++ [.issue (t + 1)]) = some (t + 1) := by
  have htop : top (marks ++ [.issue (t + 1)]) = some (t + 1) := by
    rw [top_append, ht]
    rfl
  refine ⟨⟨?_, ?_⟩, htop⟩
  · rw [issued_append]
    refine h.sorted_concat ?_
    intro t' ht'
    rw [ht] at ht'
    cases ht'
    exact Nat.lt_succ_self t
  intro number hnumber
  rw [issued_append] at hnumber
  refine ⟨t + 1, htop, ?_⟩
  rcases mem_append.1 hnumber with hold | hnew
  · obtain ⟨t', ht', hle⟩ := h.below number hold
    rw [ht] at ht'
    cases ht'
    omega
  · rw [mem_singleton.1 hnew]

/-- The numbers a counter that stands at `t` issues next. -/
def following (t : Nat) : Nat → List Nat
  | 0 => []
  | n + 1 => following t n ++ [t + n + 1]

/-- The counter issues its next `n` numbers. -/
theorem Numbered.following (h : Numbered marks) (ht : top marks = some t) (n : Nat) :
    Numbered (marks ++ (following t n).map .issue) ∧
      top (marks ++ (following t n).map .issue) = some (t + n) := by
  induction n with
  | zero => exact ⟨(append_nil marks).symm ▸ h, (append_nil marks).symm ▸ ht⟩
  | succ n ih =>
    rw [RestartedCounter.following, map_append, ← append_assoc]
    exact ih.1.next ih.2

end Steps

end GamePath.Lib.RestartedCounter
