import Mathlib.Data.List.TakeDrop

/-!
# Machines that are fed in pieces

A machine looks at its buffer from the front. It waits for more, or it uses some of the buffer and
goes on in another state, or it is over. The buffer is filled in pieces, up to a limit, and after
each piece the machine runs until it waits or is over (`Feeds`).

`Whole` is the run on an input that is there from the start. A machine is steady on an input when
what it does with a front of it, it does with as much of it as fits in the buffer. Such a machine
comes to the same whatever the pieces are (`Steady.feeds_unique`).
-/

namespace GamePath.Lib

open List

universe u v w

variable {σ : Type u} {α : Type v} {ρ : Type w}

/-- What a machine does with its buffer when it does not wait. -/
inductive Turn (σ : Type u) (ρ : Type w) where
  | on (state : σ) (used : ℕ)
  | ends (result : ρ) (used : ℕ)

/-- How much of the buffer it uses. -/
def Turn.used : Turn σ ρ → ℕ
  | .on _ used => used
  | .ends _ used => used

section Runs

variable (act : σ → List α → Option (Turn σ ρ)) (limit : ℕ)

/-- The machine runs on its buffer: to a state in which it waits or a result, with what it leaves.
-/
inductive Runs : σ → List α → σ ⊕ ρ → List α → Prop where
  | waits {s : σ} {buffer : List α} : act s buffer = none → Runs s buffer (.inl s) buffer
  | ends {s : σ} {buffer : List α} {r : ρ} {used : ℕ} :
      act s buffer = some (.ends r used) → Runs s buffer (.inr r) (buffer.drop used)
  | on {s s' : σ} {buffer left : List α} {used : ℕ} {x : σ ⊕ ρ} :
      act s buffer = some (.on s' used) → Runs s' (buffer.drop used) x left → Runs s buffer x left

/-- The machine is fed what is to come, in some pieces. -/
inductive Feeds : σ → List α → List α → σ ⊕ ρ → List α → Prop where
  | waits {s : σ} {buffer : List α} : Feeds s buffer [] (.inl s) buffer
  | piece {s s' : σ} {buffer buffer' piece rest left : List α} {x : σ ⊕ ρ} :
      buffer.length + piece.length ≤ limit → Runs act s (buffer ++ piece) (.inl s') buffer' →
      Feeds s' buffer' rest x left → Feeds s buffer (piece ++ rest) x left
  | ends {s : σ} {buffer buffer' piece rest : List α} {r : ρ} :
      buffer.length + piece.length ≤ limit → Runs act s (buffer ++ piece) (.inr r) buffer' →
      Feeds s buffer (piece ++ rest) (.inr r) (buffer' ++ rest)

/-- The machine runs on an input that is there from the start, as much of it as fits. -/
inductive Whole : σ → List α → σ ⊕ ρ → List α → Prop where
  | waits {s : σ} {input : List α} : act s (input.take limit) = none → Whole s input (.inl s) input
  | ends {s : σ} {input : List α} {r : ρ} {used : ℕ} :
      act s (input.take limit) = some (.ends r used) → Whole s input (.inr r) (input.drop used)
  | on {s s' : σ} {input left : List α} {used : ℕ} {x : σ ⊕ ρ} :
      act s (input.take limit) = some (.on s' used) → Whole s' (input.drop used) x left →
      Whole s input x left

/-- On the states and inputs of the invariant, what is done with a front is done with the whole. -/
structure Steady (I : σ → List α → Prop) : Prop where
  used_le : ∀ s buffer turn, act s buffer = some turn → turn.used ≤ buffer.length
  same : ∀ s input front turn, I s input → front <+: input.take limit → act s front = some turn →
    act s (input.take limit) = some turn
  next : ∀ s s' input used, I s input → act s (input.take limit) = some (.on s' used) →
    I s' (input.drop used)

end Runs

section Pieces

variable {act : σ → List α → Option (Turn σ ρ)} {limit : ℕ} {I : σ → List α → Prop}

/-- The run on the whole is one. -/
theorem Whole.unique {s : σ} {input left : List α} {x : σ ⊕ ρ}
    (h : Whole act limit s input x left) :
    ∀ {x' left'}, Whole act limit s input x' left' → x = x' ∧ left = left' := by
  induction h with
  | waits hact =>
    intro x' left' h'
    cases h' with
    | waits => exact ⟨rfl, rfl⟩
    | ends hact' | on hact' => rw [hact] at hact'; cases hact'
  | ends hact =>
    intro x' left' h'
    cases h' with
    | waits hact' | on hact' => rw [hact] at hact'; cases hact'
    | ends hact' =>
      rw [hact] at hact'
      cases hact'
      exact ⟨rfl, rfl⟩
  | on hact _ ih =>
    intro x' left' h'
    cases h' with
    | waits hact' | ends hact' => rw [hact] at hact'; cases hact'
    | on hact' hrest =>
      rw [hact] at hact'
      cases hact'
      exact ih hrest

namespace Steady

variable (h : Steady act limit I)

include h

variable {s : σ}

/-- What is behind the front is left where it is. -/
theorem drop_append {front : List α} {turn : Turn σ ρ} (hact : act s front = some turn)
    (more : List α) :
    (front ++ more).drop turn.used = front.drop turn.used ++ more :=
  drop_append_of_le_length (h.used_le s front turn hact)

/-- A turn on the front is one on the whole. -/
theorem act_whole {front more : List α} {turn : Turn σ ρ} (hroom : front.length ≤ limit)
    (hI : I s (front ++ more)) (hact : act s front = some turn) :
    act s ((front ++ more).take limit) = some turn :=
  h.same s (front ++ more) front turn hI
    (prefix_take_iff.2 ⟨prefix_append front more, hroom⟩) hact

/-- A run on the front that is over is one on the whole. -/
theorem whole_of_ends {front left : List α} {r : ρ} {x : σ ⊕ ρ} (hrun : Runs act s front x left)
    (hx : x = .inr r) :
    ∀ more, front.length ≤ limit → I s (front ++ more) →
      Whole act limit s (front ++ more) (.inr r) (left ++ more) := by
  induction hrun with
  | waits => cases hx
  | ends hact =>
    cases hx
    intro more hroom hI
    have hdrop := h.drop_append hact more
    rw [Turn.used] at hdrop
    rw [← hdrop]
    exact .ends (h.act_whole hroom hI hact)
  | on hact _ ih =>
    intro more hroom hI
    have hdrop := h.drop_append hact more
    have hwhole := h.act_whole hroom hI hact
    have hnext := h.next _ _ _ _ hI hwhole
    rw [Turn.used] at hdrop
    rw [hdrop] at hnext
    apply Whole.on hwhole
    rw [hdrop]
    exact ih hx more (by rw [length_drop]; omega) hnext

/-- After a run on the front that waits, the whole goes on from there. -/
theorem whole_of_waits {s s' : σ} {front left : List α} {x : σ ⊕ ρ} (hrun : Runs act s front x left)
    (hx : x = .inl s') :
    ∀ more, front.length ≤ limit → I s (front ++ more) →
      act s' left = none ∧ left.length ≤ limit ∧ I s' (left ++ more) ∧
        ∀ y rest, Whole act limit s' (left ++ more) y rest →
          Whole act limit s (front ++ more) y rest := by
  induction hrun with
  | waits hact =>
    cases hx
    exact fun more hroom hI => ⟨hact, hroom, hI, fun y rest hwhole => hwhole⟩
  | ends => cases hx
  | on hact _ ih =>
    intro more hroom hI
    have hdrop := h.drop_append hact more
    have hwhole := h.act_whole hroom hI hact
    have hnext := h.next _ _ _ _ hI hwhole
    rw [Turn.used] at hdrop
    rw [hdrop] at hnext
    obtain ⟨hwaits, hroom', hI', hrest⟩ := ih hx more (by rw [length_drop]; omega) hnext
    refine ⟨hwaits, hroom', hI', fun y rest hy => ?_⟩
    apply Whole.on hwhole
    rw [hdrop]
    exact hrest y rest hy

/-- Whatever the pieces are, the machine comes to what it comes to on the whole. -/
theorem whole_of_feeds {buffer input left : List α} {x : σ ⊕ ρ}
    (hfeeds : Feeds act limit s buffer input x left) :
    act s buffer = none → buffer.length ≤ limit → I s (buffer ++ input) →
      Whole act limit s (buffer ++ input) x left := by
  induction hfeeds with
  | @waits s buffer =>
    intro hwaits hroom _
    rw [append_nil]
    apply Whole.waits
    rwa [take_of_length_le hroom]
  | @piece s s' buffer buffer' piece rest left x hroom hrun _ ih =>
    intro _ _ hI
    rw [← append_assoc] at hI ⊢
    obtain ⟨hwaits, hroom', hI', hgoes⟩ :=
      h.whole_of_waits hrun rfl rest (by rw [length_append]; exact hroom) hI
    exact hgoes x left (ih hwaits hroom' hI')
  | @ends s buffer buffer' piece rest r hroom hrun =>
    intro _ _ hI
    rw [← append_assoc] at hI ⊢
    exact h.whole_of_ends hrun rfl rest (by rw [length_append]; exact hroom) hI

/-- The pieces do not matter. -/
theorem feeds_unique {buffer input left left' : List α} {x x' : σ ⊕ ρ}
    (hwaits : act s buffer = none) (hroom : buffer.length ≤ limit) (hI : I s (buffer ++ input))
    (hfeeds : Feeds act limit s buffer input x left)
    (hfeeds' : Feeds act limit s buffer input x' left') : x = x' ∧ left = left' :=
  (h.whole_of_feeds hfeeds hwaits hroom hI).unique (h.whole_of_feeds hfeeds' hwaits hroom hI)

end Steady

end Pieces

end GamePath.Lib
