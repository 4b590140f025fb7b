import GamePath.Lib.Run

/-!
# Threads over a shared state

Any number of threads act on a shared state, one atomic operation at a time. An operation changes
the shared state and the place its thread has reached, and events outside the threads change the
shared state only. What the threads hold is the sum of what each holds at its place, so an invariant
that relates it to the shared state is checked one operation at a time, whatever the others hold
(`exec_holding`).
-/

namespace GamePath.Lib.Threads

open Run

universe u

variable {σ τ α β : Type u}

/-- The shared state, and the place each thread has reached. -/
structure Pool (σ τ : Type u) where
  shared : σ
  places : List τ

/-- An operation of one thread, or an event outside them. -/
inductive Move (α β : Type u) where
  | thread (index : ℕ) (operation : α)
  | outside (event : β)

section Steps

variable (op : σ → τ → α → σ × τ) (env : σ → β → σ)

/-- One move. -/
def step (s : Pool σ τ) : Move α β → Pool σ τ × Unit
  | .thread i a =>
    match s.places[i]? with
    | none => (s, ())
    | some p => (⟨(op s.shared p a).1, s.places.set i (op s.shared p a).2⟩, ())
  | .outside b => (⟨env s.shared b, s.places⟩, ())

/-- Operations and events that satisfy a condition on the state they happen in. -/
def Allowed (ok : σ → τ → α → Prop) (okEnv : σ → β → Prop) (c : Config (Pool σ τ) (Move α β) Unit) :
    Move α β → Prop
  | .thread i a => ∀ p ∈ c.state.places[i]?, ok c.state.shared p a
  | .outside b => okEnv c.state.shared b

variable {A : Type*} [AddCommMonoid A] (weight : τ → A)

/-- What the threads hold together. -/
def held (places : List τ) : A := (places.map weight).sum

/-- What one thread holds, apart from what the others hold. -/
theorem held_set {places : List τ} {i : ℕ} {p : τ} (h : places[i]? = some p) :
    ∃ rest, held weight places = weight p + rest ∧
      ∀ p', held weight (places.set i p') = weight p' + rest := by
  induction places generalizing i with
  | nil => cases h
  | cons q places ih =>
    cases i with
    | zero =>
      cases h
      exact ⟨held weight places, rfl, fun _ => rfl⟩
    | succ i =>
      obtain ⟨rest, hall, hset⟩ := ih h
      refine ⟨weight q + rest, ?_, fun p' => ?_⟩
      · exact (congrArg (weight q + ·) hall).trans (add_left_comm _ _ _)
      · exact (congrArg (weight q + ·) (hset p')).trans (add_left_comm _ _ _)

variable {weight}

/-- Threads that each hold nothing hold nothing together. -/
theorem held_eq_zero {places : List τ} (h : ∀ p ∈ places, weight p = 0) :
    held weight places = 0 := by
  refine List.sum_eq_zero fun w hw => ?_
  obtain ⟨p, hp, rfl⟩ := List.mem_map.1 hw
  exact h p hp

theorem le_held {weight : τ → ℕ} {places : List τ} {p : τ} (h : p ∈ places) :
    weight p ≤ held weight places :=
  List.single_le_sum (fun _ _ => Nat.zero_le _) _ (List.mem_map_of_mem h)

theorem held_fst {B : Type*} [AddCommMonoid B] (weight : τ → A × B) (places : List τ) :
    (held weight places).1 = held (fun p => (weight p).1) places :=
  (map_list_sum (AddMonoidHom.fst A B) _).trans (by rw [List.map_map]; rfl)

variable {op env} {ok : σ → τ → α → Prop} {okEnv : σ → β → Prop} {I : σ → A → Prop}
  (hop : ∀ s p a rest, ok s p a → I s (weight p + rest) →
    I (op s p a).1 (weight (op s p a).2 + rest))
  (henv : ∀ s b all, okEnv s b → I s all → I (env s b) all)

include hop henv

/-- What every operation keeps, whatever the other threads hold, one move keeps. -/
theorem advance_holding (c : Config (Pool σ τ) (Move α β) Unit) (m : Move α β)
    (hok : Allowed ok okEnv c m) (h : I c.state.shared (held weight c.state.places)) :
    I (advance (step op env) c m).state.shared
      (held weight (advance (step op env) c m).state.places) := by
  rw [advance_state]
  cases m with
  | outside b => exact henv _ _ _ hok h
  | thread i a =>
    cases hp : c.state.places[i]? with
    | none => simpa only [step, hp] using h
    | some p =>
      obtain ⟨rest, hall, hset⟩ := held_set weight hp
      simp only [step, hp, hset]
      rw [hall] at h
      exact hop _ _ _ _ (hok p hp) h

/-- It holds after every run whose moves satisfy the condition. -/
theorem exec_holding {s : Pool σ τ} (hstart : I s.shared (held weight s.places))
    (moves : List (Move α β)) (hmeets : Meets (step op env) (Allowed ok okEnv) ⟨s, []⟩ moves) :
    I (exec (step op env) s moves).state.shared
      (held weight (exec (step op env) s moves).state.places) :=
  execFrom_invariant_of_meets
    (I := fun c => I c.state.shared (held weight c.state.places)) (advance_holding hop henv)
    moves _ hmeets hstart

end Steps

end GamePath.Lib.Threads
