import Mathlib.Tactic

/-!
# Actions on a state that may fail

An `Action σ α` is given a state; it returns a value or an error text and leaves a state, also when
it fails, or it has no result at all (the program ends there, or never gets further). `Within R`
says that every state an action leaves is related by `R` to the one it was given, for a relation
that composes: a function is shown to be within a relation by showing that the calls it is made of
are.
-/

namespace GamePath.Lib

/-- A function of a state that returns or fails, and leaves a state. -/
abbrev Action (σ α : Type) : Type := ExceptT String (StateT σ Option) α

namespace Action

variable {σ α β : Type}

/-- What an action does in a state. -/
def on (m : Action σ α) (s : σ) : Option (Except String α × σ) := m.run.run s

/-- A function that always ends. -/
def ofTotal (f : σ → Except String α × σ) : Action σ α := ExceptT.mk fun s => some (f s)

/-- A function that may have no result. -/
def ofPartly (f : σ → Option (Except String α × σ)) : Action σ α := ExceptT.mk f

section Rules

variable {s s' : σ}

@[simp] theorem on_ofPartly (f : σ → Option (Except String α × σ)) (s : σ) :
    (ofPartly f).on s = f s := rfl

/-- What follows an action is done in the state it leaves, unless it failed. -/
theorem on_bind (m : Action σ α) (k : α → Action σ β) (s : σ) :
    (m >>= k).on s = (m.on s).bind fun r =>
      match r.1 with
      | .ok a => (k a).on r.2
      | .error reason => some (.error reason, r.2) := by
  show ((m.run.run s).bind fun r => _) = _
  unfold on
  cases m.run.run s with
  | none => rfl
  | some r =>
    obtain ⟨result, after⟩ := r
    cases result with
    | ok | error => rfl

variable {m : Action σ α}

theorem on_bind_ok {a : α} (h : m.on s = some (.ok a, s')) (k : α → Action σ β) :
    (m >>= k).on s = (k a).on s' := by
  rw [on_bind, h]
  rfl

theorem on_bind_error {reason : String} (h : m.on s = some (.error reason, s'))
    (k : α → Action σ β) :
    (m >>= k).on s = some (.error reason, s') := by
  rw [on_bind, h]
  rfl

theorem on_bind_none (h : m.on s = none) (k : α → Action σ β) :
    (m >>= k).on s = none := by
  rw [on_bind, h]
  rfl

/-- An action that returns goes through the ones it is made of. -/
theorem of_on_bind_ok {k : α → Action σ β} {b : β} (h : (m >>= k).on s = some (.ok b, s')) :
    ∃ a after, m.on s = some (.ok a, after) ∧ (k a).on after = some (.ok b, s') := by
  rw [on_bind] at h
  cases hfirst : m.on s with
  | none =>
    rw [hfirst] at h
    cases h
  | some r =>
    obtain ⟨first, after⟩ := r
    rw [hfirst] at h
    cases first with
    | ok a => exact ⟨a, after, rfl, h⟩
    | error reason => cases (Prod.mk.inj (Option.some.inj h)).1

end Rules

/-! ## Relations between the states before and after -/

/-- Every state an action leaves is related to the one it was given. -/
def Within (R : σ → σ → Prop) (m : Action σ α) : Prop :=
  ∀ s result s', m.on s = some (result, s') → R s s'

/-- A relation that holds of a state and itself, and composes. -/
structure Composes (R : σ → σ → Prop) : Prop where
  refl : ∀ s, R s s
  trans : ∀ {s s' s''}, R s s' → R s' s'' → R s s''

section Within

variable {R : σ → σ → Prop}

theorem within_pure (h : Composes R) (a : α) : Within R (pure a : Action σ α) := by
  rintro s result s' hon
  cases hon
  exact h.refl s

theorem within_throw (h : Composes R) (reason : String) :
    Within R (throw reason : Action σ α) := by
  rintro s result s' hon
  cases hon
  exact h.refl s

theorem within_get (h : Composes R) : Within R (get : Action σ σ) := by
  rintro s result s' hon
  cases hon
  exact h.refl s

theorem within_ofTotal {f : σ → Except String α × σ} (h : ∀ s, R s (f s).2) :
    Within R (ofTotal f) := by
  intro s result s' hon
  have hstate : (f s).2 = s' := congrArg Prod.snd (Option.some.inj hon)
  rw [← hstate]
  exact h s

variable {m : Action σ α}

/-- The state an action leaves is related to the one its first part leaves. -/
theorem of_on_bind (h : Composes R) {k : α → Action σ β} (hk : ∀ a, Within R (k a)) {s s'' : σ}
    {result : Except String β} (hon : (m >>= k).on s = some (result, s'')) :
    ∃ first s', m.on s = some (first, s') ∧ R s' s'' := by
  cases hfirst : m.on s with
  | none =>
    rw [on_bind_none hfirst] at hon
    cases hon
  | some r =>
    obtain ⟨first, s'⟩ := r
    refine ⟨first, s', rfl, ?_⟩
    cases first with
    | ok a =>
      rw [on_bind_ok hfirst] at hon
      exact hk a s' result s'' hon
    | error reason =>
      rw [on_bind_error hfirst] at hon
      obtain ⟨-, rfl⟩ := Prod.mk.inj (Option.some.inj hon)
      exact h.refl s'

theorem Within.bind (h : Composes R) {k : α → Action σ β} (hm : Within R m)
    (hk : ∀ a, Within R (k a)) : Within R (m >>= k) := by
  intro s result s'' hon
  obtain ⟨first, s', hfirst, hrest⟩ := of_on_bind h hk hon
  exact h.trans (hm s first s' hfirst) hrest

theorem Within.imp {R' : σ → σ → Prop} (h : Within R m) (himp : ∀ s s', R s s' → R' s s') :
    Within R' m :=
  fun s result s' hon => himp s s' (h s result s' hon)

end Within

end Action

end GamePath.Lib
