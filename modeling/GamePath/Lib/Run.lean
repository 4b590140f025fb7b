import Mathlib.Tactic

/-!
# Runs of a deterministic machine

A machine is a function `step : σ → ι → σ × ο`: one call with its input, the next state and the
answer. `exec` runs a list of calls and keeps the log of inputs and answers, which is what a
statement about a whole run speaks of. `exec_invariant` is the induction every safety result of a
machine goes through: what holds at the start and is kept by one call holds after every run.
`Meets` says that every call of a run satisfies a condition on the configuration it is made in.
-/

theorem List.mem_snoc {α : Type*} {xs : List α} {a b : α} : a ∈ xs ++ [b] ↔ a ∈ xs ∨ a = b := by
  rw [List.mem_append, List.mem_singleton]

namespace GamePath.Lib.Run

open List

universe u v w

variable {σ : Type u} {ι : Type v} {ο : Type w}

/-- A point of a run: the machine's state and the calls made so far with their answers. -/
structure Config (σ : Type u) (ι : Type v) (ο : Type w) where
  state : σ
  log : List (ι × ο)

/-- One more call. -/
def advance (step : σ → ι → σ × ο) (c : Config σ ι ο) (i : ι) : Config σ ι ο :=
  ⟨(step c.state i).1, c.log ++ [(i, (step c.state i).2)]⟩

/-- The run of the calls `is` from the configuration `c`. -/
def execFrom (step : σ → ι → σ × ο) (c : Config σ ι ο) (is : List ι) : Config σ ι ο :=
  is.foldl (advance step) c

/-- The run of the calls `is` from the state `s`, with an empty log at the start. -/
def exec (step : σ → ι → σ × ο) (s : σ) (is : List ι) : Config σ ι ο :=
  execFrom step ⟨s, []⟩ is

/-- Every call of the run satisfies `ok` at the configuration it is made in. -/
def Meets (step : σ → ι → σ × ο) (ok : Config σ ι ο → ι → Prop) :
    Config σ ι ο → List ι → Prop
  | _, [] => True
  | c, i :: is => ok c i ∧ Meets step ok (advance step c i) is

/-- A condition on calls that can be decided can be decided along a run. -/
instance decidableMeets (step : σ → ι → σ × ο) (ok : Config σ ι ο → ι → Prop)
    [h : ∀ c i, Decidable (ok c i)] :
    (c : Config σ ι ο) → (is : List ι) → Decidable (Meets step ok c is)
  | _, [] => isTrue trivial
  | c, i :: is => @instDecidableAnd _ _ (h c i) (decidableMeets step ok (advance step c i) is)

section Rules

variable {step : σ → ι → σ × ο} {s : σ} (c : Config σ ι ο)

@[simp] theorem advance_state (i : ι) :
    (advance step c i).state = (step c.state i).1 := rfl

@[simp] theorem advance_log (i : ι) :
    (advance step c i).log = c.log ++ [(i, (step c.state i).2)] := rfl

@[simp] theorem execFrom_nil : execFrom step c [] = c := rfl

@[simp] theorem execFrom_cons (i : ι) (is : List ι) :
    execFrom step c (i :: is) = execFrom step (advance step c i) is := rfl

theorem execFrom_append (is js : List ι) :
    execFrom step c (is ++ js) = execFrom step (execFrom step c is) js :=
  foldl_append

theorem exec_concat (is : List ι) (i : ι) :
    (exec step s (is ++ [i])).state = (step (exec step s is).state i).1 :=
  congrArg Config.state (execFrom_append _ is [i])

/-- The log records the calls in order. -/
theorem execFrom_inputs (is : List ι) :
    (execFrom step c is).log.map Prod.fst = c.log.map Prod.fst ++ is := by
  induction is generalizing c with
  | nil => exact (append_nil _).symm
  | cons i is ih => rw [execFrom_cons, ih, advance_log, map_append, append_assoc]; rfl

variable {ok : Config σ ι ο → ι → Prop}

theorem meets_append {is js : List ι} {c : Config σ ι ο} :
    Meets step ok c (is ++ js) ↔ Meets step ok c is ∧ Meets step ok (execFrom step c is) js := by
  induction is generalizing c with
  | nil => exact (iff_of_eq (true_and _)).symm
  | cons i is ih => exact (and_congr_right fun _ => ih).trans and_assoc.symm

theorem Meets.imp {ok ok' : Config σ ι ο → ι → Prop} (h : ∀ c i, ok c i → ok' c i) {is : List ι} :
    ∀ {c : Config σ ι ο}, Meets step ok c is → Meets step ok' c is := by
  induction is with
  | nil => exact fun _ => trivial
  | cons i is ih => exact fun hmeets => ⟨h _ i hmeets.1, ih hmeets.2⟩

theorem meets_of_forall {is : List ι} (h : ∀ i ∈ is, ∀ c, ok c i) :
    ∀ c : Config σ ι ο, Meets step ok c is := by
  induction is with
  | nil => exact fun _ => trivial
  | cons i is ih =>
    intro c
    exact ⟨h i mem_cons_self c, ih (fun j hj => h j (mem_cons_of_mem _ hj)) _⟩

variable {I : Config σ ι ο → Prop}

/-- What every call keeps, under a condition on the calls, holds after every run that meets the
condition. -/
theorem execFrom_invariant_of_meets (hstep : ∀ c i, ok c i → I c → I (advance step c i)) :
    ∀ (is : List ι) (c : Config σ ι ο), Meets step ok c is → I c → I (execFrom step c is) := by
  intro is
  induction is with
  | nil => exact fun c _ h => h
  | cons i is ih =>
    intro c hmeets hc
    obtain ⟨hok, hrest⟩ := hmeets
    exact ih (advance step c i) hrest (hstep c i hok hc)

/-- What every call keeps holds after every run. -/
theorem execFrom_invariant (hstep : ∀ c i, I c → I (advance step c i)) (is : List ι)
    (c : Config σ ι ο) (hc : I c) : I (execFrom step c is) := by
  induction is generalizing c with
  | nil => exact hc
  | cons i is ih => exact ih (advance step c i) (hstep c i hc)

/-- What holds at the start and is kept by every call holds after every run. -/
theorem exec_invariant (hinit : I ⟨s, []⟩) (hstep : ∀ c i, I c → I (advance step c i))
    (is : List ι) :
    I (exec step s is) :=
  execFrom_invariant hstep is _ hinit

end Rules

end GamePath.Lib.Run
