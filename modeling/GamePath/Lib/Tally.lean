import GamePath.Lib.KeyedMap

/-!
# Tallies

What the values of a keyed map weigh together, and what an operation on one key adds to it.
-/

namespace GamePath.Lib.KeyedMap

universe u v

variable {κ : Type u} {ν : Type v} {m : KeyedMap κ ν} {k : κ} {v : ν}

/-- What the values weigh together. -/
def tally (m : KeyedMap κ ν) (weight : ν → Nat) : Nat := (m.entries.map fun e => weight e.2).sum

variable (weight : ν → Nat)

section

variable [DecidableEq κ]

theorem tally_erase (h : m.get? k = some v) :
    (m.erase k).tally weight + weight v = m.tally weight := by
  have hsum := ((perm_cons_erase h).map fun e => weight e.2).sum_eq
  rw [List.map_cons, List.sum_cons, Nat.add_comm] at hsum
  exact hsum.symm

theorem tally_insert_new (h : m.get? k = none) (v : ν) :
    (m.insert k v).tally weight = m.tally weight + weight v := by
  have hsame : (m.erase k).tally weight = m.tally weight := by rw [tally,
    entries_erase_of_get?_none h, tally]
  rw [← hsame, Nat.add_comm]
  rfl

theorem tally_insert (h : m.get? k = some v) (v' : ν) :
    (m.insert k v').tally weight + weight v = m.tally weight + weight v' := by
  have herase := tally_erase weight h
  have hcons : (m.insert k v').tally weight = weight v' + (m.erase k).tally weight := rfl
  omega

end

theorem tally_mapValues {f : κ → ν → ν} (h : ∀ k v, weight (f k v) = weight v) :
    (m.mapValues f).tally weight = m.tally weight := by
  simp only [tally, mapValues, List.map_map, Function.comp_def, h]

/-- Values that weigh one if they have a property are counted. -/
theorem tally_ite (m : KeyedMap κ ν) (p : ν → Prop) [DecidablePred p] :
    m.tally (fun v => if p v then 1 else 0) = (m.entries.filter fun e => p e.2).length := by
  unfold tally
  induction m.entries with
  | nil => rfl
  | cons e entries ih =>
    rw [List.map_cons, List.sum_cons, ih]
    by_cases hp : p e.2
    · simp [hp, Nat.add_comm]
    · simp [hp]

end GamePath.Lib.KeyedMap
