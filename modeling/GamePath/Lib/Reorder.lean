import GamePath.Lib.KeyedMap

/-!
# Reorder buffers

Items that carry consecutive keys and may arrive in any order wait in a map until the ones before
them are there. `drain` takes them out in order, from a key on and up to the first one missing.
`Waiting` says what a buffer holds of a numbered sequence from a position on, and `drain_spec` what
comes out of it: the values from that position up to the first one that has not arrived.
-/

namespace GamePath.Lib.Reorder

open KeyedMap

universe u v

variable {κ : Type u} {ν : Type v} [DecidableEq κ]

/-- Takes values out from a key on while there are any. An entry goes with every round, so the
number of entries is enough fuel. -/
def drainFrom (next : κ → κ) : Nat → KeyedMap κ ν → κ → KeyedMap κ ν × κ × List ν
  | 0, m, k => (m, k, [])
  | fuel + 1, m, k =>
    match m.get? k with
    | none => (m, k, [])
    | some v =>
      let rest := drainFrom next fuel (m.erase k) (next k)
      (rest.1, rest.2.1, v :: rest.2.2)

/-- Takes values out from a key on, until one is missing. -/
def drain (next : κ → κ) (m : KeyedMap κ ν) (k : κ) : KeyedMap κ ν × κ × List ν :=
  drainFrom next m.size m k

/-- Of the values numbered up to `n`, those from `k` on that have arrived, and no others. -/
structure Waiting (id : Nat → κ) (value : Nat → ν) (arrived : Nat → Prop) (n k : Nat)
    (m : KeyedMap κ ν) : Prop where
  there : ∀ i, k ≤ i → i ≤ n → arrived i → m.get? (id i) = some (value i)
  missing : ∀ i, k ≤ i → i ≤ n → ¬ arrived i → m.get? (id i) = none
  past : m.get? (id (n + 1)) = none

variable {next : κ → κ} {id : Nat → κ} {value : Nat → ν} {arrived : Nat → Prop} {n k : Nat}
  {m : KeyedMap κ ν}

variable {key : κ}

/-- Nothing comes out when the first value is missing. -/
theorem drain_of_missing (h : m.get? key = none) : drain next m key = (m, key, []) := by
  unfold drain
  cases m.size with
  | zero => rfl
  | succ fuel => rw [drainFrom, h]

/-- A value that is there is taken out first. -/
theorem drain_of_there {v : ν} (h : m.get? key = some v) :
    drain next m key =
      ((drain next (m.erase key) (next key)).1, (drain next (m.erase key) (next key)).2.1,
        v :: (drain next (m.erase key) (next key)).2.2) := by
  have hsize := size_erase_of_get?_some h
  show drainFrom next m.size m key = _
  rw [← hsize, drainFrom, h]
  rfl

/-- Nothing is put in. -/
theorem get?_drainFrom_of_none (fuel : Nat) {m : KeyedMap κ ν} (h : m.get? key = none)
    (from' : κ) : (drainFrom next fuel m from').1.get? key = none := by
  induction fuel generalizing m from' with
  | zero => exact h
  | succ fuel ih =>
    rw [drainFrom]
    split
    · exact h
    · refine ih ?_ (next from')
      rw [get?_erase, h, ite_self]

/-- What is taken out is gone afterwards. -/
theorem get?_drain_of_there {v : ν} (h : m.get? key = some v) :
    (drain next m key).1.get? key = none := by
  rw [drain_of_there h]
  refine get?_drainFrom_of_none _ ?_ _
  rw [get?_erase, if_pos rfl]

/-- A value that is taken out moves the key on, or the one after it is taken out as well. -/
theorem drain_moves {v : ν} (h : m.get? key = some v) (hnext : next key ≠ key) :
    (drain next m key).2.1 ≠ key ∨
      m.get? (next key) ≠ none ∧ (drain next m key).1.get? (next key) = none := by
  have herase : (m.erase key).get? (next key) = m.get? (next key) := by
    rw [get?_erase, if_neg hnext]
  rw [drain_of_there h]
  cases hget : m.get? (next key) with
  | none =>
    left
    rw [drain_of_missing (herase.trans hget)]
    exact hnext
  | some w =>
    right
    exact ⟨Option.some_ne_none w, get?_drain_of_there (herase.trans hget)⟩

/-- A value that is past can be taken out. -/
theorem Waiting.erase (h : Waiting id value arrived n k m)
    (hinj : ∀ i, k < i → i ≤ n → id i ≠ id k) :
    Waiting id value arrived n (k + 1) (m.erase (id k)) := by
  refine ⟨fun i hi hin harrived => ?_, fun i hi hin harrived => ?_, ?_⟩
  · rw [get?_erase, if_neg (hinj i hi hin)]
    exact h.there i (Nat.le_of_lt hi) hin harrived
  · rw [get?_erase, if_neg (hinj i hi hin)]
    exact h.missing i (Nat.le_of_lt hi) hin harrived
  · rw [get?_erase, h.past, ite_self]

/-- What a buffer releases: the values up to the first one that has not arrived. -/
structure Released (id : Nat → κ) (value : Nat → ν) (arrived : Nat → Prop) (n k k' : Nat)
    (result : KeyedMap κ ν × κ × List ν) : Prop where
  le : k ≤ k'
  le_past : k' ≤ n + 1
  taken : ∀ i, k ≤ i → i < k' → arrived i
  stopped : k' ≤ n → ¬ arrived k'
  key : result.2.1 = id k'
  values : result.2.2 = (List.range' k (k' - k)).map value
  waiting : Waiting id value arrived n k' result.1

/-- The values are released in order up to the first one missing. -/
theorem drain_spec (hnext : ∀ i, next (id i) = id (i + 1))
    (hinj : ∀ i j, k ≤ i → i < j → j ≤ n → id j ≠ id i) (hk : k ≤ n + 1)
    (h : Waiting id value arrived n k m) :
    ∃ k', Released id value arrived n k k' (drain next m (id k)) := by
  unfold drain
  generalize hfuel : m.size = fuel
  -- The induction is on the entries left; each round takes one out.
  induction fuel generalizing m k with
  | zero =>
    refine ⟨k, Nat.le_refl k, hk, fun i hi hlt => absurd hlt (by omega), fun hkn harrived => ?_,
      rfl, ?_, h⟩
    · have hget := get?_eq_some_iff.1 (h.there k (Nat.le_refl k) hkn harrived)
      rw [List.eq_nil_of_length_eq_zero hfuel] at hget
      exact absurd hget List.not_mem_nil
    · rw [Nat.sub_self]
      rfl
  | succ fuel ih =>
    by_cases hout : k ≤ n ∧ arrived k
    · obtain ⟨hkn, harrived⟩ := hout
      have hget := h.there k (Nat.le_refl k) hkn harrived
      have hsize := size_erase_of_get?_some hget
      have herase := h.erase fun i hi hin => hinj k i (Nat.le_refl k) hi hin
      obtain ⟨k', hk'⟩ := ih (fun i j hi => hinj i j (by omega)) (by omega) herase (by omega)
      rw [drainFrom, hget]
      dsimp only
      rw [hnext]
      have hle := hk'.le
      refine ⟨k', by omega, hk'.le_past, fun i hi hlt => ?_, hk'.stopped, hk'.key, ?_, hk'.waiting⟩
      · rcases Nat.lt_or_eq_of_le hi with hi | rfl
        · exact hk'.taken i hi hlt
        · exact harrived
      · rw [hk'.values, show k' - k = (k' - (k + 1)) + 1 by omega, List.range'_succ, List.map_cons]
    · have hget : m.get? (id k) = none := by
        rcases Nat.lt_or_eq_of_le hk with hlt | rfl
        · have hkn : k ≤ n := by omega
          exact h.missing k (Nat.le_refl k) hkn fun harrived => hout ⟨hkn, harrived⟩
        · exact h.past
      rw [drainFrom, hget]
      refine ⟨k, Nat.le_refl k, hk, fun i hi hlt => absurd hlt (by omega),
        fun hkn harrived => hout ⟨hkn, harrived⟩, rfl, ?_, h⟩
      rw [Nat.sub_self]
      rfl

end GamePath.Lib.Reorder
