import GamePath.Engine.SelectorTable

/-!
# The selector table agrees with the plain rules

Laying a range over the layered ones changes the addresses of the range and no others, so the ranges
laid widest first leave at every address the node of a narrowest one. Merging neighbours and the
binary search keep that, and the flows are found by their ports: `selector_table_agrees`, for every
map of selectors whatever the order it is iterated in.
-/

namespace GamePath.Engine.SplitCapture

open Lib List Range SortedMap Engine.Addresses

/-! ## Cutting -/

/-- The layered ranges are not empty and do not overlap. -/
structure Layered.Spread (m : Layered) : Prop where
  proper : ∀ e ∈ m.entries, e.1 ≤ e.2.1
  apart : ∀ e ∈ m.entries, ∀ e' ∈ m.entries, e.1 < e'.1 → e.2.1 < e'.1

/-- A layered range has the address and the node. -/
def Layered.Covers (m : Layered) (a : UInt32) (node : UInt8) : Prop :=
  ∃ e ∈ m.entries, e.1 ≤ a ∧ a ≤ e.2.1 ∧ e.2.2 = node

/-- A layered range has an address of `first..=last`. -/
def Meets (first last : UInt32) (e : UInt32 × UInt32 × UInt8) : Prop :=
  e.1 ≤ last ∧ first ≤ e.2.1

theorem Layered.spread_empty : Layered.Spread empty := by
  constructor
  · intro e he
    cases he
  · intro e he
    cases he

section Cut

variable {m : Layered} {first last : UInt32} {c : UInt32 × UInt32 × UInt8}

theorem mem_cut (hm : m.Spread) (hc : c ∈ m.entries) (hmeets : Meets first last c)
    {e : UInt32 × UInt32 × UInt8} :
    e ∈ (cut first last m c).entries ↔
      (e ∈ m.entries ∧ e.1 ≠ c.1) ∨
      (e = (c.1, first - 1, c.2.2) ∧ c.1 < first) ∨
      (e = (last + 1, c.2.1, c.2.2) ∧ last < c.2.1) := by
  -- No range starts right after `last`: it would overlap the one that is cut.
  have hfree : last < c.2.1 → ∀ e ∈ m.entries, e.1 ≠ last + 1 := by
    intro hlast e he heq
    have hlt : c.1 < e.1 := by
      have := hmeets.1
      grind
    have := hm.apart c hc e he hlt
    grind
  unfold cut
  by_cases hleft : c.1 < first
  all_goals by_cases hright : c.2.1 > last
  all_goals
    simp only [hleft, hright, if_true, if_false, mem_insert, mem_remove]
  all_goals grind

theorem spread_cut (hle : first ≤ last) (hm : m.Spread) (hc : c ∈ m.entries)
    (hmeets : Meets first last c) : (cut first last m c).Spread := by
  have hbefore := fun e he => hm.apart e he c hc
  have hafter := fun e he => hm.apart c hc e he
  obtain ⟨hstart, hend⟩ := hmeets
  constructor
  · intro e he
    rw [mem_cut hm hc ⟨hstart, hend⟩] at he
    rcases he with ⟨he, -⟩ | ⟨rfl, hlt⟩ | ⟨rfl, hlt⟩
    · exact hm.proper e he
    · grind
    · grind
  intro e he e' he' hlt
  rw [mem_cut hm hc ⟨hstart, hend⟩] at he he'
  rcases he with ⟨he, hne⟩ | ⟨rfl, hleft⟩ | ⟨rfl, hright⟩
  · rcases he' with ⟨he', hne'⟩ | ⟨rfl, hleft⟩ | ⟨rfl, hright⟩
    · exact hm.apart e he e' he' hlt
    · exact hbefore e he hlt
    · have := hbefore e he
      have := hafter e he
      have := hm.proper e he
      grind
  · rcases he' with ⟨he', hne'⟩ | ⟨rfl, hleft'⟩ | ⟨rfl, hright⟩
    · have := hafter e' he' hlt
      grind
    · grind
    · grind
  · rcases he' with ⟨he', hne'⟩ | ⟨rfl, hleft⟩ | ⟨rfl, hright'⟩
    · have := hafter e' he'
      grind
    · grind
    · grind

theorem covers_cut (hm : m.Spread) (hc : c ∈ m.entries) (hmeets : Meets first last c)
    {a : UInt32} (ha : ¬ (first ≤ a ∧ a ≤ last)) {node : UInt8} :
    (cut first last m c).Covers a node ↔ m.Covers a node := by
  obtain ⟨hstart, hend⟩ := hmeets
  constructor
  · rintro ⟨e, he, hcontains⟩
    rw [mem_cut hm hc ⟨hstart, hend⟩] at he
    rcases he with ⟨he, -⟩ | ⟨rfl, hleft⟩ | ⟨rfl, hright⟩
    · exact ⟨e, he, hcontains⟩
    · exact ⟨c, hc, by grind⟩
    · exact ⟨c, hc, by grind⟩
  rintro ⟨e, he, hcontains⟩
  by_cases hkey : e.1 = c.1
  · -- The address is on one of the two sides of what is taken out.
    obtain rfl := eq_of_mem he hc hkey
    by_cases hleft : a < first
    · refine ⟨(e.1, first - 1, e.2.2), ?_, by grind⟩
      rw [mem_cut hm hc ⟨hstart, hend⟩]
      exact .inr (.inl ⟨rfl, by grind⟩)
    · refine ⟨(last + 1, e.2.1, e.2.2), ?_, by grind⟩
      rw [mem_cut hm hc ⟨hstart, hend⟩]
      exact .inr (.inr ⟨rfl, by grind⟩)
  · refine ⟨e, ?_, hcontains⟩
    rw [mem_cut hm hc ⟨hstart, hend⟩]
    exact .inl ⟨he, hkey⟩

/-- Cutting every range that meets `first..=last` leaves no address of it layered and the other
addresses as they were. -/
theorem cut_all (hle : first ≤ last) (cs : List (UInt32 × UInt32 × UInt8)) :
    ∀ {m : Layered}, m.Spread → (∀ c ∈ cs, c ∈ m.entries ∧ Meets first last c) →
      cs.Pairwise (fun c c' => c'.1 < c.1) →
      (∀ e ∈ m.entries, Meets first last e → e ∈ cs) →
      Layered.Spread (cs.foldl (cut first last) m) ∧
        (∀ e ∈ (cs.foldl (cut first last) m).entries, ¬ Meets first last e) ∧
        ∀ a node, ¬ (first ≤ a ∧ a ≤ last) →
          (Layered.Covers (cs.foldl (cut first last) m) a node ↔ m.Covers a node) := by
  induction cs with
  | nil =>
    intro m hm _ _ hall
    refine ⟨hm, ?_, fun _ _ _ => Iff.rfl⟩
    intro e he hmeets
    cases hall e he hmeets
  | cons c cs ih =>
    intro m hm hcs hsorted hall
    obtain ⟨hc, hmeets⟩ := hcs c mem_cons_self
    obtain ⟨hlater, hsorted⟩ := pairwise_cons.1 hsorted
    have hrest : ∀ c' ∈ cs, c' ∈ (cut first last m c).entries ∧ Meets first last c' := by
      intro c' hc'
      obtain ⟨hmem, hmeets'⟩ := hcs c' (mem_cons_of_mem _ hc')
      refine ⟨?_, hmeets'⟩
      rw [mem_cut hm hc hmeets]
      exact .inl ⟨hmem, (hlater c' hc').ne⟩
    have hleft : ∀ e ∈ (cut first last m c).entries, Meets first last e → e ∈ cs := by
      intro e he hmeets'
      rw [mem_cut hm hc hmeets] at he
      rcases he with ⟨he, hne⟩ | ⟨rfl, hlt⟩ | ⟨rfl, hlt⟩
      · rcases mem_cons.1 (hall e he hmeets') with rfl | hmem
        · exact absurd rfl hne
        · exact hmem
      · -- What is left before `first` ends before it.
        have := hmeets'.2
        grind
      · have := hmeets'.1
        grind
    obtain ⟨hspread, hnone, hkept⟩ := ih (spread_cut hle hm hc hmeets) hrest hsorted hleft
    refine ⟨hspread, hnone, ?_⟩
    intro a node ha
    exact (hkept a node ha).trans (covers_cut hm hc hmeets ha)

theorem mem_covered (hm : m.Spread) {e : UInt32 × UInt32 × UInt8} :
    e ∈ covered m first last ↔ e ∈ m.entries ∧ Meets first last e := by
  have hparted : (m.rangeTo last).reverse.Pairwise fun e e' =>
      decide (e'.2.1 ≥ first) = true → decide (e.2.1 ≥ first) = true := by
    rw [pairwise_reverse]
    apply (m.sorted_rangeTo last).imp_of_mem
    intro e e' he he' hlt
    have happ := hm.apart e (mem_rangeTo.1 he).1 e' (mem_rangeTo.1 he').1 hlt
    have hproper := hm.proper e' (mem_rangeTo.1 he').1
    intro hge
    grind
  rw [covered, mem_takeWhile_iff hparted, mem_reverse, mem_rangeTo,
    decide_eq_true_eq, and_assoc]
  rfl

theorem sorted_covered : (covered m first last).Pairwise fun c c' => c'.1 < c.1 := by
  apply List.Pairwise.sublist (takeWhile_sublist _)
  rw [pairwise_reverse]
  exact m.sorted_rangeTo last

end Cut

/-! ## Layering -/

variable {r : DestinationRange}

theorem layer_paints {m : Layered} (hm : m.Spread) (hr : r.first ≤ r.last) :
    (layer m r).Spread ∧ Paints Layered.Covers layer m r := by
  obtain ⟨hspread, hnone, hkept⟩ := cut_all hr (covered m r.first r.last) hm
    (fun c hc => (mem_covered hm).1 hc) sorted_covered
    (fun e he hmeets => (mem_covered hm).2 ⟨he, hmeets⟩)
  have hmem : ∀ {e}, e ∈ (layer m r).entries ↔ e = (r.first, r.last, r.value) ∨
      e ∈ ((covered m r.first r.last).foldl (cut r.first r.last) m).entries := by
    intro e
    rw [layer, mem_insert]
    constructor
    · rintro (rfl | ⟨he, -⟩)
      · exact .inl rfl
      · exact .inr he
    rintro (rfl | he)
    · exact .inl rfl
    · refine .inr ⟨he, ?_⟩
      intro hkey
      apply hnone e he
      have := hspread.proper e he
      exact ⟨hkey.le.trans hr, by grind⟩
  refine ⟨⟨?_, ?_⟩, ?_⟩
  · intro e he
    rcases hmem.1 he with rfl | he
    · exact hr
    · exact hspread.proper e he
  · intro e he e' he' hlt
    rcases hmem.1 he with rfl | he
    · rcases hmem.1 he' with rfl | he'
      · exact absurd hlt (lt_irrefl _)
      · have := hnone e' he'
        have := hspread.proper e' he'
        grind [Meets]
    · rcases hmem.1 he' with rfl | he'
      · have := hnone e he
        grind [Meets]
      · exact hspread.apart e he e' he' hlt
  · intro a node
    by_cases ha : r.Contains a
    · rw [if_pos ha]
      constructor
      · rintro ⟨e, he, hstart, hend, hnode⟩
        rcases hmem.1 he with rfl | he
        · exact hnode.symm
        · exact absurd ⟨hstart.trans ha.2, ha.1.trans hend⟩ (hnone e he)
      · rintro rfl
        exact ⟨_, hmem.2 (.inl rfl), ha.1, ha.2, rfl⟩
    rw [if_neg ha, ← hkept a node ha]
    constructor
    · rintro ⟨e, he, hcontains⟩
      rcases hmem.1 he with rfl | he
      · exact absurd ⟨hcontains.1, hcontains.2.1⟩ ha
      · exact ⟨e, he, hcontains⟩
    · rintro ⟨e, he, hcontains⟩
      exact ⟨e, hmem.2 (.inr he), hcontains⟩

/-! ## Merging neighbours -/

/-- The merged ranges, last one first: none is empty, and each one begins after those behind it. -/
structure Backward (merged : List DestinationRange) : Prop where
  proper : ∀ r ∈ merged, r.first ≤ r.last
  apart : merged.Pairwise fun r r' => r'.last < r.first

variable {merged : List DestinationRange}

theorem Backward.ordered (h : Backward merged) :
    Ordered merged.reverse := by
  constructor
  · intro r hr
    exact h.proper r (mem_reverse.1 hr)
  · rw [pairwise_reverse]
    exact h.apart

theorem mergeNeighbour_spec (h : Backward merged) {e : UInt32 × UInt32 × UInt8} (he : e.1 ≤ e.2.1)
    (hafter : ∀ r ∈ merged, r.last < e.1) :
    Backward (mergeNeighbour merged e) ∧
      (∀ r ∈ mergeNeighbour merged e, r.last ≤ e.2.1) ∧
      ∀ a node, Holds (mergeNeighbour merged e) a node ↔
        Holds merged a node ∨ (e.1 ≤ a ∧ a ≤ e.2.1 ∧ e.2.2 = node) := by
  cases merged with
  | nil =>
    refine ⟨⟨by simpa [mergeNeighbour] using he, pairwise_singleton _ _⟩, ?_, ?_⟩
    · simp [mergeNeighbour]
    · intro a node
      simp [mergeNeighbour, Holds, Contains, and_assoc]
  | cons previous rest =>
    obtain ⟨hbehind, hrest⟩ := pairwise_cons.1 h.apart
    have hprevious := h.proper previous mem_cons_self
    have hbefore := hafter previous mem_cons_self
    have hends : ∀ r ∈ rest, r.last ≤ e.2.1 := by
      intro r hr
      have := hafter r (mem_cons_of_mem _ hr)
      grind
    unfold mergeNeighbour
    dsimp only
    split
    · rename_i hmerge
      obtain ⟨hnode, htouch⟩ := hmerge
      rw [saturatingAdd_one_of_lt hbefore] at htouch
      have hmax : max previous.last e.2.1 = e.2.1 := max_eq_right (hbefore.le.trans he)
      rw [hmax]
      refine ⟨⟨?_, ?_⟩, ?_, ?_⟩
      · intro r hr
        rcases mem_cons.1 hr with rfl | hr
        · exact hprevious.trans (hbefore.le.trans he)
        · exact h.proper r (mem_cons_of_mem _ hr)
      · exact pairwise_cons.2 ⟨hbehind, hrest⟩
      · intro r hr
        rcases mem_cons.1 hr with rfl | hr
        · exact le_refl _
        · exact hends r hr
      · -- The two ranges touch, so together they are the one from the first start to the last end.
        intro a node
        have hjoin : (previous.first ≤ a ∧ a ≤ e.2.1) ↔
            (previous.first ≤ a ∧ a ≤ previous.last) ∨ (e.1 ≤ a ∧ a ≤ e.2.1) := by
          grind
        rw [holds_cons, holds_cons, ← hnode]
        simp only [Contains]
        rw [hjoin, or_and_right, or_right_comm, and_assoc (a := e.1 ≤ a)]
    · refine ⟨⟨?_, ?_⟩, ?_, ?_⟩
      · intro r hr
        rcases mem_cons.1 hr with rfl | hr
        · exact he
        · exact h.proper r hr
      · exact pairwise_cons.2 ⟨fun r hr => hafter r hr, h.apart⟩
      · intro r hr
        rcases mem_cons.1 hr with rfl | hr
        · exact le_refl _
        · exact (hafter r hr).le.trans he
      · intro a node
        rw [holds_cons, or_comm]
        simp only [Contains, and_assoc]

theorem mergeNeighbours_spec (es : List (UInt32 × UInt32 × UInt8)) :
    ∀ {merged : List DestinationRange}, Backward merged → (∀ e ∈ es, e.1 ≤ e.2.1) →
      es.Pairwise (fun e e' => e.2.1 < e'.1) → (∀ r ∈ merged, ∀ e ∈ es, r.last < e.1) →
      Backward (es.foldl mergeNeighbour merged) ∧
        ∀ a node, Holds (es.foldl mergeNeighbour merged) a node ↔
          Holds merged a node ∨ ∃ e ∈ es, e.1 ≤ a ∧ a ≤ e.2.1 ∧ e.2.2 = node := by
  induction es with
  | nil =>
    intro merged h _ _ _
    simpa using h
  | cons e es ih =>
    intro merged h hproper hapart hafter
    obtain ⟨hnext, hapart⟩ := pairwise_cons.1 hapart
    obtain ⟨hback, hends, hholds⟩ := mergeNeighbour_spec h (hproper e mem_cons_self)
      (fun r hr => hafter r hr e mem_cons_self)
    obtain ⟨hdone, hall⟩ := ih hback (fun e' he' => hproper e' (mem_cons_of_mem _ he')) hapart
      (fun r hr e' he' => (hends r hr).trans_lt (hnext e' he'))
    refine ⟨hdone, ?_⟩
    intro a node
    rw [foldl_cons, hall, hholds, exists_mem_cons_iff, or_assoc]

/-! ## The destinations of a table -/

/-- How many addresses a range has, less one. -/
def width (r : DestinationRange) : Nat := (r.last - r.first).toNat

theorem layerDestinations_spec {ranges : List DestinationRange}
    (hproper : ∀ r ∈ ranges, r.first ≤ r.last) :
    Ordered (layerDestinations ranges) ∧
      (∀ a node, Holds (layerDestinations ranges) a node →
        Narrowest width ranges a node) ∧
      ∀ a, (∃ r ∈ ranges, r.Contains a) → ∃ node, Holds (layerDestinations ranges) a node := by
  let wider : DestinationRange → DestinationRange → Prop := fun r r' =>
    r'.last - r'.first ≤ r.last - r.first
  have : Std.Total wider := ⟨fun r r' => le_total (r'.last - r'.first) (r.last - r.first)⟩
  have : IsTrans DestinationRange wider := ⟨fun r r' r'' h h' => le_trans h' h⟩
  have hsorted := pairwise_insertionSort wider ranges
  have hperm := perm_insertionSort wider ranges
  obtain ⟨hspread, hnarrow, hcover⟩ := painted_narrowest width Layered.Covers layer
    (I := Layered.Spread) Layered.spread_empty
    (by rintro a v ⟨e, he, -⟩; cases he) (ranges.insertionSort wider)
    (fun m r hr hm => layer_paints hm (hproper r (hperm.mem_iff.1 hr)))
    (hsorted.imp fun h => UInt32.le_iff_toNat_le.1 h)
  have hapart : ((ranges.insertionSort wider).foldl layer empty).entries.Pairwise
      fun e e' => e.2.1 < e'.1 := by
    apply (sorted _).imp_of_mem
    intro e e' he he' hlt
    exact hspread.apart e he e' he' hlt
  obtain ⟨hback, hholds⟩ := mergeNeighbours_spec _ ⟨by simp, List.Pairwise.nil⟩ hspread.proper
    hapart (by simp)
  have hmerged : ∀ a node, Holds (layerDestinations ranges) a node ↔
      Layered.Covers ((ranges.insertionSort wider).foldl layer empty) a node := by
    intro a node
    have := hholds a node
    simpa [layerDestinations, Holds, Layered.Covers] using this
  refine ⟨hback.ordered, ?_, ?_⟩
  · intro a node hnode
    obtain ⟨r, hr, hcontains, hvalue, hleast⟩ := hnarrow a node ((hmerged a node).1 hnode)
    exact ⟨r, hperm.mem_iff.1 hr, hcontains, hvalue,
      fun r' hr' => hleast r' (hperm.mem_iff.2 hr')⟩
  · rintro a ⟨r, hr, hcontains⟩
    obtain ⟨node, hnode⟩ := hcover a ⟨r, hperm.mem_iff.2 hr, hcontains⟩
    exact ⟨node, (hmerged a node).2 hnode⟩

/-! ## The table -/

/-- The range of a destination selector and the node assigned to it. -/
def TrafficSelector.range (destinationNodes : KeyedMap TrafficSelector UInt8) :
    TrafficSelector → Option DestinationRange
  | .destination first last =>
    some ⟨first, last, (destinationNodes.get? (.destination first last)).getD 0⟩
  | .flow _ _ _ => none

/-- The ranges of a map of selectors, with their nodes. -/
def inputRanges (selectors : KeyedMap TrafficSelector (Option String))
    (destinationNodes : KeyedMap TrafficSelector UInt8) : List DestinationRange :=
  selectors.entries.filterMap fun e => e.1.range destinationNodes

/-- The loop collects the ranges in order, and the keys of the flows. -/
theorem collect_spec (flowOwners : KeyedMap TrafficSelector (List FlowOwner))
    (destinationNodes : KeyedMap TrafficSelector UInt8) (targets : TargetNodes)
    (es : List (TrafficSelector × Option String)) :
    ∀ c : Collected,
      (es.foldl (collect flowOwners destinationNodes targets) c).destinations =
          c.destinations ++ es.filterMap (fun e => e.1.range destinationNodes) ∧
        ∀ key : FlowKey,
          ((es.foldl (collect flowOwners destinationNodes targets) c).flows.get? key).isSome =
            true ↔
            (c.flows.get? key).isSome = true ∨
              ∃ e ∈ es, e.1 = .flow key.1 key.2.1 key.2.2 := by
  induction es with
  | nil =>
    intro c
    simp
  | cons e es ih =>
    intro c
    obtain ⟨selector, application⟩ := e
    obtain ⟨hdestinations, hflows⟩ :=
      ih (collect flowOwners destinationNodes targets c (selector, application))
    rw [foldl_cons]
    cases selector with
    | destination first last =>
      refine ⟨?_, ?_⟩
      · rw [hdestinations]
        simp [collect, TrafficSelector.range]
      · intro key
        rw [hflows]
        simp [collect]
    | flow protocol localPort remotePort =>
      refine ⟨?_, ?_⟩
      · rw [hdestinations]
        simp [collect, TrafficSelector.range]
      intro key
      rw [hflows]
      obtain ⟨p, l, r⟩ := key
      simp only [collect, KeyedMap.get?_insert, exists_mem_cons_iff,
        TrafficSelector.flow.injEq]
      by_cases hkey : (p, l, r) = (protocol, localPort, remotePort)
      · obtain ⟨rfl, rfl, rfl⟩ : p = protocol ∧ l = localPort ∧ r = remotePort := by
          simpa using hkey
        simp
      · have hne : ¬ (protocol = p ∧ localPort = l ∧ remotePort = r) := by
          rintro ⟨rfl, rfl, rfl⟩
          exact hkey rfl
        simp [hkey, hne]

namespace SelectorTable

theorem destinationNode_eq (table : SelectorTable) (address : Octets) :
    table.destinationNode address =
      (find table.destinations (u32OfOctets address)).map value := by
  unfold destinationNode find
  dsimp only
  cases partitionPoint (fun r => decide (r.first ≤ u32OfOctets address)) table.destinations with
  | zero => rfl
  | succ index =>
    cases hget : table.destinations[index]? with
    | none => simp [hget]
    | some range =>
      by_cases hle : u32OfOctets address ≤ range.last
      · simp [hget, hle]
      · simp [hget, hle, lt_of_not_ge hle]

/-- A packet is selected when its flow is in the table under one of two keys, or its destination is
in one of the ranges. -/
theorem lookup_isSome_iff (table : SelectorTable) (fields : Ipv4Fields) :
    (table.lookup fields).isSome = true ↔
      (table.flows.get? (fields.protocol, fields.sourcePort,
        some fields.destinationPort)).isSome = true ∨
      (table.flows.get? (fields.protocol, fields.sourcePort, none)).isSome = true ∨
      (table.destinationNode fields.destination).isSome = true := by
  unfold lookup
  cases table.flows.get? (fields.protocol, fields.sourcePort, some fields.destinationPort) with
  | some flow => simp
  | none =>
    cases table.flows.get? (fields.protocol, fields.sourcePort, none) with
    | some | none => simp

end SelectorTable

theorem matches_flow_iff {protocol : UInt8} {localPort : UInt16} {remotePort : Option UInt16}
    {fields : Ipv4Fields} :
    (TrafficSelector.flow protocol localPort remotePort).matches fields = true ↔
      fields.protocol = protocol ∧ fields.sourcePort = localPort ∧
        (remotePort = some fields.destinationPort ∨ remotePort = none) := by
  cases remotePort with
  | none => simp [TrafficSelector.matches]
  | some port =>
    simp only [TrafficSelector.matches, Option.all_some, Bool.and_eq_true, beq_iff_eq,
      Option.some.injEq, reduceCtorEq, or_false, and_assoc]
    rw [eq_comm (a := port)]

variable {destinationNodes : KeyedMap TrafficSelector UInt8}

theorem matches_range_iff {selector : TrafficSelector}
    (h : selector.range destinationNodes = some r) {fields : Ipv4Fields} :
    selector.matches fields = true ↔ r.Contains (u32OfOctets fields.destination) := by
  cases selector with
  | flow protocol localPort remotePort => cases h
  | destination first last =>
    cases h
    simp [TrafficSelector.matches, Contains]

/-- The rules match a packet by a flow under one of its two keys or by a range that has its
destination. -/
theorem matches_iff (selectors : KeyedMap TrafficSelector (Option String))
    (destinationNodes : KeyedMap TrafficSelector UInt8) (fields : Ipv4Fields) :
    (∃ e ∈ selectors.entries, e.1.matches fields = true) ↔
      (∃ e ∈ selectors.entries, e.1 =
        .flow fields.protocol fields.sourcePort (some fields.destinationPort)) ∨
      (∃ e ∈ selectors.entries, e.1 = .flow fields.protocol fields.sourcePort none) ∨
      ∃ r ∈ inputRanges selectors destinationNodes,
        r.Contains (u32OfOctets fields.destination) := by
  constructor
  · rintro ⟨e, he, hmatches⟩
    cases hselector : e.1 with
    | destination first last =>
      have hrange : e.1.range destinationNodes = some
          ⟨first, last, (destinationNodes.get? (.destination first last)).getD 0⟩ := by
        rw [hselector]
        rfl
      exact .inr (.inr ⟨_, mem_filterMap.2 ⟨e, he, hrange⟩,
        (matches_range_iff hrange).1 hmatches⟩)
    | flow protocol localPort remotePort =>
      rw [hselector, matches_flow_iff] at hmatches
      obtain ⟨rfl, rfl, rfl | rfl⟩ := hmatches
      · exact .inl ⟨e, he, hselector⟩
      · exact .inr (.inl ⟨e, he, hselector⟩)
  · rintro (⟨e, he, hselector⟩ | ⟨e, he, hselector⟩ | ⟨r, hr, hcontains⟩)
    · refine ⟨e, he, ?_⟩
      rw [hselector, matches_flow_iff]
      exact ⟨rfl, rfl, .inl rfl⟩
    · refine ⟨e, he, ?_⟩
      rw [hselector, matches_flow_iff]
      exact ⟨rfl, rfl, .inr rfl⟩
    · obtain ⟨e, he, hrange⟩ := mem_filterMap.1 hr
      exact ⟨e, he, (matches_range_iff hrange).2 hcontains⟩

theorem proper_of_range {selector : TrafficSelector} (h : selector.range destinationNodes = some r)
    (hproper : selector.Proper) :
    r.first ≤ r.last := by
  cases selector with
  | flow protocol localPort remotePort => cases h
  | destination first last =>
    cases h
    exact hproper

/-- The indexed table selects the packets the plain rules select; its ranges are in order, apart,
and have exactly the addresses of the rules' ranges; and the node of an address is that of a
narrowest range that has it. -/
theorem selector_table_agrees (selectors : KeyedMap TrafficSelector (Option String))
    (flowOwners : KeyedMap TrafficSelector (List FlowOwner))
    (destinationNodes : KeyedMap TrafficSelector UInt8) (targets : TargetNodes)
    (hproper : ∀ e ∈ selectors.entries, e.1.Proper) :
    let table := SelectorTable.buildWithOwners selectors flowOwners destinationNodes targets
    let ranges := inputRanges selectors destinationNodes
    (∀ fields, (table.lookup fields).isSome = true ↔
      ∃ e ∈ selectors.entries, e.1.matches fields = true) ∧
    Ordered table.destinations ∧
    (∀ a, (∃ r ∈ table.destinations, r.Contains a) ↔ ∃ r ∈ ranges, r.Contains a) ∧
    ∀ address,
      match table.destinationNode address with
      | some node => Narrowest width ranges (u32OfOctets address) node
      | none => ∀ r ∈ ranges, ¬ r.Contains (u32OfOctets address) := by
  intro table ranges
  obtain ⟨hdestinations, hflows⟩ := collect_spec flowOwners destinationNodes targets
    selectors.entries ⟨[], KeyedMap.empty⟩
  have htable : table.destinations = layerDestinations ranges := by
    have : table.destinations = layerDestinations (selectors.entries.foldl
      (collect flowOwners destinationNodes targets) ⟨[], KeyedMap.empty⟩).destinations := rfl
    rw [this, hdestinations]
    rfl
  have hranges : ∀ r ∈ ranges, r.first ≤ r.last := by
    intro r hr
    obtain ⟨e, he, hrange⟩ := List.mem_filterMap.1 hr
    exact proper_of_range hrange (hproper e he)
  obtain ⟨hordered, hnarrow, hcover⟩ := layerDestinations_spec hranges
  rw [← htable] at hordered hnarrow hcover
  have hunion : ∀ a, (∃ r ∈ table.destinations, r.Contains a) ↔ ∃ r ∈ ranges, r.Contains a := by
    intro a
    constructor
    · rintro ⟨r, hr, hcontains⟩
      obtain ⟨r', hr', hcontains', -⟩ := hnarrow a r.value ⟨r, hr, hcontains, rfl⟩
      exact ⟨r', hr', hcontains'⟩
    · intro hinput
      obtain ⟨node, r, hr, hcontains, -⟩ := hcover a hinput
      exact ⟨r, hr, hcontains⟩
  have hnode : ∀ address node, table.destinationNode address = some node ↔
      Holds table.destinations (u32OfOctets address) node := by
    intro address node
    rw [SelectorTable.destinationNode_eq, Option.map_eq_some_iff]
    simp only [hordered.find_eq_some_iff, Holds, and_assoc]
  have hselected : ∀ address, (table.destinationNode address).isSome = true ↔
      ∃ r ∈ ranges, r.Contains (u32OfOctets address) := by
    intro address
    rw [← hunion, Option.isSome_iff_exists]
    simp only [hnode]
    constructor
    · rintro ⟨node, r, hr, hcontains, -⟩
      exact ⟨r, hr, hcontains⟩
    · rintro ⟨r, hr, hcontains⟩
      exact ⟨r.value, r, hr, hcontains, rfl⟩
  refine ⟨?_, hordered, hunion, ?_⟩
  · intro fields
    rw [SelectorTable.lookup_isSome_iff, hselected, matches_iff selectors destinationNodes]
    have hkey : ∀ key : FlowKey, (table.flows.get? key).isSome = true ↔
        ∃ e ∈ selectors.entries, e.1 = .flow key.1 key.2.1 key.2.2 := by
      intro key
      refine (hflows key).trans ?_
      simp only [KeyedMap.get?_empty, Option.isSome_none, Bool.false_eq_true, false_or]
    rw [hkey, hkey]
  intro address
  split
  · rename_i node hsome
    exact hnarrow _ _ ((hnode address node).1 hsome)
  · rename_i hnone
    intro r hr hcontains
    have := (hselected address).2 ⟨r, hr, hcontains⟩
    rw [hnone] at this
    cases this

/-- A network on node 1 and a host inside it on node 2, at the two ends of the address space. -/
theorem selector_table_agrees_nested :
    let selectors : KeyedMap TrafficSelector (Option String) :=
      ⟨[(.destination 0 255, none), (.destination 7 7, none), (.flow 17 5000 none, some "game"),
        (.destination 4294967295 4294967295, none)], by decide⟩
    let destinationNodes : KeyedMap TrafficSelector UInt8 :=
      ⟨[(.destination 0 255, 1), (.destination 7 7, 2)], by decide⟩
    let targets : TargetNodes := ⟨KeyedMap.empty, []⟩
    let table := SelectorTable.buildWithOwners selectors KeyedMap.empty destinationNodes targets
    (∀ fields, (table.lookup fields).isSome = true ↔
      ∃ e ∈ selectors.entries, e.1.matches fields = true) ∧
    table.destinations = [⟨0, 6, 1⟩, ⟨7, 7, 2⟩, ⟨8, 255, 1⟩, ⟨4294967295, 4294967295, 0⟩] ∧
    table.destinationNode (0, 0, 0, 7) = some 2 := by
  intro selectors destinationNodes targets table
  have h := selector_table_agrees selectors KeyedMap.empty destinationNodes targets (by decide)
  exact ⟨h.1, by decide, by decide⟩

end GamePath.Engine.SplitCapture
