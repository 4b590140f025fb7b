import GamePath.Engine.Capture.Selectors

/-!
# The selectors stay in step with their owners and with the table

A flow is a selector exactly while it has an owner, the table is the one that would be built now,
and what the table says of a flow comes from its last owner. Each operation decides by itself
whether to label a flow anew and to publish. A socket that closes or is reaped does it by the last
owner that is left. A socket that is seen again does not: it puts its own name on the flow, wherever
its record stands, and publishes only where the name is another one.
-/

namespace GamePath.Engine.SplitCapture

open Lib List KeyedMap FlowOwner Selectors Lib.Run
open SelectorTable (buildState buildWithOwners)
open KeyedMap (get?_eq_some_iff get?_insert get?_set)
open Option (bind_some map_eq_some_iff map_some)

/-- Whose the record is. -/
def FlowOwner.identity (owner : FlowOwner) : UInt32 × String := (owner.processId, owner.path)

/-! ## The table that is built -/

/-- The owner a flow's selection is taken from. -/
def SelectorState.owner (state : SelectorState) (selector : TrafficSelector) : Option FlowOwner :=
  (state.flowOwners.get? selector).bind List.getLast?

/-- What a flow is selected for. -/
def SelectorState.selection (targets : TargetNodes) (state : SelectorState)
    (selector : TrafficSelector) (application : Option String) : Selection :=
  ⟨application, (state.owner selector).map processId,
    ((state.owner selector).map fun owner => targets.forPath owner.path).getD 0⟩

theorem SelectorState.selection_congr {targets : TargetNodes} {state state' : SelectorState}
    {k : TrafficSelector} (h : (state.owner k).map identity = (state'.owner k).map identity)
    (application : Option String) :
    state.selection targets k application = state'.selection targets k application := by
  have hread : ∀ state : SelectorState, state.selection targets k application =
      ⟨application, ((state.owner k).map identity).map Prod.fst,
        (((state.owner k).map identity).map fun owner => targets.forPath owner.2).getD 0⟩ := by
    intro state
    rw [Option.map_map, Option.map_map]
    rfl
  rw [hread, hread, h]

section Build

variable {targets : TargetNodes} {state state' : SelectorState}

theorem collect_flow (c : Collected) (protocol : UInt8) (localPort : UInt16)
    (remotePort : Option UInt16) (application : Option String) :
    collect state.flowOwners state.destinationNodes targets c (.flow protocol localPort remotePort,
      application) =
      { c with
        flows :=
          c.flows.insert (protocol, localPort, remotePort)
            (state.selection targets (.flow protocol localPort remotePort) application) } := by
  rw [collect, SelectorState.selection, SelectorState.owner]
  cases (state.flowOwners.get? (.flow protocol localPort remotePort)).bind List.getLast? <;> rfl

theorem flows_buildState {protocol : UInt8} {localPort : UInt16} {remotePort : Option UInt16}
    {selection : Selection}
    (h : (buildState targets state).flows.get? (protocol, localPort, remotePort) = some selection) :
    ∃ application, state.selectors.get? (.flow protocol localPort remotePort) = some application ∧
      selection = state.selection targets (.flow protocol localPort remotePort) application := by
  have hcollected : ∀ es : List (TrafficSelector × Option String),
      (es.foldl (collect state.flowOwners state.destinationNodes targets) ⟨[],
        KeyedMap.empty⟩).flows.get?
        (protocol, localPort, remotePort) = some selection →
      ∃ application, (.flow protocol localPort remotePort, application) ∈ es ∧
        selection = state.selection targets (.flow protocol localPort remotePort) application := by
    intro es
    induction es using List.reverseRecOn with
    | nil => exact nofun
    | append_singleton es e ih =>
      intro h
      rw [foldl_append, foldl_cons, foldl_nil] at h
      obtain ⟨selector, application⟩ := e
      have hearlier : (es.foldl (collect state.flowOwners state.destinationNodes targets)
          ⟨[], KeyedMap.empty⟩).flows.get? (protocol, localPort, remotePort) = some selection →
          ∃ application', (.flow protocol localPort remotePort, application') ∈
            es ++ [(selector, application)] ∧
            selection = state.selection targets
              (.flow protocol localPort remotePort) application' := by
        intro hbefore
        obtain ⟨application', hmem, heq⟩ := ih hbefore
        exact ⟨application', mem_append_left _ hmem, heq⟩
      cases selector with
      | destination first last => exact hearlier h
      | flow protocol' localPort' remotePort' =>
        rw [collect_flow] at h
        rw [get?_insert] at h
        split at h
        next hkey =>
          obtain ⟨rfl, rfl, rfl⟩ : protocol = protocol' ∧ localPort = localPort' ∧ remotePort =
            remotePort' := by
            simpa using hkey
          refine ⟨application, mem_append_right _ (mem_singleton.2 rfl), ?_⟩
          exact (Option.some.inj h).symm
        · exact hearlier h
  obtain ⟨application, hmem, heq⟩ := hcollected _ h
  exact ⟨application, get?_eq_some_iff.2 hmem, heq⟩

/-- The table depends on the last owners and on nothing else of the others. -/
theorem buildState_congr (hselectors : state.selectors = state'.selectors)
    (hnodes : ∀ k, state.destinationNodes.get? k = state'.destinationNodes.get? k)
    (howners : ∀ protocol localPort remotePort application,
      state.selection targets (.flow protocol localPort remotePort) application =
        state'.selection targets (.flow protocol localPort remotePort) application) :
    buildState targets state = buildState targets state' := by
  have hcollect : collect state.flowOwners state.destinationNodes targets =
      collect state'.flowOwners state'.destinationNodes targets := by
    funext c e
    obtain ⟨selector, application⟩ := e
    cases selector with
    | destination first last => rw [collect, collect, hnodes]
    | flow protocol localPort remotePort =>
      rw [collect_flow, collect_flow, howners]
  rw [buildState, buildState, buildWithOwners, buildWithOwners,
    hcollect, hselectors]

theorem buildState_set_destination {first last : UInt32} (application : Option String)
    (order : List TrafficSelector)
    (h : (state.selectors.get? (.destination first last)).isSome = true) :
    buildState targets
        { state with selectors :=
            state.selectors.set (.destination first last) application order } =
      buildState targets state := by
  have hsame : ∀ (es : List (TrafficSelector × Option String)) (c : Collected),
      (es.map fun e => (e.1, if e.1 = .destination first last then application else e.2)).foldl
          (collect state.flowOwners state.destinationNodes targets) c =
        es.foldl (collect state.flowOwners state.destinationNodes targets) c := by
    intro es
    induction es with
    | nil => exact fun _ => rfl
    | cons e es ih =>
      intro c
      rw [map_cons, foldl_cons, foldl_cons, ih]
      congr 1
      obtain ⟨selector, application'⟩ := e
      cases selector with
      | destination first' last' => rfl
      | flow protocol localPort remotePort => rw [if_neg (by simp)]
  rw [KeyedMap.set, if_pos h, buildState, buildState, buildWithOwners,
    buildWithOwners]
  dsimp only [KeyedMap.mapValues, KeyedMap.size]
  rw [hsame, length_map]

end Build

/-! ## Sweeping -/

section Sweep

variable {processName : String → String} {state : SelectorState}
  {pass : TrafficSelector → List FlowOwner → List FlowOwner} {order : List TrafficSelector}

theorem get?_foldl_erase {κ ν : Type} [DecidableEq κ] (ks : List κ) (m : KeyedMap κ ν) (k : κ) :
    (ks.foldl KeyedMap.erase m).get? k = if k ∈ ks then none else m.get? k := by
  induction ks generalizing m with
  | nil => simp
  | cons k' ks ih =>
    rw [foldl_cons, ih, get?_erase]
    by_cases hmem : k ∈ ks
    · rw [if_pos hmem, if_pos (mem_cons_of_mem _ hmem)]
    · rw [if_neg hmem]
      by_cases hk : k = k'
      · rw [if_pos hk, if_pos (hk ▸ mem_cons_self)]
      · rw [if_neg hk, if_neg (by simp [hk, hmem])]

theorem get?_foldl_set_of_not_mem {κ α β : Type} [DecidableEq κ] (f : α → β) (order : List κ)
    (es : List (κ × α)) (m : KeyedMap κ β) {k : κ} (h : ∀ e ∈ es, e.1 ≠ k) :
    (es.foldl (fun m e => m.set e.1 (f e.2) order) m).get? k = m.get? k := by
  induction es generalizing m with
  | nil => rfl
  | cons e es ih =>
    rw [foldl_cons, ih _ fun e' he' => h e' (mem_cons_of_mem _ he'), get?_set,
      if_neg (Ne.symm (h e mem_cons_self))]

theorem get?_foldl_set_of_mem {κ α β : Type} [DecidableEq κ] (f : α → β) (order : List κ)
    (es : List (κ × α))
    (hnodup : (es.map Prod.fst).Nodup) (m : KeyedMap κ β) {k : κ} {a : α} (h : (k, a) ∈ es) :
    (es.foldl (fun m e => m.set e.1 (f e.2) order) m).get? k = some (f a) := by
  induction es generalizing m with
  | nil => exact absurd h not_mem_nil
  | cons e es ih =>
    rw [map_cons, nodup_cons] at hnodup
    rw [foldl_cons]
    rcases mem_cons.1 h with rfl | hmem
    · have hother : ∀ e ∈ es, e.1 ≠ k := by
        rintro e he rfl
        exact hnodup.1 (mem_map.2 ⟨e, he, rfl⟩)
      rw [get?_foldl_set_of_not_mem f order es _ hother, get?_set, if_pos rfl]
    · exact ih hnodup.2 _ hmem

theorem nodup_filterMap_keys {κ α β : Type} (m : KeyedMap κ α) (f : κ × α → Option β) :
    ((m.entries.filterMap fun e => (f e).map fun b => (e.1, b)).map Prod.fst).Nodup := by
  have hsublist : ∀ es : List (κ × α),
      ((es.filterMap fun e => (f e).map fun b => (e.1, b)).map Prod.fst).Sublist
        (es.map Prod.fst) := by
    intro es
    induction es with
    | nil => exact List.Sublist.refl _
    | cons e es ih =>
      rw [filterMap_cons]
      cases f e with
      | none => exact ih.cons _
      | some b => exact ih.cons_cons _
  exact (hsublist m.entries).nodup m.nodup

theorem sweep_owners (k : TrafficSelector) :
    (sweep processName state pass order).flowOwners.get? k =
      (state.flowOwners.get? k).bind fun owners => if pass k owners =
        [] then none else some (pass k owners) := by
  rw [sweep]
  rw [get?_foldl_erase, get?_mapValues]
  cases howners : state.flowOwners.get? k with
  | none =>
    rw [Option.map_none, ite_self]
    rfl
  | some owners =>
    have hmem : k ∈ (state.flowOwners.entries.filter fun e => (pass e.1 e.2).isEmpty).map Prod.fst ↔
        pass k owners = [] := by
      rw [mem_map]
      constructor
      · rintro ⟨e, he, rfl⟩
        obtain ⟨he', hempty⟩ := mem_filter.1 he
        rw [← Option.some.inj ((get?_eq_some_iff.2 he').symm.trans howners)]
        exact isEmpty_iff.1 hempty
      · intro hempty
        exact ⟨(k, owners), mem_filter.2 ⟨get?_eq_some_iff.1 howners, isEmpty_iff.2 hempty⟩, rfl⟩
    rw [map_some, bind_some]
    by_cases hempty : pass k owners = []
    · rw [if_pos (hmem.2 hempty), if_pos hempty]
    · rw [if_neg (fun h => hempty (hmem.1 h)), if_neg hempty]

theorem sweep_selectors (k : TrafficSelector) :
    (sweep processName state pass order).selectors.get? k =
      match state.flowOwners.get? k with
      | none => state.selectors.get? k
      | some owners =>
        if pass k owners = [] then none
        else (relabel processName owners (pass k owners)).elim (state.selectors.get? k) fun label =>
          some (some label) := by
  rw [sweep]
  rw [get?_foldl_erase]
  cases howners : state.flowOwners.get? k with
  | none =>
    have hno : ∀ e ∈ state.flowOwners.entries, e.1 ≠ k := get?_eq_none_iff.1 howners
    rw [if_neg, get?_foldl_set_of_not_mem]
    · intro e he
      obtain ⟨e', he', hlabel⟩ := mem_filterMap.1 he
      obtain ⟨label, -, rfl⟩ := map_eq_some_iff.1 hlabel
      exact hno e' he'
    · intro hmem
      obtain ⟨e, he, rfl⟩ := mem_map.1 hmem
      exact hno e (mem_filter.1 he).1 rfl
  | some owners =>
    have hin := get?_eq_some_iff.1 howners
    have honly : ∀ e ∈ state.flowOwners.entries, e.1 = k → e.2 = owners := by
      rintro ⟨k', owners'⟩ he rfl
      exact state.flowOwners.eq_of_mem_of_mem he hin
    dsimp only
    by_cases hempty : pass k owners = []
    · rw [if_pos hempty, if_pos]
      exact mem_map.2 ⟨(k, owners), mem_filter.2 ⟨hin, isEmpty_iff.2 hempty⟩, rfl⟩
    rw [if_neg hempty, if_neg]
    · cases hlabel : relabel processName owners (pass k owners) with
      | none =>
        rw [get?_foldl_set_of_not_mem]
        · rfl
        intro e he hk
        obtain ⟨e', he', hlabel'⟩ := mem_filterMap.1 he
        obtain ⟨label, hl, rfl⟩ := map_eq_some_iff.1 hlabel'
        have howned := honly e' he' hk
        rw [howned, show e'.1 = k from hk, hlabel] at hl
        cases hl
      | some label =>
        refine get?_foldl_set_of_mem some order _ ?_ _ ?_
        · exact nodup_filterMap_keys state.flowOwners fun e => relabel processName e.2
            (pass e.1 e.2)
        · exact mem_filterMap.2 ⟨(k, owners), hin, by rw [hlabel]; rfl⟩
    · intro hmem
      obtain ⟨e, he, hk⟩ := mem_map.1 hmem
      obtain ⟨he', hnil⟩ := mem_filter.1 he
      rw [honly e he' hk, hk] at hnil
      exact hempty (isEmpty_iff.1 hnil)

theorem sweep_selectors_of_kept
    (h : ∀ k owners, state.flowOwners.get? k = some owners →
      pass k owners ≠ [] ∧ (pass k owners).length = owners.length) :
    (sweep processName state pass order).selectors = state.selectors := by
  have hkept : ∀ e ∈ state.flowOwners.entries, pass e.1 e.2 ≠ [] ∧ (pass e.1 e.2).length =
      e.2.length :=
    fun e he => h e.1 e.2 (get?_eq_some_iff.2 he)
  have hemptied : state.flowOwners.entries.filter (fun e => (pass e.1 e.2).isEmpty) = [] := by
    rw [filter_eq_nil_iff]
    exact fun e he hnil => (hkept e he).1 (isEmpty_iff.1 hnil)
  have hrelabeled : (state.flowOwners.entries.filterMap fun e =>
      (relabel processName e.2 (pass e.1 e.2)).map fun application => (e.1, application)) = [] := by
    rw [filterMap_eq_nil_iff]
    intro e he
    rw [relabel]
    split
    · rfl
    · rw [if_neg (fun hne => hne (hkept e he).2)]
      rfl
  rw [sweep]
  rw [hemptied, hrelabeled]
  rfl

end Sweep

/-! ## In step -/

variable {targets : TargetNodes} {processName : String → String} {s : Selectors}

/-- What every operation keeps. -/
structure InStep (targets : TargetNodes) (processName : String → String) (s : Selectors) :
    Prop where
  filled : ∀ k owners, s.state.flowOwners.get? k = some owners → owners ≠ []
  owned : ∀ protocol localPort remotePort,
    (s.state.selectors.get? (.flow protocol localPort remotePort)).isSome =
      (s.state.flowOwners.get? (.flow protocol localPort remotePort)).isSome
  labelled : ∀ protocol localPort remotePort owner,
    s.state.owner (.flow protocol localPort remotePort) = some owner →
    s.state.selectors.get? (.flow protocol localPort remotePort) =
      some (some (processName owner.path))
  published : s.table = SelectorTable.buildState targets s.state

/-- What the bookkeeping is for: a flow is a selector exactly while it has an owner, the table is
the one of the state, and what it says of a flow comes from one and the same owner. -/
structure Consistent (targets : TargetNodes) (processName : String → String) (s : Selectors) :
    Prop where
  flows : ∀ protocol localPort remotePort,
    (s.state.selectors.get? (.flow protocol localPort remotePort)).isSome = true ↔
      ∃ owners, s.state.flowOwners.get? (.flow protocol localPort remotePort) = some owners ∧
        owners ≠ []
  published : s.table = SelectorTable.buildState targets s.state
  selections : ∀ protocol localPort remotePort selection,
    s.table.flows.get? (protocol, localPort, remotePort) = some selection →
      ∃ owners, s.state.flowOwners.get? (.flow protocol localPort remotePort) = some owners ∧
        ∃ owner ∈ owners, selection =
          ⟨some (processName owner.path), some owner.processId, targets.forPath owner.path⟩

theorem InStep.consistent (h : InStep targets processName s) :
    Consistent targets processName s := by
  refine ⟨fun protocol localPort remotePort => ?_, h.published,
    fun protocol localPort remotePort selection hsel => ?_⟩
  · rw [h.owned, Option.isSome_iff_exists]
    exact ⟨fun ⟨owners, howners⟩ => ⟨owners, howners, h.filled _ _ howners⟩,
      fun ⟨owners, howners, _⟩ => ⟨owners, howners⟩⟩
  rw [h.published] at hsel
  obtain ⟨application, happlication, rfl⟩ := flows_buildState hsel
  have hsome := h.owned protocol localPort remotePort
  rw [happlication] at hsome
  obtain ⟨owners, howners⟩ := Option.isSome_iff_exists.1 hsome.symm
  obtain ⟨owner, howner⟩ := Option.ne_none_iff_exists'.1
    (fun hnone => h.filled _ _ howners (getLast?_eq_none_iff.1 hnone))
  have hlast : s.state.owner (.flow protocol localPort remotePort) = some owner := by
    rw [SelectorState.owner, howners]
    exact howner
  have hlabel := h.labelled protocol localPort remotePort owner hlast
  refine ⟨owners, howners, owner, mem_of_getLast? howner, ?_⟩
  rw [SelectorState.selection, hlast, Option.some.inj (happlication.symm.trans hlabel)]
  rfl

theorem inStep_new : InStep targets processName new := by
  refine ⟨fun k owners h => ?_, fun _ _ _ => rfl, fun _ _ _ owner h => ?_, rfl⟩
  · simp [new] at h
  · simp [new, SelectorState.owner] at h

/-! ## The operations -/

theorem addSelector_inStep (h : InStep targets processName s) (first last : UInt32) (node : UInt8)
    (order : List TrafficSelector) :
    InStep targets processName (addSelector targets s (.destination first last) node order) := by
  have hselectors : ∀ protocol localPort remotePort,
      (s.state.selectors.set (.destination first last) none order).get?
        (.flow protocol localPort remotePort) =
        s.state.selectors.get? (.flow protocol localPort remotePort) := by
    intro protocol localPort remotePort
    rw [get?_set, if_neg (by simp)]
  rw [addSelector]
  split
  · refine ⟨h.filled, fun protocol localPort remotePort => ?_,
      fun protocol localPort remotePort owner howner => ?_, rfl⟩
    · rw [publishSelectors, hselectors]
      exact h.owned protocol localPort remotePort
    · rw [publishSelectors, hselectors]
      exact h.labelled protocol localPort remotePort owner howner
  next hquiet =>
    rw [Bool.or_eq_true, not_or, decide_eq_true_iff, not_not, Bool.not_eq_true] at hquiet
    obtain ⟨hthere, hnode⟩ := hquiet
    have hsome : (s.state.selectors.get? (.destination first last)).isSome = true := by
      rw [Option.isNone_eq_false_iff] at hthere
      exact hthere
    refine ⟨h.filled, fun protocol localPort remotePort => ?_,
        fun protocol localPort remotePort owner howner => ?_, ?_⟩
    · rw [hselectors]
      exact h.owned protocol localPort remotePort
    · rw [hselectors]
      exact h.labelled protocol localPort remotePort owner howner
    refine h.published.trans ((buildState_set_destination none order hsome).symm.trans ?_)
    refine buildState_congr rfl (fun k => ?_) fun _ _ _ _ => rfl
    rw [get?_insert]
    split
    · next hk => rw [hk, hnode]
    · rfl

theorem identity_refresh (isSame : FlowOwner → Bool) (owners : List FlowOwner) :
    (refresh isSame owners).map identity = owners.map identity := by
  induction owners with
  | nil => rfl
  | cons held rest ih =>
    rw [refresh]
    split
    · rfl
    · rw [map_cons, map_cons, ih]

/-- An application's socket that is seen again does not come to stand behind another owner: its
record is new, or the last one that is kept is of the same name, and where the label stays, of the
process and the node the table has. -/
def Settles (targets : TargetNodes) (processName : String → String) (s : Selectors)
    (selector : TrafficSelector)
    (path : String) (processId : UInt32) (endpointId : Option UInt64) : Prop :=
  let owners := (s.state.flowOwners.get? selector).getD []
  let kept := keptOwners owners processId endpointId
  kept.any (same path processId endpointId) = false ∨
    ∃ last ∈ kept.getLast?, processName last.path = processName path ∧
      ∀ old ∈ owners.getLast?, processName old.path = processName path →
        old.processId = last.processId ∧ targets.forPath old.path = targets.forPath last.path

/-- The owner that comes last once a socket was seen. -/
theorem settles_last {owners kept : List FlowOwner} {path : String} {processId : UInt32}
    {endpointId : Option UInt64} (h : kept.any (same path processId endpointId) = false ∨
      ∃ last ∈ kept.getLast?, processName last.path = processName path ∧
        ∀ old ∈ owners.getLast?, processName old.path = processName path →
          old.processId = last.processId ∧ targets.forPath old.path = targets.forPath last.path) :
    ∃ last, (if kept.any (same path processId endpointId) then
        refresh (same path processId endpointId) kept
        else kept ++ [⟨endpointId, processId, path, 0⟩]).getLast? = some last ∧
      processName last.path = processName path ∧
      (kept.any (same path processId endpointId) = true →
        ∀ old ∈ owners.getLast?, processName old.path = processName path →
          old.processId = last.processId ∧ targets.forPath old.path =
            targets.forPath last.path) := by
  cases hheld : kept.any (same path processId endpointId) with
  | false =>
    refine ⟨⟨endpointId, processId, path, 0⟩, ?_, rfl, nofun⟩
    rw [if_neg (by simp), getLast?_concat]
  | true =>
    obtain ⟨last, hlast, hname, hold⟩ := h.resolve_left (by simp [hheld])
    have hsame := congrArg List.getLast? (identity_refresh (same path processId endpointId) kept)
    rw [getLast?_map, getLast?_map, hlast] at hsame
    obtain ⟨last', hlast', hidentity⟩ := map_eq_some_iff.1 hsame
    obtain ⟨hprocess, hpath⟩ := Prod.mk.inj hidentity
    refine ⟨last', ?_, ?_, fun _ old hmem hn => ?_⟩
    · exact hlast'
    · rw [hpath]
      exact hname
    · rw [hprocess, hpath]
      exact hold old hmem hn

/-- A socket of an application is seen. -/
theorem addProcessSelector_inStep (h : InStep targets processName s) (selector : TrafficSelector)
    (path : String) (processId : UInt32) (endpointId : Option UInt64) (order : List TrafficSelector)
    (hsettles : Settles targets processName s selector path processId endpointId) :
    InStep targets processName
      (addProcessSelector targets processName s selector path processId endpointId order) := by
  obtain ⟨last, hlast, hname, hold⟩ := settles_last hsettles
  rw [addProcessSelector]
  generalize hstored : (if (keptOwners ((s.state.flowOwners.get? selector).getD
    []) processId endpointId).any
      (same path processId endpointId) then
      refresh (same path processId endpointId)
        (keptOwners ((s.state.flowOwners.get? selector).getD []) processId endpointId)
      else keptOwners ((s.state.flowOwners.get? selector).getD []) processId endpointId ++
        [⟨endpointId, processId, path, 0⟩]) = stored at hlast ⊢
  have hstate : ∀ table version, table = buildState targets
        { s.state with
          selectors := s.state.selectors.set selector (some (processName path)) order
          flowOwners := s.state.flowOwners.insert selector stored } →
      InStep targets processName ⟨{ s.state with
        selectors := s.state.selectors.set selector (some (processName path)) order
        flowOwners := s.state.flowOwners.insert selector stored }, table, version⟩ := by
    intro table version htable
    refine ⟨fun k owners howners => ?_, fun protocol localPort remotePort => ?_,
      fun protocol localPort remotePort owner howner => ?_, htable⟩
    · rw [get?_insert] at howners
      split at howners
      · cases howners
        rintro rfl
        cases hlast
      · exact h.filled k owners howners
    · rw [get?_set, get?_insert]
      split
      · rfl
      · exact h.owned protocol localPort remotePort
    · rw [SelectorState.owner] at howner
      rw [get?_insert] at howner
      rw [get?_set]
      split at howner
      next hk =>
        rw [if_pos hk]
        cases hlast.symm.trans howner
        rw [hname]
      next hk =>
        rw [if_neg hk]
        exact h.labelled protocol localPort remotePort owner howner
  split
  · exact hstate _ _ rfl
  next hquiet =>
    rw [Bool.or_eq_true, not_or, decide_eq_true_iff, not_not, Bool.not_eq_true',
      Bool.not_eq_false] at hquiet
    obtain ⟨hheld, hlabel⟩ := hquiet
    -- The label stays, so the table has to be that of before.
    refine hstate _ _ (h.published.trans (buildState_congr ?_ (fun _ => rfl) ?_))
    · exact (set_of_get? order hlabel).symm
    intro protocol localPort remotePort application
    by_cases hk : TrafficSelector.flow protocol localPort remotePort = selector
    · have howner : s.state.owner selector =
          ((s.state.flowOwners.get? selector).getD []).getLast? := by
        rw [SelectorState.owner]
        cases s.state.flowOwners.get? selector <;> rfl
      have hne : ((s.state.flowOwners.get? selector).getD []).getLast? ≠ none := by
        intro hnone
        rw [getLast?_eq_none_iff.1 hnone, keptOwners, filter_nil, ite_self] at hheld
        cases hheld
      obtain ⟨old, hmem⟩ := Option.ne_none_iff_exists'.1 hne
      rw [hmem] at howner
      have hwas := h.labelled protocol localPort remotePort old (hk ▸ howner)
      rw [hk, hlabel] at hwas
      have hsamename : processName old.path = processName path :=
        (Option.some.inj (Option.some.inj hwas)).symm
      obtain ⟨hprocess, hnode⟩ := hold hheld old hmem hsamename
      rw [hk, SelectorState.selection, SelectorState.selection, howner, SelectorState.owner]
      rw [get?_insert_self, bind_some, hlast, map_some, map_some, map_some,
        map_some, hprocess, hnode]
    · refine SelectorState.selection_congr ?_ application
      rw [SelectorState.owner, SelectorState.owner]
      rw [get?_insert, if_neg hk]

/-! ### Sweeps -/

/-- A sweep takes owners away, and changes nothing of the last one where it takes none. -/
def Thins (pass : TrafficSelector → List FlowOwner → List FlowOwner) : Prop :=
  ∀ k owners, (pass k owners).length = owners.length →
    (pass k owners).map identity = owners.map identity

/-- The sweep is published, or takes no owner away. -/
theorem sweep_inStep {pass : TrafficSelector → List FlowOwner → List FlowOwner}
    {order : List TrafficSelector}
    (h : InStep targets processName s) (hthins : Thins pass) {table : SelectorTable}
    {version : UInt64}
    (hpublished : table = buildState targets (sweep processName s.state pass order) ∨
      (table = s.table ∧ ∀ k owners, s.state.flowOwners.get? k = some owners →
        (pass k owners).length = owners.length)) :
    InStep targets processName ⟨sweep processName s.state pass order, table, version⟩ := by
  have howner : ∀ k owners, s.state.flowOwners.get? k = some owners → (pass k owners).length =
      owners.length →
      ((sweep processName s.state pass order).owner k).map identity =
        (s.state.owner k).map identity := by
    intro k owners howners hlength
    have hne : pass k owners ≠ [] := by
      intro hnil
      rw [hnil] at hlength
      exact h.filled k owners howners (length_eq_zero_iff.1 hlength.symm)
    rw [SelectorState.owner, SelectorState.owner, sweep_owners, howners, bind_some, bind_some,
      if_neg hne, bind_some, ← getLast?_map, ← getLast?_map, hthins k owners hlength]
  refine ⟨fun k owners howners => ?_, fun protocol localPort remotePort => ?_,
    fun protocol localPort remotePort owner hlast => ?_, ?_⟩
  · rw [sweep_owners] at howners
    obtain ⟨before, -, hafter⟩ := Option.bind_eq_some_iff.1 howners
    split at hafter
    · cases hafter
    · next hne => exact Option.some.inj hafter ▸ hne
  · have howned := h.owned protocol localPort remotePort
    rw [sweep_owners, sweep_selectors]
    cases hbefore : s.state.flowOwners.get? (.flow protocol localPort remotePort) with
    | none =>
      rw [hbefore] at howned
      exact howned
    | some owners =>
      rw [hbefore] at howned
      rw [bind_some]
      dsimp only
      split
      · rfl
      · cases relabel processName owners (pass (.flow protocol localPort remotePort) owners) with
        | none => exact howned
        | some label => rfl
  · rw [SelectorState.owner, sweep_owners] at hlast
    rw [sweep_selectors]
    cases hbefore : s.state.flowOwners.get? (.flow protocol localPort remotePort) with
    | none =>
      rw [hbefore] at hlast
      cases hlast
    | some owners =>
      rw [hbefore, bind_some] at hlast
      dsimp only
      split at hlast
      · cases hlast
      next hne =>
        rw [bind_some] at hlast
        rw [if_neg hne, relabel, hlast]
        dsimp only
        by_cases hlength : (pass (.flow protocol localPort remotePort) owners).length =
          owners.length
        · -- The label is that of before, and so is the last owner.
          rw [if_neg (not_not.2 hlength)]
          have hidentity := howner _ owners hbefore hlength
          rw [SelectorState.owner, sweep_owners, hbefore, bind_some, if_neg hne, bind_some,
            hlast] at hidentity
          obtain ⟨old, hold, heq⟩ := map_eq_some_iff.1 hidentity.symm
          rw [← (Prod.mk.inj heq).2]
          exact h.labelled protocol localPort remotePort old hold
        · rw [if_pos hlength]
          rfl
  · rcases hpublished with hnew | ⟨rfl, hkept⟩
    · exact hnew
    refine h.published.trans (buildState_congr ?_
      (fun _ => rfl) fun protocol localPort remotePort application => ?_)
    · refine (sweep_selectors_of_kept fun k owners howners => ⟨?_, hkept k owners howners⟩).symm
      intro hnil
      have hlength := hkept k owners howners
      rw [hnil] at hlength
      exact h.filled k owners howners (length_eq_zero_iff.1 hlength.symm)
    refine SelectorState.selection_congr ?_ application
    cases hbefore : s.state.flowOwners.get? (.flow protocol localPort remotePort) with
    | none =>
      rw [SelectorState.owner, SelectorState.owner, sweep_owners, hbefore]
      rfl
    | some owners => exact (howner _ owners hbefore (hkept _ owners hbefore)).symm

theorem removeClosedSocket_inStep (h : InStep targets processName s) (endpointId : UInt64)
    (paths : KeyedMap ReturnKey ReturnPath) (order : List TrafficSelector) :
    InStep targets processName
      (removeClosedSocket targets processName s endpointId paths order).1 := by
  have hthins : Thins fun _ owners => owners.filter fun owner => !owner.ofEndpoint endpointId := by
    intro k owners hlength
    dsimp only at hlength ⊢
    rw [length_filter_eq_length_iff] at hlength
    rw [filter_eq_self.2 hlength]
  rw [removeClosedSocket]
  split
  next hnone =>
    refine sweep_inStep h hthins (.inr ⟨rfl, fun k owners howners => ?_⟩)
    rw [length_filter_eq_length_iff]
    intro owner howner
    rw [Bool.not_eq_true']
    by_contra hgone
    refine not_mem_nil ((isEmpty_iff.1 hnone) ▸ mem_flatMap.2
      ⟨(k, owners), get?_eq_some_iff.1 howners, mem_map.2 ⟨owner, ?_, rfl⟩⟩)
    exact mem_filter.2 ⟨howner, Bool.not_eq_false _ ▸ hgone⟩
  · exact sweep_inStep h hthins (.inl rfl)

theorem identity_observe (inventory : Inventory) (recent : List OwnedFlow)
    (selector : TrafficSelector)
    (owner : FlowOwner) : (observe inventory recent selector owner).identity = owner.identity := by
  rw [observe]
  split <;> rfl

theorem reapStaleFlows_inStep (h : InStep targets processName s) (inventory : Option Inventory)
    (paths : KeyedMap ReturnKey ReturnPath) (order : List TrafficSelector) :
    InStep targets processName (reapStaleFlows targets processName s inventory paths order).1 := by
  cases inventory with
  | none => exact h
  | some inventory =>
    rw [reapStaleFlows]
    generalize recentlyRouted paths inventory.observedAt = recent
    have hthins : Thins fun selector owners =>
        (owners.map (observe inventory recent selector)).filter fun owner => !owner.isStale := by
      intro k owners hlength
      dsimp only at hlength ⊢
      have hall : ∀ owner ∈ owners.map (observe inventory recent k), (!owner.isStale) = true := by
        rw [← length_filter_eq_length_iff, hlength, length_map]
      rw [filter_eq_self.2 hall, map_map]
      exact map_congr_left fun owner _ => identity_observe inventory recent k owner
    split
    · exact sweep_inStep h hthins (.inl rfl)
    next hnone =>
      rw [not_not, length_eq_zero_iff] at hnone
      refine sweep_inStep h hthins (.inr ⟨rfl, fun k owners howners => ?_⟩)
      rw [length_filter_eq_length_iff.2, length_map]
      intro owner howner
      rw [Bool.not_eq_true']
      by_contra hstale
      refine not_mem_nil (hnone ▸ mem_flatMap.2
        ⟨(k, owners), get?_eq_some_iff.1 howners, mem_map.2 ⟨owner, ?_, rfl⟩⟩)
      exact mem_filter.2 ⟨howner, Bool.not_eq_false _ ▸ hstale⟩

/-! ## Every run -/

/-- An operation on the selectors. -/
inductive SelectorOperation where
  | addSelector (selector : TrafficSelector) (node : UInt8)
  | addProcessSelector (selector : TrafficSelector) (path : String) (processId : UInt32)
    (endpointId : Option UInt64)
  | removeClosedSocket (endpointId : UInt64) (paths : KeyedMap ReturnKey ReturnPath)
  | reapStaleFlows (inventory : Option Inventory) (paths : KeyedMap ReturnKey ReturnPath)

/-- An operation, and an order for the entries of a map that grows. -/
structure SelectorCall where
  operation : SelectorOperation
  order : List TrafficSelector

namespace Selectors

/-- The operations as a machine. -/
def step (targets : TargetNodes) (processName : String → String) (s : Selectors)
    (call : SelectorCall) :
    Selectors × Unit :=
  match call.operation with
  | .addSelector selector node => (addSelector targets s selector node call.order, ())
  | .addProcessSelector selector path processId endpointId =>
    (addProcessSelector targets processName s selector path processId endpointId call.order, ())
  | .removeClosedSocket endpointId paths =>
    ((removeClosedSocket targets processName s endpointId paths call.order).1, ())
  | .reapStaleFlows inventory paths =>
    ((reapStaleFlows targets processName s inventory paths call.order).1, ())

end Selectors

/-- What the operations have to meet: only a destination is added as such, and a socket that is seen
again settles. -/
def SelectorCall.Settles (targets : TargetNodes) (processName : String → String) (s : Selectors)
    (call : SelectorCall) :
    Prop :=
  match call.operation with
  | .addSelector (.flow _ _ _) _ => False
  | .addProcessSelector selector path processId endpointId =>
    SplitCapture.Settles targets processName s selector path processId endpointId
  | _ => True

theorem step_inStep (h : InStep targets processName s) (call : SelectorCall)
    (hsettles : call.Settles targets processName s) :
    InStep targets processName (s.step targets processName call).1 := by
  obtain ⟨operation, order⟩ := call
  cases operation with
  | addSelector selector node =>
    cases selector with
    | destination first last => exact addSelector_inStep h first last node order
    | flow protocol localPort remotePort => exact hsettles.elim
  | addProcessSelector selector path processId endpointId =>
    exact addProcessSelector_inStep h selector path processId endpointId order hsettles
  | removeClosedSocket endpointId paths => exact removeClosedSocket_inStep h endpointId paths order
  | reapStaleFlows inventory paths => exact reapStaleFlows_inStep h inventory paths order

/-- The selectors, their owners and the table stay in step as long as no socket that is seen again
comes to stand behind another owner. -/
theorem selectors_stay_consistent (targets : TargetNodes) (processName : String → String)
    (calls : List SelectorCall) (hmeets : Run.Meets (step targets processName)
      (fun c call => call.Settles targets processName c.state)
      ⟨new, []⟩ calls) :
    Consistent targets processName (exec (step targets processName) new calls).state := by
  refine (execFrom_invariant_of_meets
    (I := fun c => InStep targets processName c.state) ?_ calls _ hmeets
    inStep_new).consistent
  exact fun c call hsettles h => step_inStep h call hsettles

/-! ## Runs that show it -/

/-- No rule names a node. -/
def noTargets : TargetNodes := ⟨KeyedMap.empty, []⟩

/-- What is after the last backslash. -/
def lastComponent (path : String) :
    String := String.ofList ((path.toList.reverse.takeWhile (· ≠ '\\')).reverse)

/-- A datagram socket of a process. -/
def seen (path : String) (processId : UInt32) (endpointId : Option UInt64) : SelectorCall :=
  ⟨.addProcessSelector (.flow 17 27015 none) path processId endpointId, []⟩

theorem selectors_stay_consistent_seen :
    (((exec (step noTargets lastComponent) new
        [seen "c:\\a.exe" 1 none, seen "c:\\b.exe" 2 (some 20), seen "c:\\a.exe" 1 (some 10),
          ⟨.removeClosedSocket 10 KeyedMap.empty, []⟩]).state.table.flows.get? (17, 27015, none)) =
      some ⟨some "b.exe", some 2, 0⟩) ∧
    Consistent noTargets lastComponent (exec (step noTargets lastComponent) new
      [seen "c:\\a.exe" 1 none, seen "c:\\b.exe" 2 (some 20), seen "c:\\a.exe" 1 (some 10),
        ⟨.removeClosedSocket 10 KeyedMap.empty, []⟩]).state := by
  refine ⟨by decide +kernel, selectors_stay_consistent noTargets lastComponent _ ?_⟩
  exact ⟨.inl (by decide +kernel), .inl (by decide +kernel), .inl (by decide +kernel),
    trivial, trivial⟩

/-- Two processes share a datagram port, and the first one is seen again: its name is on the flow of
the other one. -/
theorem seen_again_mixes_owners :
    ¬ ∀ (targets : TargetNodes) (processName : String → String) (calls : List SelectorCall),
      Consistent targets processName (exec (step targets processName) new calls).state := by
  intro h
  have hmixed := h noTargets lastComponent
    [seen "c:\\a.exe" 1 (some 10), seen "c:\\b.exe" 2 (some 20), seen "c:\\a.exe" 1 (some 10)]
  have hselection : ((exec (step noTargets lastComponent) new
      [seen "c:\\a.exe" 1 (some 10), seen "c:\\b.exe" 2 (some 20),
        seen "c:\\a.exe" 1 (some 10)]).state.table.flows.get? (17, 27015, none)) =
      some ⟨some "a.exe", some 2, 0⟩ := by decide +kernel
  have howners : ((exec (step noTargets lastComponent) new
      [seen "c:\\a.exe" 1 (some 10), seen "c:\\b.exe" 2 (some 20),
        seen "c:\\a.exe" 1 (some 10)]).state.state.flowOwners.get? (.flow 17 27015 none)) =
      some [⟨some 10, 1, "c:\\a.exe", 0⟩, ⟨some 20, 2, "c:\\b.exe", 0⟩] := by decide +kernel
  obtain ⟨owners, howned, owner, hmem, heq⟩ := hmixed.selections 17 27015 none _ hselection
  cases howners.symm.trans howned
  have hnone : ∀ owner ∈ [(⟨some 10, 1, "c:\\a.exe", 0⟩ : FlowOwner), ⟨some 20, 2, "c:\\b.exe", 0⟩],
      (⟨some "a.exe", some 2, 0⟩ : Selection) ≠
        ⟨some (lastComponent owner.path), some owner.processId,
          noTargets.forPath owner.path⟩ := by decide +kernel
  exact hnone owner hmem heq

end GamePath.Engine.SplitCapture
