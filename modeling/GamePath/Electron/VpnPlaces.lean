import GamePath.Electron.VpnSettings

/-!
# The places of the targets' nodes

What the service is told of the targets depends on the enabled targets with the nodes that carry
them, and on the nodes in use. A node that is added under an id nothing names, and a node that is
taken out while nothing uses it, leave all of it as it is (`alike_append`, `alike_remove`).

An id is made once: a node that waits to be added has an id that nothing names yet (`known_step`).
-/

namespace GamePath.Electron.Vpn

open Engine.Direct (Text)
open Lib List

variable {lower : Text → Text}

namespace Settings

/-- The ids of the nodes a session connects. -/
def sessionIds (vpn : Settings) : List Text := vpn.sessionNodes.map Node.id

/-- What the service is told of the targets. -/
def specs (vpn : Settings) : List RuleSpec := vpn.vpnRuleSpecs vpn.sessionIds

/-- The settings with other targets. -/
def withRules (vpn : Settings) (rules : List Rule) : Settings := { vpn with rules := rules }

/-- The enabled targets, with the nodes that carry them. -/
def routed (vpn : Settings) : List (RuleKind × Text × Option Text) :=
  (vpn.rules.filter Rule.enabled).map fun rule =>
    (rule.kind, rule.value, (vpn.ruleNode rule).map Node.id)

section Places

variable {vpn vpn' : Settings}

theorem usedNodes_eq (vpn : Settings) :
    vpn.usedNodes = vpn.routed.map fun target => target.2.2 := by
  rw [routed, map_map]
  rfl

theorem vpnRuleSpecs_eq (vpn : Settings) (nodes : List Text) :
    vpn.vpnRuleSpecs nodes =
      vpn.routed.map fun target => ⟨target.1, target.2.1, place nodes target.2.2⟩ := by
  rw [routed, map_map]
  rfl

/-- The service is told the same. -/
structure Alike (vpn vpn' : Settings) : Prop where
  mode : vpn'.trafficMode = vpn.trafficMode
  selected : vpn'.selectedVpnNode.isSome = vpn.selectedVpnNode.isSome
  limited : directLimited vpn'.selectedVpnNode = directLimited vpn.selectedVpnNode
  ids : vpn'.sessionIds = vpn.sessionIds
  specs : vpn.trafficMode = .split → vpn'.specs = vpn.specs
  direct : vpn'.direct = vpn.direct

theorem Alike.refl (vpn : Settings) : vpn.Alike vpn := ⟨rfl, rfl, rfl, rfl, fun _ => rfl, rfl⟩

variable {fallback : Node}

section

variable (hfallback : vpn.selectedVpnNode = some fallback)
  (hmode : vpn'.trafficMode = vpn.trafficMode)
  (hdirect : vpn'.direct = vpn.direct) (hselected : vpn'.selectedVpnNode = some fallback)
include hfallback hmode hdirect hselected

theorem alike_of_split (hsplit : vpn.trafficMode = .split) (hrouted : vpn'.routed = vpn.routed)
    (hnodes : (vpn'.nodes.filter fun node =>
        node.id ≠ fallback.id && vpn.usedNodes.contains (some node.id)) =
      vpn.nodes.filter fun node =>
        node.id ≠ fallback.id && vpn.usedNodes.contains (some node.id)) : vpn.Alike vpn' := by
  have hused : vpn'.usedNodes = vpn.usedNodes := by rw [usedNodes_eq, usedNodes_eq, hrouted]
  have hids : vpn'.sessionIds = vpn.sessionIds := by
    rw [sessionIds, sessionIds, sessionNodes, sessionNodes, hselected, hfallback]
    dsimp only
    rw [hmode, hsplit, if_neg (not_not.2 rfl), if_neg (not_not.2 rfl), hused, hnodes]
  refine ⟨hmode, ?_, ?_, hids, fun _ => ?_, hdirect⟩
  · rw [hselected, hfallback]
  · rw [hselected, hfallback]
  · rw [specs, specs, vpnRuleSpecs_eq, vpnRuleSpecs_eq, hrouted, hids]

theorem alike_of_all (hsplit : vpn.trafficMode ≠ .split) :
    vpn.Alike vpn' := by
  refine ⟨hmode, ?_, ?_, ?_, fun h => absurd h hsplit, hdirect⟩
  · rw [hselected, hfallback]
  · rw [hselected, hfallback]
  · rw [sessionIds, sessionIds, sessionNodes, sessionNodes, hselected, hfallback]
    dsimp only
    rw [hmode, if_pos hsplit, if_pos hsplit]

end

theorem mem_of_used {id : Text} (h : some id ∈ vpn.usedNodes) : id ∈ vpn.nodes.map Node.id := by
  obtain ⟨rule, -, hid⟩ := mem_map.1 h
  obtain ⟨node, hnode, rfl⟩ := Option.map_eq_some_iff.1 hid
  apply mem_map_of_mem
  rcases Option.or_eq_some_iff.1 hnode with hfind | ⟨-, hfind⟩ <;>
    exact mem_of_find?_eq_some hfind

theorem mem_sessionIds (hfallback : vpn.selectedVpnNode = some fallback)
    (hsplit : vpn.trafficMode = .split) {id : Text} (h : some id ∈ vpn.usedNodes) :
    id ∈ vpn.sessionIds := by
  rw [sessionIds, sessionNodes, hfallback]
  dsimp only
  rw [hsplit, if_neg (not_not.2 rfl), map_cons, mem_cons]
  by_cases hid : id = fallback.id
  · exact .inl hid
  · refine .inr ?_
    obtain ⟨node, hmem, rfl⟩ := mem_map.1 (mem_of_used h)
    refine mem_map_of_mem (mem_filter.2 ⟨hmem, ?_⟩)
    rw [Bool.and_eq_true_iff, decide_eq_true_iff, contains_iff_mem]
    exact ⟨hid, h⟩

theorem alike_append {node : Node} (hselected : vpn.selectedVpnNode.isSome = true)
    (hfresh : node.id ∉ vpn.nodes.map Node.id)
    (hnamed : ∀ rule ∈ vpn.rules, rule.nodeId ≠ some node.id) :
    vpn.Alike { vpn with nodes := vpn.nodes ++ [node] } := by
  obtain ⟨fallback, hfallback⟩ := Option.isSome_iff_exists.1 hselected
  have hselected' : selectedVpnNode { vpn with nodes := vpn.nodes ++ [node] } =
      some fallback := by
    have hfind := hfallback
    rw [selectedVpnNode] at hfind
    rw [selectedVpnNode]
    rw [find?_append, hfind]
    rfl
  by_cases hsplit : vpn.trafficMode = .split
  · have hrouted : routed { vpn with nodes := vpn.nodes ++ [node] } = vpn.routed := by
      refine map_congr_left fun rule hmem => ?_
      have hother : (List.find? (fun other : Node => some other.id = rule.nodeId) [node]) =
          none := by
        rw [find?_singleton, if_neg]
        intro heq
        exact hnamed rule (mem_of_mem_filter hmem) (of_decide_eq_true heq).symm
      have hnode : ruleNode { vpn with nodes := vpn.nodes ++ [node] } rule =
          vpn.ruleNode rule := by
        rw [ruleNode, ruleNode, hselected', hfallback]
        rw [find?_append, hother, Option.or_none]
      rw [hnode]
    refine alike_of_split hfallback ?_ ?_ hselected' hsplit hrouted ?_
    · rfl
    · rfl
    have hunused : vpn.usedNodes.contains (some node.id) = false := by
      rw [← Bool.not_eq_true, contains_iff_mem]
      exact fun hused => hfresh (mem_of_used hused)
    rw [filter_append, filter_singleton, hunused, Bool.and_false]
    exact append_nil _
  · refine alike_of_all hfallback ?_ ?_ hselected' hsplit <;> rfl

/-- A node that no enabled target uses may be taken out, whether or not the targets that name it are
told so. -/
theorem alike_remove {id : Text} {rules : List Rule} (hselected : vpn.selectedVpnNode.isSome = true)
    (hdefault : vpn.selectedNodeId ≠ some id) (hunused : id ∉ vpn.sessionIds)
    (hrules : rules = vpn.rules ∨ rules = vpn.rules.map fun rule =>
      if rule.nodeId = some id then { rule with nodeId := none } else rule) :
    vpn.Alike { vpn with nodes := vpn.nodes.filter fun node => node.id ≠ id, rules := rules } := by
  obtain ⟨fallback, hfallback⟩ := Option.isSome_iff_exists.1 hselected
  -- A node that is looked for by another id is found all the same.
  have hfind : ∀ wanted : Option Text, wanted ≠ some id →
      ((vpn.nodes.filter fun node => node.id ≠ id).find? fun node => some node.id = wanted) =
        vpn.nodes.find? fun node => some node.id = wanted := by
    intro wanted hwanted
    rw [find?_filter]
    refine find?_congr fun node _ => ?_
    by_cases hnode : some node.id = wanted
    · have hid : node.id ≠ id := fun hid => hwanted (by rw [← hnode, hid])
      simp [hnode, hid]
    · simp [hnode]
  have hselected' : selectedVpnNode
      { vpn with nodes := vpn.nodes.filter fun node => node.id ≠ id, rules := rules } =
        some fallback := (hfind _ hdefault).trans hfallback
  by_cases hsplit : vpn.trafficMode = .split
  · have hunused' : some id ∉ vpn.usedNodes := fun hused =>
      hunused (mem_sessionIds hfallback hsplit hused)
    have hnode : ∀ rule ∈ vpn.rules.filter Rule.enabled, ∀ wanted,
        wanted = rule.nodeId ∨ rule.nodeId = some id ∧ wanted = none →
          ((vpn.nodes.filter fun node => node.id ≠ id).find? fun node => some node.id = wanted).or
            (some fallback) = vpn.ruleNode rule := by
      intro rule hmem wanted hwanted
      rw [ruleNode, hfallback]
      by_cases hid : rule.nodeId = some id
      · -- No enabled target is on the node, so one that names it finds none.
        have hnone : (vpn.nodes.find? fun node => some node.id = rule.nodeId) = none := by
          cases hfound : vpn.nodes.find? fun node => some node.id = rule.nodeId with
          | none => rfl
          | some node =>
            have hnode : some node.id = rule.nodeId := by simpa using find?_some hfound
            refine absurd (mem_map.2 ⟨rule, hmem, ?_⟩) hunused'
            rw [ruleNode, hfound, Option.some_or, Option.map_some, hnode, hid]
        have hnone' : ((vpn.nodes.filter fun node => node.id ≠ id).find?
            fun node => some node.id = wanted) = none := by
          rw [find?_eq_none]
          intro node hnode
          have hother := of_decide_eq_true (mem_filter.1 hnode).2
          rcases hwanted with rfl | ⟨-, rfl⟩
          · rw [hid, decide_eq_true_iff, Option.some_inj]
            exact hother
          · simp
        rw [hnone, hnone']
      · rcases hwanted with rfl | ⟨hid', -⟩
        · rw [hfind _ hid]
        · exact absurd hid' hid
    have hrouted : routed
        { vpn with nodes := vpn.nodes.filter fun node => node.id ≠ id, rules := rules } =
          vpn.routed := by
      rw [routed]
      rcases hrules with rfl | rfl
      · refine map_congr_left fun rule hmem => ?_
        rw [ruleNode, hselected', hnode rule hmem _ (.inl rfl)]
      rw [filter_map, map_map]
      have henabled : (Rule.enabled ∘ fun rule : Rule =>
          if rule.nodeId = some id then { rule with nodeId := none } else rule) = Rule.enabled := by
        funext rule
        rw [Function.comp_apply]
        split <;> rfl
      rw [henabled]
      refine map_congr_left fun rule hmem => ?_
      rw [Function.comp_apply, ruleNode, hselected']
      split
      next hid => rw [hnode rule hmem none (.inr ⟨hid, rfl⟩)]
      next => rw [hnode rule hmem _ (.inl rfl)]
    refine alike_of_split hfallback ?_ ?_ hselected' hsplit hrouted ?_
    · rfl
    · rfl
    rw [filter_filter]
    refine filter_congr fun node _ => ?_
    by_cases hid : node.id = id
    · have hused : vpn.usedNodes.contains (some node.id) = false := by
        rw [← Bool.not_eq_true, contains_iff_mem, hid]
        exact hunused'
      rw [hused, Bool.and_false, Bool.false_and]
    · rw [decide_eq_true hid, Bool.and_true]
  · refine alike_of_all hfallback ?_ ?_ hselected' hsplit <;> rfl

theorem place_eq (hfallback : vpn.selectedVpnNode = some fallback)
    (hsplit : vpn.trafficMode = .split) {rule : Rule} (hmem : rule ∈ vpn.rules)
    (henabled : rule.enabled = true) :
    vpn.sessionIds[place vpn.sessionIds ((vpn.ruleNode rule).map Node.id)]? =
      (vpn.ruleNode rule).map Node.id := by
  have hused : (vpn.ruleNode rule).map Node.id ∈ vpn.usedNodes :=
    mem_map_of_mem (mem_filter.2 ⟨hmem, henabled⟩)
  obtain ⟨id, hid⟩ : ∃ id, (vpn.ruleNode rule).map Node.id = some id := by
    rw [ruleNode, hfallback]
    cases vpn.nodes.find? fun node => some node.id = rule.nodeId <;> exact ⟨_, rfl⟩
  rw [hid] at hused ⊢
  have hmem := mem_sessionIds hfallback hsplit hused
  rw [place, Option.bind_some]
  cases hindex : vpn.sessionIds.idxOf? id with
  | none => exact absurd hmem (idxOf?_eq_none_iff.1 hindex)
  | some index =>
    obtain ⟨hlt, hat, -⟩ := idxOf?_eq_some_iff.1 hindex
    rw [Option.getD_some, getElem?_eq_getElem hlt, hat]

theorem sessionIds_withRules (hmode : vpn.trafficMode ≠ .split) (rules : List Rule) :
    (vpn.withRules rules).sessionIds = vpn.sessionIds := by
  have hselected : (vpn.withRules rules).selectedVpnNode = vpn.selectedVpnNode := rfl
  have hsame : (vpn.withRules rules).trafficMode = vpn.trafficMode := rfl
  rw [sessionIds, sessionIds, sessionNodes, sessionNodes, hselected, hsame]
  cases vpn.selectedVpnNode with
  | none => rfl
  | some fallback =>
    dsimp only
    rw [if_pos hmode, if_pos hmode]

end Places

end Settings

/-! ## Ids that are taken -/

/-- The node a change of the targets names. -/
def RuleEdit.named : RuleEdit → Option Text
  | .add rule => rule.nodeId
  | .setNode _ nodeId => nodeId
  | .setEnabled _ _ | .remove _ => none

namespace Feature

/-- The nodes that wait to be added. -/
def pending (s : Feature) : List Text := s.nodeEdits.filterMap newNode

/-- A node has the id, or a target names it, now or once an edit has its turn or is taken back. -/
inductive Taken (s : Feature) (id : Text) : Prop where
  | node (h : id ∈ s.settings.nodes.map Node.id)
  | disk (h : id ∈ s.disk.settings.nodes.map Node.id)
  | rule (rule : Rule) (hmem : rule ∈ s.settings.rules) (h : rule.nodeId = some id)
  | previous (previous : List Rule) (sent : Option (List RuleSpec))
      (hediting : s.ruleEditing = some (.updating previous sent)) (rule : Rule)
      (hmem : rule ∈ previous) (h : rule.nodeId = some id)
  | edit (edit : RuleEdit) (hmem : edit ∈ s.ruleEdits) (h : edit.named = some id)

/-- A node that waits to be added has an id of its own. -/
structure Known (s : Feature) : Prop where
  pending : s.pending.Nodup
  made : ∀ id ∈ s.pending, id ∈ s.uuids
  taken : ∀ id, s.Taken id → id ∈ s.uuids ∧ id ∉ s.pending

section Known

variable {s s' : Feature}

theorem Taken.same {id : Text} (h : s'.Taken id) (hnodes : s'.settings.nodes = s.settings.nodes)
    (hdisk : s'.disk = s.disk) (hrules : s'.settings.rules = s.settings.rules)
    (hediting : s'.ruleEditing = s.ruleEditing)
    (hedits : ∀ edit ∈ s'.ruleEdits, edit ∈ s.ruleEdits) : s.Taken id := by
  cases h with
  | node hmem => exact .node (hnodes ▸ hmem)
  | disk hmem => exact .disk (hdisk ▸ hmem)
  | rule rule hmem hnode => exact .rule rule (hrules ▸ hmem) hnode
  | previous previous sent heq rule hmem hnode =>
    exact .previous previous sent (hediting ▸ heq) rule hmem hnode
  | edit edit hmem hnode => exact .edit edit (hedits edit hmem) hnode

/-- A step that takes no id besides those that are taken, and adds no node. -/
structure Modest (s s' : Feature) : Prop where
  uuids : s'.uuids = s.uuids
  pending : s'.pending.Sublist s.pending
  taken : ∀ id, s'.Taken id → s.Taken id

theorem Modest.refl (s : Feature) : s.Modest s := ⟨rfl, List.Sublist.refl _, fun _ => id⟩

theorem Modest.trans {s'' : Feature} (h : s.Modest s') (h' : s'.Modest s'') : s.Modest s'' :=
  ⟨h'.uuids.trans h.uuids, h'.pending.trans h.pending, fun id hid => h.taken id (h'.taken id hid)⟩

theorem Modest.known (hm : s.Modest s') (h : s.Known) : s'.Known where
  pending := h.pending.sublist hm.pending
  made := fun id hmem => hm.uuids ▸ h.made id (hm.pending.subset hmem)
  taken := by
    intro id hid
    obtain ⟨hmade, hnot⟩ := h.taken id (hm.taken id hid)
    exact ⟨hm.uuids ▸ hmade, fun hmem => hnot (hm.pending.subset hmem)⟩

/-- The ids a rule list names. -/
def namedBy (rules : List Rule) (id : Text) : Prop := ∃ rule ∈ rules, rule.nodeId = some id

/-- A step that leaves the queues of edits, and no more nodes or targets than there were. -/
theorem Modest.of_fewer (hnodes : ∀ id ∈ s'.settings.nodes.map Node.id,
      id ∈ s.settings.nodes.map Node.id)
    (hrules : ∀ id, namedBy s'.settings.rules id → s.Taken id)
    (hdisk : s'.disk = s.disk) (huuids : s'.uuids = s.uuids)
    (hnodeEdits : s'.nodeEdits = s.nodeEdits) (hruleEdits : s'.ruleEdits = s.ruleEdits)
    (hediting : ∀ previous sent, s'.ruleEditing = some (.updating previous sent) →
      s.ruleEditing = some (.updating previous sent)) : s.Modest s' where
  uuids := huuids
  pending := by
    rw [Feature.pending, Feature.pending, hnodeEdits]
  taken := by
    intro id hid
    cases hid with
    | node hmem => exact .node (hnodes id hmem)
    | disk hmem => exact .disk (hdisk ▸ hmem)
    | rule rule hmem hnode => exact hrules id ⟨rule, hmem, hnode⟩
    | previous previous sent heq rule hmem hnode =>
      exact .previous previous sent (hediting previous sent heq) rule hmem hnode
    | edit edit hmem hnode => exact .edit edit (hruleEdits ▸ hmem) hnode

/-- Where `Modest` looks for ids, but for an edit under way. -/
def naming (s : Feature) :=
  (s.settings.nodes.map Node.id, s.settings.rules, s.disk, s.uuids, s.nodeEdits, s.ruleEdits)

theorem Modest.of_same (hediting : ∀ previous sent,
    s'.ruleEditing = some (.updating previous sent) →
      s.ruleEditing = some (.updating previous sent)) (hnaming :
      s'.naming = s.naming) : s.Modest s' := by
  simp only [naming, Prod.mk.injEq] at hnaming
  obtain ⟨hnodes, hrules, hdisk, huuids, hnodeEdits, hruleEdits⟩ := hnaming
  refine .of_fewer (fun id hmem => hnodes ▸ hmem) ?_ hdisk huuids hnodeEdits hruleEdits hediting
  rintro id ⟨rule, hmem, hnode⟩
  exact .rule rule (hrules ▸ hmem) hnode

theorem modest_save (s : Feature) : s.Modest s.save where
  uuids := rfl
  pending := List.Sublist.refl _
  taken := by
    intro id hid
    cases hid with
    | node hmem | disk hmem => exact .node hmem
    | rule rule hmem hnode => exact .rule rule hmem hnode
    | previous previous sent hediting rule hmem hnode =>
      exact .previous previous sent hediting rule hmem hnode
    | edit edit hmem hnode => exact .edit edit hmem hnode

theorem Modest.saved (h : s.Modest s') : s.Modest s'.save :=
  h.trans (modest_save s')

theorem modest_drive (s : Feature) (e : VpnEvent Payload) : s.Modest (s.drive e).1 :=
  .of_same (fun _ _ h => h) rfl

theorem modest_settings (s : Feature) {settings : Settings}
    (hnodes : settings.nodes.map Node.id = s.settings.nodes.map Node.id)
    (hrules : settings.rules = s.settings.rules) :
    s.Modest { s with settings := settings } :=
  .of_same (fun _ _ => id) (congrArg₂ (·, ·, s.disk, s.uuids, s.nodeEdits,
    s.ruleEdits) hnodes hrules)

theorem removeNode_named (s : Feature) (id other : Text)
    (h : namedBy (s.settings.removeNode id).rules other) : s.Taken other := by
  obtain ⟨rule, hmem, hnode⟩ := h
  obtain ⟨rule', hmem', rfl⟩ := mem_map.1 hmem
  split at hnode
  · cases hnode
  · exact .rule rule' hmem' hnode

theorem modest_takeOut (s : Feature) (id : Text) : s.Modest (s.takeOut id) := by
  have hfewer : s.Modest { s with
      settings := s.settings.removeNode id
      secrets := s.secrets.filter fun secret => secret ≠ id } := by
    refine .of_fewer (fun other hmem => (mem_removeNode_ids.1 hmem).1) ?_ rfl rfl rfl rfl
      fun _ _ h => h
    exact removeNode_named s id
  exact hfewer.saved

theorem modest_selectNode (s : Feature) (id : Text) : s.Modest (s.selectNode id) := by
  rw [selectNode]
  split
  · exact .refl s
  split
  · exact .refl s
  · have hselect : s.Modest { s with settings := s.settings.select id } :=
      modest_settings s (enableSelected_ids _) rfl
    refine hselect.saved.trans ?_
    exact .of_same (fun _ _ h => h) rfl

theorem modest_removeNode (s : Feature) (id : Text) : s.Modest (s.removeNode id) := by
  rw [removeNode]
  split
  · exact .refl s
  split
  · exact .of_same (fun _ _ h => h) rfl
  · dsimp only
    split
    · exact (modest_takeOut s id).trans (.of_same (fun _ _ h => h) rfl)
    · exact modest_takeOut s id

theorem modest_nodeResumed (s : Feature) : s.Modest s.nodeResumed := by
  rw [nodeResumed]
  split
  · split
    · exact .saved (.of_same (fun _ _ h => h) rfl)
    · exact .refl s
  · split
    · have hdone : s.Modest { s with nodeEditing := none } :=
        .of_same (fun _ _ h => h) rfl
      exact hdone.trans (modest_takeOut _ _)
    · exact .refl s
  · split
    · exact .of_same (fun _ _ h => h) rfl
    · exact .refl s
  · exact .refl s

theorem modest_setWanted (s : Feature) (on : Bool) : s.Modest (s.setWanted on).1 := by
  rw [setWanted]
  split
  · exact .refl s
  · have hwish : s.Modest { s with settings := { s.settings with wantConnected := on } } :=
      modest_settings s rfl rfl
    refine hwish.saved.trans ?_
    exact .of_same (fun _ _ h => h) rfl

theorem modest_wantedResumed (s : Feature) (index : Nat) : s.Modest (s.wantedResumed index) := by
  rw [wantedResumed]
  split
  · exact .refl s
  split
  · dsimp only
    split
    · exact .saved (.of_same (fun _ _ h => h) rfl)
    · exact .of_same (fun _ _ h => h) rfl
  · exact .refl s

theorem Known.setNode (h : s.Known) {node : Node} {edits : List NodeEdit}
    (hedits : s.nodeEdits = .add node :: edits) :
    (Feature.setNode { s with nodeEdits := edits } node).Known := by
  have hpending : s.pending = node.id :: edits.filterMap newNode := by
    rw [Feature.pending, hedits]
    rfl
  have hnodup := h.pending
  rw [hpending] at hnodup
  obtain ⟨hnew, hrest⟩ := nodup_cons.1 hnodup
  have hmade : ∀ id ∈ edits.filterMap newNode, id ∈ s.uuids := fun id hmem =>
    h.made id (hpending ▸ mem_cons_of_mem _ hmem)
  refine ⟨hrest, hmade, fun id hid => ?_⟩
  have hcase : id = node.id ∨ s.Taken id := by
    have hnodes : id ∈ (s.settings.nodes ++
        [{ node with enabled := s.settings.selectedVpnNode.isNone }]).map Node.id →
          id = node.id ∨ s.Taken id := by
      intro hmem
      rw [map_append] at hmem
      rcases mem_snoc.1 hmem with hold | hlast
      · exact .inr (.node hold)
      · exact .inl hlast
    cases hid with
    | node hmem | disk hmem => exact hnodes hmem
    | rule rule hmem hnode => exact .inr (.rule rule hmem hnode)
    | previous previous sent hediting rule hmem hnode =>
      exact .inr (.previous previous sent hediting rule hmem hnode)
    | edit edit hmem hnode => exact .inr (.edit edit hmem hnode)
  rcases hcase with rfl | htaken
  · exact ⟨h.made _ (hpending ▸ mem_cons_self), hnew⟩
  · obtain ⟨huuid, hnot⟩ := h.taken id htaken
    exact ⟨huuid, fun hmem => hnot (hpending ▸ mem_cons_of_mem _ hmem)⟩

theorem modest_popNode {edit : NodeEdit} {edits : List NodeEdit}
    (hedits : s.nodeEdits = edit :: edits) :
    s.Modest { s with nodeEdits := edits } := by
  refine ⟨rfl, ?_, fun id hid => hid.same rfl rfl rfl rfl fun _ hmem => hmem⟩
  rw [Feature.pending, Feature.pending, hedits]
  exact (sublist_cons_self edit edits).filterMap newNode

theorem Known.nodeTurn (h : s.Known) : s.nodeTurn.Known := by
  rw [Feature.nodeTurn]
  split
  next edit edits hediting hedits =>
    have hpopped := modest_popNode hedits
    cases edit with
    | add node => exact h.setNode hedits
    | select id => exact (hpopped.trans (modest_selectNode _ id)).known h
    | remove id =>
      dsimp only
      split
      · exact hpopped.known h
      · exact (hpopped.trans (modest_removeNode _ _)).known h
  · exact h

/-! ### Targets -/

variable {edit : RuleEdit}

theorem modest_pushEdit (s : Feature) (hnamed : ∀ id, edit.named = some id →
    s.Taken id) : s.Modest { s with ruleEdits := s.ruleEdits ++ [edit] } where
  uuids := rfl
  pending := List.Sublist.refl _
  taken := by
    intro id hid
    cases hid with
    | node hmem => exact .node hmem
    | disk hmem => exact .disk hmem
    | rule rule hmem hnode => exact .rule rule hmem hnode
    | previous previous sent hediting rule hmem hnode =>
      exact .previous previous sent hediting rule hmem hnode
    | edit queued hmem hnode =>
      rcases mem_snoc.1 hmem with hold | rfl
      · exact .edit queued hold hnode
      · exact hnamed id hnode

theorem taken_of_passes {nodeId : Option Text} {id : Text}
    (h : ¬ (nodeId.any fun id => !s.settings.hasNode id) = true) (hid : nodeId = some id) :
    s.Taken id := by
  rw [hid] at h
  refine .node (Nodes.hasNode_iff.1 ?_)
  simpa using h

theorem modest_addRule (s : Feature) (input : RuleInput) (id : Text) :
    s.Modest (Feature.addRule lower s input id) := by
  rw [addRule]
  split
  · exact .refl s
  · split
    · exact .refl s
    next hpasses =>
      rw [Bool.or_eq_true_iff, Bool.or_eq_true_iff, not_or, not_or] at hpasses
      exact modest_pushEdit s fun id hid => taken_of_passes hpasses.1.1 hid

theorem modest_setRuleNode (s : Feature) (id : Text) (nodeId : Option Text) :
    s.Modest (s.setRuleNode id nodeId) := by
  rw [setRuleNode]
  split
  · exact .refl s
  · split
    · exact .refl s
    next hpasses =>
      rw [Bool.or_eq_true_iff, not_or] at hpasses
      exact modest_pushEdit s fun id hid => taken_of_passes hpasses.1 hid

theorem changeRules_named {vpn : Settings} {id : Text}
    (h : namedBy (vpn.changeRules edit).rules id) :
    namedBy vpn.rules id ∨ edit.named = some id := by
  obtain ⟨rule, hmem, hnode⟩ := h
  cases edit with
  | add added =>
    rcases mem_snoc.1 hmem with hold | rfl
    · exact .inl ⟨rule, hold, hnode⟩
    · exact .inr hnode
  | setNode other nodeId =>
    rcases Records.mem_modify hmem with hold | ⟨rule', hold, rfl⟩
    · exact .inl ⟨rule, hold, hnode⟩
    · exact .inr hnode
  | setEnabled other enabled =>
    rcases Records.mem_modify hmem with hold | ⟨rule', hold, rfl⟩
    · exact .inl ⟨rule, hold, hnode⟩
    · exact .inl ⟨rule', hold, hnode⟩
  | remove other => exact .inl ⟨rule, mem_of_mem_filter hmem, hnode⟩

theorem modest_changeRules {edits : List RuleEdit} (hedits : s.ruleEdits = edit :: edits)
    (sent : Option (List RuleSpec)) :
    s.Modest { s with
      ruleEdits := edits
      settings := s.settings.changeRules edit
      ruleEditing := some (.updating s.settings.rules sent) } where
  uuids := rfl
  pending := List.Sublist.refl _
  taken := by
    intro id hid
    cases hid with
    | node hmem =>
      refine .node ?_
      rw [← changeRules_nodes s.settings edit]
      exact hmem
    | disk hmem => exact .disk hmem
    | rule rule hmem hnode =>
      rcases changeRules_named ⟨rule, hmem, hnode⟩ with ⟨rule', hmem', hnode'⟩ | hnamed
      · exact .rule rule' hmem' hnode'
      · exact .edit edit (hedits ▸ mem_cons_self) hnamed
    | previous previous sent' hediting rule hmem hnode =>
      cases hediting
      exact .rule rule hmem hnode
    | edit queued hmem hnode => exact .edit queued (hedits ▸ mem_cons_of_mem _ hmem) hnode

theorem modest_popRule {edit : RuleEdit} {edits : List RuleEdit}
    (hedits : s.ruleEdits = edit :: edits) :
    s.Modest { s with ruleEdits := edits } := by
  refine ⟨rfl, List.Sublist.refl _, fun id hid => ?_⟩
  exact hid.same rfl rfl rfl rfl fun _ hmem => hedits ▸ mem_cons_of_mem _ hmem

theorem modest_ruleTurn (s : Feature) : s.Modest s.ruleTurn.1 := by
  rw [ruleTurn]
  split
  next edit edits hediting hedits =>
    dsimp only
    split
    · exact modest_popRule hedits
    split
    · refine (modest_changeRules hedits none).trans ((modest_save _).trans ?_)
      exact .of_same (by rintro _ _ ⟨⟩) rfl
    · exact modest_changeRules hedits _
  · exact .refl s

theorem modest_acceptRules (s : Feature) (sent : Option (List RuleSpec)) :
    s.Modest (s.acceptRules sent) := by
  cases sent <;> exact .of_same (fun _ _ h => h) rfl

theorem modest_ruleAnswered (s : Feature) (ok : Bool) : s.Modest (s.ruleAnswered ok).1 := by
  rw [ruleAnswered]
  split
  next previous sent hediting =>
    split
    · have hdone : s.Modest { s.acceptRules sent with ruleEditing := none } :=
        (modest_acceptRules s sent).trans (.of_same (by rintro _ _ ⟨⟩) rfl)
      exact hdone.saved
    · refine .of_fewer (fun id hmem => hmem) ?_ rfl rfl rfl rfl (by rintro _ _ ⟨⟩)
      rintro id ⟨rule, hmem, hnode⟩
      exact .previous previous sent hediting rule hmem hnode
  next sent hediting =>
    have haccepted : s.Modest (if ok then s.acceptRules sent else s) := by
      split
      · exact modest_acceptRules s sent
      · exact .refl s
    exact haccepted.trans (.of_same (by rintro _ _ ⟨⟩) rfl)
  · exact .refl s

theorem modest_ruleResumed (s : Feature) : s.Modest s.ruleResumed := by
  rw [ruleResumed]
  split
  · split
    · exact .of_same (by rintro _ _ ⟨⟩) rfl
    · exact .refl s
  · exact .refl s

/-! ### The direct list -/

theorem modest_directTurn (s : Feature) : s.Modest s.directTurn.1 := by
  rw [directTurn]
  split
  · exact .of_same (fun _ _ h => h) rfl
  · exact .refl s

theorem modest_acceptDirect (s : Feature) (sent : Option (Option DirectSpec)) :
    s.Modest (s.acceptDirect sent) := by
  cases sent <;> exact .of_same (fun _ _ h => h) rfl

theorem modest_directAnswered (s : Feature) (ok : Bool) : s.Modest (s.directAnswered ok).1 := by
  rw [directAnswered]
  split
  next previous sent hediting =>
    split
    · have hdone : s.Modest { s.acceptDirect sent with directEditing := none } :=
        (modest_acceptDirect s sent).trans (.of_same (fun _ _ h => h) rfl)
      exact hdone.saved
    · exact .of_same (fun _ _ h => h) rfl
  next sent hediting =>
    have haccepted : s.Modest (if ok then s.acceptDirect sent else s) := by
      split
      · exact modest_acceptDirect s sent
      · exact .refl s
    exact haccepted.trans (.of_same (fun _ _ h => h) rfl)
  · exact .refl s

theorem Commits.modest (h : s.Commits s') : s.Modest s' := by
  obtain ⟨directEdits, downloads, store, rfl⟩ := h
  exact .of_same (fun _ _ h => h) rfl

/-! ### Steps -/

theorem modest_launch (s : Feature) (now : Nat) (direct : Direct) :
    s.Modest (s.launch now direct) where
  uuids := rfl
  pending := nil_sublist _
  taken := by
    intro id hid
    have hnodes : id ∈ (normalizeVpn s.disk.settings).nodes.map Node.id → s.Taken id := by
      intro hmem
      obtain ⟨node, hnode, rfl⟩ := mem_map.1 hmem
      obtain ⟨saved, hsaved, rfl⟩ := mem_map.1 hnode
      refine .disk (mem_map.2 ⟨saved, ?_, rfl⟩)
      exact mem_of_mem_filter (Records.mem_of_mem_distinctBy hsaved)
    cases hid with
    | node hmem => exact hnodes hmem
    | disk hmem => exact .disk hmem
    | rule rule hmem hnode =>
      obtain ⟨saved, -, rfl⟩ := mem_map.1 hmem
      obtain ⟨-, hhas⟩ := Option.filter_eq_some_iff.1 hnode
      obtain ⟨node, hmem', hid⟩ := any_eq_true.1 hhas
      refine .disk (mem_map.2 ⟨node, ?_, of_decide_eq_true hid⟩)
      exact mem_of_mem_filter (Records.mem_of_mem_distinctBy hmem')
    | previous previous sent hediting => cases hediting
    | edit edit hmem => cases hmem

theorem Known.make (h : s.Known) (id : Text) : Known { s with uuids := id :: s.uuids } where
  pending := h.pending
  made := fun other hmem => mem_cons_of_mem id (h.made other hmem)
  taken := by
    intro other hother
    have htaken : s.Taken other := hother.same rfl rfl rfl rfl fun _ hmem => hmem
    exact ⟨mem_cons_of_mem id (h.taken other htaken).1, (h.taken other htaken).2⟩

theorem Known.addNode (h : s.Known) {node : Node} (hfresh : s.fresh node.id = true) :
    Known { s with uuids := node.id :: s.uuids, nodeEdits := s.nodeEdits ++ [.add node] } := by
  obtain ⟨-, hunused⟩ := fresh_iff.1 hfresh
  have hall : (s.nodeEdits ++ [NodeEdit.add node]).filterMap newNode =
      (s.nodeEdits.filterMap newNode).concat node.id := by
    rw [filterMap_append, concat_eq_append]
    rfl
  have hmade := h.make node.id
  refine ⟨?_, ?_, fun other hother => ?_⟩
  · show ((s.nodeEdits ++ [NodeEdit.add node]).filterMap newNode).Nodup
    rw [hall]
    exact h.pending.concat fun hmem => hunused (h.made _ hmem)
  · show ∀ id ∈ (s.nodeEdits ++ [NodeEdit.add node]).filterMap newNode, id ∈ node.id :: s.uuids
    rw [hall, concat_eq_append]
    intro id hmem
    rcases mem_snoc.1 hmem with hold | rfl
    · exact hmade.made id hold
    · exact mem_cons_self
  have htaken : s.Taken other := hother.same rfl rfl rfl rfl fun _ => id
  obtain ⟨huuid, hnot⟩ := h.taken other htaken
  refine ⟨mem_cons_of_mem _ huuid, fun hmem => ?_⟩
  have hmem' : other ∈ (s.nodeEdits ++ [NodeEdit.add node]).filterMap newNode := hmem
  rw [hall, concat_eq_append] at hmem'
  rcases mem_snoc.1 hmem' with hold | rfl
  · exact hnot hold
  · exact hunused huuid

theorem modest_pushNode (s : Feature) {edit : NodeEdit} (hedit : newNode edit = none) :
    s.Modest { s with nodeEdits := s.nodeEdits ++ [edit] } where
  uuids := rfl
  pending := by
    show ((s.nodeEdits ++ [edit]).filterMap newNode).Sublist (s.nodeEdits.filterMap newNode)
    rw [filterMap_append, filterMap_cons_none hedit, filterMap_nil, append_nil]
  taken := fun id hid => hid.same rfl rfl rfl rfl fun _ hmem => hmem

theorem known_step (h : s.Known) (e : FeatureEvent) : (s.step lower e).1.Known := by
  have hsettings : ∀ settings : Settings, settings.nodes = s.settings.nodes →
      settings.rules = s.settings.rules →
        s.Modest (Feature.saveAndReconnect { s with settings := settings }) := by
    intro settings hnodes hrules
    have hset := modest_settings s (congrArg (List.map Node.id) hnodes) hrules
    exact hset.saved.trans (modest_drive _ _)
  cases e with
  | launch now direct => exact (modest_launch s now direct).known h
  | setWanted on => exact (modest_setWanted s on).known h
  | wantedResumed index => exact (modest_wantedResumed s index).known h
  | reconsider | onResume | shutdown | pollTimer | pollAnswered now result | reconnectTimer =>
    exact (modest_drive s _).known h
  | resume =>
    rw [step]
    split
    · exact (modest_drive s _).known h
    · exact h
  | turn env =>
    rw [step]
    split
    · exact h
    · exact (modest_drive s _).known h
  | answered env result =>
    obtain ⟨accepted, hsame⟩ := s.acceptStart_eq result
    have haccepted : s.Modest (s.acceptStart result) := by
      rw [hsame]
      exact .of_same (fun _ _ h => h) rfl
    exact (haccepted.trans (modest_drive _ _)).known h
  | setTrafficMode mode =>
    rw [step]
    split
    · exact h
    · exact (hsettings { s.settings with trafficMode := mode } rfl rfl).known h
  | setRemoteDns enabled =>
    exact (hsettings { s.settings with remoteDns := enabled } rfl rfl).known h
  | setKillSwitch enabled =>
    exact (hsettings { s.settings with killSwitch := enabled } rfl rfl).known h
  | addNode node =>
    rw [step]
    split
    next hfresh => exact h.addNode hfresh
    · exact h
  | selectNode id | removeNode id => exact (modest_pushNode s rfl).known h
  | nodeTurn => exact h.nodeTurn
  | nodeResumed => exact (modest_nodeResumed s).known h
  | addRule input id =>
    rw [step]
    split
    · exact (modest_addRule _ input id).known (h.make id)
    · exact h
  | setRuleNode id nodeId => exact (modest_setRuleNode s id nodeId).known h
  | setRuleEnabled id enabled | removeRule id =>
    have hpush : ∀ edit : RuleEdit, edit.named = none →
        s.Modest { s with ruleEdits := s.ruleEdits ++ [edit] } := by
      intro edit hnone
      refine modest_pushEdit s fun other hother => ?_
      rw [hnone] at hother
      cases hother
    exact (hpush _ rfl).known h
  | ruleTurn => exact (modest_ruleTurn s).known h
  | ruleAnswered ok => exact (modest_ruleAnswered s ok).known h
  | ruleResumed => exact (modest_ruleResumed s).known h
  | setDirectEnabled | setDirectList | updateDirectLists | addDirectEntry | setDirectEntryEnabled
  | removeDirectEntry | downloaded =>
    exact (s.step_commits rfl).modest.known h
  | directTurn => exact (modest_directTurn s).known h
  | directAnswered ok => exact (modest_directAnswered s ok).known h

theorem known_new (now : Nat) : (new now).Known := by
  refine ⟨nodup_nil, nofun, fun id hid => ?_⟩
  cases hid with
  | node hmem | disk hmem | rule rule hmem | edit edit hmem => cases hmem
  | previous previous sent hediting => cases hediting

end Known

end Feature

end GamePath.Electron.Vpn
