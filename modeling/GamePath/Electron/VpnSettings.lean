import GamePath.Electron.VpnFeature

/-!
# Whether the settings of the VPN stay consistent

Targets and nodes are edited on two queues, an edit of the targets is checked when it is asked for
and not again when it has its turn, and one that is rejected restores the whole list as it was,
unsaved. `Timely` says when none of this matters: an edit that has its turn would pass its checks
then, and what is restored is what is saved. In a run of such steps the settings stay consistent,
and the next launch loads them as they are (`settings_stay_consistent`).

`Consistent` is what holds of settings by themselves, `Kept` the invariant of the section, and
`kept_step` the one step lemma.
-/

namespace GamePath.Electron.Vpn

open Engine.Direct (Text)
open Lib List Lib.Run

variable {lower : Text → Text}

/-! ## Consistent settings -/

/-- What `sameTarget` compares. -/
def Rule.target (lower : Text → Text) (rule : Rule) :
    RuleKind × Text := (rule.kind, lower rule.value)

theorem sameTarget_iff {left right : Rule} :
    sameTarget lower left right = true ↔ left.target lower = right.target lower := by
  rw [sameTarget, Bool.and_eq_true_iff, decide_eq_true_iff, decide_eq_true_iff, Rule.target,
    Rule.target, Prod.mk.injEq]

/-- A target as `createRule` makes it. -/
structure Rule.WellFormed (rule : Rule) : Prop where
  id : rule.id ≠ []
  value : rule.value ≠ []
  trimmed : JsString.trim rule.value = rule.value
  label : rule.label ≠ []

/-- Targets that are told apart, over the nodes there are. -/
structure Targets (lower : Text → Text) (vpn : Settings) : Prop where
  formed : ∀ rule ∈ vpn.rules, rule.WellFormed
  ids : (vpn.rules.map Rule.id).Nodup
  targets : (vpn.rules.map (Rule.target lower)).Nodup
  nodes : ∀ rule ∈ vpn.rules, ∀ id, rule.nodeId = some id → id ∈ vpn.nodes.map Node.id

/-- Nodes that are told apart, one of them selected if there are any. -/
structure Nodes (vpn : Settings) : Prop where
  ids : (vpn.nodes.map Node.id).Nodup
  nonempty : [] ∉ vpn.nodes.map Node.id
  selected : ∀ id, vpn.selectedNodeId = some id → id ∈ vpn.nodes.map Node.id
  unselected : vpn.selectedNodeId = none → vpn.nodes = []
  enabled : ∀ node ∈ vpn.nodes, node.enabled = decide (some node.id = vpn.selectedNodeId)

namespace Nodes

variable {vpn : Settings}

theorem hasNode_iff {id : Text} : vpn.hasNode id = true ↔ id ∈ vpn.nodes.map Node.id := by
  rw [Settings.hasNode, any_eq_true, mem_map]
  exact exists_congr fun node => and_congr_right fun _ => decide_eq_true_iff

theorem selectedVpnNode_isNone_iff (h : Nodes vpn) :
    vpn.selectedVpnNode = none ↔ vpn.selectedNodeId = none := by
  rw [Settings.selectedVpnNode, find?_eq_none]
  constructor
  · intro hnone
    cases hselected : vpn.selectedNodeId with
    | none => rfl
    | some id =>
      obtain ⟨node, hmem, rfl⟩ := mem_map.1 (h.selected id hselected)
      exact absurd (decide_eq_true hselected.symm) (hnone node hmem)
  · intro hnone node hmem
    rw [h.unselected hnone] at hmem
    cases hmem

end Nodes

/-! ### Loading -/

theorem normalizeRule_of_formed {rule : Rule} (h : rule.WellFormed)
    (hnode : rule.nodeId ≠ some []) :
    normalizeRule rule = some rule := by
  have hvalue : rule.value.isEmpty = false := isEmpty_eq_false_iff.2 h.value
  have hid : rule.id.isEmpty = false := isEmpty_eq_false_iff.2 h.id
  have hlabel : rule.label.isEmpty = false := isEmpty_eq_false_iff.2 h.label
  have hsame : (rule.nodeId.filter fun id => !id.isEmpty) = rule.nodeId := by
    cases hnodeId : rule.nodeId with
    | none => rfl
    | some id =>
      have hne : id.isEmpty = false := by
        apply isEmpty_eq_false_iff.2
        rintro rfl
        exact hnode hnodeId
      rw [Option.filter_some, hne]
      rfl
  rw [normalizeRule, h.trimmed, hvalue, hid, hlabel, hsame]
  rfl

theorem filterMap_eq_self {α : Type} {f : α → Option α} {l : List α} (h : ∀ a ∈ l, f a = some a) :
    l.filterMap f = l := by
  rw [filterMap_congr h, filterMap_some]

theorem normalizeVpn_of_consistent {vpn : Settings} (hnodes : Nodes vpn)
    (hrules : Targets lower vpn) :
    (normalizeVpn vpn).nodes = vpn.nodes ∧
      (normalizeVpn vpn).selectedNodeId = vpn.selectedNodeId ∧
      (normalizeVpn vpn).rules = vpn.rules := by
  have hkept : normalizeNodes vpn.nodes = vpn.nodes := by
    have hfilter : (vpn.nodes.filter fun node => !node.id.isEmpty) = vpn.nodes := by
      apply filter_eq_self.2
      intro node hmem
      have hne : node.id ≠ [] := by
        intro hempty
        exact hnodes.nonempty (hempty ▸ mem_map_of_mem hmem)
      rw [isEmpty_eq_false_iff.2 hne]
      rfl
    rw [normalizeNodes, hfilter]
    exact Records.distinctBy_eq_self hnodes.ids fun _ _ => not_mem_nil
  have hselection : normalizeSelection vpn.nodes vpn.selectedNodeId = vpn.selectedNodeId := by
    cases hselected : vpn.selectedNodeId with
    | none =>
      rw [hnodes.unselected hselected]
      rfl
    | some id =>
      obtain ⟨node, hmem, rfl⟩ := mem_map.1 (hnodes.selected id hselected)
      apply if_pos
      exact any_eq_true.2 ⟨node, hmem, decide_eq_true rfl⟩
  refine ⟨?_, ?_, ?_⟩
  · show (normalizeNodes vpn.nodes).map _ = vpn.nodes
    rw [hkept, hselection]
    calc vpn.nodes.map (fun node => { node with enabled := some node.id = vpn.selectedNodeId })
        = vpn.nodes.map id := map_congr_left fun node hmem => by
          rw [← hnodes.enabled node hmem]
          rfl
      _ = vpn.nodes := map_id _
  · show normalizeSelection (normalizeNodes vpn.nodes) vpn.selectedNodeId = vpn.selectedNodeId
    rw [hkept, hselection]
  show (Records.distinctBy Rule.id [] (vpn.rules.filterMap normalizeRule)).map _ = vpn.rules
  have hnormal : vpn.rules.filterMap normalizeRule = vpn.rules := by
    apply filterMap_eq_self
    intro rule hmem
    apply normalizeRule_of_formed (hrules.formed rule hmem)
    intro hempty
    exact hnodes.nonempty (hrules.nodes rule hmem [] hempty)
  have hsame : ∀ rule ∈ vpn.rules, rule.nodeId.filter vpn.hasNode = rule.nodeId := by
    intro rule hmem
    cases hnodeId : rule.nodeId with
    | none => rfl
    | some id =>
      rw [Option.filter_some, Nodes.hasNode_iff.2 (hrules.nodes rule hmem id hnodeId), if_pos rfl]
  rw [hnormal, Records.distinctBy_eq_self hrules.ids fun _ _ => not_mem_nil, hkept]
  refine (map_congr_left fun rule hmem => ?_).trans (map_id _)
  show { rule with nodeId := rule.nodeId.filter vpn.hasNode } = rule
  rw [hsame rule hmem]

/-! ### Edits of the settings -/

section Edits

variable {vpn vpn' : Settings}

theorem Nodes.same (h : Nodes vpn) (hnodes : vpn'.nodes = vpn.nodes)
    (hselected : vpn'.selectedNodeId = vpn.selectedNodeId) : Nodes vpn' := by
  refine ⟨?_, ?_, ?_, ?_, ?_⟩
  · rw [hnodes]
    exact h.ids
  · rw [hnodes]
    exact h.nonempty
  · rw [hnodes, hselected]
    exact h.selected
  · rw [hnodes, hselected]
    exact h.unselected
  · rw [hnodes, hselected]
    exact h.enabled

theorem Targets.mono (h : Targets lower vpn) (hrules : vpn'.rules = vpn.rules)
    (hnodes : ∀ id ∈ vpn.nodes.map Node.id, id ∈ vpn'.nodes.map Node.id) : Targets lower vpn' := by
  refine ⟨?_, ?_, ?_, ?_⟩
  · rw [hrules]
    exact h.formed
  · rw [hrules]
    exact h.ids
  · rw [hrules]
    exact h.targets
  · rw [hrules]
    exact fun rule hmem id hid => hnodes id (h.nodes rule hmem id hid)

theorem enableSelected_ids (vpn : Settings) :
    vpn.enableSelected.nodes.map Node.id = vpn.nodes.map Node.id := by
  rw [Settings.enableSelected, map_map]
  rfl

theorem Nodes.enableSelected (hids : (vpn.nodes.map Node.id).Nodup)
    (hnonempty : [] ∉ vpn.nodes.map Node.id)
    (hselected : ∀ id, vpn.selectedNodeId = some id → id ∈ vpn.nodes.map Node.id)
    (hunselected : vpn.selectedNodeId = none → vpn.nodes = []) : Nodes vpn.enableSelected where
  ids := by
    rw [enableSelected_ids]
    exact hids
  nonempty := by
    rw [enableSelected_ids]
    exact hnonempty
  selected := by
    rw [enableSelected_ids]
    exact hselected
  unselected := fun hnone => by
    rw [Settings.enableSelected, hunselected hnone]
    rfl
  enabled := by
    intro node hmem
    obtain ⟨old, -, rfl⟩ := mem_map.1 hmem
    rfl

theorem Nodes.select (h : Nodes vpn) {id : Text} (hid : id ∈ vpn.nodes.map Node.id) :
    Nodes (vpn.select id) := by
  refine Nodes.enableSelected h.ids h.nonempty (fun other hother => ?_) (fun hnone => ?_)
  · cases hother
    exact hid
  · cases hnone

theorem removeNode_ids (vpn : Settings) (id : Text) :
    (vpn.removeNode id).nodes.map Node.id =
      (vpn.nodes.filter fun node => node.id ≠ id).map Node.id := by
  rw [Settings.removeNode]
  split
  · exact enableSelected_ids _
  · rfl

theorem mem_removeNode_ids {id other : Text} :
    other ∈ (vpn.removeNode id).nodes.map Node.id ↔ other ∈ vpn.nodes.map Node.id ∧ other ≠ id := by
  rw [removeNode_ids, mem_map, mem_map]
  constructor
  · rintro ⟨node, hmem, rfl⟩
    obtain ⟨hold, hne⟩ := mem_filter.1 hmem
    exact ⟨⟨node, hold, rfl⟩, of_decide_eq_true hne⟩
  · rintro ⟨⟨node, hmem, rfl⟩, hne⟩
    exact ⟨node, mem_filter.2 ⟨hmem, decide_eq_true hne⟩, rfl⟩

theorem Nodes.removeNode (h : Nodes vpn) (id : Text) : Nodes (vpn.removeNode id) := by
  have hsub : ((vpn.nodes.filter fun node => node.id ≠ id).map Node.id).Sublist
      (vpn.nodes.map Node.id) := filter_sublist.map Node.id
  have hids := h.ids.sublist hsub
  have hnonempty : [] ∉ (vpn.nodes.filter fun node => node.id ≠ id).map Node.id :=
    fun hmem => h.nonempty (hsub.subset hmem)
  by_cases hselected : vpn.selectedNodeId = some id
  · -- The first node that is left is selected.
    have hremoved : Nodes (Settings.enableSelected { vpn with
        nodes := vpn.nodes.filter fun node => node.id ≠ id
        selectedNodeId := (vpn.nodes.filter fun node => node.id ≠ id).head?.map Node.id }) := by
      apply Nodes.enableSelected hids hnonempty
      · intro other hother
        obtain ⟨node, hhead, rfl⟩ := Option.map_eq_some_iff.1 hother
        exact mem_map_of_mem (mem_of_head? hhead)
      · intro hnone
        exact head?_eq_none_iff.1 (Option.map_eq_none_iff.1 hnone)
    apply hremoved.same
    · rw [Settings.removeNode]
      rw [if_pos hselected]
    · rw [Settings.removeNode]
      rw [if_pos hselected]
  · have hremoved : Nodes { vpn with nodes := vpn.nodes.filter fun node => node.id ≠ id } := by
      refine ⟨hids, hnonempty, ?_, ?_, ?_⟩
      · intro other hother
        obtain ⟨node, hmem, rfl⟩ := mem_map.1 (h.selected other hother)
        refine mem_map_of_mem (mem_filter.2 ⟨hmem, decide_eq_true ?_⟩)
        rintro rfl
        exact hselected hother
      · intro hnone
        rw [h.unselected hnone]
        rfl
      · exact fun node hmem => h.enabled node (mem_filter.1 hmem).1
    apply hremoved.same
    · rw [Settings.removeNode]
      rw [if_neg hselected]
    · rw [Settings.removeNode]
      rw [if_neg hselected]

theorem removeNode_rules (vpn : Settings) (id : Text) :
    (vpn.removeNode id).rules = vpn.rules.map fun rule =>
      if rule.nodeId = some id then { rule with nodeId := none } else rule := rfl

theorem removeNode_map (vpn : Settings) (id : Text) {β : Type} {g : Rule → β}
    (hg : ∀ rule : Rule, g { rule with nodeId := none } = g rule) :
    (vpn.removeNode id).rules.map g = vpn.rules.map g := by
  rw [removeNode_rules, map_map]
  apply map_congr_left
  intro rule _
  show g (if _ then _ else _) = g rule
  split
  · exact hg rule
  · rfl

theorem Targets.removeNode (h : Targets lower vpn) (id : Text) :
    Targets lower (vpn.removeNode id) where
  formed := by
    intro rule hmem
    obtain ⟨old, hold, rfl⟩ := mem_map.1 hmem
    have hformed := h.formed old hold
    split
    · exact ⟨hformed.id, hformed.value, hformed.trimmed, hformed.label⟩
    · exact hformed
  ids := by
    rw [removeNode_map vpn id fun _ => rfl]
    exact h.ids
  targets := by
    rw [removeNode_map vpn id fun _ => rfl]
    exact h.targets
  nodes := by
    intro rule hmem other hother
    obtain ⟨old, hold, rfl⟩ := mem_map.1 hmem
    split at hother
    · cases hother
    next hkept =>
      refine mem_removeNode_ids.2 ⟨h.nodes old hold other hother, ?_⟩
      rintro rfl
      exact hkept hother

theorem modifyRule_map (vpn : Settings) (id : Text) {f : Rule → Rule} {β : Type} {g : Rule → β}
    (hg : ∀ rule, g (f rule) = g rule) : (vpn.modifyRule id f).rules.map g = vpn.rules.map g :=
  Records.map_modify _ _ hg

theorem Targets.modifyRule (h : Targets lower vpn) (id : Text) {f : Rule → Rule}
    (hid : ∀ rule, (f rule).id = rule.id) (hkind : ∀ rule, (f rule).kind = rule.kind)
    (hvalue : ∀ rule, (f rule).value = rule.value) (hlabel : ∀ rule, (f rule).label = rule.label)
    (hnode : ∀ rule ∈ vpn.rules, ∀ node, (f rule).nodeId = some node →
      node ∈ vpn.nodes.map Node.id) : Targets lower (vpn.modifyRule id f) where
  formed := by
    intro rule hmem
    rcases Records.mem_modify hmem with hold | ⟨old, hold, rfl⟩
    · exact h.formed rule hold
    have hformed := h.formed old hold
    refine ⟨?_, ?_, ?_, ?_⟩
    · rw [hid]
      exact hformed.id
    · rw [hvalue]
      exact hformed.value
    · rw [hvalue]
      exact hformed.trimmed
    · rw [hlabel]
      exact hformed.label
  ids := by
    rw [modifyRule_map vpn id hid]
    exact h.ids
  targets := by
    rw [modifyRule_map vpn id fun rule => by rw [Rule.target, Rule.target, hkind, hvalue]]
    exact h.targets
  nodes := by
    intro rule hmem node hsome
    rcases Records.mem_modify hmem with hold | ⟨old, hold, rfl⟩
    · exact h.nodes rule hold node hsome
    · exact hnode old hold node hsome

/-- An edit that has its turn would pass its checks: the node it names is there, and the target it
adds is not. -/
def RuleEdit.Passes (lower : Text → Text) (vpn : Settings) : RuleEdit → Prop
  | .add rule => (∀ id, rule.nodeId = some id → vpn.hasNode id = true) ∧
      ∀ existing ∈ vpn.rules, sameTarget lower existing rule = false
  | .setNode _ nodeId => ∀ id, nodeId = some id → vpn.hasNode id = true
  | .setEnabled _ _ | .remove _ => True

/-- The target an edit adds. -/
def RuleEdit.newRule : RuleEdit → Option Rule
  | .add rule => some rule
  | _ => none

theorem Targets.changeRules (h : Targets lower vpn) {edit : RuleEdit}
    (hpasses : edit.Passes lower vpn)
    (hnew : ∀ rule, edit.newRule = some rule → rule.WellFormed ∧ rule.id ∉ vpn.rules.map Rule.id) :
    Targets lower (vpn.changeRules edit) := by
  cases edit with
  | add rule =>
    obtain ⟨hformed, hfresh⟩ := hnew rule rfl
    refine ⟨?_, ?_, ?_, ?_⟩
    · intro other hmem
      rcases mem_snoc.1 hmem with hold | rfl
      · exact h.formed other hold
      · exact hformed
    · show ((vpn.rules ++ [rule]).map Rule.id).Nodup
      rw [map_append, map_singleton, ← concat_eq_append]
      exact h.ids.concat hfresh
    · show ((vpn.rules ++ [rule]).map (Rule.target lower)).Nodup
      rw [map_append, map_singleton, ← concat_eq_append]
      refine h.targets.concat fun hmem => ?_
      obtain ⟨existing, hexisting, hsame⟩ := mem_map.1 hmem
      have hother := hpasses.2 existing hexisting
      rw [sameTarget_iff.2 hsame] at hother
      cases hother
    · intro other hmem id hid
      rcases mem_snoc.1 hmem with hold | rfl
      · exact h.nodes other hold id hid
      · exact Nodes.hasNode_iff.1 (hpasses.1 id hid)
  | setNode id nodeId =>
    refine h.modifyRule id ?_ ?_ ?_ ?_ fun _ _ node hnode => Nodes.hasNode_iff.1
      (hpasses node hnode)
    all_goals exact fun _ => rfl
  | setEnabled id enabled =>
    refine h.modifyRule id ?_ ?_ ?_ ?_ fun rule hmem node hnode => h.nodes rule hmem node hnode
    all_goals exact fun _ => rfl
  | remove id =>
    have hsub : (vpn.rules.filter fun rule => rule.id ≠ id).Sublist vpn.rules := filter_sublist
    exact ⟨fun rule hmem => h.formed rule (hsub.subset hmem), h.ids.sublist (hsub.map _),
      h.targets.sublist (hsub.map _), fun rule hmem => h.nodes rule (hsub.subset hmem)⟩

theorem changeRules_ids {edit : RuleEdit} {id : Text}
    (h : id ∈ (vpn.changeRules edit).rules.map Rule.id) :
    id ∈ vpn.rules.map Rule.id ∨ ∃ rule, edit.newRule = some rule ∧ id = rule.id := by
  cases edit with
  | add rule =>
    have hmem : id ∈ (vpn.rules ++ [rule]).map Rule.id := h
    rw [map_append] at hmem
    rcases mem_snoc.1 hmem with hold | hlast
    · exact .inl hold
    · exact .inr ⟨rule, rfl, hlast⟩
  | setNode other nodeId | setEnabled other enabled =>
    rw [Settings.changeRules, modifyRule_map] at h
    · exact .inl h
    · exact fun _ => rfl
  | remove other =>
    have hsub : (vpn.rules.filter fun rule => rule.id ≠ other).Sublist vpn.rules :=
      filter_sublist
    exact .inl ((hsub.map Rule.id).subset h)

theorem changeRules_nodes (vpn : Settings) (edit : RuleEdit) :
    (vpn.changeRules edit).nodes = vpn.nodes := by
  cases edit <;> rfl

theorem changeRules_selected (vpn : Settings) (edit : RuleEdit) :
    (vpn.changeRules edit).selectedNodeId = vpn.selectedNodeId := by
  cases edit <;> rfl

end Edits

/-! ## The condition -/

namespace Feature

/-- An edit of the targets that has its turn would pass its checks then, unless its nodes cannot run
together, and one that is rejected restores what is saved. -/
def Timely (lower : Text → Text) (s : Feature) : FeatureEvent → Prop
  | .ruleTurn =>
    s.ruleEditing = none → ∀ edit edits, s.ruleEdits = edit :: edits →
      nodeSetLimited (s.settings.changeRules edit).sessionNodes = false →
        edit.Passes lower s.settings
  | .ruleAnswered ok =>
    ok = false → ∀ previous rules, s.ruleEditing = some (.updating previous (some rules)) →
      s.disk.settings.rules = previous
  | _ => True

/-! ## The invariant -/

/-- The node an edit adds. -/
def newNode : NodeEdit → Option Text
  | .add node => some node.id
  | _ => none

/-- What holds of the section between two events. -/
structure Kept (lower : Text → Text) (s : Feature) : Prop where
  nodes : Nodes s.settings
  rules : Targets lower s.settings
  secrets : ∀ id, id ∈ s.secrets ↔ id ∈ s.settings.nodes.map Node.id
  nodeIds : ∀ id ∈ s.settings.nodes.map Node.id, id ∈ s.uuids
  ruleIds : ∀ id ∈ s.settings.rules.map Rule.id, id ∈ s.uuids
  diskNodes : s.disk.settings.nodes = s.settings.nodes
  diskSelected : s.disk.settings.selectedNodeId = s.settings.selectedNodeId
  diskSecrets : ∀ id, id ∈ s.disk.secrets ↔ id ∈ s.secrets
  diskRules : Targets lower s.disk.settings
  diskRuleIds : ∀ id ∈ s.disk.settings.rules.map Rule.id, id ∈ s.uuids
  /-- The targets are saved, but while the service is asked for them. -/
  saved : (∀ previous sent, s.ruleEditing ≠ some (.updating previous sent)) →
    s.disk.settings.rules = s.settings.rules
  newNodes : (s.nodeEdits.filterMap newNode).Nodup
  newNode : ∀ id ∈ s.nodeEdits.filterMap newNode,
    id ≠ [] ∧ id ∈ s.uuids ∧ id ∉ s.settings.nodes.map Node.id
  newRules : ((s.ruleEdits.filterMap RuleEdit.newRule).map Rule.id).Nodup
  newRule : ∀ rule ∈ s.ruleEdits.filterMap RuleEdit.newRule, rule.WellFormed ∧ rule.id ∈ s.uuids ∧
    rule.id ∉ s.settings.rules.map Rule.id ∧ rule.id ∉ s.disk.settings.rules.map Rule.id

/-- The settings are as they were but for what is no node, no selection and no target. -/
structure Same (s s' : Feature) : Prop where
  nodes : s'.settings.nodes = s.settings.nodes
  selected : s'.settings.selectedNodeId = s.settings.selectedNodeId
  rules : s'.settings.rules = s.settings.rules
  secrets : s'.secrets = s.secrets
  disk : s'.disk = s.disk
  uuids : s'.uuids = s.uuids
  nodeEdits : s'.nodeEdits = s.nodeEdits
  ruleEdits : s'.ruleEdits = s.ruleEdits

/-- What `Kept` is about. -/
def frame (s : Feature) :=
  (s.settings.nodes, s.settings.selectedNodeId, s.settings.rules, s.secrets, s.disk, s.uuids,
    s.nodeEdits, s.ruleEdits, s.ruleEditing)

section Parts

variable {s s' : Feature}

theorem targets_same {vpn vpn' : Settings} (h : Targets lower vpn) (hrules : vpn'.rules = vpn.rules)
    (hnodes : vpn'.nodes = vpn.nodes) : Targets lower vpn' := by
  apply h.mono hrules
  rw [hnodes]
  exact fun _ => id

section

variable (h : s.Kept lower)
include h

/-- A step that leaves the settings as they are. Where the service was asked for the targets it
still is, or they are saved. -/
theorem Kept.same (hs : s.Same s')
    (hediting : (∀ previous sent, s'.ruleEditing ≠ some (.updating previous sent)) →
      (∀ previous sent, s.ruleEditing ≠ some (.updating previous sent)) ∨
        s.disk.settings.rules = s.settings.rules) : s'.Kept lower := by
  obtain ⟨hnodes, hselected, hrules, hsecrets, hdisk, huuids, hnodeEdits, hruleEdits⟩ := hs
  refine ⟨h.nodes.same hnodes hselected, targets_same h.rules hrules hnodes, ?_, ?_, ?_, ?_,
    ?_, ?_, ?_, ?_, ?_, ?_, ?_, ?_, ?_⟩
  · rw [hsecrets, hnodes]
    exact h.secrets
  · rw [hnodes, huuids]
    exact h.nodeIds
  · rw [hrules, huuids]
    exact h.ruleIds
  · rw [hdisk, hnodes]
    exact h.diskNodes
  · rw [hdisk, hselected]
    exact h.diskSelected
  · rw [hdisk, hsecrets]
    exact h.diskSecrets
  · rw [hdisk]
    exact h.diskRules
  · rw [hdisk, huuids]
    exact h.diskRuleIds
  · intro hnot
    rw [hdisk, hrules]
    rcases hediting hnot with hold | hsame
    · exact h.saved hold
    · exact hsame
  · rw [hnodeEdits]
    exact h.newNodes
  · rw [hnodeEdits, huuids, hnodes]
    exact h.newNode
  · rw [hruleEdits]
    exact h.newRules
  · rw [hruleEdits, huuids, hrules, hdisk]
    exact h.newRule

theorem Kept.same' (hs : s'.frame = s.frame) : s'.Kept lower := by
  simp only [frame, Prod.mk.injEq] at hs
  obtain ⟨hnodes, hselected, hrules, hsecrets, hdisk, huuids, hnodeEdits, hruleEdits, hediting⟩ :=
    hs
  exact h.same ⟨hnodes, hselected, hrules, hsecrets, hdisk, huuids, hnodeEdits, hruleEdits⟩
    fun hnot => .inl (hediting ▸ hnot)

theorem Kept.save : s.save.Kept lower where
  nodes := h.nodes
  rules := h.rules
  secrets := h.secrets
  nodeIds := h.nodeIds
  ruleIds := h.ruleIds
  diskNodes := rfl
  diskSelected := rfl
  diskSecrets := fun _ => Iff.rfl
  diskRules := h.rules
  diskRuleIds := h.ruleIds
  saved := fun _ => rfl
  newNodes := h.newNodes
  newNode := h.newNode
  newRules := h.newRules
  newRule := fun rule hmem => by
    obtain ⟨hformed, huuid, hfresh, -⟩ := h.newRule rule hmem
    exact ⟨hformed, huuid, hfresh, hfresh⟩

theorem Kept.save_editing (hs : s.save.Same s') : s'.Kept lower :=
  h.save.same hs fun _ => .inr rfl

theorem Kept.drive (e : VpnEvent Payload) : (s.drive e).1.Kept lower :=
  h.same' rfl

omit h in
theorem acceptStart_eq (s : Feature) (result : Except ServiceError Started) :
    ∃ accepted, s.acceptStart result = { s with accepted := accepted } := by
  unfold acceptStart
  split <;> exact ⟨_, rfl⟩

/-! ### The wish -/

theorem Kept.setWanted (on : Bool) : (s.setWanted on).1.Kept lower := by
  rw [Feature.setWanted]
  split
  · exact h
  · have hwish : ({ s with settings := { s.settings with wantConnected := on } } : Feature).Kept
        lower := h.same' rfl
    exact hwish.save.same' rfl

theorem Kept.wantedResumed (index : Nat) : (s.wantedResumed index).Kept lower := by
  rw [Feature.wantedResumed]
  split
  · exact h
  split
  · have hwaits : ({ s with wanting := s.wanting.eraseIdx index } : Feature).Kept lower :=
      h.same' rfl
    dsimp only
    split
    · have hwish : ({ s with
          wanting := s.wanting.eraseIdx index
          settings := { s.settings with wantConnected := s.controller.wanted } } : Feature).Kept
            lower := h.same' rfl
      exact hwish.save
    · exact hwaits
  · exact h

/-! ### Nodes -/

theorem Kept.popNode {edit : NodeEdit} {edits : List NodeEdit}
    (hedits : s.nodeEdits = edit :: edits) :
    ({ s with nodeEdits := edits } : Feature).Kept lower := by
  have hsub : (edits.filterMap Feature.newNode).Sublist
      (s.nodeEdits.filterMap Feature.newNode) := by
    rw [hedits]
    exact (sublist_cons_self edit edits).filterMap _
  exact { h with
    newNodes := h.newNodes.sublist hsub
    newNode := fun id hmem => h.newNode id (hsub.subset hmem) }

/-- A new node takes its place, with its secret, behind the others. -/
theorem Kept.setNode {node : Node} (hnonempty : node.id ≠ []) (huuid : node.id ∈ s.uuids)
    (hfresh : node.id ∉ s.settings.nodes.map Node.id)
    (hothers : node.id ∉ s.nodeEdits.filterMap Feature.newNode) : (s.setNode node).Kept lower := by
  generalize hselected : s.settings.selectedVpnNode.isNone = selected
  have hids : ∀ id, id ∈ (s.settings.nodes ++ [{ node with enabled := selected }]).map Node.id ↔
      id ∈ s.settings.nodes.map Node.id ∨ id = node.id := by
    intro id
    rw [map_append, mem_append, map_singleton, mem_singleton]
  have hnodes : Nodes { s.settings with
      nodes := s.settings.nodes ++ [{ node with enabled := selected }]
      selectedNodeId := if selected then some node.id else s.settings.selectedNodeId } := by
    refine ⟨?_, ?_, ?_, ?_, ?_⟩
    · rw [map_append, map_singleton, ← concat_eq_append]
      exact h.nodes.ids.concat hfresh
    · intro hmem
      rcases (hids []).1 hmem with hold | hnew
      · exact h.nodes.nonempty hold
      · exact hnonempty hnew.symm
    · intro id hid
      refine (hids id).2 ?_
      cases selected with
      | true => exact .inr (Option.some.inj hid).symm
      | false => exact .inl (h.nodes.selected id hid)
    · intro hnone
      cases selected with
      | true => cases hnone
      | false =>
        -- There is no selection, so the new node would have been selected.
        have hsome := (h.nodes.selectedVpnNode_isNone_iff).2 hnone
        rw [hsome] at hselected
        cases hselected
    · intro other hmem
      rcases mem_snoc.1 hmem with hold | rfl
      · cases selected with
        | true =>
          have hempty : s.settings.nodes = [] := by
            apply h.nodes.unselected
            apply h.nodes.selectedVpnNode_isNone_iff.1
            exact Option.isNone_iff_eq_none.1 hselected
          rw [hempty] at hold
          cases hold
        | false => exact h.nodes.enabled other hold
      cases selected with
      | true => exact (decide_eq_true rfl).symm
      | false =>
        symm
        apply decide_eq_false
        intro hsame
        exact hfresh (h.nodes.selected node.id hsame.symm)
  have hset : ({ s with
      settings := { s.settings with
        nodes := s.settings.nodes ++ [{ node with enabled := selected }]
        selectedNodeId := if selected then some node.id else s.settings.selectedNodeId }
      secrets := s.secrets ++ [node.id] } : Feature).save.Kept lower := by
    refine ⟨hnodes, ?_, ?_, ?_, h.ruleIds, rfl, rfl, fun _ => Iff.rfl, ?_, h.ruleIds, fun _ => rfl,
      h.newNodes, ?_, h.newRules, ?_⟩
    · exact h.rules.mono rfl fun id hmem => (hids id).2 (.inl hmem)
    · intro id
      refine Iff.trans ?_ (hids id).symm
      rw [← h.secrets id]
      exact mem_append.trans (or_congr_right mem_singleton)
    · intro id hmem
      rcases (hids id).1 hmem with hold | rfl
      · exact h.nodeIds id hold
      · exact huuid
    · exact h.rules.mono rfl fun id hmem => (hids id).2 (.inl hmem)
    · intro id hmem
      obtain ⟨hne, hmade, hnew⟩ := h.newNode id hmem
      refine ⟨hne, hmade, fun hold => ?_⟩
      rcases (hids id).1 hold with hold | rfl
      · exact hnew hold
      · exact hothers hmem
    · intro rule hmem
      obtain ⟨hformed, hmade, hnew, -⟩ := h.newRule rule hmem
      exact ⟨hformed, hmade, hnew, hnew⟩
  rw [Feature.setNode]
  rw [hselected]
  exact hset

/-- The settings become others of the same nodes and targets, or of fewer nodes, and are saved. -/
theorem Kept.resettle {settings : Settings} {secrets : List Text} (hnodes : Nodes settings)
    (hrules : Targets lower settings) (hsecrets : ∀ id, id ∈ secrets ↔
      id ∈ settings.nodes.map Node.id)
    (hnodeIds : ∀ id ∈ settings.nodes.map Node.id, id ∈ s.settings.nodes.map Node.id)
    (hruleIds : ∀ id ∈ settings.rules.map Rule.id, id ∈ s.settings.rules.map Rule.id) :
    ({ s with settings := settings, secrets := secrets } : Feature).save.Kept lower := by
  refine ⟨hnodes, hrules, hsecrets, fun id hmem => h.nodeIds id (hnodeIds id hmem),
    fun id hmem => h.ruleIds id (hruleIds id hmem), rfl, rfl, fun _ => Iff.rfl, hrules,
    fun id hmem => h.ruleIds id (hruleIds id hmem), fun _ => rfl, h.newNodes, ?_, h.newRules, ?_⟩
  · intro id hmem
    obtain ⟨hne, hmade, hnew⟩ := h.newNode id hmem
    exact ⟨hne, hmade, fun hold => hnew (hnodeIds id hold)⟩
  · intro rule hmem
    obtain ⟨hformed, hmade, hnew, -⟩ := h.newRule rule hmem
    exact ⟨hformed, hmade, fun hold => hnew (hruleIds rule.id hold),
      fun hold => hnew (hruleIds rule.id hold)⟩

theorem Kept.selectNode (id : Text) : (s.selectNode id).Kept lower := by
  rw [Feature.selectNode]
  split
  · exact h
  next node hfound =>
    split
    · exact h
    have hmem : id ∈ s.settings.nodes.map Node.id := by
      have hid := find?_some hfound
      rw [← of_decide_eq_true hid]
      exact mem_map_of_mem (mem_of_find?_eq_some hfound)
    have hids : (s.settings.select id).nodes.map Node.id = s.settings.nodes.map Node.id :=
      enableSelected_ids _
    have hselected : ({ s with settings := s.settings.select id } : Feature).save.Kept lower := by
      apply h.resettle (h.nodes.select hmem)
      · refine h.rules.mono rfl fun _ hold => ?_
        rwa [hids]
      · rw [hids]
        exact h.secrets
      · rw [hids]
        exact fun _ hold => hold
      · exact fun _ hold => hold
    exact hselected.same' rfl

theorem Kept.takeOut (id : Text) : (s.takeOut id).Kept lower := by
  apply h.resettle (h.nodes.removeNode id) (h.rules.removeNode id)
  · intro other
    rw [mem_removeNode_ids, ← h.secrets other, mem_filter, decide_eq_true_iff]
  · exact fun other hmem => (mem_removeNode_ids.1 hmem).1
  · rw [removeNode_map _ id fun _ => rfl]
    exact fun _ hold => hold

theorem Kept.removeNode (id : Text) : (s.removeNode id).Kept lower := by
  rw [Feature.removeNode]
  split
  · exact h
  split
  · exact h.same' rfl
  · dsimp only
    split
    · exact (h.takeOut id).same' rfl
    · exact h.takeOut id

theorem Kept.nodeTurn : s.nodeTurn.Kept lower := by
  rw [Feature.nodeTurn]
  split
  next edit edits hediting hedits =>
    have hpopped := h.popNode hedits
    cases edit with
    | add node =>
      have hmem : node.id ∈ s.nodeEdits.filterMap Feature.newNode := by
        rw [hedits]
        exact mem_cons_self
      obtain ⟨hnonempty, huuid, hfresh⟩ := h.newNode node.id hmem
      apply hpopped.setNode hnonempty huuid hfresh
      have hnodup := h.newNodes
      rw [hedits] at hnodup
      exact (nodup_cons.1 hnodup).1
    | select id => exact hpopped.selectNode id
    | remove id =>
      dsimp only
      split
      · exact hpopped
      · exact hpopped.removeNode _
  · exact h

theorem Kept.nodeResumed : s.nodeResumed.Kept lower := by
  rw [Feature.nodeResumed]
  split
  · split
    · have hwish : ({ s with
          nodeEditing := none
          settings := { s.settings with wantConnected := s.controller.wanted } } : Feature).Kept
            lower := h.same' rfl
      exact hwish.save
    · exact h
  · split
    · have hdone : ({ s with nodeEditing := none } : Feature).Kept lower :=
        h.same' rfl
      exact hdone.takeOut _
    · exact h
  · split
    · exact h.same' rfl
    · exact h
  · exact h

end

/-! ### Targets -/

theorem createRule_formed {input : RuleInput} {id : Text} {rule : Rule} (hid : id ≠ [])
    (h : createRule input id = some rule) : rule.WellFormed ∧ rule.id = id := by
  rw [createRule] at h
  split at h
  · cases h
  dsimp only at h
  split at h
  · cases h
  next hvalue =>
    have hne : JsString.trim input.value ≠ [] := by
      intro hempty
      exact hvalue (isEmpty_iff.2 hempty)
    cases h
    refine ⟨⟨hid, hne, JsString.trim_trim _, ?_⟩, rfl⟩
    split
    next hlabel => simpa using hlabel
    · split
      next hbase => simpa using hbase
      · exact hne

variable {edit : RuleEdit}

section

variable (h : s.Kept lower)
include h

theorem Kept.pushRule (hnew : ∀ rule, edit.newRule = some rule → rule.WellFormed ∧
    rule.id ∈ s.uuids ∧
      rule.id ∉ s.settings.rules.map Rule.id ∧ rule.id ∉ s.disk.settings.rules.map Rule.id ∧
      rule.id ∉ (s.ruleEdits.filterMap RuleEdit.newRule).map Rule.id) :
    ({ s with ruleEdits := s.ruleEdits ++ [edit] } : Feature).Kept lower := by
  have hall : (s.ruleEdits ++ [edit]).filterMap RuleEdit.newRule =
      s.ruleEdits.filterMap RuleEdit.newRule ++ edit.newRule.toList := by
    cases hedit : edit.newRule <;> simp [hedit]
  refine { h with newRules := ?_, newRule := ?_ }
  · rw [hall]
    cases hedit : edit.newRule with
    | none =>
      rw [Option.toList_none, append_nil]
      exact h.newRules
    | some rule =>
      rw [Option.toList_some, map_append, map_singleton, ← concat_eq_append]
      exact h.newRules.concat (hnew rule hedit).2.2.2.2
  intro rule hmem
  rw [hall] at hmem
  rcases mem_append.1 hmem with hold | hlast
  · exact h.newRule rule hold
  · obtain ⟨hformed, hmade, hfresh, hdisk, -⟩ := hnew rule (Option.mem_toList.1 hlast)
    exact ⟨hformed, hmade, hfresh, hdisk⟩

theorem Kept.pushEdit (hedit : edit.newRule = none) :
    ({ s with ruleEdits := s.ruleEdits ++ [edit] } : Feature).Kept lower := by
  apply h.pushRule
  intro rule hsome
  rw [hedit] at hsome
  cases hsome

theorem Kept.make (id : Text) :
    ({ s with uuids := id :: s.uuids } : Feature).Kept lower :=
  { h with
    nodeIds := fun other hmem => mem_cons_of_mem id (h.nodeIds other hmem)
    ruleIds := fun other hmem => mem_cons_of_mem id (h.ruleIds other hmem)
    diskRuleIds := fun other hmem => mem_cons_of_mem id (h.diskRuleIds other hmem)
    newNode := fun other hmem => by
      obtain ⟨hne, hmade, hnew⟩ := h.newNode other hmem
      exact ⟨hne, mem_cons_of_mem id hmade, hnew⟩
    newRule := fun rule hmem => by
      obtain ⟨hformed, hmade, hnew⟩ := h.newRule rule hmem
      exact ⟨hformed, mem_cons_of_mem id hmade, hnew⟩ }

omit h in
theorem fresh_iff {id : Text} : s.fresh id = true ↔ id ≠ [] ∧ id ∉ s.uuids := by
  rw [Feature.fresh, Bool.and_eq_true_iff, Bool.not_eq_true', Bool.not_eq_true',
    isEmpty_eq_false_iff]
  refine and_congr_right fun _ => ?_
  rw [← Bool.not_eq_true, contains_iff_mem]

theorem Kept.addRule {id : Text} (hfresh : s.fresh id = true) (input : RuleInput) :
    (Feature.addRule lower { s with uuids := id :: s.uuids } input id).Kept lower := by
  obtain ⟨hne, hunused⟩ := fresh_iff.1 hfresh
  rw [Feature.addRule]
  split
  · exact h.make id
  next rule hrule =>
    obtain ⟨hformed, rfl⟩ := createRule_formed hne hrule
    split
    · exact h.make rule.id
    apply (h.make rule.id).pushRule
    intro rule' hsame
    cases hsame
    refine ⟨hformed, mem_cons_self, fun hmem => hunused (h.ruleIds _ hmem),
      fun hmem => hunused (h.diskRuleIds _ hmem), fun hmem => ?_⟩
    obtain ⟨queued, hqueued, hsame⟩ := mem_map.1 hmem
    exact hunused (hsame ▸ (h.newRule queued hqueued).2.1)

theorem Kept.setRuleNode (id : Text) (nodeId : Option Text) :
    (s.setRuleNode id nodeId).Kept lower := by
  rw [Feature.setRuleNode]
  split
  · exact h
  · split
    · exact h
    · exact h.pushEdit rfl

theorem Kept.changeRules {edits : List RuleEdit} (hedits : s.ruleEdits = edit :: edits)
    (hpasses : edit.Passes lower s.settings) (previous : List Rule)
    (sent : Option (List RuleSpec)) :
    ({ s with
      ruleEdits := edits
      settings := s.settings.changeRules edit
      ruleEditing := some (.updating previous sent) } : Feature).Kept lower := by
  have hhead : ∀ rule, edit.newRule = some rule →
      rule ∈ s.ruleEdits.filterMap RuleEdit.newRule := by
    intro rule hnew
    rw [hedits, filterMap_cons, hnew]
    exact mem_cons_self
  have hsub : (edits.filterMap RuleEdit.newRule).Sublist
      (s.ruleEdits.filterMap RuleEdit.newRule) := by
    rw [hedits]
    exact (sublist_cons_self edit edits).filterMap _
  have hother : ∀ rule ∈ edits.filterMap RuleEdit.newRule, ∀ added, edit.newRule = some added →
      rule.id ≠ added.id := by
    intro rule hmem added hnew hsame
    have hnodup := h.newRules
    rw [hedits, filterMap_cons, hnew] at hnodup
    exact (nodup_cons.1 hnodup).1 (mem_map.2 ⟨rule, hmem, hsame⟩)
  have hnodes := changeRules_nodes s.settings edit
  have hselected := changeRules_selected s.settings edit
  have htargets : Targets lower (s.settings.changeRules edit) := by
    apply h.rules.changeRules hpasses
    intro rule hnew
    obtain ⟨hformed, -, hfresh, -⟩ := h.newRule rule (hhead rule hnew)
    exact ⟨hformed, hfresh⟩
  refine ⟨h.nodes.same hnodes hselected, htargets, ?_, ?_, ?_, ?_, ?_, h.diskSecrets, h.diskRules,
    h.diskRuleIds, ?_, h.newNodes, ?_, h.newRules.sublist (hsub.map _), ?_⟩
  · rw [hnodes]
    exact h.secrets
  · rw [hnodes]
    exact h.nodeIds
  · intro id hmem
    rcases changeRules_ids hmem with hold | ⟨rule, hnew, rfl⟩
    · exact h.ruleIds id hold
    · exact (h.newRule rule (hhead rule hnew)).2.1
  · rw [hnodes]
    exact h.diskNodes
  · rw [hselected]
    exact h.diskSelected
  · exact fun hnot => absurd rfl (hnot previous sent)
  · rw [hnodes]
    exact h.newNode
  · intro rule hmem
    obtain ⟨hformed, hmade, hfresh, hdisk⟩ := h.newRule rule (hsub.subset hmem)
    refine ⟨hformed, hmade, fun hchanged => ?_, hdisk⟩
    rcases changeRules_ids hchanged with hold | ⟨added, hnew, hsame⟩
    · exact hfresh hold
    · exact hother rule hmem added hnew hsame

theorem Kept.ruleTurn (htimely : s.Timely lower .ruleTurn) :
    s.ruleTurn.1.Kept lower := by
  rw [Feature.ruleTurn]
  split
  next edit edits hediting hedits =>
    dsimp only
    split
    · -- The nodes cannot run together: the targets stay as they are.
      have hsub : (edits.filterMap RuleEdit.newRule).Sublist
          (s.ruleEdits.filterMap RuleEdit.newRule) := by
        rw [hedits]
        exact (sublist_cons_self edit edits).filterMap _
      exact { h with
        newRules := h.newRules.sublist (hsub.map _)
        newRule := fun rule hmem => h.newRule rule (hsub.subset hmem) }
    next hlimited =>
      have hpasses := htimely hediting edit edits hedits (Bool.eq_false_iff.2 hlimited)
      have hchanged := h.changeRules hedits hpasses s.settings.rules
      split
      · apply (hchanged none).save_editing
        exact ⟨rfl, rfl, rfl, rfl, rfl, rfl, rfl, rfl⟩
      · exact hchanged _
  · exact h

theorem Kept.restoreRules {previous : List Rule} (hsaved : s.disk.settings.rules = previous) :
    (s.restoreRules previous).1.Kept lower := by
  have htargets : Targets lower { s.settings with rules := previous } :=
    targets_same h.diskRules hsaved.symm h.diskNodes.symm
  refine ⟨h.nodes.same rfl rfl, htargets, h.secrets, h.nodeIds, ?_, h.diskNodes, h.diskSelected,
    h.diskSecrets, h.diskRules, h.diskRuleIds, fun _ => hsaved, h.newNodes, h.newNode,
      h.newRules, ?_⟩
  · intro id hmem
    apply h.diskRuleIds id
    rw [hsaved]
    exact hmem
  · intro rule hmem
    obtain ⟨hformed, hmade, -, hdisk⟩ := h.newRule rule hmem
    refine ⟨hformed, hmade, fun hold => hdisk ?_, hdisk⟩
    rw [hsaved]
    exact hold

theorem Kept.ruleAnswered {ok : Bool} (htimely : s.Timely lower (.ruleAnswered ok)) :
    (s.ruleAnswered ok).1.Kept lower := by
  rw [Feature.ruleAnswered]
  split
  next previous sent hediting =>
    split
    · -- The settings are saved as they are now.
      apply h.save_editing
      cases sent <;> exact ⟨rfl, rfl, rfl, rfl, rfl, rfl, rfl, rfl⟩
    next hfailed =>
      apply h.restoreRules
      cases sent with
      | none => exact absurd (Bool.or_true ok) hfailed
      | some rules =>
        have hno : ok = false := by
          cases ok with
          | false => rfl
          | true => exact absurd rfl hfailed
        exact htimely hno previous rules hediting
  next sent hediting =>
    have hidle : ∀ previous rules, s.ruleEditing ≠ some (.updating previous rules) := by
      intro previous rules hsome
      rw [hediting] at hsome
      cases hsome
    refine h.same ?_ fun _ => .inl hidle
    cases ok with
    | false => exact ⟨rfl, rfl, rfl, rfl, rfl, rfl, rfl, rfl⟩
    | true => cases sent <;> exact ⟨rfl, rfl, rfl, rfl, rfl, rfl, rfl, rfl⟩
  · exact h

theorem Kept.ruleResumed : s.ruleResumed.Kept lower := by
  rw [Feature.ruleResumed]
  split
  next bound hediting =>
    split
    · refine h.same ⟨rfl, rfl, rfl, rfl, rfl, rfl, rfl, rfl⟩ fun _ => .inl ?_
      intro previous rules hsome
      rw [hediting] at hsome
      cases hsome
    · exact h
  · exact h

/-! ### The direct list -/

theorem Kept.commits (hcommits : s.Commits s') : s'.Kept lower := by
  obtain ⟨directEdits, downloads, store, rfl⟩ := hcommits
  exact h.same' rfl

theorem Kept.directTurn : s.directTurn.1.Kept lower := by
  rw [Feature.directTurn]
  split
  · exact h.same' rfl
  · exact h

theorem Kept.directAnswered (ok : Bool) : (s.directAnswered ok).1.Kept lower := by
  rw [Feature.directAnswered]
  split
  next previous sent hediting =>
    split
    · have hdone : ({ s.acceptDirect sent with directEditing := none } : Feature).Kept lower := by
        cases sent <;> exact h.same' rfl
      exact hdone.save
    · exact h.same' rfl
  next sent hediting =>
    cases ok with
    | false => exact h.same' rfl
    | true => cases sent <;> exact h.same' rfl
  · exact h

/-! ### The launch -/

theorem Kept.disk :
    (normalizeVpn s.disk.settings).nodes = s.disk.settings.nodes ∧
      (normalizeVpn s.disk.settings).selectedNodeId = s.disk.settings.selectedNodeId ∧
      (normalizeVpn s.disk.settings).rules = s.disk.settings.rules :=
  normalizeVpn_of_consistent (h.nodes.same h.diskNodes h.diskSelected) h.diskRules

theorem Kept.launch (now : Nat) (direct : Direct) :
    (s.launch now direct).Kept lower := by
  obtain ⟨hnodes, hselected, hrules⟩ := h.disk
  have hnow : (normalizeVpn s.disk.settings).nodes = s.settings.nodes := hnodes.trans h.diskNodes
  have hsecrets : ∀ id, id ∈ (s.launch now direct).secrets ↔ id ∈ s.settings.nodes.map Node.id := by
    intro id
    show id ∈ ((normalizeVpn s.disk.settings).nodes.map Node.id).filter _ ↔ _
    rw [hnow, mem_filter, contains_iff_mem, h.diskSecrets, h.secrets, and_self_iff]
  refine ⟨h.nodes.same hnow (hselected.trans h.diskSelected), ?_, ?_, ?_, ?_, ?_, ?_, ?_,
    h.diskRules, h.diskRuleIds, fun _ => hrules.symm, nodup_nil, nofun, nodup_nil, nofun⟩
  · exact targets_same h.diskRules hrules hnodes
  · intro id
    rw [hsecrets]
    show _ ↔ id ∈ (normalizeVpn s.disk.settings).nodes.map Node.id
    rw [hnow]
  · show ∀ id ∈ (normalizeVpn s.disk.settings).nodes.map Node.id, id ∈ s.uuids
    rw [hnow]
    exact h.nodeIds
  · show ∀ id ∈ (normalizeVpn s.disk.settings).rules.map Rule.id, id ∈ s.uuids
    rw [hrules]
    exact h.diskRuleIds
  · exact hnodes.symm
  · exact hselected.symm
  · intro id
    rw [hsecrets]
    exact (h.diskSecrets id).trans (h.secrets id)

end

end Parts

/-! ## Steps and runs -/

theorem kept_step {s : Feature} (h : s.Kept lower) {e : FeatureEvent} (htimely : s.Timely lower e) :
    (s.step lower e).1.Kept lower := by
  have hsettings : ∀ settings : Settings, settings.nodes = s.settings.nodes →
      settings.selectedNodeId = s.settings.selectedNodeId → settings.rules = s.settings.rules →
        ({ s with settings := settings } : Feature).Kept lower :=
    fun _ hnodes hselected hrules => h.same ⟨hnodes, hselected, hrules, rfl, rfl, rfl, rfl,
      rfl⟩ .inl
  cases e with
  | launch now direct => exact h.launch now direct
  | setWanted on => exact h.setWanted on
  | wantedResumed index => exact h.wantedResumed index
  | reconsider | onResume | shutdown | pollTimer | pollAnswered now result | reconnectTimer =>
    exact h.drive _
  | resume =>
    rw [step]
    split
    · exact h.drive _
    · exact h
  | turn env =>
    rw [step]
    split
    · exact h
    · exact h.drive _
  | answered env result =>
    obtain ⟨accepted, hsame⟩ := s.acceptStart_eq result
    have haccepted : (s.acceptStart result).Kept lower := by
      rw [hsame]
      exact h.same' rfl
    exact haccepted.drive _
  | setTrafficMode mode =>
    rw [step]
    split
    · exact h
    · exact (hsettings { s.settings with trafficMode := mode } rfl rfl rfl).save.drive _
  | setRemoteDns enabled =>
    exact (hsettings { s.settings with remoteDns := enabled } rfl rfl rfl).save.drive _
  | setKillSwitch enabled =>
    exact (hsettings { s.settings with killSwitch := enabled } rfl rfl rfl).save.drive _
  | addNode node =>
    rw [step]
    split
    next hfresh =>
      obtain ⟨hne, hunused⟩ := fresh_iff.1 hfresh
      have hmade := h.make node.id
      have hall : (s.nodeEdits ++ [NodeEdit.add node]).filterMap newNode =
          (s.nodeEdits.filterMap newNode).concat node.id := by
        rw [filterMap_append, concat_eq_append]
        rfl
      refine { hmade with newNodes := ?_, newNode := ?_ }
      · rw [hall]
        exact h.newNodes.concat fun hmem => hunused (h.newNode _ hmem).2.1
      rw [hall, concat_eq_append]
      intro id hmem
      rcases mem_snoc.1 hmem with hold | rfl
      · exact hmade.newNode id hold
      · exact ⟨hne, mem_cons_self, fun hold => hunused (h.nodeIds _ hold)⟩
    · exact h
  | selectNode id =>
    have hall : (s.nodeEdits ++ [NodeEdit.select id]).filterMap newNode =
        s.nodeEdits.filterMap newNode := by
      rw [filterMap_append]
      exact append_nil _
    exact { h with
      newNodes := hall.symm ▸ h.newNodes
      newNode := fun id hmem => h.newNode id (hall ▸ hmem) }
  | removeNode id =>
    have hall : (s.nodeEdits ++ [NodeEdit.remove id]).filterMap newNode =
        s.nodeEdits.filterMap newNode := by
      rw [filterMap_append]
      exact append_nil _
    exact { h with
      newNodes := hall.symm ▸ h.newNodes
      newNode := fun id hmem => h.newNode id (hall ▸ hmem) }
  | nodeTurn => exact h.nodeTurn
  | nodeResumed => exact h.nodeResumed
  | addRule input id =>
    rw [step]
    split
    next hfresh => exact h.addRule hfresh input
    · exact h
  | setRuleNode id nodeId => exact h.setRuleNode id nodeId
  | setRuleEnabled id enabled | removeRule id => exact h.pushEdit rfl
  | ruleTurn => exact h.ruleTurn htimely
  | ruleAnswered ok => exact h.ruleAnswered htimely
  | ruleResumed => exact h.ruleResumed
  | setDirectEnabled | setDirectList | updateDirectLists | addDirectEntry | setDirectEntryEnabled
  | removeDirectEntry | downloaded =>
    exact h.commits (s.step_commits rfl)
  | directTurn => exact h.directTurn
  | directAnswered ok => exact h.directAnswered ok

theorem kept_new (lower : Text → Text) (now : Nat) : (new now).Kept lower := by
  have hnodes : Nodes defaultVpn := ⟨nodup_nil, nofun, nofun, fun _ => rfl, nofun⟩
  have htargets : Targets lower defaultVpn := ⟨nofun, nodup_nil, nodup_nil, nofun⟩
  exact ⟨hnodes, htargets, fun _ => Iff.rfl, nofun, nofun, rfl, rfl, fun _ => Iff.rfl,
    htargets, nofun, fun _ => rfl, nodup_nil, nofun, nodup_nil, nofun⟩

/-- Nothing is queued or in flight. -/
structure Settled (s : Feature) : Prop where
  ruleEdits : s.ruleEdits = []
  ruleEditing : s.ruleEditing = none
  nodeEdits : s.nodeEdits = []
  nodeEditing : s.nodeEditing = none
  directEdits : s.directEdits = []
  directEditing : s.directEditing = none
  downloads : s.downloads = []
  wanting : s.wanting = []
  queue : s.controller.queue = []
  running : s.controller.running = none

/-- The settings are consistent, and are loaded as they are. -/
structure Stays (lower : Text → Text) (s : Feature) : Prop where
  nodes : ∀ rule ∈ s.settings.rules, ∀ id, rule.nodeId = some id → s.settings.hasNode id = true
  targets : s.settings.rules.Pairwise fun a b => sameTarget lower a b = false
  selected : ∀ id, s.settings.selectedNodeId = some id → s.settings.hasNode id = true
  unselected : s.settings.selectedNodeId = none → s.settings.nodes = []
  secrets : ∀ id, id ∈ s.secrets ↔ s.settings.hasNode id = true
  normal : (normalizeVpn s.settings).nodes = s.settings.nodes ∧
    (normalizeVpn s.settings).selectedNodeId = s.settings.selectedNodeId ∧
    (normalizeVpn s.settings).rules = s.settings.rules
  loads : (normalizeVpn s.disk.settings).nodes = s.settings.nodes ∧
    (normalizeVpn s.disk.settings).selectedNodeId = s.settings.selectedNodeId ∧
    (normalizeVpn s.disk.settings).rules = s.settings.rules

theorem Kept.stays {s : Feature} (h : s.Kept lower) (hidle : s.ruleEditing = none) :
    s.Stays lower where
  nodes := fun rule hmem id hid => Nodes.hasNode_iff.2 (h.rules.nodes rule hmem id hid)
  targets := by
    refine (pairwise_map.1 h.rules.targets).imp fun {a b} hne => ?_
    rw [← Bool.not_eq_true]
    exact fun hsame => hne (sameTarget_iff.1 hsame)
  selected := fun id hid => Nodes.hasNode_iff.2 (h.nodes.selected id hid)
  unselected := h.nodes.unselected
  secrets := fun id => (h.secrets id).trans Nodes.hasNode_iff.symm
  normal := normalizeVpn_of_consistent h.nodes h.rules
  loads := by
    obtain ⟨hnodes, hselected, hrules⟩ := h.disk
    have hsaved : s.disk.settings.rules = s.settings.rules := by
      apply h.saved
      rw [hidle]
      exact nofun
    exact ⟨hnodes.trans h.diskNodes, hselected.trans h.diskSelected, hrules.trans hsaved⟩

/-- In a run of timely steps from the first launch on, the settings are consistent whenever nothing
is queued or in flight, and the next launch loads them as they are. -/
theorem settings_stay_consistent (lower : Text → Text) (now : Nat) (es : List FeatureEvent)
    (hrun : Meets (step lower) (fun c e => c.state.Timely lower e) ⟨new now, []⟩ es)
    (hsettled : (exec (step lower) (new now) es).state.Settled) :
    (exec (step lower) (new now) es).state.Stays lower := by
  have hkept : (exec (step lower) (new now) es).state.Kept lower :=
    execFrom_invariant_of_meets (I := fun c => c.state.Kept lower)
      (fun _ _ htimely h => kept_step h htimely) es _ hrun (kept_new lower now)
  exact hkept.stays hsettled.ruleEditing

/-! ### Concrete runs -/

/-- `toLocaleLowerCase` of ASCII text. -/
def asciiLower (value : Text) : Text := value.map Char.toLower

/-- Nothing keeps a session from starting. -/
def calmEnv : Env := ⟨0, none, true, true, true⟩

/-- The window asks for a website, on the default node or another one. -/
def website (value : Text) (nodeId : Option Text) : RuleInput := ⟨some .hostname, value, [], nodeId⟩

/-- Two nodes and a target are added, and the VPN connects through the first node. -/
def connects : List FeatureEvent :=
  [.addNode ⟨['a'], ['a'], .wireguard, [], true⟩, .nodeTurn,
    .addNode ⟨['b'], ['b'], .wireguard, [], true⟩, .nodeTurn,
    .addRule (website ['x'] none) ['r'], .ruleTurn, .ruleAnswered true,
    .setWanted true, .turn calmEnv, .answered calmEnv (.ok ⟨true, ⟨true, [true]⟩⟩),
    .answered calmEnv (.ok ⟨true, ⟨true, [true]⟩⟩), .wantedResumed 0]

/-- An edit passes its checks when it has its turn, and what a rejected one restores is saved. -/
def prompt (s : Feature) : FeatureEvent → Bool
  | .ruleTurn =>
    match s.ruleEdits with
    | .add rule :: _ => rule.nodeId.all s.settings.hasNode && s.settings.rules.all fun existing =>
      !sameTarget asciiLower existing rule
    | .setNode _ nodeId :: _ => nodeId.all s.settings.hasNode
    | _ => true
  | .ruleAnswered ok =>
    ok || match s.ruleEditing with
      | some (.updating previous _) => decide (s.disk.settings.rules = previous)
      | _ => true
  | _ => true

theorem timely_of_prompt {s : Feature} {e : FeatureEvent} (h : s.prompt e = true) :
    s.Timely asciiLower e := by
  cases e with
  | ruleTurn =>
    intro _ edit edits hedits _
    rw [prompt, hedits] at h
    cases edit with
    | add rule =>
      obtain ⟨hnode, hnew⟩ := Bool.and_eq_true_iff.1 h
      refine ⟨fun id hid => ?_, fun existing hmem => ?_⟩
      · rw [hid] at hnode
        exact hnode
      · exact Bool.not_eq_true' _ ▸ all_eq_true.1 hnew existing hmem
    | setNode id nodeId =>
      rintro other rfl
      exact h
    | setEnabled id enabled | remove id => trivial
  | ruleAnswered ok =>
    intro hfailed previous rules hediting
    rw [prompt, hfailed, hediting] at h
    exact of_decide_eq_true h
  | _ => trivial

/-- The VPN is connected. While the service is asked for a target, a node is removed and three more
edits are queued: the target that is added is rejected, one is turned off, and one gets a node. -/
def concurrentEdits : List FeatureEvent :=
  [.addRule (website ['y'] none) ['s'], .ruleTurn, .addRule (website ['z'] (some ['a'])) ['t'],
    .removeNode (some ['b']), .setRuleEnabled ['r'] false, .setRuleNode ['s'] (some ['a']),
      .nodeTurn,
    .ruleAnswered true, .ruleTurn, .ruleAnswered false, .ruleAnswered true, .ruleTurn,
      .ruleAnswered true,
    .ruleTurn, .ruleAnswered true]

theorem settings_stay_consistent_removal :
    (exec (step asciiLower) (new 0) (connects ++ concurrentEdits)).state.settings.rules.map
        (fun rule => (rule.id, rule.nodeId, rule.enabled)) =
      [(['r'], none, false), (['s'], some ['a'], true)] ∧
    (exec (step asciiLower) (new 0) (connects ++ concurrentEdits)).state.Stays asciiLower := by
  have hprompt : Meets (step asciiLower) (fun c e => c.state.prompt e = true) ⟨new 0, []⟩
      (connects ++ concurrentEdits) := by
    decide +kernel
  exact ⟨by decide +kernel, settings_stay_consistent asciiLower 0 _
    (hprompt.imp fun _ _ h => timely_of_prompt h) (by constructor <;> decide +kernel)⟩

/-- While the service is asked for one target, a second one is asked for twice, and a third one on a
node that is then removed: the targets are not told apart, and one names a node that is gone. And a
target the service rejects while another setting is saved comes back with the next launch. -/
theorem settings_do_not_stay_consistent :
    let asked := connects ++ [.addRule (website ['y'] none) ['s'], .ruleTurn]
    let twice := (exec (step asciiLower) (new 0) (asked ++
      [.addRule (website ['z'] none) ['t'], .addRule (website ['z'] none) ['u'], .ruleAnswered true,
        .ruleTurn, .ruleAnswered true, .ruleTurn, .ruleAnswered true])).state
    let dangling := (exec (step asciiLower) (new 0) (asked ++
      [.addRule { website ['z'] (some ['b']) with kind := some .hostname } ['t'],
        .removeNode (some ['b']), .nodeTurn, .ruleAnswered true, .ruleTurn,
          .ruleAnswered true])).state
    let rejected := (exec (step asciiLower) (new 0) (connects ++
      [.addRule (website ['y'] none) ['s'], .ruleTurn, .addNode ⟨['c'], ['c'], .wireguard,
        [], true⟩,
        .nodeTurn, .ruleAnswered false, .ruleAnswered true])).state
    (twice.Settled ∧ ¬ twice.settings.rules.Pairwise fun a b => sameTarget asciiLower a b = false) ∧
    (dangling.Settled ∧ ∃ rule ∈ dangling.settings.rules, rule.nodeId = some ['b'] ∧
      dangling.settings.hasNode ['b'] = false) ∧
    rejected.Settled ∧ (normalizeVpn rejected.disk.settings).rules ≠ rejected.settings.rules := by
  refine ⟨⟨⟨?_, ?_, ?_, ?_, ?_, ?_, ?_, ?_, ?_, ?_⟩, ?_⟩,
    ⟨⟨?_, ?_, ?_, ?_, ?_, ?_, ?_, ?_, ?_, ?_⟩, ?_⟩,
    ⟨?_, ?_, ?_, ?_, ?_, ?_, ?_, ?_, ?_, ?_⟩, ?_⟩
  all_goals decide +kernel

end Feature

end GamePath.Electron.Vpn
