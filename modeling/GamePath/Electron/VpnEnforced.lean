import GamePath.Electron.VpnPlaces
import GamePath.Electron.VpnTransitions

/-!
# Whether the running VPN enforces what is saved

An edit of the targets or of the direct list is sent to a session that is live. While a start waits
for its answers the session is not live yet, and the request of the start is built already: an edit
that has its turn then is saved and sent to nobody. The same is lost when a start builds its request
from an edit that is taken back later, and when lists are downloaded for an edit that is given up.

`Tidy` says when none of this matters. In a run of tidy steps the settings are what the session was
told, whenever nothing is queued or in flight (`session_enforces`). `Told` is what holds of a
request that is carried, `Enforces` the invariant, and `enforces_step` the step lemma.
-/

namespace GamePath.Electron.Vpn

open Engine.Direct (Text)
open List Lib.Run

variable {lower : Text → Text}

namespace Feature

/-! ## What is carried -/

variable (s : Feature)

/-- A start holds the request, or the service runs the session with it. -/
def Carries (b : Built Payload) : Prop :=
  s.controller.held = some b ∨ s.controller.Live ∧ s.accepted = some b

/-- An edit of the direct list is to follow. -/
def Due : Prop := s.directEdits ≠ [] ∨ s.downloads ≠ []

/-- What a session would be told of a direct list. -/
def specOf (direct : Direct) : Option DirectSpec :=
  if directLimited s.settings.selectedVpnNode then none else directSpec direct s.entriesOf

/-- The targets the service was told last, answered or not. -/
def toldRules (b : Built Payload) : List RuleSpec :=
  match s.ruleEditing with
  | some (.updating _ (some sent)) | some (.restoring (some sent)) => sent
  | _ => b.payload.rules

/-- The direct list the service was told last, answered or not. -/
def toldDirect (b : Built Payload) : Option DirectSpec :=
  match s.directEditing with
  | some (.updating _ (some sent)) | some (.restoring (some sent)) => sent
  | _ => b.payload.direct

/-- The targets are those the service was told. Those of a start that is not through stay so whether
or not an edit in flight is taken back. -/
structure RulesTold (s : Feature) (b : Built Payload) : Prop where
  last : s.toldRules b = s.settings.specs
  held : s.controller.held = some b → b.payload.rules = s.settings.specs
  back : ∀ previous sent, s.ruleEditing = some (.updating previous (some sent)) →
    (s.settings.withRules previous).sessionIds = s.settings.sessionIds ∧
      (s.controller.held = some b → b.payload.rules = (s.settings.withRules previous).specs)

/-- The direct list is the one the service was told. -/
structure DirectTold (s : Feature) (b : Built Payload) : Prop where
  last : s.toldDirect b = s.spec
  held : s.controller.held = some b → b.payload.direct = s.spec
  back : ∀ previous sent, s.directEditing = some (.updating previous (some sent)) →
    s.controller.held = some b → b.payload.direct = s.specOf previous

/-- The settings are what a request says, but for a direct list that is told again. -/
structure Told (s : Feature) (b : Built Payload) : Prop where
  mode : b.trafficMode = s.settings.trafficMode
  selected : s.settings.selectedVpnNode.isSome = true
  nodes : b.nodes.map SessionNode.id = s.settings.sessionIds
  rules : s.settings.trafficMode = .split → s.RulesTold b
  direct : s.Due ∨ s.DirectTold b

/-! ## The condition -/

/-- An edit of the targets in flight changes nothing, whichever way it is answered. -/
def RulesDecided : Prop :=
  match s.ruleEditing with
  | some (.updating previous (some sent)) =>
    sent = s.settings.specs ∧
      (s.settings.withRules previous).sessionIds = s.settings.sessionIds ∧
      (s.settings.withRules previous).specs = s.settings.specs
  | some (.restoring (some sent)) => sent = s.settings.specs
  | _ => True

/-- An edit of the direct list in flight changes nothing, whichever way it is answered. -/
def DirectDecided : Prop :=
  match s.directEditing with
  | some (.updating previous (some sent)) => sent = s.spec ∧ s.specOf previous = s.spec
  | some (.restoring (some sent)) => sent = s.spec
  | _ => True

/-- A start that builds its request builds it from settings that no edit in flight changes. -/
def Decided (e : VpnEvent Payload) (env : Env) : Prop :=
  s.controller.Builds e → ∀ b, (s.surroundings env).Begins b →
    (s.settings.trafficMode = .split → s.RulesDecided) ∧ (s.Due ∨ s.DirectDecided)

/-- An edit that has its turn while a start holds its request changes nothing in the request, a
start builds its request while no edit in flight would change it, and a download that fails for an
edit of the direct list leaves the list as it was told, or another edit of it is to follow. -/
def Tidy : FeatureEvent → Prop
  | .ruleTurn =>
    ∀ b, s.controller.held = some b → ¬ s.controller.Dying → s.settings.trafficMode = .split →
      s.ruleEditing = none → ∀ edit edits, s.ruleEdits = edit :: edits →
        nodeSetLimited (s.settings.changeRules edit).sessionNodes = false →
          s.carriesNodes (s.settings.changeRules edit).sessionNodes = true →
            (s.settings.changeRules edit).specs = b.payload.rules
  | .directTurn =>
    ∀ b, s.controller.held = some b → ¬ s.controller.Dying → s.directEditing = none →
      ∀ edit edits, s.directEdits = edit :: edits →
        edits ≠ [] ∨ s.downloads ≠ [] ∨
          s.specOf (s.settings.direct.change edit) = b.payload.direct
  | .turn env => s.Decided (.turn (s.surroundings env)) env
  | .answered env result => s.Decided (.answered (s.surroundings env) result) env
  | .downloaded index none =>
    ∀ d, s.downloads[index]? = some d → d.todo ≠ [] → d.strict = true →
      ∀ b, s.Carries b → ¬ s.controller.Dying →
        s.directEdits ≠ [] ∨ s.downloads.eraseIdx index ≠ [] ∨ s.DirectTold b
  | _ => True

/-- The service takes an edit back when it is asked to. -/
def Restores : FeatureEvent → Prop
  | .ruleAnswered ok => ∀ sent, s.ruleEditing = some (.restoring sent) → ok = true
  | .directAnswered ok => ∀ sent, s.directEditing = some (.restoring sent) → ok = true
  | _ => True

/-! ## The invariant -/

/-- What holds of the session and its works between two events. -/
structure Runs (s : Feature) : Prop where
  steady : s.controller.Steady
  ordered : s.controller.Ordered
  wish : s.controller.wanted = false → s.controller.Dying ∨ s.controller.Off
  accepted : s.controller.Live →
    ∃ b, s.accepted = some b ∧ s.controller.session.nodes = b.nodes
  removal : ∀ id bound, s.nodeEditing = some (.disconnecting id bound) →
    ∃ number, bound = number + 1 ∧ number < s.controller.issued ∧ s.controller.Followed number

/-- What holds of the section between two events. -/
structure Enforces (s : Feature) : Prop where
  known : s.Known
  runs : s.Runs
  told : ¬ s.controller.Dying → ∀ b, s.Carries b → s.Told b

section Parts

variable {s s' : Feature} {b : Built Payload}

theorem spec_eq (s : Feature) : s.spec = s.specOf s.settings.direct := rfl

theorem not_carries (h : s.controller.Off) : ¬ s.Carries b := by
  rintro (hheld | ⟨hlive, -⟩)
  · rw [h.held] at hheld
    cases hheld
  · exact h.live hlive

theorem Carries.held (h : s.Carries b) (hlive : ¬ s.controller.Live) : s.controller.held = some b :=
  h.resolve_right fun hruns => hlive hruns.1

theorem told_of_leaves (h : s.controller.Dying ∨ s.controller.Off) :
    ¬ s.controller.Dying → ∀ b, s.Carries b → s.Told b := by
  intro hdying b hb
  rcases h with hdies | hoff
  · exact absurd hdies hdying
  · exact absurd hb (not_carries hoff)

/-- What was told is still so where the settings say the same. -/
theorem Told.same (h : s.Told b) (halike : s.settings.Alike s'.settings)
    (hprevious : s.settings.trafficMode = .split → ∀ previous sent,
      s.ruleEditing = some (.updating previous (some sent)) →
        (s.settings.withRules previous).Alike (s'.settings.withRules previous))
    (hrules : s'.ruleEditing = s.ruleEditing) (hdirect : s'.directEditing = s.directEditing)
    (hstore : s'.store = s.store) (hdue : s.Due → s'.Due)
    (hheld : s'.controller.held = some b → s.controller.held = some b) : s'.Told b := by
  have hentries : s'.entriesOf = s.entriesOf := by
    funext id
    rw [entriesOf, entriesOf, hstore]
  have hspecOf : ∀ direct, s'.specOf direct = s.specOf direct := fun direct => by
    rw [specOf, specOf, halike.limited, hentries]
  have hspec : s'.spec = s.spec := by rw [spec_eq, spec_eq, halike.direct, hspecOf]
  refine ⟨h.mode.trans halike.mode.symm, halike.selected.trans h.selected,
    h.nodes.trans halike.ids.symm, fun hsplit => ?_, ?_⟩
  · rw [halike.mode] at hsplit
    have hold := h.rules hsplit
    have hspecs := halike.specs hsplit
    refine ⟨?_, fun hb => (hold.held (hheld hb)).trans hspecs.symm, ?_⟩
    · rw [toldRules, hrules, hspecs]
      exact hold.last
    intro previous sent hediting
    rw [hrules] at hediting
    have hback := hprevious hsplit previous sent hediting
    obtain ⟨hids, hspecs'⟩ := hold.back previous sent hediting
    exact ⟨hback.ids.trans (hids.trans halike.ids.symm),
      fun hb => (hspecs' (hheld hb)).trans (hback.specs hsplit).symm⟩
  · rcases h.direct with hdues | hold
    · exact .inl (hdue hdues)
    refine .inr ⟨?_, fun hb => (hold.held (hheld hb)).trans hspec.symm, ?_⟩
    · rw [toldDirect, hdirect, hspec]
      exact hold.last
    · intro previous sent hediting hb
      rw [hdirect] at hediting
      rw [hspecOf]
      exact hold.back previous sent hediting (hheld hb)

/-! ### The session -/

theorem Runs.same (h : s.Runs) (hcontroller : s'.controller = s.controller)
    (haccepted : s'.accepted.map Built.nodes = s.accepted.map Built.nodes)
    (hediting : ∀ id bound, s'.nodeEditing = some (.disconnecting id bound) →
      s.nodeEditing = some (.disconnecting id bound)) : s'.Runs where
  steady := hcontroller ▸ h.steady
  ordered := hcontroller ▸ h.ordered
  wish := hcontroller ▸ h.wish
  accepted := by
    intro hlive
    rw [hcontroller] at hlive ⊢
    obtain ⟨b, hb, hnodes⟩ := h.accepted hlive
    rw [hb] at haccepted
    obtain ⟨b', hb', hnodes'⟩ := Option.map_eq_some_iff.1 haccepted
    exact ⟨b', hb', hnodes.trans hnodes'.symm⟩
  removal := hcontroller ▸ fun id bound h' => h.removal id bound (hediting id bound h')

variable {accepted : Option (Built Payload)} {e : VpnEvent Payload}

theorem Runs.drive (h : s.Runs) (hresumes : ∀ env, e = .turn env → s.resumes = false)
    (hlive : s.controller.Live → accepted = s.accepted)
    (hstarted : ∀ env started work start b, e = .answered env (.ok started) →
      s.controller.running = some (work, .starting start b) → accepted = some b) :
    (({ s with accepted := accepted } : Feature).drive e).1.Runs := by
  obtain ⟨hsteady, hmoved⟩ := Controller.moved_step h.steady e
  have hissued := s.controller.issued_step e
  refine ⟨hsteady, Controller.ordered_step h.steady h.ordered e, ?_, ?_, ?_⟩
  · intro hunwanted
    change (s.controller.step e).1.wanted = false at hunwanted
    by_cases hoff : (s.controller.step e).1.Off
    · exact .inr hoff
    refine .inl ?_
    cases hmoved with
    | off hoff' => exact absurd hoff' hoff
    | keeps hkeeps =>
      rcases hkeeps.wanted hunwanted with hwas | hdies
      · rcases h.wish hwas with hdies | hwasOff
        · exact hkeeps.dying hoff hdies
        refine absurd ⟨fun hlive' => hwasOff.live (hkeeps.live hlive').1, ?_⟩ hoff
        cases hheld : (s.controller.step e).1.held with
        | none => rfl
        | some b =>
          have hwas' := hkeeps.held b hheld
          rw [hwasOff.held] at hwas'
          cases hwas'
      · exact hdies
    | built env b hbegins hevent hbuilds hheld hlive' hwanted =>
      rw [hwanted] at hunwanted
      cases hunwanted
    | connected env started work start b hevent hrunning hheld hnodes hdying hwanted =>
      rcases h.wish (hwanted.symm.trans hunwanted) with hdies | hwasOff
      · exact hdying hdies
      · have hnone := hwasOff.held
        rw [Controller.held, hrunning] at hnone
        cases hnone
  · intro hlive'
    show ∃ b, accepted = some b ∧ (s.controller.step e).1.session.nodes = b.nodes
    cases hmoved with
    | off hoff => exact absurd hlive' hoff.live
    | keeps hkeeps =>
      obtain ⟨hwas, hsame⟩ := hkeeps.live hlive'
      rw [hlive hwas, hsame]
      exact h.accepted hwas
    | built env b hbegins hevent hbuilds hheld hnot hwanted => exact absurd hlive' hnot
    | connected env started work start b hevent hrunning hheld hnodes hdying hwanted =>
      exact ⟨b, hstarted env started work start b hevent hrunning, hnodes⟩
  · intro id bound hediting
    change s.nodeEditing = some (.disconnecting id bound) at hediting
    obtain ⟨number, rfl, hnumber, hfollowed⟩ := h.removal id bound hediting
    refine ⟨number, rfl, hnumber.trans_le hissued,
      Controller.followed_step h.steady h.ordered hnumber hfollowed ?_⟩
    rintro hidle hqueue env rfl
    have hwaits := hresumes env rfl
    rw [resumes, hediting] at hwaits
    have hready : s.ready (number + 1) = true := by
      rw [ready, hidle, Option.all_none, Bool.and_true, all_eq_true]
      exact fun work hmem => decide_eq_true (hqueue work hmem)
    cases hready.symm.trans hwaits

theorem Runs.not_held (h : s.Runs) (hlive : s.controller.Live) (b : Built Payload) :
    ¬ s.controller.held = some b := fun hheld => h.steady.not_live hheld hlive

theorem told_built {env : Env} (hbuilt : s.buildRequest env = .ok b)
    (hrules : s.settings.trafficMode = .split → s.RulesDecided)
    (hdirect : s.Due ∨ s.DirectDecided) :
    s.Told b := by
  rw [buildRequest] at hbuilt
  cases hnode : s.settings.selectedVpnNode with
  | none =>
    rw [hnode] at hbuilt
    cases hbuilt
  | some node =>
    rw [hnode] at hbuilt
    dsimp only at hbuilt
    split at hbuilt
    · cases hbuilt
    split at hbuilt
    · cases hbuilt
    cases hbuilt
    refine ⟨rfl, by rw [hnode]; rfl, ?_, fun hsplit => ?_, hdirect.imp_right fun hdecided => ?_⟩
    · rw [map_map]
      rfl
    · have hdecided := hrules hsplit
      rw [RulesDecided] at hdecided
      refine ⟨?_, fun _ => rfl, ?_⟩
      · rw [toldRules]
        split at hdecided
        · exact hdecided.1
        · exact hdecided
        · rfl
      · intro previous sent hediting
        rw [hediting] at hdecided
        exact ⟨hdecided.2.1, fun _ => hdecided.2.2.symm⟩
    · rw [DirectDecided] at hdecided
      refine ⟨?_, fun _ => rfl, ?_⟩
      · rw [toldDirect]
        split at hdecided
        · exact hdecided.1
        · exact hdecided
        · rfl
      · intro previous sent hediting _
        rw [hediting] at hdecided
        exact hdecided.2.symm

/-- A step of the controller tells a session that comes up the settings as they are. -/
theorem Enforces.drive (h : s.Enforces) (hresumes : ∀ env, e = .turn env → s.resumes = false)
    (hlive : s.controller.Live → accepted = s.accepted)
    (hstarted : ∀ env started work start b, e = .answered env (.ok started) →
      s.controller.running = some (work, .starting start b) → accepted = some b)
    (hbuilt : ∀ env b, env.Begins b → (e = .turn env ∨ ∃ result, e = .answered env result) →
      s.controller.Builds e → ∃ env', s.buildRequest env' = .ok b ∧
        (s.settings.trafficMode = .split → s.RulesDecided) ∧ (s.Due ∨ s.DirectDecided)) :
    (({ s with accepted := accepted } : Feature).drive e).1.Enforces := by
  obtain ⟨-, hmoved⟩ := Controller.moved_step h.runs.steady e
  refine ⟨Modest.known (s := s) (.of_same (fun _ _ h => h) rfl) h.known,
    h.runs.drive hresumes hlive hstarted, fun hdying b hb => ?_⟩
  have hsame : (hold : s.Told b) → ((s.controller.step e).1.held = some b →
      s.controller.held = some b) → (({ s with accepted := accepted } :
        Feature).drive e).1.Told b :=
    fun hold hheld =>
      hold.same (Settings.Alike.refl _) (fun _ _ _ _ => Settings.Alike.refl _) rfl rfl rfl id hheld
  cases hmoved with
  | off hoff => exact absurd hb (not_carries hoff)
  | keeps hkeeps =>
    have hcarried : s.Carries b := by
      rcases hb with hheld | ⟨hlive', haccepted⟩
      · exact .inl (hkeeps.held b hheld)
      · have hwas := (hkeeps.live hlive').1
        exact .inr ⟨hwas, hlive hwas ▸ haccepted⟩
    have hwasDying : ¬ s.controller.Dying := fun hdies =>
      hdying (hkeeps.dying (fun hoff => not_carries hoff hb) hdies)
    exact hsame (h.told hwasDying b hcarried) (hkeeps.held b)
  | built env b' hbegins hevent hbuilds hheld hnot hwanted =>
    rcases hb with hheld' | ⟨hlive', -⟩
    · have heq : b' = b := Option.some_inj.1 (hheld.symm.trans hheld')
      obtain ⟨env', hrequest, hrules, hdirect⟩ := hbuilt env b' hbegins hevent hbuilds
      rw [heq] at hrequest
      exact told_built (s := (({ s with accepted := accepted } : Feature).drive e).1) hrequest
        hrules hdirect
    · exact absurd hlive' hnot
  | connected env started work start b' hevent hrunning hheld hnodes hdies hwanted =>
    have hwas : s.controller.held = some b' := by
      rw [Controller.held, hrunning]
      rfl
    rcases hb with hheld' | ⟨-, haccepted⟩
    · have hnone : (s.controller.step e).1.held = some b := hheld'
      rw [hheld] at hnone
      cases hnone
    · have heq : accepted = some b := haccepted
      rw [hstarted env started work start b' hevent hrunning] at heq
      cases heq
      exact hsame (h.told (fun hd => hdying (hdies hd)) b (.inl hwas)) fun _ => hwas

theorem Enforces.call (h : s.Enforces) (he : e.proceeds = false) :
    (s.drive e).1.Enforces := by
  refine h.drive ?_ (fun _ => rfl) ?_ ?_
  · rintro env rfl
    cases he
  · rintro env started work start b rfl
    cases he
  · rintro env b - (rfl | ⟨result, rfl⟩)
    · cases he
    · cases he

section

variable (h : s.Enforces) (hknown : s'.Known) (hcontroller : s'.controller = s.controller)
  (haccepted : s'.accepted = s.accepted)
  (hediting : ∀ id bound, s'.nodeEditing = some (.disconnecting id bound) →
    s.nodeEditing = some (.disconnecting id bound))
include h hknown hcontroller haccepted hediting

theorem Enforces.stay (htold : ¬ s.controller.Dying → ∀ b, s.Carries b → s.Told b → s'.Told b) :
    s'.Enforces where
  known := hknown
  runs := h.runs.same hcontroller (by rw [haccepted]) hediting
  told := by
    intro hdying b hb
    rw [hcontroller] at hdying
    have hb' : s.Carries b := by
      rw [Carries, hcontroller, haccepted] at hb
      exact hb
    exact htold hdying b hb' (h.told hdying b hb')

theorem Enforces.alike (hsettings : ∃ remoteDns killSwitch wantConnected,
    s'.settings = { s.settings with
      remoteDns := remoteDns, killSwitch := killSwitch, wantConnected := wantConnected })
    (hrules : s'.ruleEditing = s.ruleEditing)
    (hdirect : s'.directEditing = s.directEditing) (hstore : s'.store = s.store)
    (hdue : s.Due → s'.Due) : s'.Enforces := by
  obtain ⟨remoteDns, killSwitch, wantConnected, heq⟩ := hsettings
  refine h.stay hknown hcontroller haccepted hediting fun _ b _ hold => ?_
  refine hold.same ?_ (fun _ previous sent _ => ?_) hrules hdirect hstore hdue ?_
  · rw [heq]
    exact ⟨rfl, rfl, rfl, rfl, fun _ => rfl, rfl⟩
  · rw [heq]
    exact ⟨rfl, rfl, rfl, rfl, fun _ => rfl, rfl⟩
  · rw [hcontroller]
    exact id

end

theorem Runs.restart_leaves (h : s.Runs) :
    s.restart.controller.Dying ∨ s.restart.controller.Off := by
  cases hwanted : s.controller.wanted with
  | true =>
    have hqueue : s.restart.controller.queue =
        s.controller.queue ++ [⟨s.controller.issued, .restart⟩] := by
      show (s.controller.step .restart).1.queue = _
      rw [Controller.step]
      rw [if_pos hwanted]
      rfl
    refine .inl (.inl ⟨⟨s.controller.issued, .restart⟩, ?_, .inr rfl⟩)
    rw [hqueue]
    exact mem_append_right _ (mem_singleton_self _)
  | false =>
    have hsame : s.restart.controller = { s.controller with off := none } := by
      show (s.controller.step .restart).1 = _
      rw [Controller.step]
      rw [if_neg (by rw [hwanted]; exact Bool.false_ne_true)]
    rw [hsame]
    exact (h.wish hwanted).imp id fun hoff => ⟨hoff.live, hoff.held⟩

theorem Runs.restarts (h : s.Runs) (hknown : s.Known)
    (hediting : s'.controller = s.restart.controller ∧ s'.accepted = s.accepted ∧
      ∀ id bound, s'.nodeEditing = some (.disconnecting id bound) →
        s.nodeEditing = some (.disconnecting id bound)) (hmodest : s.Modest s') : s'.Enforces := by
  obtain ⟨hcontroller, haccepted, hremoval⟩ := hediting
  have hruns : s.restart.Runs := by
    refine h.drive (nofun) (fun _ => rfl) ?_
    rintro env started work start b hevent
    cases hevent
  refine ⟨hmodest.known hknown, hruns.same hcontroller ?_ hremoval, ?_⟩
  · rw [haccepted]
    rfl
  · apply told_of_leaves
    rw [hcontroller]
    exact h.restart_leaves

/-! ### Nodes -/

section

variable (h : s.Enforces)
include h

theorem Enforces.setNode {node : Node} {edits : List NodeEdit}
    (hedits : s.nodeEdits = .add node :: edits) :
    (Feature.setNode { s with nodeEdits := edits } node).Enforces := by
  refine h.stay (h.known.setNode hedits) rfl rfl (fun _ _ => id)
    fun _ b _ hold => ?_
  have hpending : node.id ∈ s.pending := by
    rw [pending, hedits]
    exact mem_cons_self
  have hfresh : node.id ∉ s.settings.nodes.map Node.id := fun hmem =>
    (h.known.taken _ (.node hmem)).2 hpending
  have hselected : s.settings.selectedVpnNode.isNone = false := by
    rw [← Option.not_isSome, hold.selected]
    rfl
  have hsettings : (Feature.setNode { s with nodeEdits := edits } node).settings =
      { s.settings with nodes := s.settings.nodes ++ [{ node with enabled := false }] } := by
    show Settings.mk _ _ _ _ _ _ _ _ = _
    rw [hselected]
    rfl
  refine hold.same ?_ (fun _ previous sent hediting => ?_) rfl rfl rfl id id
  · rw [hsettings]
    refine Settings.alike_append hold.selected hfresh fun rule hmem hnode => ?_
    exact (h.known.taken _ (.rule rule hmem hnode)).2 hpending
  · rw [hsettings]
    have hnamed : ∀ rule ∈ (s.settings.withRules previous).rules, rule.nodeId ≠ some node.id :=
      fun rule hmem hnode => (h.known.taken _
        (.previous previous _ hediting rule hmem hnode)).2 hpending
    exact Settings.alike_append hold.selected hfresh hnamed

theorem Enforces.takeOut {id : Text} (hdefault : s.settings.selectedNodeId ≠ some id)
    (hunused : (s.settings.sessionNodes.any fun node => node.id = id) = false) :
    (s.takeOut id).Enforces := by
  refine h.stay ((modest_takeOut s id).known h.known) rfl rfl (fun _ _ hediting => hediting)
    fun _ b _ hold => ?_
  have hids : id ∉ s.settings.sessionIds := by
    intro hmem
    obtain ⟨node, hnode, hid⟩ := mem_map.1 hmem
    have hused : (s.settings.sessionNodes.any fun node => node.id = id) = true :=
      any_eq_true.2 ⟨node, hnode, decide_eq_true hid⟩
    rw [hunused] at hused
    cases hused
  have hsettings : (s.takeOut id).settings = { s.settings with
      nodes := s.settings.nodes.filter fun node => node.id ≠ id
      rules := s.settings.rules.map fun rule =>
        if rule.nodeId = some id then { rule with nodeId := none } else rule } := by
    show s.settings.removeNode id = _
    rw [Settings.removeNode]
    rw [if_neg hdefault]
  refine hold.same ?_ (fun hsplit previous sent hediting => ?_) rfl rfl rfl
    (fun hdue => hdue) fun hheld => hheld
  · rw [hsettings]
    exact Settings.alike_remove hold.selected hdefault hids (.inr rfl)
  · rw [hsettings]
    have hunnamed : id ∉ (s.settings.withRules previous).sessionIds := by
      rw [((hold.rules hsplit).back previous sent hediting).1]
      exact hids
    exact Settings.alike_remove hold.selected hdefault hunnamed (.inl rfl)

theorem Enforces.selectNode (id : Text) : (s.selectNode id).Enforces := by
  rw [Feature.selectNode]
  split
  · exact h
  split
  · exact h
  have hset : s.Modest { s with settings := s.settings.select id } :=
    modest_settings s (enableSelected_ids _) rfl
  have hsaved := hset.saved
  have hruns : ({ s with settings := s.settings.select id } : Feature).save.Runs :=
    h.runs.same rfl rfl fun _ _ hediting => hediting
  exact hruns.restarts (hsaved.known h.known) ⟨rfl, rfl, by rintro _ _ ⟨⟩⟩
    (.of_same (fun _ _ h => h) rfl)

theorem Enforces.disconnects (id : Text) :
    Enforces { (s.drive .disconnect).1 with
      settings := { s.settings with wantConnected := false }
      nodeEditing := some (.disconnecting id (s.controller.issued + 1)) } := by
  have hdriven := h.call (e := .disconnect) rfl
  have hmem : (⟨s.controller.issued, .stop⟩ : Work) ∈ (s.drive .disconnect).1.controller.queue :=
    mem_append_right _ (mem_singleton_self _)
  refine ⟨Modest.known (s := s) (.of_same (fun _ _ h => h) rfl) h.known,
    ⟨hdriven.runs.steady, hdriven.runs.ordered, hdriven.runs.wish,
    hdriven.runs.accepted, ?_⟩, told_of_leaves (.inl (.inl ⟨_, hmem, .inl rfl⟩))⟩
  intro other bound hediting
  cases hediting
  exact ⟨_, rfl, Nat.lt_succ_self _, .queued hmem⟩

theorem Enforces.removeNode (id : Text) : (s.removeNode id).Enforces := by
  rw [Feature.removeNode]
  split
  · exact h
  split
  · exact h.disconnects id
  next hdefault =>
    dsimp only
    split
    · have htaken := modest_takeOut s id
      have hruns : (s.takeOut id).Runs := h.runs.same rfl rfl fun _ _ hediting => hediting
      exact hruns.restarts (htaken.known h.known) ⟨rfl, rfl, by rintro _ _ ⟨⟩⟩
        (.of_same (fun _ _ h => h) rfl)
    next hunused => exact h.takeOut hdefault (Bool.not_eq_true _ ▸ hunused)

theorem Enforces.nodeTurn : s.nodeTurn.Enforces := by
  rw [Feature.nodeTurn]
  split
  next edit edits hediting hedits =>
    have hpopped := modest_popNode hedits
    have hrest : Enforces { s with nodeEdits := edits } :=
      h.alike (hpopped.known h.known) rfl rfl (fun _ _ h => h) ⟨_, _, _, rfl⟩ rfl rfl rfl fun h => h
    cases edit with
    | add node => exact h.setNode hedits
    | select id => exact hrest.selectNode id
    | remove id =>
      dsimp only
      split
      · exact hrest
      · exact hrest.removeNode _
  · exact h

omit h in
theorem Runs.off_of_ready (h : s.Runs) {id : Text} {bound : Nat}
    (hediting : s.nodeEditing = some (.disconnecting id bound)) (hready : s.ready bound = true) :
    s.controller.Off := by
  obtain ⟨number, rfl, -, hfollowed⟩ := h.removal id bound hediting
  rw [ready, Bool.and_eq_true_iff, all_eq_true] at hready
  obtain ⟨hqueue, hrunning⟩ := hready
  cases hfollowed with
  | queued hmem => exact absurd (of_decide_eq_true (hqueue _ hmem)) (Nat.not_succ_le_self _)
  | stopping next hbusy =>
    rw [hbusy] at hrunning
    exact absurd (of_decide_eq_true hrunning) (Nat.not_succ_le_self _)
  | stopped hidle hlive => exact ⟨hlive, Controller.held_of_idle hidle⟩

theorem Enforces.nodeResumed : s.nodeResumed.Enforces := by
  rw [Feature.nodeResumed]
  split
  next bound hediting =>
    split
    · exact h.alike (Modest.known (s := s) (.saved (.of_same (fun _ _ h => h) rfl)) h.known) rfl rfl
        (by rintro _ _ ⟨⟩)
        ⟨_, _, _, rfl⟩ rfl rfl rfl id
    · exact h
  next id bound hediting =>
    split
    next hready =>
      have hdone : s.Modest { s with nodeEditing := none } :=
        .of_same (fun _ _ h => h) rfl
      refine ⟨(hdone.trans (modest_takeOut _ id)).known h.known,
        h.runs.same rfl rfl (by rintro _ _ ⟨⟩), ?_⟩
      exact told_of_leaves (.inr (h.runs.off_of_ready hediting hready))
    · exact h
  · split
    · exact h.alike (Modest.known (s := s) (.of_same (fun _ _ h => h) rfl) h.known) rfl rfl
        (by rintro _ _ ⟨⟩)
        ⟨_, _, _, rfl⟩ rfl rfl rfl id
    · exact h
  · exact h

/-! ### Targets -/

theorem Enforces.modest (hmodest : s.Modest s') (hcontroller : s'.controller = s.controller)
    (haccepted : s'.accepted = s.accepted) (hediting : s'.nodeEditing = s.nodeEditing)
    (hsettings : s'.settings = s.settings) (hrules : s'.ruleEditing = s.ruleEditing)
    (hdirect : s'.directEditing = s.directEditing) (hstore : s'.store = s.store)
    (hdue : s.Due → s'.Due) :
    s'.Enforces :=
  h.alike (hmodest.known h.known) hcontroller haccepted (fun _ _ heq => hediting ▸ heq)
    ⟨s.settings.remoteDns, s.settings.killSwitch, s.settings.wantConnected,
      hsettings⟩ hrules hdirect
    hstore hdue

end

theorem changeRules_withRules (vpn : Settings) (edit : RuleEdit) :
    (vpn.changeRules edit).withRules vpn.rules = vpn := by
  cases edit <;> rfl

theorem changeRules_rest (vpn : Settings) (edit : RuleEdit) :
    (vpn.changeRules edit).trafficMode = vpn.trafficMode ∧
      (vpn.changeRules edit).selectedVpnNode = vpn.selectedVpnNode ∧
        (vpn.changeRules edit).direct = vpn.direct := by
  cases edit <;> exact ⟨rfl, rfl, rfl⟩

theorem Runs.carried_nodes (h : s.Runs) (hb : s.Carries b) :
    s.controller.session.status.active = true ∧
      s.controller.session.nodes.map SessionNode.id = b.nodes.map SessionNode.id := by
  rcases hb with hheld | ⟨hlive, haccepted⟩
  · obtain ⟨hnodes, hactive⟩ := h.steady.nodes b hheld
    exact ⟨hactive, by rw [hnodes]⟩
  obtain ⟨b', hb', hnodes⟩ := h.accepted hlive
  rw [haccepted] at hb'
  cases hb'
  refine ⟨?_, by rw [hnodes]⟩
  by_contra hinactive
  exact Controller.not_live_of_inactive hinactive hlive

theorem Runs.carriesNodes_eq (h : s.Runs) (hb : s.Carries b) {nodes : List Node}
    (hnodes : s.carriesNodes nodes = true) :
    b.nodes.map SessionNode.id = nodes.map Node.id := by
  obtain ⟨hactive, hsession⟩ := h.carried_nodes hb
  rw [carriesNodes, hactive, Bool.not_true, Bool.false_or, decide_eq_true_iff] at hnodes
  exact hsession.symm.trans hnodes

theorem applyRules_live (hlive : s.controller.Live) (hsplit : s.settings.trafficMode = .split) :
    s.applyRules s.settings.sessionNodes = some s.settings.specs := if_pos ⟨hlive, hsplit⟩

theorem applyRules_off (hlive : ¬ s.controller.Live) (nodes : List Node) :
    s.applyRules nodes = none := if_neg fun h => hlive h.1

/-- An edit is made live, or changes nothing in the request of a start that is not through. -/
theorem Enforces.changeRules (h : s.Enforces) {edit : RuleEdit} {edits : List RuleEdit}
    (hediting : s.ruleEditing = none) (hedits : s.ruleEdits = edit :: edits)
    (hlimited : nodeSetLimited (s.settings.changeRules edit).sessionNodes = false)
    (hcarries : s.carriesNodes (s.settings.changeRules edit).sessionNodes = true)
    (htidy : s.Tidy .ruleTurn) {sent : Option (List RuleSpec)} (hsent : sent =
        applyRules { s with ruleEdits := edits, settings := s.settings.changeRules edit }
      (s.settings.changeRules edit).sessionNodes) :
    Enforces { s with
      ruleEdits := edits
      settings := s.settings.changeRules edit
      ruleEditing := some (.updating s.settings.rules sent) } := by
  obtain ⟨hmode, hselected, hdirect⟩ := changeRules_rest s.settings edit
  have hmodest := modest_changeRules hedits sent
  refine h.stay (hmodest.known h.known) rfl rfl (fun _ _ => id) fun hdying b hb hold => ?_
  have hnodes : b.nodes.map SessionNode.id = (s.settings.changeRules edit).sessionIds :=
    h.runs.carriesNodes_eq hb hcarries
  have hspec : ∀ direct, specOf { s with
      ruleEdits := edits
      settings := s.settings.changeRules edit
      ruleEditing := some (.updating s.settings.rules sent) } direct = s.specOf direct := by
    intro direct
    rw [specOf]
    rw [hselected]
    rfl
  refine ⟨hold.mode.trans hmode.symm, ?_, hnodes, fun hsplit => ?_,
    hold.direct.imp id fun hdir => ?_⟩
  · rw [hselected]
    exact hold.selected
  · have hwas : s.settings.trafficMode = .split := hmode.symm.trans hsplit
    by_cases hlive : s.controller.Live
    · have hnone := h.runs.not_held hlive b
      have hsome : sent = some (s.settings.changeRules edit).specs :=
        hsent.trans (applyRules_live (s := { s with
          ruleEdits := edits, settings := s.settings.changeRules edit }) hlive hsplit)
      subst hsome
      refine ⟨rfl, fun hheld => absurd hheld hnone, ?_⟩
      intro previous sent' heq
      cases heq
      refine ⟨?_, fun hheld => absurd hheld hnone⟩
      rw [changeRules_withRules]
      exact hold.nodes.symm.trans hnodes
    · have hheld := hb.held hlive
      have hnone : sent = none := hsent.trans (applyRules_off (s := { s with
        ruleEdits := edits, settings := s.settings.changeRules edit }) hlive _)
      subst hnone
      have hspecs := htidy b hheld hdying hwas hediting edit edits hedits hlimited hcarries
      exact ⟨hspecs.symm, fun _ => hspecs.symm, nofun⟩
  · refine ⟨hdir.last.trans ?_, fun hheld => (hdir.held hheld).trans ?_, ?_⟩
    · rw [spec_eq, spec_eq, hspec]
      rw [hdirect]
    · rw [spec_eq, spec_eq, hspec]
      rw [hdirect]
    · intro previous sent' heq hheld
      rw [hspec]
      exact hdir.back previous sent' heq hheld

theorem Enforces.ruleTurn (h : s.Enforces) (htidy : s.Tidy .ruleTurn) : s.ruleTurn.1.Enforces := by
  rw [Feature.ruleTurn]
  split
  next edit edits hediting hedits =>
    dsimp only
    split
    · exact h.modest (modest_popRule hedits) rfl rfl rfl rfl rfl rfl rfl id
    next hlimited =>
      split
      · have hchanged : s.Modest
            { s with ruleEdits := edits, settings := s.settings.changeRules edit } :=
          (modest_changeRules hedits none).trans (.of_same (fun _ _
              heq => by cases hediting.symm.trans heq) rfl)
        have hruns : Runs (save
            { s with ruleEdits := edits, settings := s.settings.changeRules edit }) :=
          h.runs.same rfl rfl fun _ _ => id
        exact hruns.restarts (hchanged.saved.known h.known)
          ⟨rfl, rfl, fun _ _ => id⟩ (.of_same (by rintro _ _ ⟨⟩) rfl)
      next hcarries =>
        rw [Bool.not_eq_true, Bool.not_eq_false'] at hcarries
        exact h.changeRules hediting hedits (Bool.eq_false_iff.2 hlimited) hcarries htidy rfl
  · exact h

theorem Enforces.accept (h : s.Enforces) (hknown : s'.Known) {f : Built Payload → Built Payload}
    (hf : ∀ b, (f b).nodes = b.nodes) (hcontroller : s'.controller = s.controller)
    (haccepted : s'.accepted = s.accepted.map f) (hediting : s'.nodeEditing = s.nodeEditing)
    (hheld : ∀ b, s.controller.held = some b → s.Told b → s'.Told b)
    (hlive : ∀ b, s.controller.Live → s.Told b → s'.Told (f b)) : s'.Enforces := by
  refine ⟨hknown, h.runs.same hcontroller ?_ fun _ _ heq => hediting ▸ heq, fun hdying b hb => ?_⟩
  · rw [haccepted, Option.map_map]
    exact congrArg s.accepted.map (funext hf)
  rw [hcontroller] at hdying
  rw [Carries, hcontroller, haccepted] at hb
  rcases hb with hholds | ⟨hruns, hmap⟩
  · exact hheld b hholds (h.told hdying b (.inl hholds))
  · obtain ⟨b', hb', rfl⟩ := Option.map_eq_some_iff.1 hmap
    exact hlive b' hruns (h.told hdying b' (.inr ⟨hruns, hb'⟩))

/-- The request with the targets the service was sent. -/
def withSent (sent : Option (List RuleSpec)) (b : Built Payload) : Built Payload :=
  { b with payload := { b.payload with rules := sent.getD b.payload.rules } }

theorem acceptRules_eq (s : Feature) (sent : Option (List RuleSpec)) :
    s.acceptRules sent = { s with accepted := s.accepted.map (withSent sent) } := by
  cases sent with
  | none =>
    show s = { s with accepted := s.accepted.map id }
    rw [Option.map_id]
    rfl
  | some rules => rfl

theorem DirectTold.same (h : s.DirectTold b) {b' : Built Payload}
    (hpayload : b'.payload.direct = b.payload.direct)
    (hspec : s'.specOf = s.specOf) (hdirect : s'.settings.direct = s.settings.direct)
    (hediting : s'.directEditing = s.directEditing)
    (hheld : s'.controller.held = some b' → s.controller.held = some b) : s'.DirectTold b' := by
  have heq : s'.spec = s.spec := by rw [spec_eq, spec_eq, hspec, hdirect]
  refine ⟨?_, fun hb => ?_, fun previous sent hsent hb => ?_⟩
  · rw [toldDirect, hediting, hpayload, heq]
    exact h.last
  · rw [hpayload, heq]
    exact h.held (hheld hb)
  · rw [hediting] at hsent
    rw [hpayload, hspec]
    exact h.back previous sent hsent (hheld hb)

theorem Enforces.rulesDone (h : s.Enforces) {sent : Option (List RuleSpec)}
    (hsent : ∀ b, s.toldRules b = sent.getD b.payload.rules) :
    Enforces { s.acceptRules sent with ruleEditing := none } := by
  have hmodest : s.Modest { s.acceptRules sent with ruleEditing := none } :=
    (modest_acceptRules s sent).trans (.of_same nofun rfl)
  have hknown := hmodest.known h.known
  rw [acceptRules_eq] at hknown ⊢
  refine h.accept (f := withSent sent) hknown (fun _ => rfl) rfl rfl rfl (fun b hb hold => ?_)
    fun b hlive hold => ?_
  · refine ⟨hold.mode, hold.selected, hold.nodes, fun hsplit => ?_,
      hold.direct.imp id fun hdir => ?_⟩
    · exact ⟨(hold.rules hsplit).held hb, fun _ => (hold.rules hsplit).held hb, nofun⟩
    · exact hdir.same rfl rfl rfl rfl id
  · have hnone := h.runs.not_held hlive
    refine ⟨hold.mode, hold.selected, hold.nodes, fun hsplit => ?_,
      hold.direct.imp id fun hdir => ?_⟩
    · refine ⟨?_, fun hheld => absurd hheld (hnone _), nofun⟩
      exact (hsent b).symm.trans (hold.rules hsplit).last
    · exact hdir.same rfl rfl rfl rfl fun hheld => absurd hheld (hnone _)

theorem restoreRules_editing (s : Feature) (previous : List Rule) :
    (s.restoreRules previous).1.ruleEditing = some (.restoring
      (applyRules { s with settings := s.settings.withRules previous }
        (s.settings.withRules previous).sessionNodes)) := rfl

theorem Enforces.restoreRules (h : s.Enforces) {previous : List Rule} {sent : List RuleSpec}
    (hediting : s.ruleEditing = some (.updating previous (some sent))) :
    (s.restoreRules previous).1.Enforces := by
  have hmodest : s.Modest (s.restoreRules previous).1 := by
    refine .of_fewer (fun id hmem => hmem) ?_ rfl rfl rfl rfl nofun
    rintro id ⟨rule, hmem, hnode⟩
    exact .previous previous _ hediting rule hmem hnode
  refine h.stay (hmodest.known h.known) rfl rfl (fun _ _ => id) fun hdying b hb hold => ?_
  have hids : (s.settings.withRules previous).sessionIds = s.settings.sessionIds := by
    by_cases hsplit : s.settings.trafficMode = .split
    · exact ((hold.rules hsplit).back previous sent hediting).1
    · exact Settings.sessionIds_withRules hsplit previous
  refine ⟨hold.mode, hold.selected, hold.nodes.trans hids.symm, fun hsplit => ?_,
    hold.direct.imp id fun hdir => ?_⟩
  · obtain ⟨-, hback⟩ := (hold.rules hsplit).back previous sent hediting
    by_cases hlive : s.controller.Live
    · have hnone := h.runs.not_held hlive b
      refine ⟨?_, fun hheld => absurd hheld hnone, nofun⟩
      rw [toldRules, restoreRules_editing,
        applyRules_live (s := { s with settings := s.settings.withRules previous }) hlive hsplit]
      rfl
    · have hheld := hb.held hlive
      refine ⟨?_, hback, nofun⟩
      rw [toldRules, restoreRules_editing,
        applyRules_off (s := { s with settings := s.settings.withRules previous }) hlive]
      exact hback hheld
  · exact hdir.same rfl rfl rfl rfl id

theorem Enforces.save (h : s.Enforces) : s.save.Enforces :=
  h.modest (modest_save s) rfl rfl rfl rfl rfl rfl rfl id

theorem toldRules_of_editing {sent : Option (List RuleSpec)}
    (h : (∃ previous, s.ruleEditing = some (.updating previous sent)) ∨
      s.ruleEditing = some (.restoring sent)) (b : Built Payload) :
    s.toldRules b = sent.getD b.payload.rules := by
  rw [toldRules]
  obtain ⟨previous, h⟩ | h := h <;> rw [h] <;> cases sent <;> rfl

theorem Enforces.ruleAnswered (h : s.Enforces) {ok : Bool}
    (hrestores : s.Restores (.ruleAnswered ok)) :
    (s.ruleAnswered ok).1.Enforces := by
  rw [Feature.ruleAnswered]
  split
  next previous sent hediting =>
    split
    · exact (h.rulesDone (toldRules_of_editing (.inl ⟨_, hediting⟩))).save
    next hfailed =>
      cases sent with
      | none =>
        rw [Option.isNone_none, Bool.or_true] at hfailed
        exact absurd rfl hfailed
      | some rules => exact h.restoreRules hediting
  next sent hediting =>
    rw [hrestores sent hediting]
    exact h.rulesDone (toldRules_of_editing (.inr hediting))
  · exact h

theorem Enforces.ruleResumed (h : s.Enforces) : s.ruleResumed.Enforces := by
  rw [Feature.ruleResumed]
  split
  next bound hediting =>
    split
    · refine h.stay (Modest.known (s := s) (.of_same (by rintro _ _ ⟨⟩) rfl) h.known) rfl rfl
        (fun _ _ => id)
        fun _ b _ hold => ?_
      refine ⟨hold.mode, hold.selected, hold.nodes, fun hsplit => ?_,
        hold.direct.imp id fun hdir => ?_⟩
      · have hrules := hold.rules hsplit
        refine ⟨?_, hrules.held, by rintro _ _ ⟨⟩⟩
        have hlast := hrules.last
        rw [toldRules, hediting] at hlast
        exact hlast
      · exact hdir.same rfl rfl rfl rfl id
    · exact h
  · exact h

/-! ### The direct list -/

theorem applyDirect_live (hlive : s.controller.Live) : s.applyDirect = some s.spec := if_pos hlive

theorem applyDirect_off (hlive : ¬ s.controller.Live) : s.applyDirect = none := if_neg hlive

theorem Told.direct_only (h : s.Told b) (hsettings : ∃ direct, s'.settings = { s.settings with
      direct := direct }) (hrules : s'.ruleEditing = s.ruleEditing)
    (hcontroller : s'.controller = s.controller) (hdirect : s'.Due ∨ s'.DirectTold b) :
    s'.Told b := by
  obtain ⟨direct, heq⟩ := hsettings
  refine ⟨?_, ?_, ?_, fun hsplit => ?_, hdirect⟩
  · rw [heq]
    exact h.mode
  · rw [heq]
    exact h.selected
  · rw [heq]
    exact h.nodes
  · rw [heq] at hsplit
    have hold := h.rules hsplit
    refine ⟨?_, ?_, ?_⟩
    · rw [toldRules, hrules, heq]
      exact hold.last
    · rw [hcontroller, heq]
      exact hold.held
    · rw [hcontroller, hrules, heq]
      exact hold.back

variable {sent : Option (Option DirectSpec)}

/-- An edit is made live, or changes nothing in the request of a start that is not through, or
another one is to follow. -/
theorem Enforces.changeDirect (h : s.Enforces) {edit : DirectEdit} {edits : List DirectEdit}
    (hediting : s.directEditing = none) (hedits : s.directEdits = edit :: edits)
    (htidy : s.Tidy .directTurn) (hsent : sent = applyDirect { s with
      directEdits := edits
      settings := { s.settings with direct := s.settings.direct.change edit } }) :
    Enforces { s with
      directEdits := edits
      settings := { s.settings with direct := s.settings.direct.change edit }
      directEditing := some (.updating s.settings.direct sent) } := by
  refine h.stay (Modest.known (s := s) (.of_same (fun _ _ h => h) rfl) h.known) rfl rfl
    (fun _ _ => id)
    fun hdying b hb hold => ?_
  refine hold.direct_only ⟨_, rfl⟩ rfl rfl ?_
  by_cases hlive : s.controller.Live
  · have hnone := h.runs.not_held hlive b
    have hsome : sent = some (s.specOf (s.settings.direct.change edit)) :=
      hsent.trans (applyDirect_live (s := { s with
        directEdits := edits
        settings := { s.settings with direct := s.settings.direct.change edit } }) hlive)
    subst hsome
    exact .inr ⟨rfl, fun hheld => absurd hheld hnone, fun _ _ _ hheld => absurd hheld hnone⟩
  have hheld := hb.held hlive
  have hnone : sent = none :=
    hsent.trans (applyDirect_off (s := { s with
      directEdits := edits
      settings := { s.settings with direct := s.settings.direct.change edit } }) hlive)
  subst hnone
  rcases htidy b hheld hdying hediting edit edits hedits with hmore | hdownloads | hspec
  · exact .inl (.inl hmore)
  · exact .inl (.inr hdownloads)
  · exact .inr ⟨hspec.symm, fun _ => hspec.symm, fun _ _ heq => nomatch heq⟩

theorem Enforces.directTurn (h : s.Enforces) (htidy : s.Tidy .directTurn) :
    s.directTurn.1.Enforces := by
  rw [Feature.directTurn]
  split
  next edit edits hediting hedits => exact h.changeDirect hediting hedits htidy rfl
  · exact h

/-- The request with the direct list the service was sent. -/
def withDirect (sent : Option (Option DirectSpec)) (b : Built Payload) : Built Payload :=
  { b with payload := { b.payload with direct := sent.getD b.payload.direct } }

theorem acceptDirect_eq (s : Feature) (sent : Option (Option DirectSpec)) :
    s.acceptDirect sent = { s with accepted := s.accepted.map (withDirect sent) } := by
  cases sent with
  | none =>
    show s = { s with accepted := s.accepted.map id }
    rw [Option.map_id]
    rfl
  | some direct => rfl

theorem Enforces.directDone (h : s.Enforces)
    (hsent : ∀ b, s.toldDirect b = sent.getD b.payload.direct) :
    Enforces { s.acceptDirect sent with directEditing := none } := by
  have hmodest : s.Modest { s.acceptDirect sent with directEditing := none } :=
    (modest_acceptDirect s sent).trans (.of_same (fun _ _ h => h) rfl)
  have hknown := hmodest.known h.known
  rw [acceptDirect_eq] at hknown ⊢
  refine h.accept (f := withDirect sent) hknown (fun _ => rfl) rfl rfl rfl (fun b hb hold => ?_)
    fun b hlive hold => ?_
  · refine hold.direct_only ⟨s.settings.direct, rfl⟩ rfl rfl (hold.direct.imp id fun hdir => ?_)
    exact ⟨hdir.held hb, fun _ => hdir.held hb, nofun⟩
  have hnone := h.runs.not_held hlive
  refine ⟨hold.mode, hold.selected, hold.nodes, fun hsplit => ?_, hold.direct.imp id fun hdir => ?_⟩
  · have hrules := hold.rules hsplit
    refine ⟨?_, fun hheld => absurd hheld (hnone _), fun previous sent' heq => ?_⟩
    · exact hrules.last
    · exact ⟨(hrules.back previous sent' heq).1, fun hheld => absurd hheld (hnone _)⟩
  · refine ⟨?_, fun hheld => absurd hheld (hnone _), nofun⟩
    exact (hsent b).symm.trans hdir.last

theorem Enforces.restoreDirect (h : s.Enforces) {previous : Direct} {sent : Option DirectSpec}
    (hediting : s.directEditing = some (.updating previous (some sent))) :
    Enforces { s with
      settings := { s.settings with direct := previous }
      directEditing := some (.restoring
        (applyDirect { s with settings := { s.settings with direct := previous } })) } := by
  refine h.stay (Modest.known (s := s) (.of_same (fun _ _ h => h) rfl) h.known) rfl rfl
    (fun _ _ => id)
    fun hdying b hb hold => ?_
  refine hold.direct_only ⟨previous, rfl⟩ rfl rfl (hold.direct.imp id fun hdir => ?_)
  by_cases hlive : s.controller.Live
  · have hnone := h.runs.not_held hlive b
    refine ⟨?_, fun hheld => absurd hheld hnone, nofun⟩
    rw [applyDirect_live (s := { s with settings := { s.settings with direct := previous } }) hlive]
    rfl
  have hheld := hb.held hlive
  have hback := hdir.back previous sent hediting hheld
  refine ⟨?_, fun _ => hback, nofun⟩
  rw [applyDirect_off (s := { s with settings := { s.settings with direct := previous } }) hlive]
  exact hback

theorem toldDirect_of_editing
    (h : (∃ previous, s.directEditing = some (.updating previous sent)) ∨
      s.directEditing = some (.restoring sent)) (b : Built Payload) :
    s.toldDirect b = sent.getD b.payload.direct := by
  rw [toldDirect]
  obtain ⟨previous, h⟩ | h := h <;> rw [h] <;> cases sent <;> rfl

theorem Enforces.directAnswered (h : s.Enforces) {ok : Bool}
    (hrestores : s.Restores (.directAnswered ok)) : (s.directAnswered ok).1.Enforces := by
  rw [Feature.directAnswered]
  split
  next previous sent hediting =>
    split
    · exact (h.directDone (toldDirect_of_editing (.inl ⟨_, hediting⟩))).save
    next hfailed =>
      cases sent with
      | none =>
        rw [Option.isNone_none, Bool.or_true] at hfailed
        exact absurd rfl hfailed
      | some direct => exact h.restoreDirect hediting
  next sent hediting =>
    rw [hrestores sent hediting]
    exact h.directDone (toldDirect_of_editing (.inr hediting))
  · exact h

theorem download_due (s : Feature) (d : Downloads) : (s.download d).Due := by
  rw [download]
  generalize (if d.strict then d.todo.dropWhile s.has else d.todo) = todo
  cases todo with
  | nil => exact .inl (append_ne_nil_of_right_ne_nil _ (cons_ne_nil _ _))
  | cons id todo => exact .inr (append_ne_nil_of_right_ne_nil _ (cons_ne_nil _ _))

section

variable (h : s.Enforces)
include h

theorem Enforces.commits (hcommits : s.Commits s')
    (hdirect : ¬ s.controller.Dying → ∀ b, s.Carries b → s'.Due ∨ s'.DirectTold b) :
    s'.Enforces := by
  have hknown := hcommits.modest.known h.known
  obtain ⟨directEdits, downloads, store, rfl⟩ := hcommits
  refine h.stay hknown rfl rfl (fun _ _ => id) fun hdying b hb hold => ?_
  exact hold.direct_only ⟨s.settings.direct, rfl⟩ rfl rfl (hdirect hdying b hb)

theorem Enforces.commit (edit : DirectEdit) : (s.commit edit).Enforces :=
  h.commits ⟨_, _, _, rfl⟩ fun _ _ _ =>
    .inl (.inl (append_ne_nil_of_right_ne_nil _ (cons_ne_nil _ _)))

theorem Enforces.download (d : Downloads) : (s.download d).Enforces :=
  h.commits (commits_download s d) fun _ _ _ => .inl (download_due s d)

theorem Enforces.downloaded {index : Nat} {entries : Option (List Text)}
    (htidy : s.Tidy (.downloaded index entries)) : (s.downloaded index entries).Enforces := by
  refine h.commits (commits_downloaded s index entries) fun hdying b hb => ?_
  rw [Feature.downloaded]
  cases hd : s.downloads[index]? with
  | none => exact (h.told hdying b hb).direct
  | some d =>
    cases htodo : d.todo with
    | nil =>
      dsimp only
      rw [htodo]
      exact (h.told hdying b hb).direct
    | cons id todo =>
      dsimp only
      rw [htodo]
      cases entries with
      | some entries => exact .inl (download_due _ _)
      | none =>
        dsimp only
        split
        next hstrict =>
          have hnot : d.todo ≠ [] := htodo ▸ cons_ne_nil _ _
          rcases htidy d hd hnot hstrict b hb hdying with hedits | hdownloads | htold
          · exact .inl (.inl hedits)
          · exact .inl (.inr hdownloads)
          · exact .inr (htold.same rfl rfl rfl rfl fun hheld => hheld)
        · exact .inl (download_due _ _)

/-! ## Steps and runs -/

theorem Enforces.setWanted (on : Bool) : (s.setWanted on).1.Enforces := by
  rw [Feature.setWanted]
  split
  · exact h
  have hwish : s.Modest { s with settings := { s.settings with wantConnected := on } } :=
    modest_settings s rfl rfl
  have hsaved : Enforces (Feature.save
      { s with settings := { s.settings with wantConnected := on } }) :=
    h.alike (hwish.saved.known h.known) rfl rfl (fun _ _ => id)
      ⟨_, _, _, rfl⟩ rfl rfl rfl id
  have hdriven := hsaved.call (e := if on then .connect else .disconnect) (by cases on <;> rfl)
  exact hdriven.modest (.of_same (fun _ _ h => h) rfl) rfl rfl rfl rfl rfl rfl
    rfl id

theorem Enforces.wantedResumed (index : Nat) : (s.wantedResumed index).Enforces := by
  rw [Feature.wantedResumed]
  split
  · exact h
  split
  · dsimp only
    split
    · exact h.alike (Modest.known (s := s) (.saved (.of_same (fun _ _ h => h) rfl)) h.known) rfl rfl
        (fun _ _ => id)
        ⟨_, _, _, rfl⟩ rfl rfl rfl id
    · exact h.modest (.of_same (fun _ _ h => h) rfl) rfl rfl rfl rfl rfl rfl
        rfl id
  · exact h

/-- Something that starts, or the answer it has waited for. -/
theorem Enforces.proceeds {env : Env}
    (he : e = .turn (s.surroundings env) ∨ ∃ result, e = .answered (s.surroundings env) result)
    (hresumes : ∀ env, e = .turn env → s.resumes = false)
    (hlive : s.controller.Live → accepted = s.accepted)
    (hstarted : ∀ env started work start b, e = .answered env (.ok started) →
      s.controller.running = some (work, .starting start b) → accepted = some b) (hdecided :
      s.Decided e env) :
    (({ s with accepted := accepted } : Feature).drive e).1.Enforces := by
  refine h.drive hresumes hlive hstarted fun env' b hbegins hevent hbuilds => ?_
  have henv : env' = s.surroundings env := by
    rcases he with rfl | ⟨result, rfl⟩
    · rcases hevent with heq | ⟨_, heq⟩
      · exact (VpnEvent.turn.inj heq).symm
      · cases heq
    · rcases hevent with heq | ⟨_, heq⟩
      · cases heq
      · exact (VpnEvent.answered.inj heq).1.symm
  rw [henv] at hbegins
  exact ⟨env, hbegins.2.2, hdecided hbuilds b hbegins⟩

omit h in
theorem acceptStart_live (h : s.Runs) (hlive : s.controller.Live)
    (result : Except ServiceError Started) : (s.acceptStart result).accepted = s.accepted := by
  unfold acceptStart
  split
  next work start built started hrunning =>
    have hheld : s.controller.held = some built := by
      rw [Controller.held, hrunning]
      rfl
    exact absurd hlive (h.steady.not_live hheld)
  · rfl

omit h in
theorem acceptStart_started {work start : Nat}
    (hrunning : s.controller.running = some (work, .starting start b)) (started : Started) :
    (s.acceptStart (.ok started)).accepted = some b := by
  unfold acceptStart
  rw [hrunning]

theorem Enforces.answered {env : Env} {result : Except ServiceError Started}
    (hdecided : s.Decided (.answered (s.surroundings env) result) env) :
    ((s.acceptStart result).drive (.answered (s.surroundings env) result)).1.Enforces := by
  obtain ⟨accepted, hsame⟩ := s.acceptStart_eq result
  have haccepted : (s.acceptStart result).accepted = accepted := by rw [hsame]
  rw [hsame]
  refine h.proceeds (.inr ⟨result, rfl⟩) (nofun)
    (fun hlive => haccepted.symm.trans (acceptStart_live h.runs hlive result)) ?_ hdecided
  intro env' started work start b hevent hrunning
  cases hevent
  exact haccepted.symm.trans (acceptStart_started hrunning started)

theorem Enforces.reconnects {settings : Settings} (hnodes : settings.nodes = s.settings.nodes)
    (hrules : settings.rules = s.settings.rules) :
    (saveAndReconnect { s with settings := settings }).Enforces := by
  have hset : s.Modest { s with settings := settings } :=
    modest_settings s (congrArg (List.map Node.id) hnodes) hrules
  have hruns : (Feature.save { s with settings := settings }).Runs :=
    h.runs.same rfl rfl fun _ _ => id
  exact hruns.restarts (hset.saved.known h.known) ⟨rfl, rfl, fun _ _ => id⟩
    (modest_drive _ _)

theorem enforces_launch (now : Nat) (direct : Direct) :
    (s.launch now direct).Enforces := by
  have hoff : (s.launch now direct).controller.Off := ⟨Bool.false_ne_true, rfl⟩
  refine ⟨(modest_launch s now direct).known h.known, ⟨Controller.steady_new _ now,
    Controller.ordered_new _ now, fun _ => .inr hoff, fun hlive => absurd hlive hoff.live, nofun⟩,
      ?_⟩
  exact told_of_leaves (.inr hoff)

end

theorem addRule_eq (lower : Text → Text) (s : Feature) (input : RuleInput) (id : Text) :
    ∃ edits, addRule lower s input id = { s with ruleEdits := edits } := by
  rw [addRule]
  split
  · exact ⟨s.ruleEdits, rfl⟩
  · split
    · exact ⟨s.ruleEdits, rfl⟩
    · exact ⟨_, rfl⟩

theorem setRuleNode_eq (s : Feature) (id : Text) (nodeId : Option Text) :
    ∃ edits, s.setRuleNode id nodeId = { s with ruleEdits := edits } := by
  rw [setRuleNode]
  split
  · exact ⟨s.ruleEdits, rfl⟩
  · split
    · exact ⟨s.ruleEdits, rfl⟩
    · exact ⟨_, rfl⟩

theorem enforces_step (h : s.Enforces) {e : FeatureEvent} (hrestores : s.Restores e)
    (htidy : s.Tidy e) : (s.step lower e).1.Enforces := by
  have hknown : (s.step lower e).1.Known := known_step h.known e
  cases e with
  | launch now direct => exact enforces_launch h now direct
  | setWanted on => exact h.setWanted on
  | wantedResumed index => exact h.wantedResumed index
  | reconsider | onResume | shutdown | pollTimer | pollAnswered now result | reconnectTimer =>
    exact h.call rfl
  | resume =>
    rw [step]
    split
    · exact h.call rfl
    · exact h
  | turn env =>
    rw [step]
    split
    · exact h
    next hresumes =>
      exact h.proceeds (.inl rfl)
        (fun _ _ => Bool.eq_false_iff.2 hresumes) (fun _ => rfl)
          (fun _ _ _ _ _ heq => by cases heq) htidy
  | answered env result => exact h.answered htidy
  | setTrafficMode mode =>
    rw [step]
    split
    · exact h
    · exact h.reconnects rfl rfl
  | setRemoteDns enabled | setKillSwitch enabled => exact h.reconnects rfl rfl
  | addNode node =>
    rw [step] at hknown ⊢
    split at hknown
    next hfresh =>
      rw [if_pos hfresh]
      exact h.alike hknown rfl rfl (fun _ _ h => h) ⟨_, _, _, rfl⟩ rfl rfl rfl fun h => h
    next hfresh =>
      rw [if_neg hfresh]
      exact h
  | selectNode | removeNode | setRuleEnabled | removeRule =>
    exact h.alike hknown rfl rfl (fun _ _ h => h) ⟨_, _, _, rfl⟩ rfl rfl rfl fun h => h
  | nodeTurn => exact h.nodeTurn
  | nodeResumed => exact h.nodeResumed
  | addRule input id =>
    rw [step] at hknown ⊢
    split
    next hfresh =>
      rw [if_pos hfresh] at hknown
      obtain ⟨edits, heq⟩ := addRule_eq lower { s with uuids := id :: s.uuids } input id
      rw [heq] at hknown ⊢
      exact h.alike hknown rfl rfl (fun _ _ h => h) ⟨_, _, _, rfl⟩ rfl rfl rfl fun h => h
    · exact h
  | setRuleNode id nodeId =>
    obtain ⟨edits, heq⟩ := s.setRuleNode_eq id nodeId
    rw [step] at hknown ⊢
    rw [heq] at hknown ⊢
    exact h.alike hknown rfl rfl (fun _ _ h => h) ⟨_, _, _, rfl⟩ rfl rfl rfl fun h => h
  | ruleTurn => exact h.ruleTurn htidy
  | ruleAnswered ok => exact h.ruleAnswered hrestores
  | ruleResumed => exact h.ruleResumed
  | setDirectEnabled enabled =>
    show (s.setDirectEnabled enabled).Enforces
    rw [setDirectEnabled]
    split
    · exact h.commit _
    · exact h.download _
  | setDirectList id on =>
    show (s.setDirectList id on).Enforces
    rw [setDirectList]
    split
    · exact h
    · split
      · exact h.download _
      · exact h.commit _
  | updateDirectLists ids => exact h.download _
  | addDirectEntry entry =>
    rw [step]
    split
    · exact h
    · exact h.commit _
  | setDirectEntryEnabled id enabled | removeDirectEntry id => exact h.commit _
  | downloaded index entries => exact h.downloaded htidy
  | directTurn => exact h.directTurn htidy
  | directAnswered ok => exact h.directAnswered hrestores

theorem enforces_new (now : Nat) : (new now).Enforces := by
  have hoff : (new now).controller.Off := ⟨Bool.false_ne_true, rfl⟩
  refine ⟨known_new now, ⟨Controller.steady_new _ now, Controller.ordered_new _ now,
    fun _ => .inr hoff, fun hlive => absurd hlive hoff.live, nofun⟩, told_of_leaves (.inr hoff)⟩

/-- The session runs with what is saved. -/
structure Enforced (s : Feature) (b : Built Payload) : Prop where
  accepted : s.accepted = some b
  nodes : s.controller.session.nodes = b.nodes
  rules : b.payload.rules =
    s.settings.vpnRuleSpecs (s.controller.session.nodes.map SessionNode.id)
  direct : b.payload.direct = s.spec
  /-- The place of a target's node is that of its `ruleNode`. -/
  places : ∀ rule ∈ s.settings.rules, rule.enabled = true →
    (s.controller.session.nodes.map SessionNode.id)[place
        (s.controller.session.nodes.map SessionNode.id) ((s.settings.ruleNode rule).map Node.id)]? =
      (s.settings.ruleNode rule).map Node.id

theorem Enforces.enforced (h : s.Enforces) (hsettled : s.Settled) (hlive : s.controller.Live) :
    ∃ b, s.accepted = some b ∧ (b.trafficMode = .split → s.Enforced b) := by
  obtain ⟨b, hb, hnodes⟩ := h.runs.accepted hlive
  have hdying : ¬ s.controller.Dying := by
    rintro (⟨work, hmem, -⟩ | ⟨work, next, after, hrunning⟩)
    · rw [hsettled.queue] at hmem
      cases hmem
    · rw [hsettled.running] at hrunning
      cases hrunning
  have htold := h.told hdying b (.inr ⟨hlive, hb⟩)
  refine ⟨b, hb, fun hsplit => ?_⟩
  have hmode : s.settings.trafficMode = .split := htold.mode.symm.trans hsplit
  have hids : s.controller.session.nodes.map SessionNode.id = s.settings.sessionIds := by
    rw [hnodes]
    exact htold.nodes
  have hrules := (htold.rules hmode).last
  rw [toldRules, hsettled.ruleEditing] at hrules
  obtain ⟨fallback, hfallback⟩ := Option.isSome_iff_exists.1 htold.selected
  refine ⟨hb, hnodes, ?_, ?_, fun rule hmem henabled => ?_⟩
  · rw [hids]
    exact hrules
  · rcases htold.direct with (hedits | hdownloads) | hdirect
    · exact absurd hsettled.directEdits hedits
    · exact absurd hsettled.downloads hdownloads
    · have hlast := hdirect.last
      rw [toldDirect, hsettled.directEditing] at hlast
      exact hlast
  · rw [hids]
    exact Settings.place_eq hfallback hmode hmem henabled

end Parts

/-- In a run of tidy steps in which the service takes edits back when it is asked to, whenever
nothing is queued or in flight and the session is connected or degraded in split mode, the targets
and the direct list the service has accepted are those that are saved, and each enabled target goes
through its node. -/
theorem session_enforces (lower : Text → Text) (now : Nat) (es : List FeatureEvent)
    (hrun : Meets (step lower) (fun c e => c.state.Restores e ∧ c.state.Tidy e) ⟨new now, []⟩ es)
    (hsettled : (exec (step lower) (new now) es).state.Settled)
    (hlive : (exec (step lower) (new now) es).state.controller.session.status.live = true) :
    ∃ b, (exec (step lower) (new now) es).state.accepted = some b ∧
      (b.trafficMode = .split → (exec (step lower) (new now) es).state.Enforced b) := by
  have henforces : (exec (step lower) (new now) es).state.Enforces :=
    execFrom_invariant_of_meets (I := fun c => c.state.Enforces)
      (fun _ _ hok h => enforces_step h hok.1 hok.2) es _ hrun (enforces_new now)
  exact henforces.enforced hsettled hlive

/-! ### Concrete runs -/

/-- No edit has its turn while a start holds its request, none is in flight when a work goes on, and
the service refuses nothing. -/
def calm : FeatureEvent → Bool
  | .ruleTurn | .directTurn => s.controller.held.isNone
  | .turn _ | .answered _ _ => s.ruleEditing.isNone && s.directEditing.isNone
  | .ruleAnswered ok | .directAnswered ok => ok
  | .downloaded _ entries => entries.isSome
  | _ => true

theorem tidy_of_calm {s : Feature} {e : FeatureEvent} (h : s.calm e = true) :
    s.Restores e ∧ s.Tidy e := by
  have hdecided : ∀ (event : VpnEvent Payload) (env : Env),
      (s.ruleEditing.isNone && s.directEditing.isNone) = true → s.Decided event env := by
    intro event env hidle _ b _
    rw [Bool.and_eq_true_iff, Option.isNone_iff_eq_none, Option.isNone_iff_eq_none] at hidle
    refine ⟨fun _ => ?_, .inr ?_⟩
    · rw [RulesDecided, hidle.1]
      trivial
    · rw [DirectDecided, hidle.2]
      trivial
  cases e with
  | ruleTurn | directTurn =>
    refine ⟨trivial, fun b hheld => ?_⟩
    rw [calm, hheld] at h
    cases h
  | turn | answered => exact ⟨trivial, hdecided _ _ h⟩
  | ruleAnswered ok | directAnswered ok => exact ⟨fun _ _ => h, trivial⟩
  | downloaded index entries =>
    cases entries with
    | none => cases h
    | some entries => exact ⟨trivial, trivial⟩
  | _ => exact ⟨trivial, trivial⟩

/-- A target is added while the VPN is connected. -/
theorem session_enforces_live :
    ∃ b, (exec (step asciiLower) (new 0) (connects ++ [.addRule (website ['y'] none) ['s'],
        .ruleTurn, .ruleAnswered true])).state.accepted = some b ∧
      (b.trafficMode = .split → (exec (step asciiLower) (new 0) (connects ++
        [.addRule (website ['y'] none) ['s'], .ruleTurn,
          .ruleAnswered true])).state.Enforced b) := by
  have hcalm : Meets (step asciiLower) (fun c e => c.state.calm e = true) ⟨new 0, []⟩
      (connects ++ [.addRule (website ['y'] none) ['s'], .ruleTurn, .ruleAnswered true]) := by
    decide +kernel
  exact session_enforces asciiLower 0 _ (hcalm.imp fun _ _ h => tidy_of_calm h)
    (by constructor <;> decide +kernel) (by decide +kernel)

/-- The direct list has a site and is on, and the VPN is connecting: its request is built. -/
def connecting : List FeatureEvent :=
  [.addNode ⟨['a'], ['a'], .wireguard, [], true⟩, .nodeTurn,
    .addRule (website ['x'] none) ['r'], .ruleTurn, .ruleAnswered true,
    .addDirectEntry ⟨['e'], .domain, ['d'], true⟩, .directTurn, .directAnswered true,
    .setDirectEnabled true, .directTurn, .directAnswered true,
    .setWanted true, .turn calmEnv, .answered calmEnv (.ok ⟨true, ⟨true, [true]⟩⟩)]

/-- The VPN connects. -/
def connectsNow : List FeatureEvent :=
  [.answered calmEnv (.ok ⟨true, ⟨true, [true]⟩⟩), .wantedResumed 0]

/-- A target that is added, and a direct list that is turned off, while the VPN connects: both are
saved, and the session goes on without. -/
theorem session_does_not_enforce :
    let added := (exec (step asciiLower) (new 0) (connecting ++
      [.addRule (website ['y'] none) ['s'], .ruleTurn, .ruleAnswered true] ++ connectsNow)).state
    let turnedOff := (exec (step asciiLower) (new 0) (connecting ++
      [.setDirectEnabled false, .directTurn, .directAnswered true] ++ connectsNow)).state
    (added.Settled ∧ added.controller.session.status = .connected ∧
      added.settings.trafficMode = .split ∧
      added.accepted.map (fun b => b.payload.rules) ≠
        some (added.settings.vpnRuleSpecs (added.controller.session.nodes.map SessionNode.id))) ∧
    turnedOff.Settled ∧ turnedOff.controller.session.status = .connected ∧
      turnedOff.settings.trafficMode = .split ∧
      turnedOff.accepted.map (fun b => b.payload.direct) ≠ some turnedOff.spec := by
  refine ⟨⟨⟨?_, ?_, ?_, ?_, ?_, ?_, ?_, ?_, ?_, ?_⟩, ?_, ?_, ?_⟩,
    ⟨?_, ?_, ?_, ?_, ?_, ?_, ?_, ?_, ?_, ?_⟩, ?_, ?_, ?_⟩
  all_goals decide +kernel

end Feature

end GamePath.Electron.Vpn
