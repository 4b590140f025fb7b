import GamePath.Electron.VpnFeature

/-!
# Edits of the direct list, one at a time

`setEnabled` takes the lists before it waits for their download, and writes them in its turn; an
added value is looked up before the turn too. Where each finds in its turn what it found before,
what is saved is what the edits that succeeded come to, made one after the other
(`direct_edits_serial`).
-/

namespace GamePath.Electron.Vpn

open Engine.Direct (Text)
open Lib Run

namespace Direct

/-- The lists that the feature is turned on with. -/
def wantedLists (direct : Direct) : List Text :=
  if !direct.lists.isEmpty || !direct.entries.isEmpty then direct.lists else catalog.map Prod.fst

/-- An entry of the same kind and value is there. -/
def listed (direct : Direct) (entry : DirectEntry) : Bool :=
  direct.entries.any fun item => item.kind = entry.kind && item.value = entry.value

/-- An edit that is made with no other at work. One that adds an entry which is there fails. -/
def perform (direct : Direct) : DirectEdit → Option Direct
  | .enable _ => some (direct.change (.enable direct.wantedLists))
  | .addEntry entry => if direct.listed entry then none else some (direct.change (.addEntry entry))
  | edit => some (direct.change edit)

/-- An edit finds what it found before it had its turn. -/
def Current (direct : Direct) : DirectEdit → Prop
  | .enable lists => lists = direct.wantedLists
  | .addEntry entry => direct.listed entry = false
  | _ => True

theorem Current.perform {direct : Direct} {edit : DirectEdit} (h : direct.Current edit) :
    direct.perform edit = some (direct.change edit) := by
  cases edit with
  | enable lists =>
    cases h
    rfl
  | addEntry entry =>
    rw [Direct.perform, h]
    rfl
  | disable | setList | setEntryEnabled | removeEntry | keep => rfl

end Direct

/-- The section, with the edit that has its turn and the edits that have reported success. -/
structure Tracked where
  feature : Feature
  current : Option DirectEdit
  succeeded : List DirectEdit

namespace Tracked

def step (lower : Text → Text) (t : Tracked) (e : FeatureEvent) : Tracked × List Request :=
  let after := t.feature.step lower e
  match e, t.feature.directEditing with
  | .directTurn, none =>
    ({ t with feature := after.1, current := t.feature.directEdits.head? }, after.2)
  | .directAnswered ok, some (.updating _ sent) =>
    ({ t with
      feature := after.1
      succeeded := if ok || sent.isNone then t.succeeded ++ t.current.toList else t.succeeded },
      after.2)
  | _, _ => ({ t with feature := after.1 }, after.2)

/-- An edit of the direct list, which finds in its turn what it found before. -/
def Meets (c : Config Tracked FeatureEvent (List Request)) (e : FeatureEvent) : Prop :=
  (e.commits = true ∨ e = .directTurn ∨ ∃ ok, e = .directAnswered ok) ∧
    (e = .directTurn → ∀ edit edits, c.state.feature.directEdits = edit :: edits →
    c.state.feature.settings.direct.Current edit)

/-- What is saved is what the edits that succeeded come to. -/
structure Serial (start : Direct) (t : Tracked) : Prop where
  saved : t.succeeded.foldlM Direct.perform start = some t.feature.disk.settings.direct
  idle : (∀ previous sent, t.feature.directEditing ≠ some (.updating previous sent)) →
    t.feature.settings.direct = t.feature.disk.settings.direct
  updating : ∀ previous sent, t.feature.directEditing = some (.updating previous sent) →
    previous = t.feature.disk.settings.direct ∧
      ∃ edit, t.current = some edit ∧ previous.perform edit = some t.feature.settings.direct

variable {lower : Text → Text} {start : Direct} {t : Tracked}

theorem Serial.directTurn (h : Serial start t)
    (hcurrent : ∀ edit edits, t.feature.directEdits = edit :: edits →
    t.feature.settings.direct.Current edit) : Serial start (t.step lower .directTurn).1 := by
  cases hediting : t.feature.directEditing with
  | some editing =>
    have hstep : (t.step lower .directTurn).1 = t := by
      simp only [step, Feature.step, Feature.directTurn, hediting]
    rw [hstep]
    exact h
  | none =>
    have hidle := h.idle (by simp [hediting])
    cases hedits : t.feature.directEdits with
    | nil =>
      have hstep : (t.step lower .directTurn).1 = { t with current := none } := by
        simp only [step, Feature.step, Feature.directTurn, hediting, hedits]
        rfl
      rw [hstep]
      exact ⟨h.saved, h.idle, fun previous sent heq => by cases hediting.symm.trans heq⟩
    | cons edit edits =>
      have hperform := (hcurrent edit edits hedits).perform
      simp only [step, Feature.step, Feature.directTurn, hediting, hedits]
      refine ⟨h.saved, fun hnot => absurd rfl (hnot _ _), ?_⟩
      rintro previous sent heq
      cases heq
      exact ⟨hidle, edit, rfl, hperform⟩

theorem Serial.directAnswered (h : Serial start t) (ok : Bool) :
    Serial start (t.step lower (.directAnswered ok)).1 := by
  cases hediting : t.feature.directEditing with
  | none =>
    have hstep : (t.step lower (.directAnswered ok)).1 = t := by
      simp only [step, Feature.step, Feature.directAnswered, hediting]
    rw [hstep]
    exact h
  | some editing =>
    cases editing with
    | restoring sent =>
      simp only [step, Feature.step, Feature.directAnswered, hediting]
      have hidle := h.idle (by simp [hediting])
      cases ok with
      | false => exact ⟨h.saved, fun _ => hidle, by rintro _ _ ⟨⟩⟩
      | true => cases sent <;> exact ⟨h.saved, fun _ => hidle, by rintro _ _ ⟨⟩⟩
    | updating previous sent =>
      obtain ⟨hprevious, edit, hcurrent, hperform⟩ := h.updating previous sent hediting
      simp only [step, Feature.step, Feature.directAnswered, hediting, hcurrent]
      by_cases hok : (ok || sent.isNone) = true
      · -- The edit stays, and is saved.
        rw [if_pos hok, if_pos hok]
        have hsaved : (t.succeeded ++ [edit]).foldlM Direct.perform start =
            some t.feature.settings.direct := by
          rw [List.foldlM_append, h.saved, ← hprevious]
          simpa using hperform
        cases sent <;> exact ⟨hsaved, fun _ => rfl, by rintro _ _ ⟨⟩⟩
      · -- The copy is put back.
        rw [if_neg hok, if_neg hok]
        exact ⟨h.saved, fun _ => hprevious, by rintro _ _ ⟨⟩⟩

theorem Serial.advance {c : Config Tracked FeatureEvent (List Request)} {e : FeatureEvent}
    (hok : Meets c e)
    (h : Serial start c.state) : Serial start (advance (step lower) c e).state := by
  obtain ⟨hcommits | rfl | ⟨ok, rfl⟩, hcurrent⟩ := hok
  · obtain ⟨directEdits, downloads, store, heq⟩ : c.state.feature.Commits
      (c.state.feature.step lower e).1 :=
      c.state.feature.step_commits hcommits
    have hstep : (step lower c.state e).1 =
        { c.state with feature := (c.state.feature.step lower e).1 } := by
      cases e <;> first | rfl | cases hcommits
    show Serial start (step lower c.state e).1
    rw [hstep, heq]
    exact ⟨h.saved, h.idle, h.updating⟩
  · exact h.directTurn (hcurrent rfl)
  · exact h.directAnswered ok

end Tracked

/-- The section starts with nothing in its turn and its list saved. -/
theorem direct_edits_serial (lower : Text → Text) (s : Feature) (hidle : s.directEditing = none)
    (hsaved : s.settings.direct = s.disk.settings.direct) (events : List FeatureEvent)
    (hmeets : Run.Meets (Tracked.step lower) Tracked.Meets ⟨⟨s, none, []⟩, []⟩ events) :
    let t := (exec (Tracked.step lower) ⟨s, none, []⟩ events).state
    t.succeeded.foldlM Direct.perform s.settings.direct = some t.feature.disk.settings.direct ∧
      (t.feature.directEditing = none → t.feature.settings.direct =
        t.feature.disk.settings.direct) := by
  have hserial := execFrom_invariant_of_meets
    (I := fun c => Tracked.Serial s.settings.direct c.state)
    (fun c e hok h => h.advance hok) events ⟨⟨s, none, []⟩, []⟩ hmeets
    ⟨congrArg some hsaved, fun _ => hsaved, fun _ _ h => nomatch (hidle.symm.trans h)⟩
  refine ⟨hserial.saved, fun hnone => hserial.idle ?_⟩
  intro previous sent heq
  cases hnone.symm.trans heq

/-- The addresses are on the list and not downloaded, and the sites are downloaded. -/
def addressesOnly : Feature :=
  let settings := { defaultVpn with direct := ⟨false, ["ir-ip".toList], []⟩ }
  { Feature.new 0 with settings, disk := ⟨settings, []⟩, store := [("ir-sites".toList, [])] }

/-- A session is connected, so that the service is asked about each edit. -/
def addressesLive : Feature :=
  let { controller, .. } := addressesOnly
  { addressesOnly with controller :=
    { controller with session := { controller.session with status := .connected } } }

/-- The feature is turned on. While the addresses are downloaded a site is added, which the service
refuses, and the sites are put on the list. -/
def overlapping : List FeatureEvent :=
  [.setDirectEnabled true, .addDirectEntry ⟨"site".toList, .domain, "a.ir".toList, true⟩,
    .directTurn,
    .downloaded 0 (some []), .setDirectList "ir-sites".toList true, .directAnswered false,
      .directAnswered true,
    .directTurn, .directAnswered true, .directTurn, .directAnswered true]

/-- Both edits that succeeded are saved, and the one that was refused is not. -/
theorem direct_edits_serial_overlapping :
    let t := (exec (Tracked.step id) ⟨addressesLive, none, []⟩ overlapping).state
    t.succeeded = [.enable ["ir-ip".toList], .setList "ir-sites".toList true] ∧
      t.feature.disk.settings.direct = ⟨true, ["ir-ip".toList, "ir-sites".toList], []⟩ ∧
      t.succeeded.foldlM Direct.perform addressesLive.settings.direct =
        some t.feature.disk.settings.direct := by
  refine ⟨by decide, by decide, (direct_edits_serial id addressesLive rfl rfl overlapping ?_).1⟩
  refine ⟨⟨.inl rfl, nofun⟩, ⟨.inl rfl, nofun⟩,
    ⟨.inr (.inl rfl), fun _ edit edits h => by cases h; rfl⟩,
    ⟨.inl rfl, nofun⟩, ⟨.inl rfl, nofun⟩, ⟨.inr (.inr ⟨_, rfl⟩), nofun⟩,
      ⟨.inr (.inr ⟨_, rfl⟩), nofun⟩,
    ⟨.inr (.inl rfl), fun _ edit edits h => by cases h; rfl⟩, ⟨.inr (.inr ⟨_, rfl⟩), nofun⟩,
    ⟨.inr (.inl rfl), fun _ edit edits h => by cases h; trivial⟩, ⟨.inr (.inr ⟨_, rfl⟩), nofun⟩,
      trivial⟩

/-- The feature is turned on, the sites are put on the list while the addresses are downloaded, and
are lost. -/
theorem list_lost_to_enable :
    let t := (exec (Tracked.step id) ⟨addressesOnly, none, []⟩
      [.setDirectEnabled true, .setDirectList "ir-sites".toList true, .directTurn,
        .directAnswered true,
        .downloaded 0 (some []), .directTurn, .directAnswered true]).state
    t.feature.disk.settings.direct = ⟨true, ["ir-ip".toList], []⟩ ∧
      ∀ order : List DirectEdit, order.Perm t.succeeded →
        order.foldlM Direct.perform addressesOnly.settings.direct ≠
          some t.feature.disk.settings.direct := by
  refine ⟨by decide, fun order horder => ?_⟩
  replace horder := List.mem_permutations'.2 horder
  revert order
  decide +kernel

end GamePath.Electron.Vpn
