import GamePath.Engine.DirectSystem

/-!
# Direct routes under concurrent learning and replacement

Three steps of the system can leave the routes and the learned addresses at odds with the list: an
address learned under a list that a replacement has already pruned for another, or under a question
the list does not match; a stale range of one address removed while that address is learned; and a
learned address dropped while its route is also an installed range's. In every run without such
steps the routes are accounted for when all threads have ended: `direct_routes_consistent`.
-/

namespace GamePath.Engine.Direct.System

open Lib List KeyedMap
open DirectList (Prefix)
open DirectRouter (keeps storedName)
open DirectRouter (create hasRoom learnAddress publish)

/-! ## The condition -/

/-- The list the learned addresses were last pruned for: the one being published, if there is one.
-/
def newest (s : System) : DirectList :=
  match s.replacing with
  | .pruned list => list
  | _ => s.router.list

/-- The prefix whose route is removed and that is still among the installed. -/
def pending (s : System) : Option Prefix :=
  match s.installing with
  | .erasing _ _ _ p => some p
  | _ => none

/-- A call of `learn` is about to add an address only if the newest list matches the question of its
reply and does not contain the address. -/
def learnsCurrent (s : System) (call : Learning) (address : Octets) : Bool :=
  !(s.router.eligible call.list address && s.router.hasRoom address) ||
    keeps s.newest address (storedName call.packet)

/-- The step does not do one of the three things that go wrong. -/
def careful (s : System) : Event → Bool
  | .learnNext thread =>
    match s.learning[thread]? with
    | some call => call.addresses.head?.all fun address => s.learnsCurrent call address
    | none => true
  | .removeRoute p => s.router.learned.entries.all fun e => p ≠ (e.1, 32)
  | .replace spec =>
    s.router.learned.entries.all fun e =>
      keeps (DirectList.compileFor spec s.router.protectedAddresses) e.1 e.2 ||
        (e.1, 32) ∉ s.router.installed || s.pending = some (e.1, 32)
  | _ => true

/-- The state after a run of events, each of them possible. -/
def run : System → List Event → Option System
  | s, [] => some s
  | s, event :: events => (s.step event).bind fun s => s.run events

/-- Every step of a run is careful. -/
def carefulRun : System → List Event → Bool
  | _, [] => true
  | s, event :: events =>
    s.careful event &&
      match s.step event with
      | some s => s.carefulRun events
      | none => true

/-! ## The invariant -/

/-- Every route is one of an installed prefix, unless it is being removed, or of a learned address;
and the newest list keeps every learned address. -/
structure Accounted (s : System) : Prop where
  routes : ∀ p, p ∈ s.router.routes ↔
    (p ∈ s.router.installed ∧ s.pending ≠ some p) ∨ ∃ e ∈ s.router.learned.entries, p = (e.1, 32)
  kept : ∀ e ∈ s.router.learned.entries, keeps s.newest e.1 e.2 = true

theorem accounted_start (spec : DirectSpec) (protectedAddresses : List Octets) :
    (start spec protectedAddresses).Accounted := by
  constructor
  · intro p
    simp [start, create, KeyedMap.empty]
  · intro e he
    cases he

section Steps

variable {s s' : System}

theorem Accounted.of_same (h : s.Accounted) (hroutes : s'.router.routes = s.router.routes)
    (hinstalled : s'.router.installed = s.router.installed)
    (hlearned : s'.router.learned = s.router.learned)
    (hpending : s'.pending = s.pending) (hnewest : s'.newest = s.newest) : s'.Accounted := by
  constructor
  · rw [hroutes, hinstalled, hlearned, hpending]
    exact h.routes
  · rw [hlearned, hnewest]
    exact h.kept

/-- An address that the newest list keeps is learned with its route. -/
theorem Accounted.insert (h : s.Accounted) {address : Octets} {name : Text}
    (hkeeps : keeps s.newest address name = true)
    (hroutes : s'.router.routes = Insert.insert (address, 32) s.router.routes)
    (hinstalled : s'.router.installed = s.router.installed)
    (hlearned : s'.router.learned = s.router.learned.insert address name)
    (hnew : s.router.learned.get? address = none)
    (hpending : s'.pending = s.pending) (hnewest : s'.newest = s.newest) : s'.Accounted := by
  have hentries : ∀ e, e ∈ s'.router.learned.entries ↔
      e = (address, name) ∨ e ∈ s.router.learned.entries := by
    intro e
    rw [hlearned, mem_insert]
    constructor
    · rintro (rfl | ⟨he, -⟩)
      · exact .inl rfl
      · exact .inr he
    · rintro (rfl | he)
      · exact .inl rfl
      · exact .inr ⟨he, get?_eq_none_iff.1 hnew e he⟩
  constructor
  · intro p
    rw [hroutes, hinstalled, hpending, Finset.mem_insert, h.routes p]
    constructor
    · rintro (rfl | hinstalled | ⟨e, he, rfl⟩)
      · exact .inr ⟨(address, name), (hentries _).2 (.inl rfl), rfl⟩
      · exact .inl hinstalled
      · exact .inr ⟨e, (hentries e).2 (.inr he), rfl⟩
    · rintro (hinstalled | ⟨e, he, rfl⟩)
      · exact .inr (.inl hinstalled)
      · rcases (hentries e).1 he with rfl | he
        · exact .inl rfl
        · exact .inr (.inr ⟨e, he, rfl⟩)
  · intro e he
    rw [hnewest]
    rcases (hentries e).1 he with rfl | he
    · exact hkeeps
    · exact h.kept e he

theorem Accounted.learnNext (h : s.Accounted) {thread : Nat}
    (hcareful : s.careful (.learnNext thread) = true) (hstep : s.learnNext thread = some s') :
    s'.Accounted := by
  unfold System.learnNext at hstep
  cases hcall : s.learning[thread]? with
  | none =>
    rw [hcall] at hstep
    cases hstep
  | some call =>
    rw [hcall] at hstep
    cases haddresses : call.addresses with
    | nil => simp [haddresses] at hstep
    | cons address rest =>
      simp only [haddresses, Option.some.injEq] at hstep
      subst hstep
      simp only [careful, hcall, haddresses, head?_cons, Option.all_some, learnsCurrent]
        at hcareful
      by_cases hadd : (s.router.eligible call.list address && s.router.hasRoom address) = true
      · -- The address is added with its route.
        rw [hadd] at hcareful
        have hrouter : learnAddress call.list call.packet (fun _ => true) s.router
            address = { s.router with
              routes := Insert.insert (address, 32) s.router.routes
              learned := s.router.learned.insert address (storedName call.packet) } := by
          rw [learnAddress]
          rw [hadd]
          rfl
        have hnew : s.router.learned.get? address = none := by
          simp only [Bool.and_eq_true, hasRoom, Option.isNone_iff_eq_none] at hadd
          exact hadd.2.1.2
        apply h.insert hcareful
        · simp only [hrouter]
        · simp only [hrouter]
        · simp only [hrouter]
        · exact hnew
        · rfl
        · simp only [newest, hrouter]
      · have hrouter : learnAddress call.list call.packet (fun _ => true) s.router
            address = s.router := by
          rw [learnAddress, if_neg]
          simpa using hadd
        apply h.of_same
        · simp only [hrouter]
        · simp only [hrouter]
        · simp only [hrouter]
        · rfl
        · simp only [newest, hrouter]

theorem Accounted.prune (h : s.Accounted) {list : DirectList}
    (hcareful : ∀ e ∈ s.router.learned.entries, keeps list e.1 e.2 = true ∨
      (e.1, 32) ∉ s.router.installed ∨ s.pending = some (e.1, 32)) :
    Accounted { s with router := s.router.prune list, replacing := .pruned list } := by
  have hmem : ∀ e, e ∈ (s.router.prune list).learned.entries ↔
      e ∈ s.router.learned.entries ∧ keeps list e.1 e.2 = true := fun e => mem_retain
  have hdropped : ∀ p, p ∈ s.router.droppedRoutes list ↔
      ∃ e ∈ s.router.learned.entries, keeps list e.1 e.2 = false ∧ p = (e.1, 32) := by
    intro p
    simp only [DirectRouter.droppedRoutes, mem_toFinset, mem_map, mem_filter,
      Bool.not_eq_true', and_assoc, eq_comm (b := p)]
  constructor
  · intro p
    show p ∈ s.router.routes \ s.router.droppedRoutes list ↔ _
    rw [Finset.mem_sdiff, h.routes p, hdropped]
    constructor
    · rintro ⟨hinstalled | ⟨e, he, rfl⟩, hnot⟩
      · exact .inl hinstalled
      · refine .inr ⟨e, (hmem e).2 ⟨he, ?_⟩, rfl⟩
        by_contra hkeeps
        exact hnot ⟨e, he, by simpa using hkeeps, rfl⟩
    rintro (⟨hinstalled, hpending⟩ | ⟨e, he, rfl⟩)
    · refine ⟨.inl ⟨hinstalled, hpending⟩, ?_⟩
      rintro ⟨e, he, hdrop, rfl⟩
      rcases hcareful e he with hkeeps | hout | hpend
      · rw [hkeeps] at hdrop
        cases hdrop
      · exact hout hinstalled
      · exact hpending hpend
    obtain ⟨he, hkeeps⟩ := (hmem e).1 he
    refine ⟨.inr ⟨e, he, rfl⟩, ?_⟩
    rintro ⟨e', he', hdrop, heq⟩
    -- An address has one entry, so the one that is kept is not dropped.
    have hsame : e = e' := by
      obtain ⟨address, name⟩ := e
      cases heq
      rw [eq_of_mem_of_mem _ he he']
    rw [hsame, hdrop] at hkeeps
    cases hkeeps
  · intro e he
    exact ((hmem e).1 he).2

theorem Accounted.replaceStep (h : s.Accounted) {event : Event}
    (hcareful : s.careful event = true) (hstep : s.replaceStep s.replacing event = some s') :
    s'.Accounted := by
  unfold System.replaceStep at hstep
  split at hstep
  · rename_i spec hidle
    cases hstep
    apply h.prune
    intro e he
    simpa only [careful, Bool.or_eq_true, decide_eq_true_eq, or_assoc] using
      all_eq_true.1 hcareful e he
  · rename_i list hpruned
    cases hstep
    refine h.of_same rfl rfl rfl rfl ?_
    simp [newest, hpruned, publish]
  · rename_i hpublished
    cases hstep
    refine h.of_same rfl rfl rfl rfl ?_
    simp [newest, hpublished, DirectRouter.bump]
  · rename_i generation hjoining
    split at hstep
    · rename_i hended
      cases hstep
      refine h.of_same rfl rfl rfl ?_ ?_
      · simp [pending, hended]
      · simp [newest, hjoining]
    · cases hstep
  · cases hstep

variable {installing : Installing}

theorem Accounted.moveOn (h : s.Accounted) (hbefore : s.pending = none)
    (hafter : pending { s with installing := installing } = none) :
    Accounted { s with installing := installing } :=
  h.of_same rfl rfl rfl (hafter.trans hbefore.symm) rfl

theorem Accounted.removeRoute (h : s.Accounted) {p : Prefix} {generation : Nat}
    {wanted stale : Finset Prefix} (hbefore : s.pending = none)
    (hcareful : s.careful (.removeRoute p) = true) :
    Accounted { s with
      router := s.router.removeRoute p
      installing := .erasing generation wanted stale p } := by
  have hnot : ∀ e ∈ s.router.learned.entries, p ≠ (e.1, 32) := by
    intro e he
    simpa using all_eq_true.1 hcareful e he
  constructor
  · intro q
    show q ∈ s.router.routes.erase p ↔ _
    rw [Finset.mem_erase, h.routes q, hbefore]
    constructor
    · rintro ⟨hne, ⟨hinstalled, -⟩ | hlearned⟩
      · exact .inl ⟨hinstalled, fun hpending => hne (Option.some.inj hpending).symm⟩
      · exact .inr hlearned
    · rintro (⟨hinstalled, hpending⟩ | ⟨e, he, rfl⟩)
      · refine ⟨?_, .inl ⟨hinstalled, by simp⟩⟩
        rintro rfl
        exact hpending rfl
      · exact ⟨(hnot e he).symm, .inr ⟨e, he, rfl⟩⟩
  · exact h.kept

theorem Accounted.uninstall (h : s.Accounted) {p : Prefix} (hbefore : s.pending = some p)
    (hafter : pending { s with installing := installing } = none) :
    Accounted { s with router := s.router.uninstall p, installing := installing } := by
  have hnone : pending { s with router := s.router.uninstall p, installing := installing } =
      none := hafter
  constructor
  · intro q
    rw [hnone]
    show q ∈ s.router.routes ↔ (q ∈ s.router.installed.erase p ∧ _) ∨ _
    rw [h.routes q, hbefore, Finset.mem_erase]
    constructor
    · rintro (⟨hinstalled, hpending⟩ | hlearned)
      · refine .inl ⟨⟨?_, hinstalled⟩, by simp⟩
        rintro rfl
        exact hpending rfl
      · exact .inr hlearned
    · rintro (⟨⟨hne, hinstalled⟩, -⟩ | hlearned)
      · exact .inl ⟨hinstalled, fun hpending => hne (Option.some.inj hpending).symm⟩
      · exact .inr hlearned
  · exact h.kept

theorem Accounted.installPrefix (h : s.Accounted) {p : Prefix} (hbefore : s.pending = none)
    (hafter : pending { s with installing := installing } = none) :
    Accounted { s with
      router := DirectRouter.installPrefix (fun _ => true) s.router p
      installing := installing } := by
  have hnone : pending { s with
      router := DirectRouter.installPrefix (fun _ => true) s.router p
      installing := installing } = none := hafter
  constructor
  · intro q
    rw [hnone]
    show q ∈ Insert.insert p s.router.routes ↔
      (q ∈ Insert.insert p s.router.installed ∧ _) ∨ _
    rw [Finset.mem_insert, Finset.mem_insert, h.routes q, hbefore]
    constructor
    · rintro (rfl | ⟨hinstalled, -⟩ | hlearned)
      · exact .inl ⟨.inl rfl, by simp⟩
      · exact .inl ⟨.inr hinstalled, by simp⟩
      · exact .inr hlearned
    · rintro (⟨rfl | hinstalled, -⟩ | hlearned)
      · exact .inl rfl
      · exact .inr (.inl ⟨hinstalled, by simp⟩)
      · exact .inr (.inr hlearned)
  · exact h.kept

theorem Accounted.installStep (h : s.Accounted) {event : Event}
    (hcareful : s.careful event = true) (hstep : s.installStep s.installing event = some s') :
    s'.Accounted := by
  unfold System.installStep at hstep
  split at hstep
  · rename_i hat
    cases hstep
    exact h.moveOn (by simp [pending, hat]) (by simp [pending])
  · rename_i hat
    cases hstep
    exact h.moveOn (by simp [pending, hat]) (by simp [pending])
  · rename_i hat
    split at hstep
    · cases hstep
      exact h.removeRoute (by simp [pending, hat]) hcareful
    · cases hstep
  · rename_i hat
    cases hstep
    exact h.uninstall (by simp [pending, hat]) (by simp [pending])
  · rename_i hat
    split at hstep
    · cases hstep
      exact h.moveOn (by simp [pending, hat]) (by simp [pending])
    · cases hstep
  · rename_i hat
    split at hstep
    · split at hstep
      · cases hstep
        exact h.moveOn (by simp [pending, hat]) (by simp [pending])
      · cases hstep
        exact h.moveOn (by simp [pending, hat]) (by simp [pending])
    · cases hstep
  · rename_i hat
    split at hstep
    · cases hstep
      exact h.moveOn (by simp [pending, hat]) (by simp [pending])
    · cases hstep
      exact h.moveOn (by simp [pending, hat]) (by simp [pending])
  · rename_i hat
    cases hstep
    exact h.installPrefix (by simp [pending, hat]) (by simp [pending])
  · rename_i hat
    split at hstep
    · cases hstep
      exact h.moveOn (by simp [pending, hat]) (by simp [pending])
    · cases hstep
  · cases hstep

theorem Accounted.step (h : s.Accounted) {event : Event} (hcareful : s.careful event = true)
    (hstep : s.step event = some s') : s'.Accounted := by
  cases event with
  | learn packet =>
    cases hstep
    exact h.of_same rfl rfl rfl rfl rfl
  | learnNext thread => exact h.learnNext hcareful hstep
  | replace | publish | bump | spawn => exact h.replaceStep hcareful hstep
  | readList | findStale | removeRoute | uninstall | removed | check | look | add | added =>
    exact h.installStep hcareful hstep

end Steps

/-! ## Runs -/

theorem Accounted.run (events : List Event) :
    ∀ {s s' : System}, s.Accounted → s.carefulRun events = true → s.run events = some s' →
      s'.Accounted := by
  induction events with
  | nil =>
    intro s s' h _ hrun
    cases hrun
    exact h
  | cons event events ih =>
    intro s s' h hcareful hrun
    rw [System.run, Option.bind_eq_some_iff] at hrun
    obtain ⟨s₁, hstep, hrest⟩ := hrun
    simp only [carefulRun, hstep, Bool.and_eq_true] at hcareful
    exact ih (h.step hcareful.1 hstep) hcareful.2 hrest

theorem Accounted.consistent {s : System} (h : s.Accounted) (hfinished : s.Finished) :
    s.Consistent := by
  obtain ⟨-, hidle, hended⟩ := hfinished
  have hpending : s.pending = none := by simp [pending, hended]
  have hnewest : s.newest = s.router.list := by simp [newest, hidle]
  have hkept := h.kept
  simp only [hnewest, keeps, Bool.and_eq_true, Bool.not_eq_true'] at hkept
  refine ⟨?_, fun e he => (hkept e he).1, fun e he => (hkept e he).2⟩
  intro p
  rw [h.routes p, hpending]
  simp

/-- In every careful run of learning, replacing and installing threads, once all of them have ended
the kernel's routes are those of the installed prefixes and the learned addresses, and the list
matches the name of every learned address and contains none of them. -/
theorem direct_routes_consistent (spec : DirectSpec) (protectedAddresses : List Octets)
    (events : List Event) (s : System) (hrun : (start spec protectedAddresses).run events = some s)
    (hcareful : (start spec protectedAddresses).carefulRun events = true)
    (hfinished : s.Finished) : s.Consistent := by
  have h := Accounted.run events (accounted_start spec protectedAddresses) hcareful hrun
  exact h.consistent hfinished

/-! ### Examples -/

/-- A reply to the question `b`, which has the address 1.1.1.1. -/
def exampleReply : Bytes :=
  [0x45, 0, 0, 0, 0, 0, 0x40, 0, 64, 17, 0, 0, 8, 8, 8, 8, 10, 0, 0, 2] ++
    [0, 53, 0xd4, 0x31, 0, 0, 0, 0] ++ [0, 0, 0x80, 0, 0, 1, 0, 1, 0, 0, 0, 0] ++ [1, 98, 0, 0,
      1, 0, 1] ++
    [0xc0, 12, 0, 1, 0, 1, 0, 0, 0, 60, 0, 4, 1, 1, 1, 1]

/-- The list of the name `b`. -/
def nameSpec : DirectSpec := ⟨[], [['b']]⟩

/-- The list of the address 1.1.1.1. -/
def rangeSpec : DirectSpec := ⟨[['1', '.', '1', '.', '1', '.', '1']], []⟩

/-- A refresh whose installer finds nothing stale and nothing wanted. -/
def idleRefresh : List Event := [.bump, .spawn, .readList, .findStale, .removed, .added]

/-- An address is learned, and the list is replaced by the same one, which keeps it. -/
theorem direct_routes_consistent_learned :
    ∃ s, (start nameSpec []).run (idleRefresh ++
        [.learn exampleReply, .learnNext 0, .replace nameSpec, .publish] ++ idleRefresh) = some s ∧
      s.router.routes = {((1, 1, 1, 1), 32)} ∧ s.Consistent := by
  let events := idleRefresh ++
    [.learn exampleReply, .learnNext 0, .replace nameSpec, .publish] ++ idleRefresh
  let s := ((start nameSpec []).run events).get (by decide +kernel)
  have hrun : (start nameSpec []).run events = some s := by simp [s]
  refine ⟨s, hrun, by decide +kernel, ?_⟩
  exact direct_routes_consistent nameSpec [] events s hrun (by decide +kernel) (by decide +kernel)

/-- An install of the range of 1.1.1.1. -/
def rangeInstall : List Event :=
  [.spawn, .readList, .findStale, .removed, .check ((1, 1, 1, 1), 32), .look, .add, .added]

/-- The address is added after the list that no longer has its name was published. -/
def lateLearn : List Event :=
  idleRefresh ++ [.learn exampleReply, .replace ⟨[], []⟩, .publish] ++ idleRefresh ++ [.learnNext 0]

/-- The address is learned under the list with its name while its range of before is still
installed, and then the stale range is removed. -/
def staleRange : List Event :=
  .bump :: rangeInstall ++
    [.replace nameSpec, .publish, .bump, .learn exampleReply, .learnNext 0, .spawn, .readList,
      .findStale, .removeRoute ((1, 1, 1, 1), 32), .uninstall, .removed, .added]

/-- The address is learned while its range is still installed, and the next list has the range
again: the route goes with the learned address, and the range counts as installed. -/
def droppedRange : List Event :=
  .bump :: rangeInstall ++
    [.replace nameSpec, .publish, .bump, .learn exampleReply, .learnNext 0, .spawn,
      .replace rangeSpec, .publish, .bump, .readList, .findStale, .removed,
        .check ((1, 1, 1, 1), 32), .spawn, .readList,
      .findStale, .removed, .check ((1, 1, 1, 1), 32), .look, .added]

/-- Without the condition runs end at odds with the list: with an address learned for a name that is
not listed, with a learned address that has no route, and with an installed range that has none. -/
theorem direct_routes_inconsistent :
    (∃ s, (start nameSpec []).run lateLearn = some s ∧ s.Finished ∧
      ((1, 1, 1, 1), ['b']) ∈ s.router.learned.entries ∧
      s.router.list.matchesName ['b'] = false ∧ ¬ s.Consistent) ∧
    (∃ s, (start rangeSpec []).run staleRange = some s ∧ s.Finished ∧
      ((1, 1, 1, 1), ['b']) ∈ s.router.learned.entries ∧
      s.router.routes = ∅ ∧ ¬ s.Consistent) ∧
    ∃ s, (start rangeSpec []).run droppedRange = some s ∧ s.Finished ∧
      s.router.installed = {((1, 1, 1, 1), 32)} ∧ s.router.routes = ∅ ∧ ¬ s.Consistent := by
  refine ⟨?_, ?_, ?_⟩
  · let s := ((start nameSpec []).run lateLearn).get (by decide +kernel)
    have hmem : ((1, 1, 1, 1), ['b']) ∈ s.router.learned.entries := by decide +kernel
    have hname : s.router.list.matchesName ['b'] = false := by decide +kernel
    refine ⟨s, by simp [s], by decide +kernel, hmem, hname, ?_⟩
    intro h
    have hlisted := h.named _ hmem
    cases hlisted
  · let s := ((start rangeSpec []).run staleRange).get (by decide +kernel)
    have hmem : ((1, 1, 1, 1), ['b']) ∈ s.router.learned.entries := by decide +kernel
    have hroutes : s.router.routes = ∅ := by decide +kernel
    refine ⟨s, by simp [s], by decide +kernel, hmem, hroutes, ?_⟩
    intro h
    have hroute := (h.routes ((1, 1, 1, 1), 32)).2 (.inr ⟨_, hmem, rfl⟩)
    rw [hroutes] at hroute
    simp at hroute
  · let s := ((start rangeSpec []).run droppedRange).get (by decide +kernel)
    have hinstalled : s.router.installed = {((1, 1, 1, 1), 32)} := by decide +kernel
    have hroutes : s.router.routes = ∅ := by decide +kernel
    refine ⟨s, by simp [s], by decide +kernel, hinstalled, hroutes, ?_⟩
    intro h
    have hroute := (h.routes ((1, 1, 1, 1), 32)).2 (.inl (by rw [hinstalled]; simp))
    rw [hroutes] at hroute
    simp at hroute

end GamePath.Engine.Direct.System
