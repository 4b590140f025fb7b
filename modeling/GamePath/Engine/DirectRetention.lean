import GamePath.Lib.Run
import GamePath.Engine.DirectRoutes

/-!
# Applying the same direct list again

A reply is admitted when any name of its answer chain is listed, and its addresses are stored with
the question's name. `replace` drops the addresses whose stored name the new list does not match, so
with the list they were learned under it keeps all of them exactly when every reply that added an
address has a listed question: `same_list_forgets_nothing`.
-/

namespace GamePath.Engine.Direct.DirectRouter

open Lib List KeyedMap DirectList Run
open DirectList (Prefix)

/-! ## Learning -/

/-- A DNS reply, and which routes the kernel takes while it is learned from. -/
structure Reply where
  packet : Bytes
  routed : Octets → Bool

/-- One reply is learned from. -/
def learnStep (router : DirectRouter) (reply : Reply) : DirectRouter × Unit :=
  (router.learn reply.packet reply.routed, ())

/-- A list of addresses has one that is added. -/
def AddsOneOf (router : DirectRouter) (list : DirectList) (routed : Octets → Bool)
    (addresses : List Octets) : Prop :=
  ∃ address ∈ addresses,
    (router.eligible list address && router.hasRoom address && routed address) = true

/-- Learning from the reply adds an address: one that the answer gives, that is eligible and not yet
learned while there is room, and whose route the kernel takes. -/
def Adds (router : DirectRouter) (reply : Reply) : Prop :=
  router.AddsOneOf router.list reply.routed (answers router.list reply.packet)

/-- If the reply adds an address, the list matches its question. -/
def NamedByQuestion (c : Config DirectRouter Reply Unit) (reply : Reply) : Prop :=
  c.state.Adds reply → c.state.list.matchesName (storedName reply.packet) = true

/-- The list matches the name stored with every learned address. -/
def AllNamed (router : DirectRouter) (list : DirectList) : Prop :=
  ∀ e ∈ router.learned.entries, list.matchesName e.2 = true

section Learn

variable {router : DirectRouter} {list : DirectList} {packet : Bytes} {routed : Octets → Bool}
variable {address : Octets}

theorem learnAddress_eq_self
    (h : ¬ (router.eligible list address && router.hasRoom address && routed address) = true) :
    learnAddress list packet routed router address = router :=
  if_neg h

theorem get?_of_hasRoom (h : router.hasRoom address = true) :
    router.learned.get? address = none := by
  simp only [hasRoom, Bool.and_eq_true, Option.isNone_iff_eq_none] at h
  exact h.1.2

/-- After the loop every stored name is listed exactly when it was so before and, if the loop adds
an address, the question is listed too. -/
theorem allNamed_learnAddresses (list : DirectList) (packet : Bytes) (routed : Octets → Bool)
    (addresses : List Octets) :
    ∀ router : DirectRouter,
      (addresses.foldl (learnAddress list packet routed) router).AllNamed list ↔
        router.AllNamed list ∧
          (router.AddsOneOf list routed addresses →
            list.matchesName (storedName packet) = true) := by
  induction addresses with
  | nil =>
    intro router
    simp [AddsOneOf]
  | cons address addresses ih =>
    intro router
    rw [foldl_cons, ih]
    by_cases hadd : (router.eligible list address && router.hasRoom address &&
        routed address) = true
    · have hnone : router.learned.get? address = none := by
        simp only [Bool.and_eq_true] at hadd
        exact get?_of_hasRoom hadd.1.2
      have hnamed : (learnAddress list packet routed router address).AllNamed list ↔
          list.matchesName (storedName packet) = true ∧ router.AllNamed list := by
        rw [learnAddress, if_pos hadd]
        constructor
        · intro h
          refine ⟨h _ (mem_insert.2 (.inl rfl)), ?_⟩
          intro e he
          refine h e (mem_insert.2 (.inr ⟨he, ?_⟩))
          rintro rfl
          rw [get?_eq_none_iff] at hnone
          exact hnone _ he rfl
        · rintro ⟨hname, h⟩ e he
          rcases mem_insert.1 he with rfl | ⟨he, -⟩
          · exact hname
          · exact h e he
      rw [hnamed]
      constructor
      · rintro ⟨⟨hname, h⟩, -⟩
        exact ⟨h, fun _ => hname⟩
      · rintro ⟨h, hname⟩
        have hname := hname ⟨address, mem_cons_self, hadd⟩
        exact ⟨⟨hname, h⟩, fun _ => hname⟩
    · rw [learnAddress_eq_self hadd]
      have hsame : router.AddsOneOf list routed (address :: addresses) ↔
          router.AddsOneOf list routed addresses := by
        unfold AddsOneOf
        rw [exists_mem_cons_iff]
        exact or_iff_right hadd
      rw [hsame]

/-- What learning under a list keeps: the list and the protected addresses, routes for the learned
addresses, none of which the list contains, and nothing installed that the list does not want. -/
structure Steady (list : DirectList) (protectedAddresses : List Octets) (router : DirectRouter) :
    Prop where
  sameList : router.list = list
  sameProtected : router.protectedAddresses = protectedAddresses
  routed : ∀ e ∈ router.learned.entries, (e.1, 32) ∈ router.routes
  outside : ∀ e ∈ router.learned.entries, list.contains e.1 = false
  wanted : ∀ p ∈ router.installed, p ∈ list.prefixes

variable {protectedAddresses : List Octets}

theorem Steady.learnAddress (h : router.Steady list protectedAddresses) (packet : Bytes)
    (routed : Octets → Bool) (address : Octets) :
    (learnAddress list packet routed router address).Steady list protectedAddresses := by
  unfold DirectRouter.learnAddress
  split
  · rename_i hadd
    simp only [Bool.and_eq_true, eligible, Bool.not_eq_eq_eq_not, Bool.not_true] at hadd
    obtain ⟨⟨⟨⟨-, houtside⟩, -⟩, -⟩, -⟩ := hadd
    refine ⟨h.sameList, h.sameProtected, ?_, ?_, h.wanted⟩
    · intro e he
      rcases mem_insert.1 he with rfl | ⟨he, -⟩
      · exact Finset.mem_insert_self _ _
      · exact Finset.mem_insert_of_mem (h.routed e he)
    · intro e he
      rcases mem_insert.1 he with rfl | ⟨he, -⟩
      · exact houtside
      · exact h.outside e he
  · exact h

theorem Steady.learn (h : router.Steady list protectedAddresses) (packet : Bytes)
    (routed : Octets → Bool) :
    (router.learn packet routed).Steady list protectedAddresses := by
  unfold DirectRouter.learn
  rw [h.sameList]
  generalize answers list packet = addresses
  induction addresses generalizing router with
  | nil => exact h
  | cons address addresses ih => exact ih (h.learnAddress packet routed address)

theorem allNamed_exec_iff (replies : List Reply) :
    ∀ c : Config DirectRouter Reply Unit, c.state.Steady list protectedAddresses →
      ((execFrom learnStep c replies).state.AllNamed list ↔
        c.state.AllNamed list ∧ Meets learnStep NamedByQuestion c replies) := by
  induction replies with
  | nil =>
    intro c _
    simp [Meets]
  | cons reply replies ih =>
    intro c h
    have hstep : (advance learnStep c reply).state.AllNamed list ↔
        c.state.AllNamed list ∧ NamedByQuestion c reply := by
      have hall := allNamed_learnAddresses list reply.packet reply.routed
        (answers list reply.packet) c.state
      rw [advance_state]
      simp only [learnStep, DirectRouter.learn, NamedByQuestion, Adds, h.sameList]
      exact hall
    have hnext : (advance learnStep c reply).state.Steady list protectedAddresses :=
      h.learn reply.packet reply.routed
    rw [execFrom_cons, ih _ hnext, hstep, and_assoc]
    rfl

end Learn

/-! ## Installing and replacing -/

section Replace

variable {router : DirectRouter} {list : DirectList}

/-- Adding prefixes leaves the learned addresses, and takes no route away. -/
theorem installPrefixes_facts (added : Prefix → Bool) (ps : List Prefix) :
    ∀ router : DirectRouter,
      (ps.foldl (installPrefix added) router).learned = router.learned ∧
        (ps.foldl (installPrefix added) router).list = router.list ∧
        (ps.foldl (installPrefix added) router).protectedAddresses = router.protectedAddresses ∧
        (∀ p ∈ router.routes, p ∈ (ps.foldl (installPrefix added) router).routes) ∧
        ∀ p ∈ (ps.foldl (installPrefix added) router).installed, p ∈ router.installed ∨ p ∈ ps := by
  induction ps with
  | nil =>
    intro router
    exact ⟨rfl, rfl, rfl, fun _ => id, fun _ h => .inl h⟩
  | cons p ps ih =>
    intro router
    obtain ⟨hlearned, hlist, hkept, hroutes, hinstalled⟩ := ih (installPrefix added router p)
    rw [foldl_cons]
    by_cases hadded : added p = true
    · rw [installPrefix, if_pos hadded] at *
      refine ⟨hlearned, hlist, hkept, ?_, ?_⟩
      · intro q hq
        exact hroutes q (Finset.mem_insert_of_mem hq)
      intro q hq
      rcases hinstalled q hq with hq | hq
      · rcases Finset.mem_insert.1 hq with rfl | hq
        · exact .inr mem_cons_self
        · exact .inl hq
      · exact .inr (mem_cons_of_mem _ hq)
    rw [installPrefix, if_neg hadded] at *
    refine ⟨hlearned, hlist, hkept, hroutes, ?_⟩
    intro q hq
    rcases hinstalled q hq with hq | hq
    · exact .inl hq
    · exact .inr (mem_cons_of_mem _ hq)

theorem learned_install (router : DirectRouter) (added : Prefix → Bool) :
    (router.install added).learned = router.learned :=
  (installPrefixes_facts added _ _).1

theorem routes_subset_install (hwanted : ∀ p ∈ router.installed, p ∈ router.list.prefixes)
    (added : Prefix → Bool) {p : Prefix} (hp : p ∈ router.routes) :
    p ∈ (router.install added).routes := by
  apply (installPrefixes_facts added _ _).2.2.2.1
  refine Finset.mem_sdiff.2 ⟨hp, ?_⟩
  intro hstale
  obtain ⟨hinstalled, hnot⟩ := Finset.mem_filter.1 hstale
  exact hnot (hwanted p hinstalled)

theorem installed_install {added : Prefix → Bool} {p : Prefix}
    (hp : p ∈ (router.install added).installed) : p ∈ router.list.prefixes := by
  rcases (installPrefixes_facts added _ _).2.2.2.2 p hp with hp | hp
  · obtain ⟨hinstalled, hfresh⟩ := Finset.mem_sdiff.1 hp
    by_contra hnot
    exact hfresh (Finset.mem_filter.2 ⟨hinstalled, hnot⟩)
  · exact (mem_filter.1 hp).1

theorem steady_start (spec : DirectSpec) (protectedAddresses : List Octets)
    (added : Prefix → Bool) :
    (start spec protectedAddresses added).Steady
      (compileFor spec protectedAddresses) protectedAddresses := by
  have hlearned : (start spec protectedAddresses added).learned = KeyedMap.empty :=
    learned_install _ added
  have hempty : (start spec protectedAddresses added).learned.entries = [] := by
    rw [hlearned]
    rfl
  refine ⟨?_, ?_, ?_, ?_, fun p hp => installed_install hp⟩
  · exact (installPrefixes_facts added _ _).2.1
  · exact (installPrefixes_facts added _ _).2.2.1
  · rw [hempty]
    simp
  · rw [hempty]
    simp

/-- Nothing was forgotten: the learned map is the same, and each learned address is routed as it
was. -/
structure ForgetsNothing (router router' : DirectRouter) : Prop where
  learned : router'.learned = router.learned
  routes : ∀ e ∈ router.learned.entries,
    ((e.1, 32) ∈ router'.routes ↔ (e.1, 32) ∈ router.routes)

theorem retain_eq_self_iff {m : KeyedMap Octets Text} {keep : Octets → Text → Bool} :
    m.retain keep = m ↔ ∀ e ∈ m.entries, keep e.1 e.2 = true := by
  obtain ⟨entries, hnodup⟩ := m
  simp only [KeyedMap.retain, KeyedMap.mk.injEq]
  exact filter_eq_self

theorem Steady.replace_same {protectedAddresses : List Octets} {spec : DirectSpec}
    (h : router.Steady (compileFor spec protectedAddresses) protectedAddresses)
    (added : Prefix → Bool) :
    router.ForgetsNothing (router.replace spec added) ↔
      router.AllNamed (compileFor spec protectedAddresses) := by
  have hkeeps : ∀ e ∈ router.learned.entries,
      (keeps (compileFor spec protectedAddresses) e.1 e.2 = true ↔
        (compileFor spec protectedAddresses).matchesName e.2 = true) := by
    intro e he
    simp [keeps, h.outside e he]
  have hlearned : (router.replace spec added).learned =
      router.learned.retain (keeps (compileFor spec protectedAddresses)) := by
    rw [replace, learned_install, h.sameProtected]
    rfl
  constructor
  · intro hforgets e he
    have hsame := hforgets.learned
    rw [hlearned, retain_eq_self_iff] at hsame
    exact (hkeeps e he).1 (hsame e he)
  intro hnamed
  have hall : ∀ e ∈ router.learned.entries,
      keeps (compileFor spec protectedAddresses) e.1 e.2 = true :=
    fun e he => (hkeeps e he).2 (hnamed e he)
  refine ⟨hlearned.trans (retain_eq_self_iff.2 hall), ?_⟩
  intro e he
  have hbefore := h.routed e he
  refine iff_of_true ?_ hbefore
  rw [replace, h.sameProtected]
  apply routes_subset_install
  · exact h.wanted
  -- Nothing is dropped, so pruning takes no route away.
  refine Finset.mem_sdiff.2 ⟨hbefore, ?_⟩
  intro hdropped
  simp only [droppedRoutes, mem_toFinset, mem_map, mem_filter] at hdropped
  obtain ⟨e', ⟨he', hnot⟩, -⟩ := hdropped
  rw [hall e' he'] at hnot
  cases hnot

end Replace

/-- Applying the direct list again forgets nothing exactly when the list matches the question of
every reply that added an address. -/
theorem same_list_forgets_nothing (spec : DirectSpec) (protectedAddresses : List Octets)
    (added added' : Prefix → Bool) (replies : List Reply) :
    let router := (exec learnStep (start spec protectedAddresses added) replies).state
    router.ForgetsNothing (router.replace spec added') ↔
      Meets learnStep NamedByQuestion ⟨start spec protectedAddresses added, []⟩ replies := by
  intro router
  have hstart := steady_start spec protectedAddresses added
  have hsteady : router.Steady (compileFor spec protectedAddresses)
      protectedAddresses := by
    have hstep : ∀ (c : Config DirectRouter Reply Unit) (reply : Reply),
        c.state.Steady (compileFor spec protectedAddresses) protectedAddresses →
        (advance learnStep c reply).state.Steady
          (compileFor spec protectedAddresses) protectedAddresses := by
      intro c reply h
      exact h.learn reply.packet reply.routed
    exact exec_invariant
      (I := fun c : Config DirectRouter Reply Unit => c.state.Steady _ protectedAddresses)
      hstart hstep replies
  have hnamed : (start spec protectedAddresses added).AllNamed
      (compileFor spec protectedAddresses) := by
    have hempty : (start spec protectedAddresses added).learned = KeyedMap.empty :=
      learned_install _ added
    intro e he
    rw [hempty] at he
    cases he
  rw [hsteady.replace_same]
  have hrun := allNamed_exec_iff replies ⟨start spec protectedAddresses added, []⟩ hstart
  exact hrun.trans (and_iff_right hnamed)

/-- A reply to the question `a`, an alias of `b`, which has the address 1.1.1.1. -/
def aliasReply : Reply where
  packet :=
    -- The IPv4 and UDP headers, the DNS header, the question, the alias and the address.
    [0x45, 0, 0, 0, 0, 0, 0x40, 0, 64, 17, 0, 0, 8, 8, 8, 8, 10, 0, 0, 2] ++
      [0, 53, 0xd4, 0x31, 0, 0, 0, 0] ++ [0, 0, 0x80, 0, 0, 1, 0, 2, 0, 0, 0, 0] ++ [1, 97, 0, 0,
        1, 0, 1] ++
      [0xc0, 12, 0, 5, 0, 1, 0, 0, 0, 60, 0, 3, 1, 98, 0] ++
      [1, 98, 0, 0, 1, 0, 1, 0, 0, 0, 60, 0, 4, 1, 1, 1, 1]
  routed := fun _ => true

/-- With `b` listed the address is learned, under the name `a`, and the same list drops it. -/
theorem same_list_forgets_alias :
    ¬ ∀ (spec : DirectSpec) (protectedAddresses : List Octets) (added added' : Prefix → Bool)
        (replies : List Reply),
      let router := (exec learnStep (start spec protectedAddresses added) replies).state
      router.ForgetsNothing (router.replace spec added') := by
  intro h
  have hforgets := h ⟨[], [['b']]⟩ [] (fun _ => true) (fun _ => true) [aliasReply]
  have hsize := congrArg KeyedMap.size hforgets.learned
  revert hsize
  decide +kernel

end GamePath.Engine.Direct.DirectRouter
