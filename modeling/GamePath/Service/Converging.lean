import GamePath.Service.Informing

/-!
# The sessions keep each other informed

A slot learns of the other one in its own start, in an edit, and by notifications. Either a
notification is on its way that has not looked yet, or everything the slot holds is what the other's
summary says, or a thread is about to tell it so.

A notification is spawned where a summary comes to be active or not, and for the game where its
addresses change. The game holds one thing more of the VPN: whether it has rules for applications.
That changes without a notification where a VPN publishes that it is starting before it has its
rules, where a running VPN is started over, and where its rules are edited, which publishes nothing.
An edit opens its capture with what was read before the lock was free, which is as bad, and the
guard beside a VPN that takes all traffic is never told of the game. So a slot can be left with what
was true before, and is only kept informed while none of this happens.
-/

namespace GamePath.Service.Registry

open List Stage SlotId Engine.Capture Lib.Run

/-- A notification of the slot is on its way. -/
def Awaits (s : Registry) (id : SlotId) : Prop :=
  ∃ t ∈ s.threads, (t.slot = id ∧ t.stage.looks = true ∧ t.notify = false) ∨
    (t.slot = id.other ∧ t.notify = true)

instance (s : Registry) (id : SlotId) : Decidable (s.Awaits id) :=
  inferInstanceAs (Decidable (∃ t ∈ s.threads, _))

/-- Nothing holds anything of the other slot: there is no session, and no thread that has read its
summary. -/
def Unheard (s : Registry) (id : SlotId) : Prop :=
  (s.slots id).connected = false ∧ ∀ t ∈ s.threads, t.slot = id → t.stage.heard = false

instance (s : Registry) (id : SlotId) : Decidable (s.Unheard id) :=
  inferInstanceAs (Decidable (_ ∧ _))

/-- The slot knows what the other's summary says, or is about to be told, and what a thread of it
has read is what the summary still says. -/
structure Informed (s : Registry) (id : SlotId) : Prop where
  learns : (s.slots id).connected = true →
    (s.slots id).Knows (s.summaries id.other) ∨ ∃ t ∈ s.threads, t.slot = id ∧ t.stage.notice ≠ none
  fresh : ∀ t ∈ s.threads, t.slot = id → t.stage.Fresh (s.slots id) (s.summaries id.other)

/-- The invariant. -/
structure Informing (s : Registry) : Prop where
  locks : s.Locks
  fit : ∀ id, (s.slots id).Fit
  opening : ∀ t ∈ s.threads, t.stage.opens = true → (s.slots t.slot).Opening
  truthful : ∀ id, (∃ t ∈ s.threads, t.slot = id ∧ t.stage.ahead = true) ∨
    (s.slots id).Truthful (s.summaries id)
  publishing : ∀ t ∈ s.threads, ∀ m, t.stage = .publishing m → (s.slots t.slot).Truthful m
  informed : ∀ id, s.Awaits id ∨ s.Informed id

/-! ## What a step has to meet -/

section Conditions

variable (check : RuleCheck) (s : Registry) (t : Thread) (c : Choice)

/-- The edits and the notifications of a thread get their requests answered. -/
def Answered : Prop := t.stage.Answered check (s.slots t.slot) (s.free t.slot) c

/-- An edit opens its capture with what the other's summary says by then, unless a notification
comes after it. -/
def ReadsLate : Prop :=
  ∀ e ∈ t.stage.edit, s.free t.slot = true → (s.slots t.slot).AsksEngine e.1 →
    s.Awaits t.slot ∨ Agrees t.slot e.2 (s.summaries t.slot.other)

/-- An edit of the VPN's rules keeps whether one of them is for an application or a folder. -/
def KeepsAppRules : Prop :=
  ∀ e ∈ t.stage.edit, s.free t.slot = true → t.slot = .vpn → (s.slots t.slot).TakesEdits →
    e.1.any SessionSlot.isAppRule = (s.slots t.slot).appDns

/-- A VPN that was active before comes to have rules for applications, or loses them, only where the
game does not hold any of it or is told. -/
def PublishesAppRules : Prop :=
  ∀ m ∈ t.stage.published t.slot c, t.slot = .vpn → (s.summaries .vpn).isActive = m.isActive →
    (s.summaries .vpn).appDnsRules = m.appDnsRules ∨ s.Awaits .game ∨ s.Unheard .game

/-- The guard beside a VPN that takes all traffic holds what it is not told. -/
def TellsGuard : Prop := ∀ f ∈ t.stage.notice, (s.slots t.slot).GuardTold f

/-- The step leaves no slot behind. -/
def LeavesNone : Prop :=
  s.ReadsLate t ∧ s.KeepsAppRules t ∧ s.PublishesAppRules t c ∧ s.TellsGuard t

instance : Decidable (s.Answered check t c) := inferInstanceAs (Decidable (_ ∧ _))

instance : Decidable (s.ReadsLate t) := inferInstanceAs (Decidable (∀ e ∈ t.stage.edit, _))

instance : Decidable (s.KeepsAppRules t) := inferInstanceAs (Decidable (∀ e ∈ t.stage.edit, _))

instance : Decidable (s.PublishesAppRules t c) := inferInstanceAs
    (Decidable (∀ m ∈ t.stage.published t.slot c, _))

instance : Decidable (s.TellsGuard t) := inferInstanceAs (Decidable (∀ f ∈ t.stage.notice, _))

instance : Decidable (s.LeavesNone t c) := inferInstanceAs (Decidable (_ ∧ _ ∧ _ ∧ _))

/-- A start succeeds: where it holds its lock it is not torn down. -/
def Starts : Prop :=
  t.stage.locked = true →
    (t.stage.turn check (s.slots t.slot) (s.summaries t.slot.other) (s.free t.slot) c).stage ≠
      .publishing (SlotSummary.idle none)

instance : Decidable (s.Starts check t c) := inferInstanceAs (Decidable (_ → _))

/-- A condition on the turns of a run. -/
def OnTurns (P : Thread → Choice → Prop) : ServiceEvent → Prop
  | .call _ _ => True
  | .run index choice => ∀ t ∈ s.threads[index]?, t.notify = false → P t choice

instance {P : Thread → Choice → Prop} [∀ t c, Decidable (P t c)] :
    (e : ServiceEvent) → Decidable (s.OnTurns P e)
  | .call _ _ => isTrue trivial
  | .run index choice =>
    inferInstanceAs (Decidable (∀ t ∈ s.threads[index]?, t.notify = false → P t choice))

end Conditions

/-! ## Turns -/

section Takes

variable {check : RuleCheck} {s : Registry} {index : Nat} {t : Thread} {c : Choice} {turn : Turn}

theorem takes_summary (turn : Turn) :
    (s.takes index t turn).summaries t.slot = turn.publish.getD (s.summaries t.slot) := by
  rw [takes]
  cases turn.publish with
  | none => rfl
  | some summary => exact Function.update_self t.slot summary s.summaries

variable {u : Thread}

theorem takes_mem (hu : u ∈ (s.takes index t turn).threads) :
    u = ⟨t.slot, turn.stage, turn.publish.any fun summary => needsUpdate t.slot
      (s.summaries t.slot) summary⟩ ∨
      ∃ j, j ≠ index ∧ s.threads[j]? = some u := by
  obtain ⟨j, hj⟩ := mem_iff_getElem?.1 hu
  rcases set_some hj with ⟨-, rfl⟩ | ⟨hne, hold⟩
  · exact .inl rfl
  · exact .inr ⟨j, hne, hold⟩

theorem mem_takes {j : Nat} (hu : s.threads[j]? = some u) (hj : j ≠ index) :
    u ∈ (s.takes index t turn).threads := by
  refine mem_of_getElem? (i := j) ?_
  rw [takes, getElem?_set_ne hj.symm]
  exact hu

theorem takes_self (ht : s.threads[index]? = some t) :
    ⟨t.slot, turn.stage, turn.publish.any fun summary => needsUpdate t.slot
      (s.summaries t.slot) summary⟩ ∈
      (s.takes index t turn).threads :=
  List.mem_set (List.getElem?_eq_some_iff.1 ht).1 _

/-- While another thread holds the lock of the slot, nothing of the slot changes. -/
theorem takes_held (h : s.Locks) (ht : s.threads[index]? = some t)
    (hturn : turn = s.turned check t c)
    {j : Nat} (hu : s.threads[j]? = some u) (hj : j ≠ index) (hlocked : u.stage.locked = true) :
    (s.takes index t turn).slots u.slot = s.slots u.slot ∧
      (s.takes index t turn).summaries u.slot = s.summaries u.slot ∧
      (u.slot = t.slot → turn.stage.locked = false) := by
  by_cases hslot : u.slot = t.slot
  · have hunlocked := h.unlocked hu hlocked ht hj.symm hslot.symm
    have hbusy : s.free t.slot = false := by
      rw [Bool.eq_false_iff]
      intro hfree
      cases (free_iff.1 hfree u (mem_of_getElem? hu) hslot).symm.trans hlocked
    have hrest : turn.publish = none ∧
        (s.free t.slot = false → turn.slot = s.slots t.slot ∧ turn.stage.locked = false) := by
      rw [hturn]
      exact turn_unlocked hunlocked
    obtain ⟨hpublish, hsame⟩ := hrest
    refine ⟨?_, ?_, fun _ => (hsame hbusy).2⟩
    · rw [takes_slots, if_pos hslot, hslot]
      exact (hsame hbusy).1
    · rw [hslot, takes_summary, hpublish]
      rfl
  · refine ⟨?_, takes_summaries_other turn hslot, fun hs => absurd hs hslot⟩
    rw [takes_slots, if_neg hslot]

section

variable (h : s.Informing) (ht : s.threads[index]? = some t)
  (hturn : turn = s.turned check t c)
include h ht hturn

theorem takes_fit (hanswered : s.Answered check t c) (id : SlotId) :
    ((s.takes index t turn).slots id).Fit := by
  rw [takes_slots]
  split
  · rw [hturn]
    exact (turn_fit (h.fit t.slot) (h.opening t (mem_of_getElem? ht)) hanswered).1
  · exact h.fit id

theorem takes_opening (hanswered : s.Answered check t c) :
    ∀ u ∈ (s.takes index t turn).threads, u.stage.opens = true →
      ((s.takes index t turn).slots u.slot).Opening := by
  intro u hu hopens
  rcases takes_mem hu with rfl | ⟨j, hj, hold⟩
  · rw [takes_slots, if_pos rfl]
    rw [hturn] at hopens ⊢
    exact (turn_fit (h.fit t.slot) (h.opening t (mem_of_getElem? ht)) hanswered).2 hopens
  · rw [(takes_held h.locks ht hturn hold hj (locked_of_opens hopens)).1]
    exact h.opening u (mem_of_getElem? hold) hopens

theorem takes_own_truthful (hkeeps : s.KeepsAppRules t)
    (hbefore : t.stage.ahead = true ∨ (s.slots t.slot).Truthful (s.summaries t.slot)) :
    (turn.stage.ahead = true ∨ turn.slot.Truthful (turn.publish.getD (s.summaries t.slot))) ∧
      ∀ m, turn.stage = .publishing m → turn.slot.Truthful m := by
  rw [hturn, turn_published]
  refine turn_truthful hbefore (h.publishing t (mem_of_getElem? ht)) fun e he hfree hvpn => ?_
  exact hkeeps e he hfree ((h.locks.named t.slot).symm.trans hvpn)

theorem takes_truthful (hkeeps : s.KeepsAppRules t) (id : SlotId) :
    (∃ u ∈ (s.takes index t turn).threads, u.slot = id ∧ u.stage.ahead = true) ∨
      ((s.takes index t turn).slots id).Truthful ((s.takes index t turn).summaries id) := by
  by_cases hid : id = t.slot
  · subst hid
    have hown : t.stage.ahead = true ∨ (s.slots t.slot).Truthful (s.summaries t.slot) →
        (∃ u ∈ (s.takes index t turn).threads, u.slot = t.slot ∧ u.stage.ahead = true) ∨
          ((s.takes index t turn).slots t.slot).Truthful
            ((s.takes index t turn).summaries t.slot) := by
      intro hbefore
      rcases (takes_own_truthful h ht hturn hkeeps hbefore).1 with hahead | htrue
      · exact .inl ⟨_, takes_self ht, rfl, hahead⟩
      · rw [takes_slots, if_pos rfl, takes_summary]
        exact .inr htrue
    rcases h.truthful t.slot with ⟨u, hu, hslot, hahead⟩ | htrue
    · obtain ⟨j, hj⟩ := mem_iff_getElem?.1 hu
      by_cases hne : j = index
      · subst hne
        cases ht.symm.trans hj
        exact hown (.inl hahead)
      · exact .inl ⟨u, mem_takes hj hne, hslot, hahead⟩
    · exact hown (.inr htrue)
  · rw [takes_slots, if_neg hid, takes_summaries_other turn hid]
    rcases h.truthful id with ⟨u, hu, hslot, hahead⟩ | htrue
    · obtain ⟨j, hj⟩ := mem_iff_getElem?.1 hu
      refine .inl ⟨u, mem_takes hj ?_, hslot, hahead⟩
      rintro rfl
      cases ht.symm.trans hj
      exact hid hslot.symm
    · exact .inr htrue

theorem takes_publishing (hkeeps : s.KeepsAppRules t) :
    ∀ u ∈ (s.takes index t turn).threads, ∀ m, u.stage = .publishing m →
      ((s.takes index t turn).slots u.slot).Truthful m := by
  intro u hu m hm
  rcases takes_mem hu with rfl | ⟨j, hj, hold⟩
  · rw [takes_slots, if_pos rfl]
    rcases h.truthful t.slot with ⟨v, hv, hslot, hahead⟩ | htrue
    · obtain ⟨k, hk⟩ := mem_iff_getElem?.1 hv
      by_cases hne : k = index
      · subst hne
        cases ht.symm.trans hk
        exact (takes_own_truthful h ht hturn hkeeps (.inl hahead)).2 m hm
      -- The other thread has the lock, so this one goes on waiting for it.
      have hunlocked := (takes_held h.locks ht hturn hk hne (locked_of_ahead hahead)).2.2 hslot
      have hlocked : turn.stage.locked = true := by
        rw [show turn.stage = .publishing m from hm]
        rfl
      cases hunlocked.symm.trans hlocked
    · exact (takes_own_truthful h ht hturn hkeeps (.inr htrue)).2 m hm
  · have hlocked : u.stage.locked = true := by
      rw [hm]
      rfl
    rw [(takes_held h.locks ht hturn hold hj hlocked).1]
    exact h.publishing u (mem_of_getElem? hold) m hm

/-! ## What the slots know -/

omit h ht hturn in
theorem takes_awaits {id : SlotId} {j : Nat} (hu : s.threads[j]? = some u) (hj : j ≠ index)
    (h : (u.slot = id ∧ u.stage.looks = true ∧ u.notify = false) ∨
      (u.slot = id.other ∧ u.notify = true)) :
    (s.takes index t turn).Awaits id := ⟨u, mem_takes hu hj, h⟩

omit h ht hturn in
/-- What the other threads of the slot have read is as good as before. -/
theorem takes_fresh (h : s.Locks) (ht : s.threads[index]? = some t)
    (hturn : turn = s.turned check t c)
    {j : Nat} (hu : s.threads[j]? = some u) (hj : j ≠ index) (hslot : u.slot = t.slot)
    (hfresh : u.stage.Fresh (s.slots t.slot) (s.summaries t.slot.other)) :
    u.stage.Fresh ((s.takes index t turn).slots t.slot)
      ((s.takes index t turn).summaries t.slot.other) := by
  cases hheard : u.stage.heard with
  | false => exact fresh_of_not_heard hheard
  | true =>
    have hlocked : u.stage.locked = true := by
      by_contra hunlocked
      cases (heard_locked (Bool.eq_false_iff.2 hunlocked)).symm.trans hheard
    have hsame := (takes_held h ht hturn hu hj hlocked).1
    rw [hslot] at hsame
    rw [hsame, takes_summaries_other turn (other_ne t.slot)]
    exact hfresh

/-- The slot of the thread that has its turn. -/
theorem takes_informed_own (hanswered : s.Answered check t c) (hlate : s.ReadsLate t)
    (hguard : s.TellsGuard t) :
    (s.takes index t turn).Awaits t.slot ∨ (s.takes index t turn).Informed t.slot := by
  have hmem := mem_of_getElem? ht
  have hcur : (s.takes index t turn).summaries t.slot.other = s.summaries t.slot.other :=
    takes_summaries_other turn (other_ne t.slot)
  have hslots : (s.takes index t turn).slots t.slot = turn.slot := by
    rw [takes_slots, if_pos rfl]
  -- Once the turn itself leaves the slot informed, the other threads of the slot do not matter.
  have hinformed : turn.slot.Learns (s.summaries t.slot.other) turn.stage →
      turn.stage.Fresh turn.slot (s.summaries t.slot.other) →
      (∀ u j, s.threads[j]? = some u → j ≠ index → u.slot = t.slot →
        u.stage.Fresh ((s.takes index t turn).slots t.slot)
          ((s.takes index t turn).summaries t.slot.other)) →
      (s.takes index t turn).Informed t.slot := by
    intro hlearns hfresh hothers
    refine ⟨fun hon => ?_, fun u hu hslot => ?_⟩
    · rw [hslots] at hon ⊢
      rw [hcur]
      exact (hlearns hon).imp_right fun hnotice => ⟨_, takes_self ht, rfl, hnotice⟩
    · rcases takes_mem hu with rfl | ⟨j, hj, hold⟩
      · rw [hslots, hcur]
        exact hfresh
      · exact hothers u j hold hj hslot
  by_cases hawaits : s.Awaits t.slot
  · obtain ⟨u, hu, hcoming⟩ := hawaits
    obtain ⟨j, hj⟩ := mem_iff_getElem?.1 hu
    by_cases hne : j = index
    · subst hne
      cases ht.symm.trans hj
      have hlooks : t.stage.looks = true := by
        rcases hcoming with ⟨-, hlooks, -⟩ | ⟨hbad, -⟩
        · exact hlooks
        · exact absurd hbad.symm (other_ne t.slot)
      have hlook : turn.stage.looks = true ∨ (t.stage.locked = true ∧
          turn.slot.Learns (s.summaries t.slot.other) turn.stage ∧
          turn.stage.Fresh turn.slot (s.summaries t.slot.other)) := by
        rw [hturn]
        exact turn_looks_learns hlooks
      rcases hlook with hstill | ⟨hlocked, hlearns, hfresh⟩
      · refine .inl ⟨_, takes_self ht, .inl ⟨rfl, hstill, ?_⟩⟩
        rw [hturn, turn_publish_none (.inl hlooks)]
        rfl
      · refine .inr (hinformed hlearns hfresh fun u k hk hki hslot => ?_)
        exact fresh_of_not_heard (heard_locked (h.locks.unlocked ht hlocked hk hki hslot))
    · exact .inl (takes_awaits hj hne hcoming)
  · have hold := (h.informed t.slot).resolve_left hawaits
    have hothers : ∀ u j, s.threads[j]? = some u → j ≠ index → u.slot = t.slot →
        u.stage.Fresh ((s.takes index t turn).slots t.slot)
          ((s.takes index t turn).summaries t.slot.other) :=
      fun u j hu hj hslot => takes_fresh h.locks ht hturn hu hj hslot
        (hold.fresh u (mem_of_getElem? hu) hslot)
    by_cases hother : ∃ u j, s.threads[j]? = some u ∧ j ≠ index ∧ u.slot = t.slot ∧
      u.stage.notice ≠ none
    · -- Another thread of the slot is about to tell it, and has the lock.
      obtain ⟨u, j, hu, hj, hslot, hnotice⟩ := hother
      obtain ⟨f, hf⟩ := Option.ne_none_iff_exists'.1 hnotice
      have hunlocked := (takes_held h.locks ht hturn hu hj (locked_of_notice hf)).2.2 hslot
      refine .inr ⟨fun _ => .inr ⟨u, mem_takes hu hj, hslot, hnotice⟩, fun v hv hvslot => ?_⟩
      rcases takes_mem hv with rfl | ⟨k, hk, hvold⟩
      · exact fresh_of_not_heard (heard_locked hunlocked)
      · exact hothers v k hvold hk hvslot
    have hlearns : (s.slots t.slot).Learns (s.summaries t.slot.other) t.stage := by
      intro hon
      refine (hold.learns hon).imp_right fun ⟨u, hu, hslot, hnotice⟩ => ?_
      obtain ⟨j, hj⟩ := mem_iff_getElem?.1 hu
      by_cases hne : j = index
      · subst hne
        cases ht.symm.trans hj
        exact hnotice
      · exact absurd ⟨u, j, hj, hne, hslot, hnotice⟩ hother
    have hedit : ∀ e ∈ t.stage.edit, s.free t.slot = true → (s.slots t.slot).AsksEngine e.1 →
        Agrees (s.slots t.slot).id e.2 (s.summaries t.slot.other) := by
      intro e he hfree hasks
      rw [h.locks.named]
      exact (hlate e he hfree hasks).resolve_left hawaits
    have hturned := turn_learns (h.fit t.slot) (h.opening t hmem) hanswered hlearns
      (hold.fresh t hmem rfl) hedit hguard
    rw [turned] at hturn
    rw [← hturn] at hturned
    exact .inr (hinformed hturned.1 hturned.2 hothers)

end

theorem agrees_of_not_needsUpdate {id : SlotId} {previous summary : SlotSummary}
    (h : needsUpdate id previous summary = false)
    (happ : id = .vpn → previous.isActive = summary.isActive →
      previous.appDnsRules = summary.appDnsRules) :
    Agrees id.other previous summary := by
  rw [needsUpdate] at h
  split at h
  next heq =>
    rw [heq]
    exact Agrees.refl _ _
  rw [Bool.or_eq_false_iff, bne_eq_false_iff_eq] at h
  cases id with
  | game =>
    refine ⟨?_, h.1⟩
    by_contra hbypass
    exact absurd h.2 (by simp [hbypass])
  | vpn => exact ⟨h.1, happ rfl h.1⟩

/-- The other slot. -/
theorem takes_informed_other (h : s.Informing) (ht : s.threads[index]? = some t)
    (hnotify : t.notify = false) (hturn : turn = s.turned check t c)
    (hpublishes : s.PublishesAppRules t c) :
    (s.takes index t turn).Awaits t.slot.other ∨ (s.takes index t turn).Informed t.slot.other := by
  have hslots : (s.takes index t turn).slots t.slot.other = s.slots t.slot.other := by
    rw [takes_slots, if_neg (other_ne t.slot)]
  have hpublish : turn.publish = t.stage.published t.slot c := by
    rw [hturn, turn_published, h.locks.named]
  -- The threads of the other slot are those it had.
  have hothers : ∀ u ∈ (s.takes index t turn).threads, u.slot = t.slot.other → u ∈ s.threads := by
    intro u hu hslot
    rcases takes_mem hu with rfl | ⟨j, -, hold⟩
    · exact absurd hslot.symm (other_ne t.slot)
    · exact mem_of_getElem? hold
  have hkept : ∀ u ∈ s.threads, u.slot = t.slot.other → u ∈ (s.takes index t turn).threads := by
    intro u hu hslot
    obtain ⟨j, hj⟩ := mem_iff_getElem?.1 hu
    refine mem_takes hj ?_
    rintro rfl
    cases ht.symm.trans hj
    exact other_ne t.slot hslot.symm
  have hstill : s.Awaits t.slot.other → (s.takes index t turn).Awaits t.slot.other := by
    rintro ⟨u, hu, hcoming⟩
    obtain ⟨j, hj⟩ := mem_iff_getElem?.1 hu
    refine takes_awaits hj ?_ hcoming
    rintro rfl
    cases ht.symm.trans hj
    rcases hcoming with ⟨hslot, -⟩ | ⟨-, htrue⟩
    · exact other_ne t.slot hslot.symm
    · cases hnotify.symm.trans htrue
  rcases h.informed t.slot.other with hawaits | hold
  · exact .inl (hstill hawaits)
  -- A summary that says what was said before changes nothing.
  have hagreed : Agrees t.slot.other (s.summaries t.slot)
      ((s.takes index t turn).summaries t.slot) →
      (s.takes index t turn).Informed t.slot.other := by
    intro hagrees
    refine ⟨fun hon => ?_, fun u hu hslot => ?_⟩
    · have hid := h.locks.named t.slot.other
      rw [hslots] at hon ⊢
      rcases hold.learns hon with hknows | ⟨u, hu, hslot, hnotice⟩
      · rw [other_other] at hknows ⊢
        exact .inl (hknows.congr (hid.symm ▸ hagrees))
      · exact .inr ⟨u, hkept u hu hslot, hslot, hnotice⟩
    · have hfresh := hold.fresh u (hothers u hu hslot) hslot
      rw [other_other] at hfresh ⊢
      rw [hslots]
      exact hfresh.congr ((h.locks.named t.slot.other).symm ▸ hagrees)
  cases hnew : turn.publish with
  | none =>
    refine .inr (hagreed ?_)
    rw [takes_summary, hnew]
    exact Agrees.refl _ _
  | some m =>
    cases hneeds : needsUpdate t.slot (s.summaries t.slot) m with
    | true =>
      refine .inl ⟨_, takes_self ht, .inr ⟨(other_other t.slot).symm, ?_⟩⟩
      rw [hnew]
      exact hneeds
    | false =>
      by_cases happ : t.slot = .vpn → (s.summaries t.slot).isActive = m.isActive →
          (s.summaries t.slot).appDnsRules = m.appDnsRules
      · refine .inr (hagreed ?_)
        rw [takes_summary, hnew]
        exact agrees_of_not_needsUpdate hneeds happ
      push Not at happ
      obtain ⟨hvpn, hactive, hne⟩ := happ
      rw [hvpn] at hactive hne
      rcases hpublishes m (hpublish.symm.trans hnew) hvpn hactive with
        heq | hawaits | ⟨hidle, hheard⟩
      · exact absurd heq hne
      · exact .inl (hstill (by rw [hvpn]; exact hawaits))
      -- The game holds nothing of the VPN.
      have hother : t.slot.other = .game := by
        rw [hvpn]
        rfl
      refine .inr ⟨fun hon => ?_, fun u hu hslot => ?_⟩
      · rw [hslots, hother, hidle] at hon
        cases hon
      · exact fresh_of_not_heard (hheard u (hothers u hu hslot) (hslot.trans hother))

theorem takes_informing (h : s.Informing) (ht : s.threads[index]? = some t)
    (hnotify : t.notify = false) (hanswered : s.Answered check t c) (hleaves : s.LeavesNone t c) :
    (s.takes index t (s.turned check t c)).Informing := by
  obtain ⟨hlate, hkeeps, hpublishes, hguard⟩ := hleaves
  refine ⟨takes_locks check c h.locks ht, takes_fit h ht rfl hanswered,
    takes_opening h ht rfl hanswered,
    takes_truthful h ht rfl hkeeps, takes_publishing h ht rfl hkeeps, fun id => ?_⟩
  by_cases hid : id = t.slot
  · rw [hid]
    exact takes_informed_own h ht rfl hanswered hlate hguard
  · rw [eq_other hid]
    exact takes_informed_other h ht hnotify rfl hpublishes

end Takes

/-! ## Every run -/

section Runs

variable {check : RuleCheck} {s : Registry} {index : Nat} {t : Thread}

theorem new_informing : new.Informing := by
  refine ⟨new_locks, fun id => SessionSlot.fit_of_no_engine rfl rfl,
    fun t ht => absurd ht (by simp [new]),
    fun id => .inr ⟨rfl, rfl, fun _ => rfl⟩, fun t ht => absurd ht (by simp [new]),
      fun id => .inr ⟨fun hon => ?_, ?_⟩⟩
  · simp [new, SessionSlot.new] at hon
  · exact fun t ht => by cases ht

theorem informing_of_threads {threads : List Thread} (h : s.Informing)
    (hlocks : Locks { s with threads := threads })
    (hold : ∀ t ∈ s.threads, ∃ u ∈ threads, u.slot = t.slot ∧ u.stage = t.stage)
    (hnew : ∀ u ∈ threads, u.stage.locked = false ∨ ∃ t ∈ s.threads, u.slot = t.slot ∧
      u.stage = t.stage)
    (hawaits : ∀ id, s.Awaits id → Awaits { s with threads := threads } id) :
    Informing { s with threads := threads } := by
  refine ⟨hlocks, h.fit, fun u hu hopens => ?_, fun id => ?_, fun u hu m hm => ?_, fun id => ?_⟩
  · rcases hnew u hu with hunlocked | ⟨t, ht, hslot, hstage⟩
    · cases hunlocked.symm.trans (locked_of_opens hopens)
    · rw [hslot]
      exact h.opening t ht (hstage ▸ hopens)
  · rcases h.truthful id with ⟨t, ht, hslot, hahead⟩ | htrue
    · obtain ⟨u, hu, hus, hust⟩ := hold t ht
      exact .inl ⟨u, hu, hus.trans hslot, hust ▸ hahead⟩
    · exact .inr htrue
  · rcases hnew u hu with hunlocked | ⟨t, ht, hslot, hstage⟩
    · rw [hm] at hunlocked
      simp [locked] at hunlocked
    · rw [hslot]
      exact h.publishing t ht m (hstage.symm.trans hm)
  · rcases h.informed id with hcoming | hinformed
    · exact .inl (hawaits id hcoming)
    refine .inr ⟨fun hon => ?_, fun u hu hslot => ?_⟩
    · refine (hinformed.learns hon).imp_right ?_
      rintro ⟨t, ht, hts, hnotice⟩
      obtain ⟨u, hu, hus, hust⟩ := hold t ht
      exact ⟨u, hu, hus.trans hts, hust ▸ hnotice⟩
    · rcases hnew u hu with hunlocked | ⟨t, ht, hts, hstage⟩
      · exact fresh_of_not_heard (heard_locked hunlocked)
      · rw [hstage]
        exact hinformed.fresh t ht (hts.symm.trans hslot)

theorem call_informing (h : s.Informing) (id : SlotId) (request : Request) :
    Informing { s with threads := s.threads ++ [⟨id, request.stage, false⟩] } := by
  refine informing_of_threads h (call_locks h.locks id request) (fun t ht => ?_)
    (fun u hu => ?_) fun id' => ?_
  · exact ⟨t, mem_append_left _ ht, rfl, rfl⟩
  · rcases mem_snoc.1 hu with hu' | rfl
    · exact .inr ⟨u, hu', rfl, rfl⟩
    · exact .inl request.stage_unlocked
  · rintro ⟨t, ht, hcoming⟩
    exact ⟨t, mem_append_left _ ht, hcoming⟩

theorem spawns_informing (h : s.Informing) (ht : s.threads[index]? = some t)
    (hnotify : t.notify = true) :
    (s.spawns index t).Informing := by
  have hmem := mem_of_getElem? ht
  have hset : ∀ u ∈ s.threads, u ≠ t → u ∈ s.threads.set index { t with notify := false } := by
    intro u hu hne
    obtain ⟨j, hj⟩ := mem_iff_getElem?.1 hu
    refine mem_of_getElem? (i := j) ?_
    rw [getElem?_set_ne]
    · exact hj
    · rintro rfl
      exact hne (Option.some.inj (hj.symm.trans ht))
  refine informing_of_threads h (spawns_locks h.locks ht) (fun u hu => ?_)
    (fun u hu => ?_) fun id => ?_
  · by_cases hut : u = t
    · rw [hut]
      exact ⟨_, List.mem_append_left _ (List.mem_set (List.getElem?_eq_some_iff.1 ht).1 _),
        rfl, rfl⟩
    · exact ⟨u, mem_append_left _ (hset u hu hut), rfl, rfl⟩
  · rcases mem_snoc.1 hu with hu' | rfl
    · rcases mem_or_eq_of_mem_set hu' with hold | rfl
      · exact .inr ⟨u, hold, rfl, rfl⟩
      · exact .inr ⟨t, hmem, rfl, rfl⟩
    · exact .inl rfl
  rintro ⟨u, hu, hcoming⟩
  by_cases hut : u = t
  · -- It was about to be sent, and now it is.
    rw [hut] at hcoming
    have hslot : t.slot = id.other := by
      rcases hcoming with ⟨-, -, hfalse⟩ | ⟨hslot, -⟩
      · cases hnotify.symm.trans hfalse
      · exact hslot
    refine ⟨⟨t.slot.other, .reconcileWaiting, false⟩, mem_append_right _ mem_cons_self,
      .inl ⟨?_, rfl, rfl⟩⟩
    rw [hslot, other_other]
  · exact ⟨u, mem_append_left _ (hset u hu hut), hcoming⟩

theorem step_informing (h : s.Informing) (e : ServiceEvent)
    (hmeets : s.OnTurns (fun t c => s.Answered check t c ∧ s.LeavesNone t c) e) :
    (s.step check e).Informing := by
  cases e with
  | call id request => exact call_informing h id request
  | run index c =>
    rw [step]
    cases ht : s.threads[index]? with
    | none => exact h
    | some t =>
      dsimp only
      split
      · next hnotify => exact spawns_informing h ht hnotify
      next hnotify =>
        have hnotify' := Bool.eq_false_iff.2 hnotify
        obtain ⟨hanswered, hleaves⟩ := hmeets t ht hnotify'
        exact takes_informing h ht hnotify' hanswered hleaves

variable (check) in
/-- The service as a machine. -/
def machine (s : Registry) (e : ServiceEvent) : Registry × Unit := (s.step check e, ())

/-- Each session that is connected holds what the other one is. -/
structure Converged (s : Registry) : Prop where
  game : (s.slots .game).connected = true → ∀ m, (s.slots .game).engine = some m →
    KnowsVpn m (s.slots .vpn).connected (s.slots .vpn).appDns
  vpn : (s.slots .vpn).connected = true →
    (∀ routes, (s.slots .vpn).bypassRoutes = some routes →
      routes = (s.slots .game).tunnel.toFinset) ∧
      ∀ m, (s.slots .vpn).engine = some m →
        KnowsGame m (s.slots .vpn).nativeL2tpDirect (s.slots .game).tunnel (s.slots .game).connected

theorem converged_of_settled (h : s.Informing) (hsettled : s.Settled) : s.Converged := by
  have hover : ∀ t ∈ s.threads, t.stage = .finished := fun t ht => (hsettled t ht).1
  have htruthful : ∀ id, (s.slots id).Truthful (s.summaries id) := by
    intro id
    refine (h.truthful id).resolve_left ?_
    rintro ⟨t, ht, -, hahead⟩
    rw [hover t ht] at hahead
    simp [ahead] at hahead
  have hknows : ∀ id, (s.slots id).connected = true →
      (s.slots id).Knows (s.summaries id.other) := by
    intro id hon
    rcases h.informed id with ⟨t, ht, hcoming⟩ | hinformed
    · obtain ⟨hstage, hnotify⟩ := hsettled t ht
      rcases hcoming with ⟨-, hlooks, -⟩ | ⟨-, htrue⟩
      · rw [hstage] at hlooks
        simp [looks] at hlooks
      · cases hnotify.symm.trans htrue
    · refine (hinformed.learns hon).resolve_right ?_
      rintro ⟨t, ht, -, hnotice⟩
      rw [hover t ht] at hnotice
      exact hnotice rfl
  refine ⟨fun hon => ?_, fun hon => ?_⟩
  · have hvpn := htruthful .vpn
    rw [← hvpn.active, ← hvpn.appDns (h.locks.named .vpn)]
    exact (SessionSlot.knows_game (h.locks.named .game)).1 (hknows .game hon)
  · have hgame := htruthful .game
    rw [← hgame.active, ← hgame.bypass]
    exact (SessionSlot.knows_vpn (h.locks.named .vpn)).1 (hknows .vpn hon)

end Runs

/-- Once nothing is running or pending, each session that is connected holds what the other one is,
in every run whose requests are answered and no step of which leaves a slot behind. -/
theorem sessions_converge (check : RuleCheck) (es : List ServiceEvent)
    (hmeets : Meets (machine check)
      (fun c e => c.state.OnTurns (fun t o => c.state.Answered check t o ∧
        c.state.LeavesNone t o) e) ⟨new, []⟩ es)
    (hsettled : (exec (machine check) new es).state.Settled) :
    (exec (machine check) new es).state.Converged := by
  refine converged_of_settled ?_ hsettled
  refine execFrom_invariant_of_meets (I := fun c => c.state.Informing) ?_ es _ hmeets new_informing
  exact fun c e hstep h => step_informing h e hstep

/-! ## Runs that show it -/

/-- The game starts, then the VPN, up to where the VPN has published that it is starting. -/
def bothStart : List ServiceEvent :=
  .call .game (.start (oneApp .split)) :: List.replicate 10 (.run 0 goesWell) ++ List.replicate 5
    (.run 1 goesWell) ++
    List.replicate 5 (.run 2 goesWell) ++ .call .vpn (.start (oneApp .split)) :: List.replicate 4
      (.run 3 goesWell)

/-- The notification comes to the game once the VPN is connected. -/
def toldLate : List ServiceEvent :=
  bothStart ++ List.replicate 6 (.run 3 goesWell) ++ List.replicate 5 (.run 4 goesWell)

/-- The notification comes to the game before the VPN has its rules. -/
def toldEarly : List ServiceEvent :=
  bothStart ++ List.replicate 5 (.run 4 goesWell) ++ List.replicate 6 (.run 3 goesWell)

theorem sessions_converge_late :
    (exec (machine fun _ => none) new toldLate).state.Settled ∧
      ((exec (machine fun _ => none) new toldLate).state.slots .game).connected = true ∧
      (exec (machine fun _ => none) new toldLate).state.Converged := by
  have hmeets : Meets (machine fun _ => none)
      (fun c e => c.state.OnTurns (fun t o => c.state.Answered (fun _ => none) t o ∧
        c.state.LeavesNone t o) e)
      ⟨new, []⟩ toldLate := by decide +kernel
  have hsettled : ∀ t ∈ (exec (machine fun _ => none) new toldLate).state.threads,
      t.stage = .finished ∧ t.notify = false := by decide +kernel
  exact ⟨hsettled, by decide +kernel, sessions_converge _ _ hmeets hsettled⟩

/-- The VPN has a rule for an application, and the game is left with what the VPN said before it had
any. -/
theorem sessions_drift :
    ¬ ∀ (check : RuleCheck) (es : List ServiceEvent),
      Meets (machine check)
        (fun c e => c.state.OnTurns (fun t o => c.state.Answered check t o ∧
          c.state.Starts check t o) e) ⟨new, []⟩ es →
      (exec (machine check) new es).state.Settled →
        (exec (machine check) new es).state.Converged := by
  intro h
  have hmeets : Meets (machine fun _ => none)
      (fun c e => c.state.OnTurns (fun t o => c.state.Answered (fun _ => none) t o ∧
        c.state.Starts (fun _ => none) t o) e)
      ⟨new, []⟩ toldEarly := by decide +kernel
  have hsettled : ∀ t ∈ (exec (machine fun _ => none) new toldEarly).state.threads,
      t.stage = .finished ∧ t.notify = false := by decide +kernel
  have hon : ((exec (machine fun _ => none) new toldEarly).state.slots .game).connected =
      true := by decide +kernel
  have hheld : (((exec (machine fun _ => none) new toldEarly).state.slots .game).engine.bind
      PacketCaptureManager.dnsGuard).map DnsGuard.otherAppDns = some false := by decide +kernel
  have hrules : ((exec (machine fun _ => none) new toldEarly).state.slots .vpn).appDns =
      true := by decide +kernel
  obtain ⟨g, hguard, happ⟩ := Option.map_eq_some_iff.1 hheld
  obtain ⟨m, hm, hg⟩ := Option.bind_eq_some_iff.1 hguard
  have htrue := (((h _ _ hmeets hsettled).game hon m hm).guard g hg).2
  cases happ.symm.trans (htrue.trans hrules)

end GamePath.Service.Registry
