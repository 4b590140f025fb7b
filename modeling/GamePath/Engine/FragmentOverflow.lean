import GamePath.Engine.FragmentVerdict

/-!
# Overflow in the fragment router

`later` abandons a datagram that exceeds the limit on pieces or on bytes: what it held is discarded
and its entry gets a `drop` verdict, so that no partial set of fragments leaves the router. `finish`
respects that verdict. `begin` does not look at it: an entry opened by a later fragment has
generation 0, and the first fragment that follows keeps its pieces and clears its verdict, also when
the overflow had already thrown the pieces away.

`overflow_before_first_fragment_leaks` is the run in which that releases a partial datagram;
`overflow_is_final` says that it is the only way.
-/

namespace GamePath.Engine.FragmentRouter

open Lib List KeyedMap Key

universe u

variable {A : Type u}

/-- The call is a later fragment of `key` that exceeds a limit while its datagram, of generation
`g`, has no verdict. -/
def Abandons (r : FragmentRouter A) (call : Call A) (key : Key) (g : UInt64) : Prop :=
  match call with
  | .later packet _ now pick =>
    of packet = key ∧ ((r.prepare key now pick).entry key now).route = none ∧
      (r.prepare key now pick).overflows ((r.prepare key now pick).entry key now) packet = true ∧
      ((r.prepare key now pick).entry key now).generation = g
  | _ => False

/-- The call lets a piece of `key` out with a route other than `drop`. -/
def Leaks (key : Key) : Call A → Answer A → Prop
  | .later packet _ _ _, .action (.route route) => of packet = key ∧ route ≠ .drop
  | .finish _ _ _, .released pieces => ∃ piece ∈ pieces, of piece.1 = key
  | _, _ => False

/-- After an overflow nothing of the datagram leaks, up to the call before which its entry is
removed or a second first fragment begins: the second of the key when none had begun before the
overflow, the next one when one had. -/
def NoPartialRelease (calls : List (Call A)) : Prop :=
  ∀ before call mid last rest key g,
    calls = before ++ call :: mid ++ last :: rest →
    Abandons (routerRun before).state call key g →
    Run.Meets step (fun c i => ¬ Removes c.state i key) (routerRun (before ++ [call]))
      (mid ++ [last]) →
    (mid ++ [last]).countP (fun i => decide (BeginsFor key i)) ≤ (if g = 0 then 1 else 0) →
    ¬ Leaks key last ((routerRun (before ++ call :: mid)).state.step last).2

/-- A first fragment does not meet an entry that was abandoned before any first fragment. -/
def BeginSafe (c : RouterConfig A) : Call A → Prop
  | .begin first now pick =>
    ∀ d, (c.state.housekeep (.begin first now pick)).datagrams.get? (of first) = some d →
      d.generation = 0 → d.route ≠ some .drop
  | _ => True

/-! ## Abandoned entries -/

/-- The entry of the key, of generation `g`, has been given up. -/
def Abandoned (key : Key) (g : UInt64) (r : FragmentRouter A) : Prop :=
  ∃ d, r.datagrams.get? key = some d ∧ d.route = some .drop ∧ d.generation = g

variable {r : FragmentRouter A} {g : UInt64} {key : Key} {call : Call A}

theorem abandoned_of_abandons (h : Abandons r call key g) : Abandoned key g (r.step call).1 := by
  cases call with
  | later packet address now pick =>
    obtain ⟨rfl, hroute, hover, hgen⟩ := h
    change Abandoned _ g ((r.prepare (of packet) now pick).hold (of packet)
      ((r.prepare (of packet) now pick).entry (of packet) now) packet address).1
    rcases hold_cases (r.prepare (of packet) now pick) (of packet)
      ((r.prepare (of packet) now pick).entry (of packet) now) packet address with
      ⟨route, hsome, -⟩ | ⟨-, -, heq⟩ | ⟨-, hfalse, -⟩
    · rw [hroute] at hsome
      cases hsome
    · rw [heq]
      exact ⟨_, get?_insert_self _ _ _, rfl, hgen⟩
    · rw [hover] at hfalse
      cases hfalse
  | expire | begin | finish | takeDiscarded => exact h.elim

theorem get?_housekeep {d : Datagram A} (hget : r.datagrams.get? key = some d)
    (hkeep : ¬ Removes r call key) :
    (r.housekeep call).datagrams.get? key = some d := by
  cases hkept : (r.housekeep call).datagrams.get? key with
  | none => exact absurd ⟨by rw [hget]; rfl, hkept⟩ hkeep
  | some d' =>
    have hmem := mem_of_mem_housekeep (get?_eq_some_iff.1 hkept)
    rw [← hget, get?_eq_some_iff.2 hmem]

theorem abandoned_store_of_ne {key key' : Key} (h : Abandoned key g r) (hne : key ≠ key')
    (d : Datagram A) :
    Abandoned key g (r.store key' d) := by
  obtain ⟨old, hget, hroute, hgen⟩ := h
  refine ⟨old, ?_, hroute, hgen⟩
  exact (get?_insert _ _ _ _).trans ((if_neg hne).trans hget)

theorem abandoned_reserve {key key' : Key} (h : Abandoned key g r) (hne : key ≠ key')
    (now : Instant) :
    Abandoned key g (r.reserve key' now).1 := by
  obtain ⟨-, ⟨-, heq⟩ | ⟨old, -, -, heq⟩ | ⟨old, -, -, heq⟩⟩ := reserve_cases r key' now
  · rw [heq]
    exact abandoned_store_of_ne h hne _
  · rw [heq]
    exact abandoned_store_of_ne h hne _
  · rw [heq]
    exact abandoned_store_of_ne h hne _

theorem abandoned_hold (h : Abandoned key g r) (packet : Ipv4Packet) (address : A) (now : Instant) :
    Abandoned key g
      (r.hold (of packet) (r.entry (of packet) now) packet address).1 := by
  by_cases hk : key = of packet
  · -- The fragment is one of this datagram's own: the verdict is read and left alone.
    subst hk
    obtain ⟨d, hget, hroute, hgen⟩ := h
    have hentry : r.entry (of packet) now = d := congrArg (fun o => Option.getD o _) hget
    rw [hentry]
    rcases hold_cases r (of packet) d packet address
      with ⟨route, -, heq⟩ | ⟨hnone, -, -⟩ | ⟨hnone, -, -⟩
    · rw [heq]
      exact ⟨d, get?_insert_self _ _ _, hroute, hgen⟩
    · rw [hroute] at hnone
      cases hnone
    · rw [hroute] at hnone
      cases hnone
  · -- A fragment of another datagram stores under another key.
    rcases hold_cases r (of packet) (r.entry (of packet) now) packet address with
      ⟨route, -, heq⟩ | ⟨-, -, heq⟩ | ⟨-, -, heq⟩
    · rw [heq]
      exact abandoned_store_of_ne h hk _
    · rw [heq]
      exact abandoned_store_of_ne h hk _
    · rw [heq]
      exact abandoned_store_of_ne h hk _

theorem abandoned_finish (h : Abandoned key g r) (ticket : Ticket) (route : Route) (now : Instant) :
    Abandoned key g (r.finish ticket route now).1 := by
  rcases finish_cases r ticket route now with ⟨-, heq⟩ | ⟨old, hold, -, hcases⟩
  · rw [heq]
    exact h
  by_cases hk : key = ticket.key
  · -- Its own ticket: the verdict stays a drop.
    subst hk
    obtain ⟨d, hget, hroute, hgen⟩ := h
    obtain rfl : d = old := Option.some.inj (hget.symm.trans hold)
    rcases hcases with ⟨-, heq⟩ | ⟨hdrop, -, -⟩
    · rw [heq]
      exact ⟨_, get?_insert_self _ _ _, rfl, hgen⟩
    · exact absurd hroute hdrop
  · rcases hcases with ⟨-, heq⟩ | ⟨-, -, heq⟩
    · rw [heq]
      exact abandoned_store_of_ne h hk _
    · rw [heq]
      exact abandoned_store_of_ne h hk _

theorem abandoned_step (h : Abandoned key g r) (hkeep : ¬ Removes r call key)
    (hbegins : ¬ BeginsFor key call) :
    Abandoned key g (r.step call).1 := by
  have hkept : Abandoned key g (r.housekeep call) := by
    obtain ⟨d, hget, hroute, hgen⟩ := h
    exact ⟨d, get?_housekeep hget hkeep, hroute, hgen⟩
  cases call with
  | expire | takeDiscarded => exact hkept
  | begin first now pick => exact abandoned_reserve hkept (fun hk => hbegins hk.symm) now
  | later packet address now pick => exact abandoned_hold hkept packet address now
  | finish ticket route now => exact abandoned_finish hkept ticket route now

theorem not_leaks_of_abandoned (h : Abandoned key g r) (hkeyed : Keyed r)
    (hkeep : ¬ Removes r call key) :
    ¬ Leaks key call (r.step call).2 := by
  obtain ⟨d, hget, hroute, -⟩ := h
  have hkept := get?_housekeep hget hkeep
  cases call with
  | expire | begin | takeDiscarded => exact id
  | later packet address now pick =>
    change ¬ Leaks key (.later packet address now pick)
      (.action ((r.prepare (of packet) now pick).hold (of packet)
        ((r.prepare (of packet) now pick).entry (of packet) now) packet address).2)
    rcases hold_cases (r.prepare (of packet) now pick) (of packet)
      ((r.prepare (of packet) now pick).entry (of packet) now) packet address with
      ⟨route, hsome, heq⟩ | ⟨-, -, heq⟩ | ⟨-, -, heq⟩
    · rw [heq]
      -- A leak would be of this key, whose verdict is `drop`.
      rintro ⟨rfl, hdrop⟩
      have hentry : (r.prepare (of packet) now pick).entry (of packet) now = d :=
        congrArg (fun o => Option.getD o _) hkept
      rw [hentry, hroute] at hsome
      exact hdrop (Option.some.inj hsome).symm
    · rw [heq]
      exact fun hleak => hleak.2 rfl
    · rw [heq]
      exact id
  | finish ticket route now =>
    rintro ⟨piece, hpiece, rfl⟩
    rcases finish_cases r ticket route now with
      ⟨-, heq⟩ | ⟨old, hold, -, ⟨-, heq⟩ | ⟨hdrop, -, heq⟩⟩
    · rw [heq] at hpiece
      exact absurd hpiece not_mem_nil
    · rw [heq] at hpiece
      exact absurd hpiece not_mem_nil
    rw [heq] at hpiece
    -- A piece is released under its own key, so the entry is the abandoned one.
    have hkey : of piece.1 = ticket.key :=
      hkeyed _ (get?_eq_some_iff.1 hold) piece hpiece
    rw [hkey, hold, Option.some.injEq] at hget
    rw [← hget] at hroute
    exact hdrop hroute

theorem generation_ne_zero_of_begins {c : RouterConfig A} (h : Abandoned key g c.state)
    (hsafe : BeginSafe c call) (hkeep : ¬ Removes c.state call key) (hbegins : BeginsFor key call) :
    g ≠ 0 := by
  obtain ⟨d, hget, hroute, hgen⟩ := h
  have hkept := get?_housekeep hget hkeep
  cases call with
  | begin first now pick =>
    have hkey : of first = key := hbegins
    subst hkey
    intro hg
    exact hsafe d hkept (hgen.trans hg) hroute
  | expire | later | finish | takeDiscarded => exact hbegins.elim

/-! ## Over a run -/

/-- The window between an overflow and the call in question: its entry is abandoned throughout. -/
theorem not_leaks_of_window {last : Call A} (mid : List (Call A)) :
    ∀ c : RouterConfig A, Abandoned key g c.state → Keyed c.state →
      Run.Meets step (fun c i => ¬ Removes c.state i key) c (mid ++ [last]) →
      Run.Meets step BeginSafe c (mid ++ [last]) →
      (g = 0 ∨ ∀ i ∈ mid, ¬ BeginsFor key i) →
      ¬ Leaks key last ((Run.execFrom step c mid).state.step last).2 := by
  induction mid with
  | nil =>
    intro c habandoned hkeyed hkeep _ _
    exact not_leaks_of_abandoned habandoned hkeyed hkeep.1
  | cons call mid ih =>
    intro c habandoned hkeyed hkeep hsafe hbegins
    have hnot : ¬ BeginsFor key call := by
      intro hb
      have hg := generation_ne_zero_of_begins habandoned hsafe.1 hkeep.1 hb
      exact (hbegins.resolve_left hg) call mem_cons_self hb
    exact ih (Run.advance step c call) (abandoned_step habandoned hkeep.1 hnot)
      (keyed_step hkeyed call) hkeep.2 hsafe.2
      (hbegins.imp_right fun h i hi => h i (mem_cons_of_mem _ hi))

/-- In every run in which no first fragment meets an entry that was abandoned before any first
fragment, nothing of a datagram leaks after its overflow. -/
theorem overflow_is_final (calls : List (Call A))
    (hsafe : Run.Meets step BeginSafe (⟨default, []⟩ : RouterConfig A) calls) :
    NoPartialRelease calls := by
  intro before call mid last rest key g hcalls habandons hkeep hcount
  have hsplit : calls = (before ++ [call]) ++ ((mid ++ [last]) ++ rest) := by
    rw [hcalls]
    simp
  rw [hsplit] at hsafe
  have hsafe' := (Run.meets_append.1 (Run.meets_append.1 hsafe).2).1
  have hstate : (routerRun (before ++ [call])).state = ((routerRun before).state.step call).1 := by
    rw [routerRun_append]
    rfl
  have hrun : routerRun (before ++ call :: mid) =
      Run.execFrom step (routerRun (before ++ [call])) mid := by
    rw [← routerRun_append, List.append_assoc]
    rfl
  rw [hrun]
  refine not_leaks_of_window (g := g) mid _ ?_ (keyed_run _) hkeep hsafe' ?_
  · rw [hstate]
    exact abandoned_of_abandons habandons
  · by_cases hg : g = 0
    · exact .inl hg
    · rw [if_neg hg, Nat.le_zero, List.countP_eq_zero] at hcount
      refine .inr fun i hi hb => ?_
      exact hcount i (List.mem_append_left _ hi) (decide_eq_true hb)

/-- A datagram whose 65th later fragment overflows after its first fragment has begun. -/
theorem overflow_is_final_after_begin :
    Abandons (routerRun (.begin first 0 0 :: List.replicate 64 (.later second () 0 0))).state
        (.later second () 0 0) (of second) 1 ∧
      NoPartialRelease (.begin first 0 0 :: List.replicate 65 (.later second () 0 0) ++
        [.finish ⟨of second, 1⟩ .bypass 0]) := by
  refine ⟨⟨rfl, by decide +kernel, by decide +kernel, by decide +kernel⟩,
    overflow_is_final _ ⟨nofun, ?_⟩⟩
  refine Run.meets_of_forall (fun i hi c => ?_) _
  rcases List.mem_snoc.1 hi with hi | rfl
  · rw [List.eq_of_mem_replicate hi]
    trivial
  · trivial

instance (r : FragmentRouter A) (call : Call A) (key : Key) : Decidable (Removes r call key) :=
  inferInstanceAs (Decidable (_ ∧ _))

/-- The overflow comes first: 65 later fragments, then the first fragment, a further later one,
which is held again, and a `finish` that releases it. -/
theorem overflow_before_first_fragment_leaks :
    ¬ NoPartialRelease (List.replicate 65 (.later second () 0 0) ++
      [.begin first 0 0, .later second () 0 0, .finish ⟨of second, 1⟩ .bypass 0]) := by
  intro h
  refine h (List.replicate 64 (.later second () 0 0)) (.later second () 0 0)
    [.begin first 0 0, .later second () 0 0] (.finish ⟨of second, 1⟩ .bypass 0) []
    (of second) 0 rfl ⟨rfl, by decide +kernel, by decide +kernel, by decide +kernel⟩
    ⟨by decide +kernel, by decide +kernel, by decide +kernel, trivial⟩ (by decide +kernel) ?_
  refine ⟨(second, ()), ?_, rfl⟩
  have hreleased : ((routerRun (List.replicate 65 (.later second () 0 0) ++
      [.begin first 0 0, .later second () 0 0])).state.finish ⟨of second, 1⟩ .bypass 0).2 =
        [(second, ())] := by
    decide +kernel
  exact hreleased ▸ List.mem_singleton.2 rfl

end GamePath.Engine.FragmentRouter
