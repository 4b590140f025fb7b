import GamePath.Engine.Socks.ServerMoves

/-!
# Who holds a flow of the LAN proxy (`server.rs`)

The invariants of the event loop: what a connection holds, which association it controls and what
the counters say agree (`Sound`); every flow that was opened has been released or is held; only
allowed destinations are spoken to; the limits are kept. Each is kept by every move, so it holds of
every server that a run of the loop reaches.
-/

namespace GamePath.Engine.Socks

open List Lib KeyedMap Option Server Holding
open Direct (Text)

variable {ω : Type} {W : World ω} {s s' : Server (ω × Ledger)} {token : Token} {c c' : Connection}
  {w w' : ω × Ledger}

/-- Whether what a connection holds is there to stay: no deadline ends it. -/
def Holding.lasting : Holding → Bool
  | .relaying _ => true
  | .association _ => true
  | _ => false

/-- A connection is counted while it is relayed, and has no deadline when it holds something
lasting. -/
def Connection.Sound (c : Connection) : Prop :=
  c.counted = c.phase.holding.relays ∧ (c.phase.holding.lasting = true → c.deadline = none)

theorem Kept.sound (h : Kept (c, w) (c', w')) (hc : c.Sound) : c'.Sound := by
  refine ⟨by rw [h.counted, h.holding, hc.1], fun hlasting => ?_⟩
  rw [h.holding] at hlasting
  rcases h.deadline with hsame | hnothing
  · rw [hsame, hc.2 hlasting]
  · rw [hnothing] at hlasting
    cases hlasting

/-- The books agree: keys were given out, every connection is sound, and an association belongs to
the one connection that holds it. -/
structure Sound (s : Server (ω × Ledger)) : Prop where
  connection : ∀ token c, s.connections.get? token = some c → token < s.nextToken ∧ c.Sound
  association : ∀ id a, s.associations.get? id = some a → id ≤ s.nextAssociation
  control : ∀ token id, (∃ a, s.associations.get? id = some a ∧ a.control = token) ↔
    ∃ c, s.connections.get? token = some c ∧ c.phase.holding = .association id

namespace Sound

variable {t : KeyedMap Octets Nat}

/-- A connection is stored that holds an association if the one before it did, if there was one. -/
theorem insert {n : Nat} (h : Sound s) (hlt : token < n) (hn : s.nextToken ≤ n) (hsound : c'.Sound)
    (hheld : ∀ id, c'.phase.holding = .association id ↔
      ∃ c, s.connections.get? token = some c ∧ c.phase.holding = .association id) :
    Sound ({ s with world := w, activeTcp := t, nextToken := n }.put token c') := by
  refine ⟨fun other d hd => ?_, h.association, fun other id => (h.control other id).trans ?_⟩
  all_goals
    simp only [put, get?_insert] at *
    by_cases hother : other = token
  · rw [if_pos hother] at hd
    cases hd
    exact ⟨hother ▸ hlt, hsound⟩
  · rw [if_neg hother] at hd
    exact ⟨(h.connection other d hd).1.trans_le hn, (h.connection other d hd).2⟩
  · subst hother
    simp [hheld]
  · simp [hother]

theorem replace (h : Sound s) (hget : s.connections.get? token = some c)
    (hsound : c.Sound → c'.Sound)
    (hheld : ∀ id, c'.phase.holding = .association id ↔ c.phase.holding = .association id) :
    Sound ({ s with world := w, activeTcp := t }.put token c') :=
  h.insert (h.connection token c hget).1 (Nat.le_refl _) (hsound (h.connection token c hget).2)
    fun id => by simp [hget, hheld]

theorem fresh (h : Sound s) : s.connections.get? s.nextToken = none := by
  cases hget : s.connections.get? s.nextToken with
  | none => rfl
  | some c => exact absurd (h.connection _ c hget).1 (Nat.lt_irrefl _)

theorem unused (h : Sound s) : s.associations.get? (s.nextAssociation + 1) = none := by
  cases hget : s.associations.get? (s.nextAssociation + 1) with
  | none => rfl
  | some a => exact absurd (h.association _ a hget) (by omega)

/-- A connection that holds no association is gone. -/
theorem erase (h : Sound s) (hget : s.connections.get? token = some c)
    (hheld : ∀ id, c.phase.holding ≠ .association id) :
    Sound { s with connections := s.connections.erase token, world := w, activeTcp := t } := by
  refine ⟨fun other d hd => ?_, h.association, fun other id => (h.control other id).trans ?_⟩
  all_goals
    simp only [get?_erase] at *
    by_cases hother : other = token
  · rw [if_pos hother] at hd
    cases hd
  · rw [if_neg hother] at hd
    exact h.connection other d hd
  · subst hother
    simp [hget, hheld]
  · simp [hother]

end Sound

theorem Move.sound (h : Move s s') (hs : Sound s) : Sound s' := by
  cases h with
  | idle | readable | send | resolve | release | dialFailed => exact ⟨hs.connection, hs.association,
    hs.control⟩
  | skip =>
    refine ⟨fun token c hget => ?_, hs.association, hs.control⟩
    exact ⟨Nat.lt_succ_of_lt (hs.connection token c hget).1, (hs.connection token c hget).2⟩
  | enter _ _ hphase hcounted =>
    refine hs.insert (Nat.lt_succ_self _) (Nat.le_succ _) ?_ fun id => ?_
    · rw [Connection.Sound, hcounted, hphase]
      exact ⟨rfl, by rintro ⟨⟩⟩
    · simp [hphase, hs.fresh, Phase.holding]
  | touch hget hkept => exact hs.replace hget hkept.sound fun id => by rw [hkept.holding]
  | dial hget hnothing =>
    refine hs.replace hget (fun hc => ⟨?_, by rintro ⟨⟩⟩) fun id => ?_
    · rw [hc.1, hnothing]
      rfl
    · rw [hnothing]
      simp only [Phase.holding, reduceCtorEq]
  | establish hget hopening _ hrelaying hdeadline hcounted =>
    refine hs.replace hget (fun _ => ⟨?_, fun _ => hdeadline⟩) fun id => by simp [hopening,
      hrelaying]
    rw [hcounted, hrelaying]
    rfl
  | drop hget hopening _ hnothing hcounted =>
    refine hs.replace hget (fun hc => ⟨?_, ?_⟩) fun id => by simp [hopening, hnothing]
    · rw [hcounted, hc.1, hopening, hnothing]
      rfl
    · rw [hnothing]
      rintro ⟨⟩
  | @associate token c c' _ _ _ hget hnothing _ _ hcounted hheld hdeadline =>
    have hc := hs.connection token c hget
    have hsound : c'.Sound := ⟨by rw [hcounted, hc.2.1, hnothing, hheld]; rfl, fun _ => hdeadline⟩
    refine ⟨fun other d hd => ?_, fun id a ha => ?_, fun other id => ?_⟩
    all_goals simp only [put, get?_insert] at *
    · have := hs.connection other d
      grind
    · have := hs.association id a
      grind
    -- The new id is no association's yet, so no other connection controls it.
    · by_cases hid : id = s.nextAssociation + 1
      · have hfree : ¬ ∃ d, s.connections.get? other = some d ∧ d.phase.holding =
            .association id := by
          rw [← hs.control, hid, hs.unused]
          simp
        by_cases hother : other = token
        · simp [hid, hother, hheld]
        · rw [if_neg hother, iff_false_right hfree]
          simp [hid, Ne.symm hother]
      · rw [if_neg hid, hs.control other id]
        by_cases hother : other = token
        · simp [hother, hget, hnothing, hheld, Ne.symm hid]
        · simp [hother]
  | @rebind id a a' hget hcontrol _ _ =>
    refine ⟨hs.connection, fun other b hb => ?_, fun token other =>
      (Iff.trans ?_ (hs.control token other))⟩
    all_goals simp only [get?_insert] at *
    · have := hs.association id a hget
      have := hs.association other b
      grind
    · grind
  | finish =>
    refine ⟨fun token c hget => ?_, hs.association, fun token id => (hs.control token id).trans ?_⟩
    all_goals simp only [get?_mapValues, map_eq_some_iff] at *
    · obtain ⟨c, hget, rfl⟩ := hget
      exact hs.connection token c hget
    · simp
  | leave hget hheld => exact hs.erase hget hheld
  | @dissolve token c id a _ hget hheld ha =>
    refine ⟨fun other d hd => ?_, fun other b hb => ?_, fun other id' => ?_⟩
    all_goals simp only [get?_erase] at *
    · have := hs.connection other d
      grind
    · have := hs.association other b
      grind
    · have := hs.control other id'
      have := hs.control token id
      grind

variable {I : Server (ω × Ledger) → Prop}

/-- What every move keeps, a sequence of moves keeps. -/
theorem Moves.keeps (hmove : ∀ s s', Sound s → Move s s' →
    I s → I s') (h : Moves s s') (hs : Sound s) (hI : I s) : Sound s' ∧ I s' := by
  induction h with
  | refl => exact ⟨hs, hI⟩
  | tail _ h ih => exact ⟨h.sound ih.1, hmove _ _ ih.1 h ih.2⟩

theorem Moves.sound (h : Moves s s') (hs : Sound s) : Sound s' :=
  (h.keeps (I := fun _ => True) (fun _ _ _ _ h => h) hs trivial).1

/-! ## The end of connections -/

namespace Server

/-- What is done for one connection after another, each leaving the others, is a sequence of moves.
-/
theorem foldl_connections_moves {f : Server (ω × Ledger) → Token × Connection → Server (ω × Ledger)}
    (hf : ∀ s token c, Sound s → s.connections.get? token = some c → Moves s (f s (token, c)) ∧
      ∀ other ≠ token, (f s (token, c)).connections.get? other = s.connections.get? other)
    (es : List (Token × Connection)) : ∀ s, Sound s → (es.map Prod.fst).Nodup →
      (∀ e ∈ es, s.connections.get? e.1 = some e.2) → Moves s (es.foldl f s) := by
  induction es with
  | nil => exact fun s _ _ _ => .refl
  | cons e es ih =>
    intro s hs hnodup hget
    rw [map_cons, nodup_cons] at hnodup
    obtain ⟨hmoves, hothers⟩ := hf s e.1 e.2 hs (hget e mem_cons_self)
    refine hmoves.trans (ih _ (hmoves.sound hs) hnodup.2 fun e' he' => ?_)
    have hne : e'.1 ≠ e.1 := fun heq => hnodup.1 (heq ▸ mem_map_of_mem he')
    exact (hothers e'.1 hne).trans (hget e' (mem_cons_of_mem _ he'))

theorem expireConnection_moves (hs : Sound s) (hget : s.connections.get? token = some c)
    (hdue : c.deadline ≠ none) : Moves s (s.expireConnection (recorded W) token c) := by
  have hlasting := mt (hs.connection token c hget).2.2 hdue
  unfold expireConnection
  split
  · next flow _ hphase => exact drop_moves hget (by rw [hphase]; rfl) _
  · next hphase => exact failConnection_moves hget (.refl _) (by rw [hphase]; rfl) _
  · next hconnecting _ =>
    have hnothing : c.phase.holding = .nothing := by
      cases hphase : c.phase with
      | connecting flow kind => exact absurd hphase (hconnecting flow kind)
      -- What lasts has no deadline.
      | relaying | udpControl => rw [hphase] at hlasting; exact absurd rfl hlasting
      | _ => rfl
    exact .single (.touch hget (.of_nothing hnothing rfl rfl rfl rfl))

theorem expire_moves (hs : Sound s) : Moves s (s.expire (recorded W)) := by
  refine .head (.idle (w := ((recorded W).now s.world).2) rfl) ?_
  refine foldl_connections_moves (fun s token c hs hget => ?_) _ _ ⟨hs.connection, hs.association,
    hs.control⟩
    s.connections.nodup fun e he => get?_eq_some_iff.2 he
  split
  · next hdue =>
    have hsome : c.deadline ≠ none := by
      intro hnone
      rw [hnone] at hdue
      cases hdue
    refine ⟨expireConnection_moves hs hget hsome, fun other hne => ?_⟩
    have hput : ∃ c', (s.expireConnection (recorded W) token c).connections =
        s.connections.insert token c' := by
      unfold expireConnection
      split <;> exact ⟨_, rfl⟩
    obtain ⟨c', hput⟩ := hput
    rw [hput, get?_insert, if_neg hne]
  · exact ⟨.refl, fun other _ => rfl⟩

theorem reapConnection_connections (s : Server (ω × Ledger)) (token : Token) (c : Connection) :
    (s.reapConnection (recorded W) token c).connections = s.connections.erase token := by
  unfold reapConnection
  dsimp only
  repeat' split
  all_goals rfl

theorem reapConnection_moves (hs : Sound s) (hget : s.connections.get? token = some c) :
    Moves s (s.reapConnection (recorded W) token c) := by
  obtain ⟨-, hcounted, -⟩ := hs.connection token c hget
  unfold reapConnection
  cases hphase : c.phase
  all_goals
    rw [hphase] at hcounted
    simp only [hcounted, Phase.holding, relays, if_true, Bool.false_eq_true, if_false]
  -- The sweep of this connection finds its association.
  case udpControl id =>
    obtain ⟨a, ha, -⟩ := (hs.control token id).2 ⟨c, hget, by rw [hphase]; rfl⟩
    simp only [ha]
    exact .single (.dissolve hget (by rw [hphase]; rfl) ha rfl)
  all_goals exact .single (.leave hget (by rw [hphase]; rintro id ⟨⟩) (by rw [hphase]; rfl)
    (by rw [hphase]; rfl))

/-- The sweep of `reap` for associations whose control connection is gone finds none. -/
theorem orphaned_eq_nil (hs : Sound s) :
    (s.associations.entries.filter fun e => (s.connections.get? e.2.control).isNone) = [] := by
  rw [filter_eq_nil_iff]
  intro e he
  obtain ⟨c, hget, -⟩ := (hs.control e.2.control e.1).1 ⟨e.2, get?_eq_some_iff.2 he, rfl⟩
  rw [hget]
  exact Bool.false_ne_true

theorem reap_eq (hs : Sound s) : s.reap (recorded W) =
    (s.connections.entries.filter fun e => e.2.finished).foldl
      (fun s e => s.reapConnection (recorded W) e.1 e.2) s ∧
      Moves s (s.reap (recorded W)) := by
  have hmoves : Moves s ((s.connections.entries.filter fun e => e.2.finished).foldl
      (fun s e => s.reapConnection (recorded W) e.1 e.2) s) := by
    refine foldl_connections_moves (fun s token c hs hget => ⟨reapConnection_moves hs hget,
      fun other hne => ?_⟩) _ _ hs
      ((filter_sublist.map _).nodup s.connections.nodup)
      fun e he => get?_eq_some_iff.2 (mem_of_mem_filter he)
    rw [reapConnection_connections, get?_erase, if_neg hne]
  have horphaned := orphaned_eq_nil (hmoves.sound hs)
  unfold reap
  dsimp only
  rw [horphaned]
  exact ⟨rfl, hmoves⟩

end Server

/-- One thing after another. -/
theorem Moves.andThen {f : Server (ω × Ledger) → Server (ω × Ledger)}
    (hf : ∀ s, Sound s → Moves s (f s)) (hs : Sound s) (h : Moves s s') : Moves s (f s') :=
  h.trans (hf s' (h.sound hs))

namespace Server

/-- Reaping takes the finished connections. -/
theorem mem_foldl_reapConnection {e : Token × Connection} (es : List (Token × Connection)) :
    ∀ s : Server (ω × Ledger),
    e ∈ (es.foldl (fun s e => s.reapConnection (recorded W) e.1 e.2) s).connections.entries →
      e ∈ s.connections.entries ∧ e ∉ es := by
  induction es with
  | nil => exact fun s h => ⟨h, not_mem_nil⟩
  | cons first es ih =>
    intro s h
    obtain ⟨hmem, hnot⟩ := ih _ h
    rw [reapConnection_connections, mem_erase] at hmem
    refine ⟨hmem.1, fun hin => ?_⟩
    rcases mem_cons.1 hin with rfl | hin
    · exact hmem.2 rfl
    · exact hnot hin

theorem shutdown_moves (hs : Sound s) : Moves s (s.shutdown (recorded W)) ∧
    (s.shutdown (recorded W)).connections.entries = [] ∧ (s.shutdown (recorded W)).resolver.flow =
      none := by
  have hfinish : Move s { s with connections := s.connections.mapValues fun _ c =>
      { c with finished := true } } := .finish
  generalize hf : { s with connections := s.connections.mapValues fun _ c =>
    { c with finished := true } } = f at hfinish
  obtain ⟨heq, hmoves⟩ := reap_eq (W := W) (hfinish.sound hs)
  have hnone : (f.reap (recorded W)).connections.entries = [] := by
    refine eq_nil_iff_forall_not_mem.2 fun e he => ?_
    rw [heq] at he
    obtain ⟨hmem, hnot⟩ := mem_foldl_reapConnection _ _ he
    refine hnot (mem_filter.2 ⟨hmem, ?_⟩)
    subst hf
    obtain ⟨d, -, rfl⟩ := mem_map.1 hmem
    rfl
  -- Every connection is finished, so reaping has taken them all.
  have hfirst := hmoves.head hfinish
  unfold shutdown
  rw [hf]
  dsimp only
  generalize f.reap (recorded W) = r at *
  unfold Resolver.release
  split
  · next hflow => exact ⟨hfirst.tail (.idle rfl), hnone, hflow⟩
  · next flow hflow => exact ⟨(hfirst.tail
      (.release (w := (recorded W).udpRelease r.world flow) hflow rfl)).tail (.idle rfl),
        hnone, rfl⟩

theorem turn_moves {fuel : Nat} {tokens : List Token} (hs : Sound s)
    (h : s.turn (recorded W) fuel tokens = some s') : Moves s s' := by
  obtain ⟨t, hadvance, rfl⟩ := map_eq_some_iff.1 h
  have hdrive : ∀ s, Sound s → Moves s { s with world := (recorded W).drive s.world } := fun s _ =>
    .single (.idle rfl)
  refine .andThen (fun s hs => (reap_eq hs).2) hs (.andThen (fun s hs => expire_moves hs) hs
    (.andThen hdrive hs ?_))
  refine .andThen (fun s _ => deliverDatagrams_moves s) hs ?_
  refine .andThen (fun s _ => foldl_moves deliver_moves tokens s) hs ?_
  refine .andThen (fun s _ => finishLookups_moves s) hs (.andThen hdrive hs ?_)
  exact (advanceAll_moves tokens s hadvance).trans (receiveClientDatagrams_moves t)

theorem accept_moves (s : Server (ω × Ledger)) (client localAddress : SocketAddr)
    (registered : Bool) :
    Moves s (s.accept (recorded W) client localAddress registered) := by
  unfold accept
  split
  · exact .refl
  · next hadmitted =>
    simp only [Bool.or_eq_true, Bool.not_eq_true', decide_eq_true_eq, not_or, Bool.not_eq_false,
      Nat.not_le] at hadmitted
    split
    · exact .single (.enter hadmitted.1.1 hadmitted.1.2 rfl rfl rfl)
    · exact .single .skip

theorem ready_moves (s : Server (ω × Ledger)) (token : Token) (readable writable : Bool) :
    Moves s (s.ready token readable writable) := by
  unfold ready
  split
  · exact .refl
  · next hget => exact .single (.touch hget ⟨rfl, rfl, rfl, .inl rfl, rfl⟩)

end Server

/-! ## Reachable servers -/

/-- The servers that come of any world, any clients and any turns of the loop. Between the calls the
outside may become anything. -/
inductive Reachable (W : World ω) : Server (ω × Ledger) → Prop where
  | new (world : ω) (port : UInt16) (resolvers : List Octets) (credentials : Option (Text × Text)) :
      Reachable W (.new (world, ⟨[], [], [], []⟩) port resolvers credentials)
  | outside {s : Server (ω × Ledger)} {world : ω} : Reachable W s →
    Reachable W { s with world := (world, s.world.2) }
  | accept {s : Server (ω × Ledger)} {client localAddress : SocketAddr} {registered : Bool} :
      Reachable W s → Reachable W (s.accept (recorded W) client localAddress registered)
  | ready {s : Server (ω × Ledger)} {token : Token} {readable writable : Bool} :
      Reachable W s → Reachable W (s.ready token readable writable)
  | udpReadable {s : Server (ω × Ledger)} : Reachable W s →
    Reachable W { s with udpReadable := true }
  | turn {s s' : Server (ω × Ledger)} {fuel : Nat} {tokens : List Token} :
      Reachable W s → s.turn (recorded W) fuel tokens = some s' → Reachable W s'

theorem Sound.new (world : ω × Ledger) (port : UInt16) (resolvers : List Octets)
    (credentials : Option (Text × Text)) : Sound (new world port resolvers credentials) := by
  refine ⟨by rintro token c ⟨⟩, by rintro id a ⟨⟩, fun token id => ⟨?_, ?_⟩⟩
  · rintro ⟨a, ⟨⟩, -⟩
  · rintro ⟨c, ⟨⟩, -⟩

/-- What holds at the start and is kept by every move holds of every reachable server. -/
theorem Reachable.invariant
    (hnew : ∀ world port resolvers credentials,
      I (.new (world, ⟨[], [], [], []⟩) port resolvers credentials))
    (hmove : ∀ s s', Sound s → Move s s' → I s → I s') (h : Reachable W s) : Sound s ∧ I s := by
  induction h with
  | new world port resolvers credentials => exact ⟨.new _ _ _ _, hnew _ _ _ _⟩
  | outside _ ih => exact ⟨⟨ih.1.connection, ih.1.association, ih.1.control⟩,
    hmove _ _ ih.1 (.idle rfl) ih.2⟩
  | accept _ ih => exact (accept_moves _ _ _ _).keeps hmove ih.1 ih.2
  | ready _ ih => exact (ready_moves _ _ _ _).keeps hmove ih.1 ih.2
  | udpReadable _ ih => exact ⟨⟨ih.1.connection, ih.1.association, ih.1.control⟩,
    hmove _ _ ih.1 .readable ih.2⟩
  | turn _ h ih => exact (turn_moves ih.1 h).keeps hmove ih.1 ih.2

/-! ## The flows -/

/-- How often a connection holds a flow. -/
def holds (flow : FlowId) (c : Connection) : Nat := c.phase.holding.flows.count flow

/-- How often a flow is held: by connections, by associations and by the resolver. -/
def holders (s : Server (ω × Ledger)) (flow : FlowId) : Nat :=
  s.connections.tally (holds flow) + s.associations.tally (fun a => [a.flow].count flow) +
    s.resolver.flow.toList.count flow

theorem Move.accounted (h : Move s s') (hs : Sound s) (flow : FlowId)
    (ha : s.world.2.opened.count flow = s.world.2.released.count flow + holders s flow) :
    s'.world.2.opened.count flow = s'.world.2.released.count flow + holders s' flow := by
  have hput := fun {token c} (hget : s.connections.get? token = some c) (c' : Connection) =>
    tally_insert (holds flow) hget c'
  have herase := fun {token c} (hget : s.connections.get? token = some c) =>
    tally_erase (holds flow) hget
  -- What a move gives or takes, the ledger has, and nothing else is held differently.
  unfold holders at *
  cases h with
  | readable | skip => exact ha
  | idle hw => rw [hw]; exact ha
  | send _ hw => rw [hw]; exact ha
  | dialFailed _ hw => rw [hw]; exact ha
  | resolve hresolving =>
    have hopened := hresolving.opened flow
    rw [hresolving.released]
    dsimp only at hopened ⊢
    omega
  | release hflow hw =>
    rw [hflow, toList_some] at ha
    simp only [hw, Ledger.releases, count_append, toList_none, count_nil]
    omega
  | @enter c w _ _ hphase _ hw =>
    have hnew := tally_insert_new (holds flow) hs.fresh c
    simp only [holds, hphase, Phase.holding, flows, count_nil] at hnew
    simp only [put, hw, hnew]
    exact ha
  | @touch _ _ c' w hget hkept =>
    have hput := hput hget c'
    have hledger : w.2 = s.world.2 := hkept.ledger
    simp only [holds, hkept.holding] at hput
    rw [put, hledger]
    dsimp only
    omega
  | @dial _ c _ flow' kind deadline _ hget hnothing _ hw =>
    have hput := hput hget { c with phase := .connecting flow' kind, deadline := deadline }
    simp only [holds, hnothing] at hput
    simp only [Phase.holding, flows, count_nil] at hput
    simp only [put, hw, Ledger.dials, Ledger.opens, count_append]
    omega
  | @establish _ _ c' _ hget hopening _ hrelaying =>
    have hput := hput hget c'
    simp only [holds, hopening, hrelaying, flows] at hput
    simp only [put]
    omega
  | @drop _ _ c' _ _ hget hopening _ hnothing _ hw =>
    have hput := hput hget c'
    simp only [holds, hopening, hnothing, flows, count_nil] at hput
    simp only [put, hw, Ledger.releases, count_append]
    omega
  | @associate token c c' flow' port _ hget hnothing _ _ _ hheld _ hw =>
    have hput := hput hget c'
    have hnew := tally_insert_new (fun a => [a.flow].count flow) hs.unused ⟨token, c.client.ip,
      port, flow', 0⟩
    simp only [holds, hnothing, hheld, flows, count_nil] at hput hnew
    simp only [put, hw, Ledger.opens, count_append]
    omega
  | @rebind _ _ a' hget _ _ hflow =>
    have hrebind := tally_insert (fun a => [a.flow].count flow) hget a'
    simp only [hflow] at hrebind
    dsimp only
    omega
  | finish =>
    rw [tally_mapValues]
    · exact ha
    · exact fun _ _ => rfl
  | leave hget _ hw _ =>
    have herase := herase hget
    simp only [holds] at herase
    simp only [hw, Ledger.releases, count_append]
    omega
  | dissolve hget hheld hassociation hw =>
    have herase := herase hget
    have hgone := tally_erase (fun a => [a.flow].count flow) hassociation
    simp only [holds, hheld, flows, count_nil] at herase
    simp only [hw, Ledger.releases, count_append]
    omega

/-! ## The addresses -/

/-- What is dialled is allowed, and so is what is sent to, unless it is one of the resolver's
servers. -/
def Ledger.Allowed (l : Ledger) (servers : List Octets) : Prop :=
  (∀ address ∈ l.dialled, destinationAllowed address.ip = true) ∧
    ∀ address ∈ l.sent, destinationAllowed address.ip = true ∨ address.port = 53 ∧
      address.ip ∈ servers

theorem Move.allowed (h : Move s s') (ha : s.world.2.Allowed s.resolver.servers) :
    s'.world.2.Allowed s'.resolver.servers := by
  have hof : ∀ {l l' : Ledger}, l = l' → l'.Allowed s.resolver.servers →
      l.Allowed s.resolver.servers :=
    fun heq h => heq ▸ h
  cases h with
  | readable | skip | establish | rebind | finish => exact ha
  | idle hw | leave _ _ hw | dissolve _ _ _ hw | release _ hw => exact hof hw ha
  | enter _ _ _ _ hw => exact hof hw ha
  | drop _ _ _ _ _ hw => exact hof hw ha
  | associate _ _ _ _ _ _ _ hw => exact hof hw ha
  | touch _ hkept => exact hof hkept.ledger ha
  | send hallowed hw => exact hof hw ⟨ha.1, forall_mem_cons.2 ⟨.inl hallowed, ha.2⟩⟩
  | dialFailed hallowed hw | dial _ _ hallowed hw => exact hof hw ⟨forall_mem_cons.2 ⟨hallowed,
      ha.1⟩, ha.2⟩
  | resolve hresolving =>
    refine ⟨by rw [hresolving.dialled]; exact ha.1, fun address hmem => ?_⟩
    rw [hresolving.servers]
    rcases hresolving.sent address hmem with hearlier | hserver
    · exact ha.2 address hearlier
    · exact .inr hserver

/-! ## The counts -/

/-- Whether a connection is relayed for a client, as a number. -/
def relayedFor (client : Octets) (c : Connection) : Nat := if c.counted = true ∧ c.client.ip =
    client then 1 else 0

theorem Move.active (h : Move s s') (hs : Sound s) (client : Octets)
    (ha : s.active client = s.connections.tally (relayedFor client)) :
    s'.active client = s'.connections.tally (relayedFor client) := by
  have hsame : ∀ {token c c'}, s.connections.get? token = some c → c'.counted = c.counted →
      c'.client = c.client →
      s.active client = (s.connections.insert token c').tally (relayedFor client) := by
    intro token c c' hget hcounted hclient
    have hput := tally_insert (relayedFor client) hget c'
    rw [relayedFor, relayedFor, hcounted, hclient] at hput
    omega
  have hactive : ∀ (ip : Octets) (n : Nat), ((s.activeTcp.insert ip n).get? client).getD 0 =
      if client = ip then n else s.active client := by
    intro ip n
    rw [get?_insert]
    split <;> rfl
  cases h with
  | readable | skip | idle | send | resolve | release | rebind | dialFailed => exact ha
  | @enter c _ _ _ _ hcounted =>
    have hnew := tally_insert_new (relayedFor client) hs.fresh c
    rw [relayedFor, hcounted] at hnew
    exact ha.trans hnew.symm
  | touch hget hkept => exact hsame hget hkept.counted hkept.client
  | dial hget => exact hsame hget rfl rfl
  | drop hget _ hclient _ hcounted => exact hsame hget hcounted hclient
  | associate hget _ _ hclient hcounted => exact hsame hget hcounted hclient
  | finish =>
    refine ha.trans (Eq.symm ?_)
    exact tally_mapValues _ fun _ _ => rfl
  | @dissolve token c _ _ _ hget hholding =>
    have herase := tally_erase (relayedFor client) hget
    rw [relayedFor, (hs.connection token c hget).2.1, hholding] at herase
    exact ha.trans herase.symm
  | @establish token c c' _ hget hopening hclient _ _ hcounted =>
    have hput := tally_insert (relayedFor client) hget c'
    rw [relayedFor, relayedFor, hcounted, hclient, (hs.connection token c hget).2.1,
        hopening] at hput
    refine (hactive _ _).trans ?_
    -- The count of this client goes up, and the others' stand.
    by_cases hip : client = c.client.ip
    · simp [← hip, relays] at hput
      rw [if_pos hip, ← hip, ha]
      exact hput.symm
    · simp [Ne.symm hip, relays] at hput
      rw [if_neg hip, ha]
      exact hput.symm
  | @leave token c _ _ hget _ _ hcounts =>
    have herase := tally_erase (relayedFor client) hget
    rw [relayedFor, (hs.connection token c hget).2.1] at herase
    rw [hcounts, active]
    cases hrelays : c.phase.holding.relays with
    | false =>
      simp only [hrelays, Bool.false_eq_true, false_and, if_false] at herase ⊢
      exact ha.trans herase.symm
    | true =>
      refine (hactive _ _).trans ?_
      by_cases hip : client = c.client.ip
      · simp [hrelays, ← hip] at herase
        rw [if_pos hip, ← hip, ha, ← herase]
        rfl
      · simp [hrelays, Ne.symm hip] at herase
        rw [if_neg hip, ha]
        exact herase.symm

/-! ## The limits -/

/-- The limits of the proxy. -/
structure Limited (s : Server (ω × Ledger)) : Prop where
  connections : s.connections.size ≤ maxConnections
  associations : ∀ client, s.associations.tally (fun a => if a.clientIp = client then 1 else 0) ≤
    maxAssociationsPerClient
  clients : ∀ token c, s.connections.get? token = some c → clientAllowed c.client.ip = true

theorem Move.limited (h : Move s s') (hs : Sound s) (hl : Limited s) : Limited s' := by
  obtain ⟨hconnections, hassociations, hclients⟩ := hl
  have hput : ∀ {token c c'}, s.connections.get? token = some c → c'.client = c.client →
      (s.connections.insert token c').size ≤ maxConnections ∧ ∀ token' c'',
        (s.connections.insert token c').get? token' = some c'' → clientAllowed c''.client.ip =
          true := by
    intro token c c' hget hclient
    refine ⟨?_, fun token' c'' hget' => ?_⟩
    · rw [size_insert, size_erase_of_get?_some hget]
      exact hconnections
    · rw [get?_insert] at hget'
      split at hget'
      · cases hget'
        exact hclient ▸ hclients token c hget
      · exact hclients token' c'' hget'
  have herase : ∀ token, (s.connections.erase token).size ≤ maxConnections ∧ ∀ token' c',
      (s.connections.erase token).get? token' = some c' → clientAllowed c'.client.ip = true := by
    intro token
    refine ⟨(s.connections.size_erase_le token).trans hconnections, fun token' c' hget' => ?_⟩
    rw [get?_erase] at hget'
    split at hget'
    · cases hget'
    · exact hclients token' c' hget'
  cases h with
  | readable | skip | idle | send | resolve | release | dialFailed => exact ⟨hconnections,
    hassociations, hclients⟩
  | @enter c _ hallowed hroom =>
    refine ⟨?_, hassociations, fun token' c'' hget' => ?_⟩
    · rw [put, size_insert, KeyedMap.size, entries_erase_of_get?_none hs.fresh]
      exact hroom
    · rw [put, get?_insert] at hget'
      split at hget'
      · cases hget'
        exact hallowed
      · exact hclients token' c'' hget'
  | touch hget hkept => exact ⟨(hput hget hkept.client).1, hassociations,
    (hput hget hkept.client).2⟩
  | dial hget => exact ⟨(hput hget (by rfl)).1, hassociations, (hput hget (by rfl)).2⟩
  | establish hget _ hclient | drop hget _ hclient =>
    exact ⟨(hput hget hclient).1, hassociations, (hput hget hclient).2⟩
  | @associate token c c' flow port _ hget _ hroom hclient =>
    refine ⟨(hput hget hclient).1, fun client => ?_, (hput hget hclient).2⟩
    have hnew := tally_insert_new (fun a => if a.clientIp = client then 1 else 0) hs.unused
      ⟨token, c.client.ip, port, flow, 0⟩
    refine hnew.trans_le ?_
    split
    · next hip =>
      rw [tally_ite, ← hip]
      exact hroom
    · exact hassociations client
  | @rebind _ _ a' hget _ hclient =>
    refine ⟨hconnections, fun client => ?_, hclients⟩
    have hrebind := tally_insert (fun a => if a.clientIp = client then 1 else 0) hget a'
    rw [hclient] at hrebind
    have := hassociations client
    dsimp only
    omega
  | finish =>
    refine ⟨?_, hassociations, fun token c hget => ?_⟩
    · exact (List.length_map _).trans_le hconnections
    · rw [get?_mapValues] at hget
      obtain ⟨d, hd, rfl⟩ := map_eq_some_iff.1 hget
      exact hclients token d hd
  | @leave token => exact ⟨(herase token).1, hassociations, (herase token).2⟩
  | @dissolve token _ id a _ _ _ hassociation =>
    refine ⟨(herase token).1, fun client => ?_, (herase token).2⟩
    have hgone := tally_erase (fun a => if a.clientIp = client then 1 else 0) hassociation
    have := hassociations client
    dsimp only at hgone ⊢
    omega

/-! ## Every reachable server -/

theorem Reachable.sound (h : Reachable W s) : Sound s :=
  (h.invariant (I := fun _ => True) (fun _ _ _ _ => trivial) fun _ _ _ _ h => h).1

variable (s : { s : Server (ω × Ledger) // Reachable W s })

/-- A flow has been opened as often as it was released and is held. -/
theorem flows_accounted (flow : FlowId) :
    s.1.world.2.opened.count flow = s.1.world.2.released.count flow + holders s.1 flow :=
  (s.2.invariant (I := fun s => s.world.2.opened.count flow =
    s.world.2.released.count flow + holders s flow)
    (fun _ _ _ _ => rfl) fun _ _ hs hmove => hmove.accounted hs flow).2

/-- A proxy that shuts down gives everything back: no connection and no association is left, and
what was opened has been released as often. -/
theorem shutdown_releases_all : (s.1.shutdown (recorded W)).connections.entries = [] ∧
    (s.1.shutdown (recorded W)).associations.entries = [] ∧
      (s.1.shutdown (recorded W)).world.2.opened.Perm
        (s.1.shutdown (recorded W)).world.2.released := by
  have hsound := s.2.sound
  obtain ⟨hmoves, hconnections, hflow⟩ := shutdown_moves (W := W) hsound
  generalize s.1.shutdown (recorded W) = t at *
  have hassociations : t.associations.entries = [] := by
    refine eq_nil_iff_forall_not_mem.2 fun e he => ?_
    obtain ⟨c, hget, -⟩ := ((hmoves.sound hsound).control e.2.control e.1).1 ⟨e.2,
      get?_eq_some_iff.2 he, rfl⟩
    rw [get?_eq_some_iff, hconnections] at hget
    cases hget
  refine ⟨hconnections, hassociations, perm_iff_count.2 fun flow => ?_⟩
  have haccounted := (hmoves.keeps (I := fun s => s.world.2.opened.count flow =
    s.world.2.released.count flow + holders s flow)
      (fun _ _ hs hmove => hmove.accounted hs flow) hsound
    (s.2.invariant (I := fun s => s.world.2.opened.count flow =
      s.world.2.released.count flow + holders s flow)
      (fun _ _ _ _ => rfl) fun _ _ hs hmove => hmove.accounted hs flow).2).2
  simp only [holders, KeyedMap.tally, hconnections, hassociations, hflow] at haccounted
  exact haccounted

/-- The proxy connects to allowed destinations only, and sends to these and, on port 53, to its
resolvers. -/
theorem destinations_allowed : s.1.world.2.Allowed s.1.resolver.servers :=
  (s.2.invariant (I := fun s => s.world.2.Allowed s.resolver.servers)
    (fun _ _ _ _ => ⟨by rintro _ ⟨⟩, by rintro _ ⟨⟩⟩) fun _ _ _ hmove => hmove.allowed).2

/-- The count a client is admitted by is the number of its connections that are relayed. -/
theorem active_counts_relayed (client : Octets) : s.1.active client =
    (s.1.connections.entries.filter fun e => e.2.phase.holding.relays ∧ e.2.client.ip =
      client).length := by
  obtain ⟨hs, hactive⟩ := s.2.invariant (I := fun s => s.active client = s.connections.tally
    (relayedFor client))
    (fun _ _ _ _ => rfl) fun _ _ hs hmove => hmove.active hs client
  refine (hactive.trans (tally_ite _ _)).trans (congrArg List.length (filter_congr fun e he => ?_))
  rw [(hs.connection e.1 e.2 (get?_eq_some_iff.2 he)).2.1]

/-- There are never more connections than allowed, nor associations of one client, and every client
is one of the local network. -/
theorem limits_kept : s.1.connections.size ≤ maxConnections ∧
    (∀ client, (s.1.associations.entries.filter fun e => e.2.clientIp = client).length ≤
      maxAssociationsPerClient) ∧
      ∀ e ∈ s.1.connections.entries, clientAllowed e.2.client.ip = true := by
  have hlimited := (s.2.invariant (I := Limited)
    (fun _ _ _ _ => ⟨Nat.zero_le _, fun _ => Nat.zero_le _, by rintro _ _ ⟨⟩⟩)
    fun _ _ hs hmove => hmove.limited hs).2
  refine ⟨hlimited.connections, fun client => ?_, fun e he => ?_⟩
  · exact (tally_ite _ _).symm.trans_le (hlimited.associations client)
  · exact hlimited.clients e.1 e.2 (get?_eq_some_iff.2 he)

/-- An association belongs to the one connection that controls it, so that the sweep of `reap` for
others finds none. -/
theorem associations_controlled (token : Token) (id : Nat) :
    (∃ a, s.1.associations.get? id = some a ∧ a.control = token) ↔
      ∃ c, s.1.connections.get? token = some c ∧ c.phase = .udpControl id := by
  refine ((s.2.sound).control token id).trans (exists_congr fun c => and_congr_right fun _ => ?_)
  cases c.phase <;> simp [Phase.holding]

/-- One client at a time, over an egress where everything opens at once. -/
def openWorld : World Bytes :=
  { oneClient with
    tcpConnect := fun sent _ => (.ok 1, sent)
    tcpState := fun sent _ => (.opened, sent)
    udpOpen := fun sent => (.ok 2, sent) }

/-- A client that asks for an association. -/
def associates : Server (Bytes × Ledger) :=
  (new ([5, 1, 0, 5, 3, 0, 1, 0, 0, 0, 0, 0, 0], ⟨[], [], [], []⟩) 1080 [] none).accept
    (recorded openWorld)
    ⟨(192, 168, 1, 3), 5000⟩ ⟨(192, 168, 1, 1), 1080⟩ true

/-- Then another client, which asks for a connection. -/
def connects (s : Server (Bytes × Ledger)) : Server (Bytes × Ledger) :=
  accept (recorded openWorld) { s with world := ([5, 1, 0, 5, 1, 0, 1, 1, 1, 1, 1, 0, 80],
    s.world.2) }
    ⟨(192, 168, 1, 2), 5000⟩ ⟨(192, 168, 1, 1), 1080⟩ true

example : ∃ s, Reachable openWorld s ∧ s.active (192, 168, 1, 2) = 1 ∧ s.associations.size = 1 ∧
    s.world.2.opened = [1, 2] := by
  have hturns : ((associates.turn (recorded openWorld) 20 [16]).bind fun s =>
      ((connects s).turn (recorded openWorld) 20 [17]).map fun s =>
        (s.active (192, 168, 1, 2), s.associations.size, s.world.2.opened)) =
          some (1, 1, [1, 2]) := by
    decide +kernel
  obtain ⟨s, hs, hrest⟩ := Option.bind_eq_some_iff.1 hturns
  obtain ⟨t, ht, hvalues⟩ := Option.map_eq_some_iff.1 hrest
  injection hvalues with hactive hvalues
  injection hvalues with hsize hopened
  exact ⟨t, .turn (.accept (.outside (.turn (.accept (.new _ _ _ _)) hs))) ht, hactive,
    hsize, hopened⟩

end GamePath.Engine.Socks
