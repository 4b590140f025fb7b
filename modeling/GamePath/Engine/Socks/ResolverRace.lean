import GamePath.Engine.Socks.ResolverAnswers

/-!
# The race between the servers

One query is answered by several servers, and the resolver keeps to the answer that arrives first. A
server that refuses or fails also answers, with no address, and this ends the race as well: the
waiters are told that there is no address although a later response has one. `first_answer_wins_iff`
says so for every order in which the responses arrive, in any number of polls.
-/

namespace GamePath.Engine.Socks

open Lib List KeyedMap ResolverState Dns Outside Net Lib.Run
open Direct (Text)
open Resolver (cached mark_eq receive_cases settle_spec)

/-- What a datagram answers to the query with an identification. -/
def answerOf (servers : List Octets) (id : UInt16) (d : Datagram) : Option Answer :=
  if FromServer servers d then readAnswer d.2 id else none

/-- The answers to one query among what arrived, in order. -/
def answersTo (servers : List Octets) (id : UInt16) (datagrams : List Datagram) : List Answer :=
  datagrams.filterMap (answerOf servers id)

/-- The answer has an address. -/
def CarriesAddress (answer : Answer) : Prop := ∃ addresses ttl, answer = .addresses addresses ttl

section Race

variable {τ ω : Type}

/-- None of the told waits for the name. -/
def Silent (name : Text) (told : List (Told τ)) : Prop := ∀ t ∈ told, t.1.2 ≠ name

variable {told told' : List (Told τ)}

theorem Silent.append {name : Text} (h : Silent name told) (h' : Silent name told') :
    Silent name (told ++ told') := by
  intro t ht
  rcases mem_append.1 ht with ht | ht
  · exact h t ht
  · exact h' t ht

theorem silent_nil (name : Text) : Silent name ([] : List (Told τ)) :=
  nofun

/-- The waiters of a query are told an answer once, and nobody else who waits for the name is told
anything. -/
def ToldOnce (name : Text) (query : Query (τ × Text)) (answer : Answer) (told : List (Told τ)) :
    Prop :=
  ∃ before after rotation,
    told = before ++
      (Resolver.tell name (Resolver.cached answer).1 query.waiters rotation).1 ++ after ∧
      Silent name before ∧ Silent name after

variable {answer : Answer}

theorem ToldOnce.after {name : Text} {query : Query (τ × Text)}
    (h : ToldOnce name query answer told) (h' : Silent name told') :
    ToldOnce name query answer (told ++ told') := by
  obtain ⟨before, after, rotation, rfl, hbefore, hafter⟩ := h
  exact ⟨before, after ++ told', rotation, by simp, hbefore, hafter.append h'⟩

theorem ToldOnce.before {name : Text} {query : Query (τ × Text)} (h : Silent name told)
    (h' : ToldOnce name query answer told') :
    ToldOnce name query answer (told ++ told') := by
  obtain ⟨before, after, rotation, rfl, hbefore, hafter⟩ := h'
  exact ⟨told ++ before, after, rotation, by simp, h.append hbefore, hafter⟩

/-- Nobody waits for the name. -/
def Gone (name : Text) (r : Resolver (τ × Text)) : Prop :=
  ∀ name' query, (name', query) ∈ r.pending.entries → ∀ waiter ∈ query.waiters, waiter.2 ≠ name

/-- The query is pending, perhaps sent again since, and the others have other identifications. -/
structure Waits (name : Text) (query : Query (τ × Text)) (r : Resolver (τ × Text)) : Prop where
  pending : ∃ lastSent, (name, { query with lastSent := lastSent }) ∈ r.pending.entries
  others : ∀ name' query', (name', query') ∈ r.pending.entries → name' ≠ name →
    query'.id ≠ query.id ∧ ∀ waiter ∈ query'.waiters, waiter.2 ≠ name

variable {name : Text} {query : Query (τ × Text)} {r : Resolver (τ × Text)} (W : World ω)

theorem silent_settle (w : ω) {name' : Text} {query' : Query (τ × Text)}
    (answer : Answer) (hother : ∀ waiter ∈ query'.waiters, waiter.2 ≠ name) :
    Silent name (r.settle W w name' query' answer).1 := by
  intro t ht
  have hwaiter : t.1 ∈ query'.waiters := by
    rw [← Resolver.tell_waiters name' (cached answer).1 query'.waiters r.rotation]
    exact mem_map_of_mem ht
  exact hother t.1 hwaiter

theorem Gone.receive (h : Gone name r) (W : World ω) (w : ω) (d : Datagram) :
    Gone name (r.receive W w d).2.1 ∧ Silent name (r.receive W w d).1 := by
  rcases receive_cases W r w d with ⟨hnil, heq⟩ | ⟨name', query', answer, w', -, hmem, -, heq⟩
  · rw [heq, hnil]
    exact ⟨h, silent_nil name⟩
  · rw [heq]
    refine ⟨?_, silent_settle W w' answer (h name' query' hmem)⟩
    intro name'' query'' hmem''
    exact h name'' query'' (mem_erase.1 hmem'').1

theorem Waits.receive_other (h : Waits name query r) (W : World ω) (w : ω) {d : Datagram}
    (hd : answerOf r.servers query.id d = none) :
    Waits name query (r.receive W w d).2.1 ∧ Silent name (r.receive W w d).1 := by
  rcases receive_cases W r w d with
    ⟨hnil, heq⟩ | ⟨name', query', answer, w', hserver, hmem, hread, heq⟩
  · rw [heq, hnil]
    exact ⟨h, silent_nil name⟩
  have hne : name' ≠ name := by
    rintro rfl
    obtain ⟨lastSent, hpending⟩ := h.pending
    have hquery := r.pending.eq_of_mem_of_mem hmem hpending
    rw [answerOf, if_pos hserver] at hd
    rw [hquery] at hread
    rw [hd] at hread
    cases hread
  obtain ⟨-, hwaiters⟩ := h.others name' query' hmem hne
  rw [heq]
  refine ⟨⟨?_, ?_⟩, silent_settle W w' answer hwaiters⟩
  · obtain ⟨lastSent, hpending⟩ := h.pending
    refine ⟨lastSent, ?_⟩
    exact mem_erase.2 ⟨hpending, hne.symm⟩
  · intro name'' query'' hmem''
    exact h.others name'' query'' (mem_erase.1 hmem'').1

theorem Waits.receive_answer (h : Waits name query r) (W : World ω) (w : ω) {d : Datagram}
    (hd : answerOf r.servers query.id d = some answer) :
    Gone name (r.receive W w d).2.1 ∧ ToldOnce name query answer (r.receive W w d).1 := by
  obtain ⟨lastSent, hpending⟩ := h.pending
  have hserver : FromServer r.servers d := by
    by_contra hserver
    simp [answerOf, hserver] at hd
  rw [answerOf, if_pos hserver] at hd
  -- No other pending query has this identification, so the scan of the map finds this one.
  have hfound : r.pending.findMap
      (fun name query => (readAnswer d.2 query.id).map fun answer => (name, query, answer))
      (W.hashOrder w).1 = some (name, { query with lastSent := lastSent }, answer) := by
    refine findMap_eq_some hpending (by simp [hd]) ?_
    intro name' query' hmem hne
    rw [readAnswer_of_ne hd (h.others name' query' hmem hne).1]
    rfl
  have heq : r.receive W w d =
      r.settle W (W.hashOrder w).2 name { query with lastSent := lastSent } answer := by
    have hsource : ¬ (d.1.port ≠ 53 ∨ d.1.ip ∉ r.servers) := by
      push Not
      exact hserver
    simp only [Resolver.receive, if_neg hsource, hfound]
  obtain ⟨htold, -, -, hpending', -⟩ :=
    settle_spec W r (W.hashOrder w).2 name { query with lastSent := lastSent } answer
  rw [heq]
  constructor
  · intro name' query' hmem
    obtain ⟨hmem, hne⟩ := mem_erase.1 hmem
    exact (h.others name' query' hmem hne).2
  · rw [htold]
    exact ⟨[], [], r.rotation, by simp, silent_nil name, silent_nil name⟩

variable (datagrams : List Datagram)

theorem Gone.receiveAll :
    ∀ {r : Resolver (τ × Text)} (w : ω), Gone name r →
      Gone name (Resolver.receiveAll W r w datagrams).2.1 ∧
        Silent name (Resolver.receiveAll W r w datagrams).1 := by
  induction datagrams with
  | nil => exact fun w h => ⟨h, silent_nil name⟩
  | cons d datagrams ih =>
    intro r w h
    obtain ⟨hgone, hsilent⟩ := h.receive W w d
    obtain ⟨hgone', hsilent'⟩ := ih (r.receive W w d).2.2 hgone
    exact ⟨hgone', hsilent.append hsilent'⟩

/-- Over what arrives in one poll: without an answer the query waits on, and the first answer
settles it. -/
theorem Waits.receiveAll :
    ∀ {r : Resolver (τ × Text)} (w : ω), Waits name query r →
      (answersTo r.servers query.id datagrams = [] →
        Waits name query (Resolver.receiveAll W r w datagrams).2.1 ∧
          Silent name (Resolver.receiveAll W r w datagrams).1) ∧
      ∀ answer answers, answersTo r.servers query.id datagrams = answer :: answers →
        Gone name (Resolver.receiveAll W r w datagrams).2.1 ∧
          ToldOnce name query answer (Resolver.receiveAll W r w datagrams).1 := by
  induction datagrams with
  | nil =>
    intro r w h
    exact ⟨fun _ => ⟨h, silent_nil name⟩, fun answer answers hne => by simp [answersTo] at hne⟩
  | cons d datagrams ih =>
    intro r w h
    have hservers := (Resolver.receive_pending_subset W r w d).2
    cases hd : answerOf r.servers query.id d with
    | none =>
      obtain ⟨hwaits, hsilent⟩ := h.receive_other W w hd
      obtain ⟨hnone, hsome⟩ := ih (r.receive W w d).2.2 hwaits
      rw [hservers] at hnone hsome
      have hskip : answersTo r.servers query.id (d :: datagrams) =
          answersTo r.servers query.id datagrams := by
        simp [answersTo, hd]
      rw [hskip]
      constructor
      · intro hnil
        obtain ⟨hwaits', hsilent'⟩ := hnone hnil
        exact ⟨hwaits', hsilent.append hsilent'⟩
      · intro answer answers hcons
        obtain ⟨hgone, htold⟩ := hsome answer answers hcons
        exact ⟨hgone, ToldOnce.before hsilent htold⟩
    | some first =>
      have hfirst : answersTo r.servers query.id (d :: datagrams) =
          first :: answersTo r.servers query.id datagrams := by
        simp [answersTo, hd]
      rw [hfirst]
      refine ⟨fun hnil => by simp at hnil, ?_⟩
      intro answer answers hcons
      cases hcons
      obtain ⟨hgone, htold⟩ := h.receive_answer W w hd
      obtain ⟨hgone', hsilent⟩ := Gone.receiveAll W datagrams (r.receive W w d).2.2 hgone
      exact ⟨hgone', htold.after hsilent⟩

/-! ## Over the polls -/

theorem Gone.retry (h : Gone name r) (W : World ω) (flow : FlowId) (w : ω) :
    Gone name (r.retry W flow w).2.1 ∧ Silent name (r.retry W flow w).1 := by
  constructor
  · intro name' query' hmem
    obtain ⟨query'', hmem', rfl⟩ := Resolver.mem_retry_pending hmem
    rw [mark_eq]
    exact h name' query'' hmem'
  · intro t ht
    obtain ⟨name', query', hmem, -, hwaiter, -⟩ := Resolver.retry_told ht
    exact h name' query' hmem t.1 hwaiter

theorem Waits.retry (h : Waits name query r) (W : World ω) (flow : FlowId) (w : ω)
    (htime : (W.now w).1 - query.started < queryTimeout) :
    Waits name query (r.retry W flow w).2.1 ∧ Silent name (r.retry W flow w).1 := by
  obtain ⟨lastSent, hpending⟩ := h.pending
  let sent : Query (τ × Text) := { query with lastSent := lastSent }
  have hkeep : Resolver.expired (W.now w).1 sent = false := by
    simp only [Resolver.expired, sent, decide_eq_false_iff_not, not_le]
    exact htime
  refine ⟨⟨⟨(Resolver.mark (W.now w).1 sent).lastSent, ?_⟩, ?_⟩, ?_⟩
  · refine mem_map.2 ⟨(name, sent), mem_retain.2 ⟨hpending, by simp [hkeep]⟩, ?_⟩
    exact congrArg (Prod.mk name) (mark_eq (W.now w).1 sent)
  · intro name' query' hmem hne
    obtain ⟨query'', hmem', rfl⟩ := Resolver.mem_retry_pending hmem
    rw [mark_eq]
    exact h.others name' query'' hmem' hne
  intro t ht
  obtain ⟨name', query', hmem, hlate, hwaiter, -⟩ := Resolver.retry_told ht
  by_cases hname : name' = name
  · -- It would be the query itself, which is not late.
    subst hname
    rw [r.pending.eq_of_mem_of_mem hmem hpending, hkeep] at hlate
    cases hlate
  · exact (h.others name' query' hmem hname).2 t.1 hwaiter

theorem poll_eq (w : ω) {flow : FlowId} (hflow : r.flow = some flow) :
    r.poll W w =
      let opened := W.udpRecv w flow
      let answered := Resolver.receiveAll W r opened.2 opened.1
      let late := answered.2.1.retry W flow answered.2.2
      (answered.1 ++ late.1, late.2) := by
  simp only [Resolver.poll, hflow]

theorem Gone.poll (h : Gone name r) (W : World ω) (w : ω) :
    Gone name (r.poll W w).2.1 ∧ Silent name (r.poll W w).1 := by
  cases hflow : r.flow with
  | none =>
    simp only [Resolver.poll, hflow]
    exact ⟨h, silent_nil name⟩
  | some flow =>
    obtain ⟨hgone, hsilent⟩ := Gone.receiveAll W (W.udpRecv w flow).1 (W.udpRecv w flow).2 h
    obtain ⟨hgone', hsilent'⟩ := hgone.retry W flow
      (Resolver.receiveAll W r (W.udpRecv w flow).2 (W.udpRecv w flow).1).2.2
    rw [poll_eq W w hflow]
    exact ⟨hgone', hsilent.append hsilent'⟩

theorem receiveAll_fixed :
    ∀ (r : Resolver (τ × Text)) (w : ω),
      (Resolver.receiveAll W r w datagrams).2.1.servers = r.servers ∧
        (Resolver.receiveAll W r w datagrams).2.1.flow = r.flow := by
  induction datagrams with
  | nil => exact fun r w => ⟨rfl, rfl⟩
  | cons d datagrams ih =>
    intro r w
    obtain ⟨hservers, hflow⟩ := ih (r.receive W w d).2.1 (r.receive W w d).2.2
    have hfixed : (r.receive W w d).2.1.servers = r.servers ∧
        (r.receive W w d).2.1.flow = r.flow := by
      rcases receive_cases W r w d with ⟨-, heq⟩ | ⟨name, query, answer, w', -, -, -, heq⟩
      · rw [heq]
        exact ⟨rfl, rfl⟩
      · rw [heq]
        exact ⟨rfl, rfl⟩
    exact ⟨hservers.trans hfixed.1, hflow.trans hfixed.2⟩

theorem poll_fixed (w : ω) :
    (r.poll W w).2.1.servers = r.servers ∧ (r.poll W w).2.1.flow = r.flow := by
  cases hflow : r.flow with
  | none => simp [Resolver.poll, hflow]
  | some flow =>
    rw [poll_eq W w hflow]
    obtain ⟨hservers, hflow'⟩ := receiveAll_fixed W (W.udpRecv w flow).1 r (W.udpRecv w flow).2
    exact ⟨hservers, hflow'.trans hflow⟩

/-- One poll in time: without an answer the query waits on, and the first answer settles it. -/
theorem Waits.poll (h : Waits name query r) (net : Net) {flow : FlowId} (hflow : r.flow = some flow)
    (htime : ∀ k, net.outside.clock k - query.started < queryTimeout) :
    (answersTo r.servers query.id net.outside.waiting = [] →
      Waits name query (r.poll world net).2.1 ∧ Silent name (r.poll world net).1) ∧
    ∀ answer answers, answersTo r.servers query.id net.outside.waiting = answer :: answers →
      Gone name (r.poll world net).2.1 ∧
        ToldOnce name query answer (r.poll world net).1 := by
  let opened := (world.udpRecv net flow).2
  let answered := Resolver.receiveAll world r opened net.outside.waiting
  obtain ⟨hnone, hsome⟩ := h.receiveAll world net.outside.waiting opened
  have htraffic := Resolver.receiveAll_traffic r opened net.outside.waiting
  have hclock : (world.now answered.2.2).1 - query.started < queryTimeout := by
    show answered.2.2.outside.clock answered.2.2.readings - query.started < queryTimeout
    rw [htraffic.outside]
    exact htime _
  rw [poll_eq world net hflow]
  constructor
  · intro hnil
    obtain ⟨hwaits, hsilent⟩ := hnone hnil
    obtain ⟨hwaits', hsilent'⟩ := hwaits.retry world flow answered.2.2 hclock
    exact ⟨hwaits', hsilent.append hsilent'⟩
  · intro answer answers hcons
    obtain ⟨hgone, htold⟩ := hsome answer answers hcons
    obtain ⟨hgone', hsilent⟩ := hgone.retry world flow answered.2.2
    exact ⟨hgone', htold.after hsilent⟩

end Race

/-! ## The outcome of the race -/

section Outcome

variable {τ : Type}

/-- Polls, one for each script of the outside. -/
def pollCalls (outsides : List Outside) : List (ResolverCall τ × Outside) :=
  outsides.map fun outside => (.poll, outside)

/-- What a sequence of polls tells from a state. -/
def toldByPolls (s : ResolverState τ) (outsides : List Outside) : List (Told τ) :=
  (execFrom step ⟨s, []⟩ (pollCalls outsides)).log.flatMap Prod.snd

/-- Every waiter of a query is told something, and nothing but an address of one of the answers. -/
def EveryWaiterServed (query : Query (τ × Text)) (answers : List Answer) (told : List (Told τ)) :
    Prop :=
  ∀ waiter ∈ query.waiters, (∃ result, (waiter, result) ∈ told) ∧
    ∀ result, (waiter, result) ∈ told →
      ∃ addresses ttl, Answer.addresses addresses ttl ∈ answers ∧
        ∃ address ∈ addresses, result = .ok address

theorem flatMap_execFrom (calls : List (ResolverCall τ × Outside)) (c : ResolverRun τ) :
    (execFrom step c calls).log.flatMap Prod.snd =
      c.log.flatMap Prod.snd ++
        (execFrom step ⟨c.state, []⟩ calls).log.flatMap Prod.snd := by
  induction calls generalizing c with
  | nil => simp
  | cons call calls ih =>
    rw [execFrom_cons, execFrom_cons, ih (advance step c call),
      ih (advance step ⟨c.state, []⟩ call)]
    simp [append_assoc]

theorem toldByPolls_cons (s : ResolverState τ) (outside : Outside) (outsides : List Outside) :
    toldByPolls s (outside :: outsides) =
      (s.step (.poll, outside)).2 ++ toldByPolls (s.step (.poll, outside)).1 outsides := by
  have hlog := flatMap_execFrom (pollCalls outsides)
    (advance step (⟨s, []⟩ : ResolverRun τ) (.poll, outside))
  simpa [toldByPolls, pollCalls] using hlog

variable {name : Text}

theorem Gone.toldByPolls (outsides : List Outside) :
    ∀ s : ResolverState τ, Gone name s.resolver → Silent name (toldByPolls s outsides) := by
  induction outsides with
  | nil => exact fun s _ => silent_nil name
  | cons outside outsides ih =>
    intro s h
    obtain ⟨hgone, hsilent⟩ := h.poll world
      { s.net with outside := outside, readings := 0, choices := 0 }
    rw [toldByPolls_cons]
    exact hsilent.append (ih (s.step (.poll, outside)).1 hgone)

variable {query : Query (τ × Text)}

/-- Over any number of polls in time, the first answer that arrives is what the waiters are told. -/
theorem Waits.toldByPolls {flow : FlowId} {servers : List Octets} {first : Answer}
    (outsides : List Outside)
    (htime : ∀ outside ∈ outsides, ∀ k, outside.clock k - query.started < queryTimeout) :
    ∀ s : ResolverState τ, Waits name query s.resolver → s.resolver.flow = some flow →
      s.resolver.servers = servers →
      (answersTo servers query.id (outsides.flatMap waiting)).head? = some first →
      ToldOnce name query first (toldByPolls s outsides) := by
  induction outsides with
  | nil => exact fun s _ _ _ hhead => by simp [answersTo] at hhead
  | cons outside outsides ih =>
    intro s h hflow hservers hhead
    let net : Net := { s.net with outside := outside, readings := 0, choices := 0 }
    obtain ⟨hnone, hsome⟩ := h.poll net hflow (htime outside mem_cons_self)
    rw [hservers] at hnone hsome
    have happend : answersTo servers query.id ((outside :: outsides).flatMap waiting) =
        answersTo servers query.id outside.waiting ++
          answersTo servers query.id (outsides.flatMap waiting) := by
      simp [answersTo]
    rw [happend] at hhead
    rw [toldByPolls_cons]
    cases hanswers : answersTo servers query.id outside.waiting with
    | nil =>
      obtain ⟨hwaits, hsilent⟩ := hnone hanswers
      obtain ⟨hservers', hflow'⟩ := poll_fixed (r := s.resolver) world net
      rw [hanswers] at hhead
      exact ToldOnce.before hsilent (ih
        (fun outside' hmem => htime outside' (mem_cons_of_mem _ hmem))
        (s.step (.poll, outside)).1 hwaits (hflow'.trans hflow) (hservers'.trans hservers) hhead)
    | cons answer answers =>
      obtain ⟨hgone, htold⟩ := hsome answer answers hanswers
      rw [hanswers] at hhead
      have hfirst : answer = first := Option.some.inj hhead
      rw [← hfirst]
      exact htold.after (Gone.toldByPolls outsides _ hgone)

theorem ToldOnce.exists_told {answer : Answer} {told : List (Told τ)}
    (h : ToldOnce name query answer told) {waiter : τ × Text} (hwaiter : waiter ∈ query.waiters) :
    ∃ result, (waiter, result) ∈ told := by
  obtain ⟨before, after, rotation, rfl, -, -⟩ := h
  rw [← Resolver.tell_waiters name (cached answer).1 query.waiters rotation] at hwaiter
  obtain ⟨⟨waiter', result⟩, hmem, rfl⟩ := mem_map.1 hwaiter
  exact ⟨result, mem_append_left _ (mem_append_right _ hmem)⟩

theorem ToldOnce.mem_tell {answer : Answer} {told : List (Told τ)}
    (h : ToldOnce name query answer told) {t : Told τ} (ht : t ∈ told) (hname : t.1.2 = name) :
    ∃ rotation, t ∈ (Resolver.tell name (cached answer).1 query.waiters rotation).1 := by
  obtain ⟨before, after, rotation, rfl, hbefore, hafter⟩ := h
  rcases mem_append.1 ht with ht | ht
  · rcases mem_append.1 ht with ht | ht
    · exact absurd hname (hbefore t ht)
    · exact ⟨rotation, ht⟩
  · exact absurd hname (hafter t ht)

/-- In every run, whatever arrives, the pending queries have waiters of their own name and a flow.
-/
theorem sound_of_run (servers : List Octets) (calls : List (ResolverCall τ × Outside)) :
    (exec step (init servers) calls).state.resolver.Sound servers
      (exec step (init servers) calls).state.net.sent
      fun _ _ => True := by
  refine exec_invariant
    (I := fun c : ResolverRun τ =>
      c.state.resolver.Sound servers c.state.net.sent fun _ _ => True) ?_ ?_ calls
  · exact soundRun_init.1.mono (List.Subset.refl _) (fun _ _ _ => trivial) fun d hd => .inl hd
  rintro c ⟨action, outside⟩ h
  let net : Net := { c.state.net with outside := outside, readings := 0, choices := 0 }
  have hnet : c.state.resolver.Sound servers net.sent fun _ _ => True := h
  cases action with
  | lookup name waiter => exact (hnet.lookup name waiter).1
  | poll => exact (hnet.poll fun d _ _ _ _ _ _ _ _ _ _ => trivial).1

/-- A query that is pending after a run, with an identification of its own, waits. -/
theorem waits_of_run (servers : List Octets) (calls : List (ResolverCall τ × Outside))
    (hpending : (exec step (init servers)
      calls).state.resolver.pending.get? name = some query)
    (hids : ∀ name' query', (name', query') ∈ (exec step (init servers)
      calls).state.resolver.pending.entries → name' ≠ name → query'.id ≠ query.id) :
    Waits name query (exec step (init servers) calls).state.resolver where
  pending := ⟨query.lastSent, get?_eq_some_iff.1 hpending⟩
  others name' query' hmem hne := by
    refine ⟨hids name' query' hmem hne, ?_⟩
    intro waiter hwaiter
    rw [((sound_of_run servers calls).tagged name' query' hmem).2 waiter hwaiter]
    exact hne

/-- For a query that is pending after any run, with an identification that no other pending query
has, and any order of responses that arrive in time and of which one has an address: every waiter is
told an address of a successful response exactly when the response that arrives first is one. -/
theorem first_answer_wins_iff (servers : List Octets) (calls : List (ResolverCall τ × Outside))
    (outsides : List Outside) (name : Text) (query : Query (τ × Text))
    (hpending : (exec step (init servers)
      calls).state.resolver.pending.get? name = some query)
    (hids : ∀ name' query', (name', query') ∈ (exec step (init servers)
      calls).state.resolver.pending.entries → name' ≠ name → query'.id ≠ query.id)
    (htime : ∀ outside ∈ outsides, ∀ k, outside.clock k - query.started < queryTimeout)
    (hone : ∃ answer ∈ answersTo servers query.id (outsides.flatMap waiting),
      CarriesAddress answer) :
    EveryWaiterServed query (answersTo servers query.id (outsides.flatMap waiting))
        (toldByPolls (exec step (init servers) calls).state outsides) ↔
      ∃ first, (answersTo servers query.id (outsides.flatMap waiting)).head? = some first ∧
        CarriesAddress first := by
  have hsound := sound_of_run servers calls
  have hwaits := waits_of_run servers calls hpending hids
  have hmem := KeyedMap.get?_eq_some_iff.1 hpending
  obtain ⟨flow, hflow⟩ := Option.ne_none_iff_exists'.1 (hsound.flow (List.ne_nil_of_mem hmem))
  obtain ⟨hwaiters, htagged⟩ := hsound.tagged name query hmem
  generalize (exec step (init servers) calls).state = s at *
  generalize hall : answersTo servers query.id (outsides.flatMap waiting) = answers at *
  obtain ⟨first, hfirst⟩ : ∃ first, answers.head? = some first := by
    obtain ⟨answer, hanswer, -⟩ := hone
    exact ⟨_, List.head?_eq_some_head (List.ne_nil_of_mem hanswer)⟩
  have htold : ToldOnce name query first (toldByPolls s outsides) :=
    hwaits.toldByPolls outsides htime s hflow hsound.servers_eq (hall ▸ hfirst)
  constructor
  · intro hserved
    refine ⟨first, hfirst, ?_⟩
    -- A waiter exists, and what it was told is the first answer.
    obtain ⟨waiter, hwaiter⟩ := List.exists_mem_of_ne_nil _ hwaiters
    obtain ⟨⟨result, hresult⟩, hgood⟩ := hserved waiter hwaiter
    obtain ⟨addresses, ttl, -, address, -, hok⟩ := hgood result hresult
    obtain ⟨rotation, htell⟩ := htold.mem_tell hresult (htagged waiter hwaiter)
    cases first with
    | addresses addresses ttl => exact ⟨addresses, ttl, rfl⟩
    | noAddress rcode =>
      have herror := Resolver.tell_none htell
      rw [hok] at herror
      cases herror
  · rintro ⟨first', hfirst', addresses, ttl, rfl⟩
    obtain rfl : first = .addresses addresses ttl := Option.some.inj (hfirst.symm.trans hfirst')
    have hin : Answer.addresses addresses ttl ∈ answers := List.mem_of_mem_head? hfirst
    have hne : addresses ≠ [] := by
      rw [← hall] at hin
      obtain ⟨d, -, hread⟩ := List.mem_filterMap.1 hin
      rw [answerOf] at hread
      split at hread
      · exact addresses_ne_nil hread
      · cases hread
    intro waiter hwaiter
    refine ⟨htold.exists_told hwaiter, ?_⟩
    intro result hresult
    obtain ⟨rotation, htell⟩ := htold.mem_tell hresult (htagged waiter hwaiter)
    obtain ⟨address, haddress, hok⟩ := Resolver.tell_some hne htell
    exact ⟨addresses, ttl, hin, address, haddress, hok⟩

end Outcome

/-- A response to the query for `a` under the identification 7 that has a code and no records. -/
def failureResponse (rcode : UInt8) : Bytes :=
  [0, 7, 0x81, 0x80 ||| rcode, 0, 1, 0, 0, 0, 0, 0, 0, 1, 97, 0, 0, 1, 0, 1]

/-- One server refuses and the other one has an address. -/
def refusalAndAddress : Datagram × Datagram :=
  ((⟨(8, 8, 8, 8), 53⟩, failureResponse 5),
    (⟨(8, 8, 4, 4), 53⟩, oneLetterResponse 7 97 (1, 1, 1, 1)))

/-- The query for `a` while it is pending. -/
def queryForA : Query (Unit × Text) :=
  ⟨7, (query 7 ['a']).getD [], 0, 0, [((), ['a'])]⟩

/-- The successful response arrives first. -/
theorem first_answer_wins_addressFirst :
    EveryWaiterServed queryForA
      (answersTo fallbackResolvers 7 [refusalAndAddress.2, refusalAndAddress.1])
      (toldByPolls (exec step (init fallbackResolvers)
        [(.lookup ['a'] (), outsideOf 7 [])]).state
        [outsideOf 0 [refusalAndAddress.2], outsideOf 0 [refusalAndAddress.1]]) := by
  refine (first_answer_wins_iff fallbackResolvers [(.lookup ['a'] (), outsideOf 7 [])]
    [outsideOf 0 [refusalAndAddress.2], outsideOf 0 [refusalAndAddress.1]] ['a'] queryForA
    (by decide +kernel) ?_ ?_ ?_).2 ?_
  · intro name' query' hmem hne
    have hnames : (exec step (init fallbackResolvers)
        [(.lookup ['a'] (), outsideOf 7 [])]).state.resolver.pending.entries.map Prod.fst =
        [['a']] := by
      decide +kernel
    have hname : name' ∈ [['a']] := hnames ▸ List.mem_map_of_mem hmem
    exact absurd (List.mem_singleton.1 hname) hne
  · intro outside houtside k
    have hclock : outside.clock k = 0 := by
      rcases List.mem_cons.1 houtside with rfl | hmem
      · rfl
      · rw [List.mem_singleton.1 hmem]
        rfl
    rw [hclock]
    decide
  · exact ⟨.addresses [(1, 1, 1, 1)] 60, by decide +kernel, _, _, rfl⟩
  · exact ⟨.addresses [(1, 1, 1, 1)] 60, by decide +kernel, _, _, rfl⟩

/-- The refusal arrives first, and the waiter is told that the name has no address. -/
theorem refusal_ends_the_race :
    answersTo fallbackResolvers 7 [refusalAndAddress.1, refusalAndAddress.2] =
        [.noAddress 5, .addresses [(1, 1, 1, 1)] 60] ∧
      ¬ EveryWaiterServed queryForA
        (answersTo fallbackResolvers 7 [refusalAndAddress.1, refusalAndAddress.2])
        (toldByPolls (exec step (init fallbackResolvers)
          [(.lookup ['a'] (), outsideOf 7 [])]).state
          [outsideOf 0 [refusalAndAddress.1], outsideOf 0 [refusalAndAddress.2]]) := by
  refine ⟨by decide +kernel, ?_⟩
  intro hserved
  have htold : (((), ['a']), Except.error "a has no IPv4 address".toList) ∈
      toldByPolls (exec step (init fallbackResolvers)
        [(.lookup ['a'] (), outsideOf 7 [])]).state
        [outsideOf 0 [refusalAndAddress.1], outsideOf 0 [refusalAndAddress.2]] := by
    decide +kernel
  obtain ⟨-, hgood⟩ := hserved ((), ['a']) (by decide)
  obtain ⟨addresses, ttl, -, address, -, hok⟩ := hgood _ htold
  cases hok

end GamePath.Engine.Socks
