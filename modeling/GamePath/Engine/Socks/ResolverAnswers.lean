import GamePath.Engine.Socks.ResolverRuns

/-!
# Which name an address is given for

A response is attributed to the first pending query met that has its identification; the question it
repeats is not compared with the query's. `Learned` says where an address given for a name should
have come from: a response about that name. The attribution is right as long as every response that
arrives bears an identification under which one question was asked (`UnambiguousId`). An
identification is drawn at random for each query, so a late response can meet a query for another
name that drew the same one.
-/

namespace GamePath.Engine.Socks

open Lib List KeyedMap ResolverState Lib.Run
open Direct (Text)
open Net (world)

/-- The address was read from a response that was received and asks for the name. -/
def Learned (received : List Datagram) (name : Text) (address : Octets) : Prop :=
  ∃ d ∈ received, Dns.AsksFor d.2 name ∧
    ∃ id addresses ttl, Dns.readAnswer d.2 id = some (.addresses addresses ttl) ∧
      address ∈ addresses

theorem Learned.mono {received received' : List Datagram} {name : Text} {address : Octets}
    (hsub : received ⊆ received') (h : Learned received name address) :
    Learned received' name address := by
  obtain ⟨d, hd, hasks, hread⟩ := h
  exact ⟨d, hsub hd, hasks, hread⟩

/-- What a run told and what is cached was learned for the name it stands under. -/
def Attributed {τ : Type} (servers : List Octets)
    (calls : List (ResolverCall τ × Outside)) : Prop :=
  let c := exec step (init servers) calls
  (∀ entry ∈ c.log, ∀ waiter name address, ((waiter, name), .ok address) ∈ entry.2 →
    Learned c.state.net.received name address) ∧
  ∀ name addresses expires, (name, some addresses, expires) ∈ c.state.resolver.cache.entries →
    ∀ address ∈ addresses, Learned c.state.net.received name address

/-- A datagram that the resolver takes for one of its servers. -/
def FromServer (servers : List Octets) (d : Datagram) : Prop := d.1.port = 53 ∧ d.1.ip ∈ servers

/-- Each server repeats the question of a query that it was sent. -/
def ServersCopy (servers : List Octets) {τ : Type} (c : ResolverRun τ)
    (call : ResolverCall τ × Outside) : Prop :=
  ∀ d ∈ call.2.waiting, FromServer servers d →
    ∃ query ∈ c.state.net.sent, query.1 = d.1 ∧ Dns.CopiesQuestion query.2 d.2

/-- The messages sent so far under the identification of an arriving response all ask one question.
-/
def UnambiguousId (servers : List Octets) {τ : Type} (c : ResolverRun τ)
    (call : ResolverCall τ × Outside) : Prop :=
  ∀ d ∈ call.2.waiting, FromServer servers d →
    ∀ query ∈ c.state.net.sent, ∀ query' ∈ c.state.net.sent,
      Dns.u16At query.2 0 = Dns.u16At d.2 0 → Dns.u16At query'.2 0 = Dns.u16At d.2 0 →
        query.2.drop Dns.headerLen = query'.2.drop Dns.headerLen

/-! ## What the waiters are told -/

theorem pick_mem {addresses : List Octets} (hne : addresses ≠ []) (rotation : Nat) :
    (pick rotation addresses).2 ∈ addresses := by
  have hpos := length_pos_iff.2 hne
  have hlt : (rotation + 1) % 2 ^ 64 % addresses.length < addresses.length := Nat.mod_lt _ hpos
  simp only [pick, getD_eq_getElem?_getD, getElem?_eq_getElem hlt, Option.getD_some]
  exact getElem_mem hlt

namespace Resolver

variable {τ ω : Type}

theorem tell_waiters (name : Text) (addresses : Option (List Octets)) (waiters : List τ)
    (rotation : Nat) : (tell name addresses waiters rotation).1.map Prod.fst = waiters := by
  induction waiters generalizing rotation with
  | nil => rfl
  | cons waiter waiters ih =>
    cases addresses with
    | none | some => simp [tell, ih]

variable {told : τ × Except Text Octets} {name : Text}

theorem tell_some {list : List Octets} (hne : list ≠ []) {waiters : List τ} {rotation : Nat}
    (h : told ∈ (tell name (some list) waiters rotation).1) :
    ∃ address ∈ list, told.2 = .ok address := by
  induction waiters generalizing rotation with
  | nil => exact absurd h not_mem_nil
  | cons waiter waiters ih =>
    simp only [tell, mem_cons] at h
    rcases h with rfl | h
    · exact ⟨_, pick_mem hne rotation, rfl⟩
    · exact ih h

theorem tell_none {waiters : List τ} {rotation : Nat}
    (h : told ∈ (tell name none waiters rotation).1) :
    told.2 = .error (name ++ " has no IPv4 address".toList) := by
  induction waiters generalizing rotation with
  | nil => exact absurd h not_mem_nil
  | cons waiter waiters ih =>
    simp only [tell, mem_cons] at h
    rcases h with rfl | h
    · rfl
    · exact ih h

theorem makeRoom_subset (W : World ω) (cache : KeyedMap Text (Option (List Octets) × Instant))
    (w : ω) :
    (makeRoom W cache w).1.entries ⊆ cache.entries := by
  simp only [makeRoom]
  split
  · split
    · exact nil_subset _
    · exact filter_subset_self _
  · exact List.Subset.refl _

/-- Settling a query tells its waiters, forgets it and keeps the answer. -/
theorem settle_spec (W : World ω) (r : Resolver τ) (w : ω) (name : Text) (query : Query τ)
    (answer : Dns.Answer) :
    (r.settle W w name query answer).1 =
        (tell name (Resolver.cached answer).1 query.waiters r.rotation).1 ∧
      (r.settle W w name query answer).2.1.servers = r.servers ∧
      (r.settle W w name query answer).2.1.flow = r.flow ∧
      (r.settle W w name query answer).2.1.pending = r.pending.erase name ∧
      ∃ (kept : KeyedMap Text (Option (List Octets) × Instant)) (expires : Instant),
        kept.entries ⊆ r.cache.entries ∧
        (r.settle W w name query answer).2.1.cache =
          kept.insert name ((Resolver.cached answer).1, expires) :=
  ⟨rfl, rfl, rfl, rfl, _, _, makeRoom_subset W r.cache w, rfl⟩

theorem receive_cases (W : World ω) (r : Resolver τ) (w : ω) (d : Datagram) :
    ((r.receive W w d).1 = [] ∧ (r.receive W w d).2.1 = r) ∨
      ∃ name query answer w', FromServer r.servers d ∧ (name, query) ∈ r.pending.entries ∧
        Dns.readAnswer d.2 query.id = some answer ∧
        r.receive W w d = r.settle W w' name query answer := by
  simp only [receive]
  split
  · exact .inl ⟨rfl, rfl⟩
  next hsource =>
    split
    · exact .inl ⟨rfl, rfl⟩
    next name query answer hfound =>
      obtain ⟨k, v, hmem, hsome⟩ := exists_of_findMap hfound
      obtain ⟨answer', hread, heq⟩ := Option.map_eq_some_iff.1 hsome
      obtain ⟨rfl, rfl, rfl⟩ : k = name ∧ v = query ∧ answer' = answer := by
        simpa [Prod.ext_iff] using heq
      push Not at hsource
      exact .inr ⟨k, v, answer', _, hsource, hmem, hread, rfl⟩

/-! ## The invariant of every run -/

/-- The queries of a resolver are the ones it sent, each under the name it asks for, and what it
keeps in its cache is good for the name it is kept under, in the sense of `L`. -/
structure Sound (servers : List Octets) (sent : List Datagram) (L : Text → Octets → Prop)
    (r : Resolver (τ × Text)) : Prop where
  servers_eq : r.servers = servers
  flow : r.pending.entries ≠ [] → r.flow ≠ none
  tagged : ∀ name query, (name, query) ∈ r.pending.entries →
    query.waiters ≠ [] ∧ ∀ waiter ∈ query.waiters, waiter.2 = name
  message : ∀ name query, (name, query) ∈ r.pending.entries →
    Dns.query query.id name = some query.message
  asked : ∀ d ∈ sent, ∃ id name, Dns.query id name = some d.2
  sent_all : ∀ name query, (name, query) ∈ r.pending.entries →
    ∀ server ∈ servers, (⟨server, 53⟩, query.message) ∈ sent
  cached : ∀ name addresses expires, (name, some addresses, expires) ∈ r.cache.entries →
    addresses ≠ [] ∧ ∀ address ∈ addresses, L name address

variable {servers : List Octets} {sent : List Datagram} {L L' : Text → Octets → Prop}
  {r : Resolver (τ × Text)}

theorem Sound.mono (h : Sound servers sent L r) {sent' : List Datagram}
    (hsent : sent ⊆ sent') (hL : ∀ name address, L name address → L' name address)
    (hasked : ∀ d ∈ sent', d ∈ sent ∨ ∃ id name, Dns.query id name = some d.2) :
    Sound servers sent' L' r where
  servers_eq := h.servers_eq
  flow := h.flow
  tagged := h.tagged
  message := h.message
  asked d hd := (hasked d hd).elim (h.asked d) id
  sent_all name query hmem server hserver := hsent (h.sent_all name query hmem server hserver)
  cached name addresses expires hmem :=
    ⟨(h.cached name addresses expires hmem).1, fun address haddress =>
      hL name address ((h.cached name addresses expires hmem).2 address haddress)⟩

/-- The addresses of a response are good for the name of every pending query that it can be taken
for. -/
def GoodFor (L : Text → Octets → Prop) (r : Resolver (τ × Text)) (d : Datagram) : Prop :=
  FromServer r.servers d → ∀ name query, (name, query) ∈ r.pending.entries →
    ∀ addresses ttl, Dns.readAnswer d.2 query.id = some (.addresses addresses ttl) →
      ∀ address ∈ addresses, L name address

/-- A response that copies a query is about a pending query with its identification, when only one
question was asked under that. -/
theorem Sound.goodFor (h : Sound servers sent L r) {d : Datagram} {received : List Datagram}
    (hd : d ∈ received) (hcopies : FromServer servers d →
      ∃ query ∈ sent, query.1 = d.1 ∧ Dns.CopiesQuestion query.2 d.2)
    (hone : FromServer servers d → ∀ query ∈ sent, ∀ query' ∈ sent,
      Dns.u16At query.2 0 = Dns.u16At d.2 0 → Dns.u16At query'.2 0 = Dns.u16At d.2 0 →
        query.2.drop Dns.headerLen = query'.2.drop Dns.headerLen) :
    GoodFor (Learned received) r d := by
  intro hserver name query hmem addresses ttl hread address haddress
  rw [h.servers_eq] at hserver
  obtain ⟨copied, hcopied, -, hcopy⟩ := hcopies hserver
  obtain ⟨id, asked, hquery⟩ := h.asked copied hcopied
  -- The pending query was sent to this very server, under the identification of the response.
  have hsent := h.sent_all name query hmem d.1.ip hserver.2
  have hmessage := h.message name query hmem
  have hid : Dns.u16At query.message 0 = Dns.u16At d.2 0 := by
    rw [Dns.u16At_query hmessage, Dns.id_of_readAnswer hread]
  have hsame := hone hserver _ hsent _ hcopied hid hcopy.1.symm
  have hasks : Dns.AsksFor d.2 name := by
    refine Dns.AsksFor.of_copiesQuestion hquery hcopy ?_
    rw [Dns.drop_query hmessage, Dns.drop_query hquery, hsame]
  exact ⟨d, hd, hasks, query.id, addresses, ttl, hread, haddress⟩

theorem cached_eq_some {answer : Dns.Answer} {addresses : List Octets} {ttl : Nat}
    (h : Resolver.cached answer = (some addresses, ttl)) :
    ∃ ttl', answer = .addresses addresses ttl' := by
  cases answer with
  | addresses list ttl' =>
    obtain ⟨rfl, -⟩ : list = addresses ∧ _ := by simpa [Resolver.cached] using h
    exact ⟨ttl', rfl⟩
  | noAddress rcode => simp [Resolver.cached] at h

/-- Settling a query with an answer that is good for its name keeps the invariant. -/
theorem Sound.settle (h : Sound servers sent L r) (W : World ω) (w : ω) {query : Query (τ × Text)}
    {answer : Dns.Answer} (hmem : (name, query) ∈ r.pending.entries) {d : Datagram}
    (hread : Dns.readAnswer d.2 query.id = some answer)
    (hgood : ∀ addresses ttl, answer = .addresses addresses ttl →
      ∀ address ∈ addresses, L name address) :
    Sound servers sent L (r.settle W w name query answer).2.1 ∧
      ∀ told ∈ (r.settle W w name query answer).1, ∀ address, told.2 = .ok address →
        L told.1.2 address := by
  have hlearned : ∀ addresses ttl, Resolver.cached answer = (some addresses, ttl) →
      addresses ≠ [] ∧ ∀ address ∈ addresses, L name address := by
    intro addresses ttl hcached
    obtain ⟨ttl', rfl⟩ := cached_eq_some hcached
    exact ⟨Dns.addresses_ne_nil hread, hgood addresses ttl' rfl⟩
  have herase : ∀ e ∈ (r.pending.erase name).entries, e ∈ r.pending.entries := by
    intro e he
    exact (mem_erase.1 he).1
  obtain ⟨htold, hservers, hflow, hpending, kept, expires, hkept, hcache⟩ :=
    settle_spec W r w name query answer
  constructor
  · refine ⟨hservers.trans h.servers_eq, ?_, ?_, ?_, h.asked, ?_, ?_⟩
    · intro _
      exact h.flow (ne_nil_of_mem hmem)
    · intro name' query' hmem'
      exact h.tagged name' query' (herase _ hmem')
    · intro name' query' hmem'
      exact h.message name' query' (herase _ hmem')
    · intro name' query' hmem'
      exact h.sent_all name' query' (herase _ hmem')
    · intro name' addresses expires' hmem'
      rw [hcache] at hmem'
      rcases mem_insert.1 hmem' with heq | ⟨hold, -⟩
      · obtain ⟨rfl, heq'⟩ := Prod.mk.inj heq
        exact hlearned addresses (Resolver.cached answer).2
          (Prod.ext (Prod.mk.inj heq').1.symm rfl)
      · exact h.cached name' addresses expires' (hkept hold)
  · intro told hmemTold address hok
    rw [htold] at hmemTold
    have hwaiter : told.1 ∈ query.waiters := by
      rw [← tell_waiters name (Resolver.cached answer).1 query.waiters r.rotation]
      exact mem_map_of_mem hmemTold
    rw [(h.tagged name query hmem).2 told.1 hwaiter]
    cases hcached : (Resolver.cached answer).1 with
    | none =>
      rw [hcached] at hmemTold
      rw [tell_none hmemTold] at hok
      cases hok
    | some addresses =>
      rw [hcached] at hmemTold
      obtain ⟨hne, hall⟩ := hlearned addresses (Resolver.cached answer).2 (Prod.ext hcached rfl)
      obtain ⟨address', haddress, heq⟩ := tell_some hne hmemTold
      rw [heq] at hok
      exact Except.ok.inj hok ▸ hall address' haddress

theorem receive_pending_subset (W : World ω) (r : Resolver τ) (w : ω) (d : Datagram) :
    (r.receive W w d).2.1.pending.entries ⊆ r.pending.entries ∧
      (r.receive W w d).2.1.servers = r.servers := by
  rcases receive_cases W r w d with ⟨-, heq⟩ | ⟨name, query, answer, w', -, -, -, heq⟩
  · rw [heq]
    exact ⟨List.Subset.refl _, rfl⟩
  · rw [heq]
    obtain ⟨-, hservers, -, hpending, -⟩ := settle_spec W r w' name query answer
    exact ⟨filter_subset_self _, hservers⟩

theorem Sound.receive (h : Sound servers sent L r) (W : World ω) (w : ω) {d : Datagram}
    (hgood : GoodFor L r d) :
    Sound servers sent L (r.receive W w d).2.1 ∧
      ∀ told ∈ (r.receive W w d).1, ∀ address, told.2 = .ok address → L told.1.2 address := by
  rcases receive_cases W r w d with ⟨hnil, heq⟩ | ⟨name, query, answer, w', hserver, hmem,
    hread, heq⟩
  · rw [heq, hnil]
    exact ⟨h, nofun⟩
  · rw [heq]
    refine h.settle W w' hmem hread ?_
    rintro addresses ttl rfl
    exact hgood hserver name query hmem addresses ttl hread

theorem Sound.receiveAll (W : World ω) {datagrams : List Datagram} :
    ∀ {r : Resolver (τ × Text)} (w : ω), Sound servers sent L r →
      (∀ d ∈ datagrams, GoodFor L r d) →
      Sound servers sent L (receiveAll W r w datagrams).2.1 ∧
        ∀ told ∈ (receiveAll W r w datagrams).1, ∀ address, told.2 = .ok address →
          L told.1.2 address := by
  induction datagrams with
  | nil =>
    intro r w h _
    exact ⟨h, nofun⟩
  | cons d datagrams ih =>
    intro r w h hgood
    obtain ⟨hsound, htold⟩ := h.receive W w (hgood d mem_cons_self)
    obtain ⟨hpending, hservers⟩ := receive_pending_subset W r w d
    obtain ⟨hsound', htold'⟩ := ih (r.receive W w d).2.2 hsound (by
      -- What the rest can be taken for was pending from the start.
      intro d' hd' hserver name query hmem
      rw [hservers] at hserver
      exact hgood d' (mem_cons_of_mem _ hd') hserver name query (hpending hmem))
    refine ⟨hsound', ?_⟩
    intro told hmem
    rcases mem_append.1 hmem with hmem | hmem
    · exact htold told hmem
    · exact htold' told hmem

theorem mark_eq (now : Instant) (query : Query τ) :
    mark now query = { query with lastSent := (mark now query).lastSent } := by
  simp only [mark]
  split <;> rfl

theorem mem_retry_pending {W : World ω} {r : Resolver τ} {flow : FlowId} {w : ω} {query : Query τ}
    (h : (name, query) ∈ (r.retry W flow w).2.1.pending.entries) :
    ∃ query', (name, query') ∈ r.pending.entries ∧ query = mark (W.now w).1 query' := by
  obtain ⟨e, he, heq⟩ := mem_map.1 h
  cases heq
  exact ⟨e.2, (mem_retain.1 he).1, rfl⟩

variable {net : Net}

/-- A retry keeps the invariant; what it sends are messages of pending queries. -/
theorem Sound.retry (h : Sound servers net.sent L r) (flow : FlowId) :
    Sound servers (r.retry world flow net).2.2.sent L (r.retry world flow net).2.1 := by
  let now := (world.now net).1
  let kept : Resolver (τ × Text) :=
    { r with pending := r.pending.retain fun _ query => !expired now query }
  have hold : ∀ name query, (name, query) ∈ (r.retry world flow net).2.1.pending.entries →
      ∃ query', (name, query') ∈ r.pending.entries ∧ query'.id = query.id ∧
        query'.message = query.message ∧ query'.waiters = query.waiters := by
    intro name query hmem
    obtain ⟨query', hmem', heq⟩ := mem_retry_pending hmem
    rw [mark_eq] at heq
    refine ⟨query', hmem', ?_, ?_, ?_⟩ <;> rw [heq]
  have hmono : Sound servers (r.retry world flow net).2.2.sent L r := by
    refine h.mono (subset_resend_sent kept flow now (world.now net).2) (fun _ _ => id) ?_
    intro d hd
    rcases mem_resend_sent hd with hsame | ⟨entry, hmem, hmessage⟩
    · exact .inl hsame
    · refine .inr ⟨entry.2.id, entry.1, ?_⟩
      rw [hmessage]
      exact h.message entry.1 entry.2 (mem_retain.1 hmem).1
  refine ⟨hmono.servers_eq, ?_, ?_, ?_, hmono.asked, ?_, hmono.cached⟩
  · intro hne
    obtain ⟨⟨name, query⟩, hmem⟩ := exists_mem_of_ne_nil _ hne
    obtain ⟨query', hmem', -⟩ := hold name query hmem
    exact hmono.flow (ne_nil_of_mem hmem')
  · intro name query hmem
    obtain ⟨query', hmem', -, -, hwaiters⟩ := hold name query hmem
    rw [← hwaiters]
    exact hmono.tagged name query' hmem'
  · intro name query hmem
    obtain ⟨query', hmem', hid, hmessage, -⟩ := hold name query hmem
    rw [← hid, ← hmessage]
    exact hmono.message name query' hmem'
  · intro name query hmem
    obtain ⟨query', hmem', -, hmessage, -⟩ := hold name query hmem
    rw [← hmessage]
    exact hmono.sent_all name query' hmem'

theorem retry_told {W : World ω} {r : Resolver τ} {flow : FlowId} {w : ω}
    (h : told ∈ (r.retry W flow w).1) :
    ∃ name query, (name, query) ∈ r.pending.entries ∧ expired (W.now w).1 query = true ∧
      told.1 ∈ query.waiters ∧ told.2 = .error ("no resolver answered for ".toList ++ name) := by
  obtain ⟨⟨name, query⟩, hmem, hgive⟩ := mem_flatMap.1 h
  obtain ⟨waiter, hwaiter, rfl⟩ := mem_map.1 hgive
  exact ⟨name, query, (mem_filter.1 hmem).1, (mem_filter.1 hmem).2, hwaiter, rfl⟩

theorem poll_received (r : Resolver τ) (net : Net) (hflow : r.flow ≠ none) :
    (r.poll world net).2.2.received = net.received ++ net.outside.waiting := by
  cases hopen : r.flow with
  | none => exact absurd hopen hflow
  | some flow =>
    simp only [Resolver.poll, hopen, Resolver.retry]
    rw [resend_received]
    exact (receiveAll_traffic r _ net.outside.waiting).received

theorem poll_received_subset (r : Resolver τ) (net : Net) :
    net.received ⊆ (r.poll world net).2.2.received := by
  by_cases hflow : r.flow = none
  · simp [Resolver.poll, hflow]
  · rw [poll_received r net hflow]
    exact subset_append_left _ _

/-- A poll keeps the invariant when every response is good for the query it can be taken for, and
tells addresses that are good for the name of the waiter. -/
theorem Sound.poll (h : Sound servers net.sent L r)
    (hgood : ∀ d ∈ net.outside.waiting, GoodFor L r d) :
    Sound servers (r.poll world net).2.2.sent L (r.poll world net).2.1 ∧
      ∀ told ∈ (r.poll world net).1, ∀ address, told.2 = .ok address → L told.1.2 address := by
  cases hflow : r.flow with
  | none =>
    have heq : r.poll world net = ([], r, net) := by simp [Resolver.poll, hflow]
    rw [heq]
    exact ⟨h, nofun⟩
  | some flow =>
    let opened : Net := { net with received := net.received ++ net.outside.waiting }
    let answered := Resolver.receiveAll world r opened net.outside.waiting
    have heq : r.poll world net =
        (answered.1 ++ (answered.2.1.retry world flow answered.2.2).1,
          (answered.2.1.retry world flow answered.2.2).2) := by
      simp only [Resolver.poll, hflow]
      rfl
    obtain ⟨hanswered, htold⟩ := Sound.receiveAll world opened h hgood
    have hsent : answered.2.2.sent = net.sent :=
      (receiveAll_traffic r opened net.outside.waiting).sent
    rw [heq]
    refine ⟨Sound.retry (hsent ▸ hanswered) flow, ?_⟩
    intro told hmem address hok
    rcases mem_append.1 hmem with hmem | hmem
    · exact htold told hmem address hok
    · obtain ⟨name, query, -, -, -, herror⟩ := retry_told hmem
      rw [herror] at hok
      cases hok

/-- A pending query with one more waiter, or a new one, keeps the invariant. -/
theorem Sound.insert (h : Sound servers sent L r) {query : Query (τ × Text)} (hflow : r.flow ≠ none)
    (htagged : query.waiters ≠ [] ∧ ∀ waiter ∈ query.waiters, waiter.2 = name)
    (hmessage : Dns.query query.id name = some query.message)
    (hsent : ∀ server ∈ servers, (⟨server, 53⟩, query.message) ∈ sent) :
    Sound servers sent L { r with pending := r.pending.insert name query } where
  servers_eq := h.servers_eq
  flow _ := hflow
  tagged name' query' hmem := by
    rcases mem_insert.1 hmem with heq | ⟨hold, -⟩
    · cases heq
      exact htagged
    · exact h.tagged name' query' hold
  message name' query' hmem := by
    rcases mem_insert.1 hmem with heq | ⟨hold, -⟩
    · cases heq
      exact hmessage
    · exact h.message name' query' hold
  asked := h.asked
  sent_all name' query' hmem := by
    rcases mem_insert.1 hmem with heq | ⟨hold, -⟩
    · cases heq
      exact hsent
    · exact h.sent_all name' query' hold
  cached := h.cached

/-- Starting a query keeps the invariant, with what it sends. -/
theorem Sound.start (h : Sound servers net.sent L r) {flow : FlowId} (hflow : r.flow = some flow)
    (name : Text) (waiter : τ) :
    Sound servers (r.start world net flow name (waiter, name)).2.2.sent L
        (r.start world net flow name (waiter, name)).2.1 ∧
      (r.start world net flow name (waiter, name)).2.2.received = net.received ∧
      ∀ address, (r.start world net flow name (waiter, name)).1 ≠ .ready address := by
  cases hquery : Dns.query net.outside.id name with
  | none =>
    have heq : r.start world net flow name (waiter, name) =
        (.failed (name ++ " is not a valid hostname".toList), r, net) := by
      simp [Resolver.start, world, hquery]
    rw [heq]
    exact ⟨h, rfl, fun address hready => by simp at hready⟩
  | some message =>
    let timed := (world.now net).2
    let now := (world.now net).1
    have heq : r.start world net flow name (waiter, name) =
        (.pending,
          { r with
            pending := r.pending.insert name
              ⟨net.outside.id, message, now, now, [(waiter, name)]⟩ },
          sendAll world r.servers flow message timed) := by
      simp only [Resolver.start, world, hquery]
      rfl
    rw [heq]
    have hsent := sendAll_sent r.servers flow message timed
    have hreceived := sendAll_received r.servers flow message timed
    refine ⟨?_, hreceived, fun address hready => by simp at hready⟩
    rw [hsent]
    have hmono : Sound servers
        (net.sent ++ r.servers.map fun server => (⟨server, 53⟩, message)) L r := by
      refine h.mono (subset_append_left _ _) (fun _ _ => id) ?_
      intro d hd
      rcases mem_append.1 hd with hd | hd
      · exact .inl hd
      · obtain ⟨server, -, rfl⟩ := mem_map.1 hd
        exact .inr ⟨net.outside.id, name, hquery⟩
    refine hmono.insert (by simp [hflow]) ⟨by simp, by simp⟩ hquery ?_
    intro server hserver
    rw [← h.servers_eq] at hserver
    exact mem_append_right _ (mem_map.2 ⟨server, hserver, rfl⟩)

/-- A lookup the cache does not answer keeps the invariant and gives no address. -/
theorem Sound.ask (h : Sound servers net.sent L r) (name : Text) (waiter : τ) :
    Sound servers (r.ask world net name (waiter, name)).2.2.sent L
        (r.ask world net name (waiter, name)).2.1 ∧
      (r.ask world net name (waiter, name)).2.2.received = net.received ∧
      ∀ address, (r.ask world net name (waiter, name)).1 ≠ .ready address := by
  cases hpending : r.pending.get? name with
  | some query =>
    have hmem := get?_eq_some_iff.1 hpending
    have heq : r.ask world net name (waiter, name) =
        (.pending,
          { r with
            pending := r.pending.insert name
              { query with waiters := query.waiters ++ [(waiter, name)] } },
          net) := by
      simp [Resolver.ask, hpending]
    rw [heq]
    refine ⟨?_, rfl, fun address hready => by simp at hready⟩
    refine h.insert (h.flow (ne_nil_of_mem hmem)) ⟨by simp, ?_⟩
      (h.message name query hmem) (h.sent_all name query hmem)
    intro waiter' hmem'
    rcases mem_snoc.1 hmem' with hold | hnew
    · exact (h.tagged name query hmem).2 waiter' hold
    · rw [hnew]
  | none =>
    cases hflow : r.flow with
    | some flow =>
      have heq : r.ask world net name (waiter, name) =
          r.start world net flow name (waiter, name) := by
        simp [Resolver.ask, hpending, hflow]
      rw [heq]
      exact h.start hflow name waiter
    | none =>
      cases hopen : net.outside.opened with
      | error error =>
        have heq : r.ask world net name (waiter, name) = (.failed error, r, net) := by
          simp [Resolver.ask, hpending, hflow, world, hopen]
        rw [heq]
        exact ⟨h, rfl, fun address hready => by simp at hready⟩
      | ok flow =>
        let withFlow : Resolver (τ × Text) := { r with flow := some flow }
        have heq : r.ask world net name (waiter, name) =
            withFlow.start world net flow name (waiter, name) := by
          simp [Resolver.ask, hpending, hflow, world, hopen, withFlow]
        have hsound : Sound servers net.sent L withFlow :=
          ⟨h.servers_eq, fun _ => by simp [withFlow], h.tagged, h.message, h.asked, h.sent_all,
            h.cached⟩
        rw [heq]
        exact hsound.start rfl name waiter

/-- A lookup keeps the invariant and gives addresses of its name only. -/
theorem Sound.lookup (h : Sound servers net.sent L r) (name : Text) (waiter : τ) :
    Sound servers (r.lookup world net name (waiter, name)).2.2.sent L
        (r.lookup world net name (waiter, name)).2.1 ∧
      (r.lookup world net name (waiter, name)).2.2.received = net.received ∧
      ∀ address, (r.lookup world net name (waiter, name)).1 = .ready address →
        L name address := by
  have hask : ∀ net' : Net, net'.sent = net.sent → net'.received = net.received →
      Sound servers (r.ask world net' name (waiter, name)).2.2.sent L
          (r.ask world net' name (waiter, name)).2.1 ∧
        (r.ask world net' name (waiter, name)).2.2.received = net.received ∧
        ∀ address, (r.ask world net' name (waiter, name)).1 = .ready address →
          L name address := by
    intro net' hsent hreceived
    rw [← hsent] at h
    obtain ⟨hsound, hsame, hnone⟩ := h.ask name waiter
    exact ⟨hsound, hsame.trans hreceived, fun address hready => absurd hready (hnone address)⟩
  cases hcache : r.cache.get? name with
  | none =>
    have heq : r.lookup world net name (waiter, name) =
        r.ask world net name (waiter, name) := by
      simp [Resolver.lookup, hcache]
    rw [heq]
    exact hask net rfl rfl
  | some entry =>
    obtain ⟨addresses, expires⟩ := entry
    let timed := (world.now net).2
    by_cases hfresh : (world.now net).1 < expires
    · cases addresses with
      | none =>
        have heq : r.lookup world net name (waiter, name) =
            (.failed (name ++ " did not resolve".toList), r, timed) := by
          simp [Resolver.lookup, hcache, hfresh, timed]
        rw [heq]
        exact ⟨h, rfl, fun address hready => by simp at hready⟩
      | some addresses =>
        obtain ⟨hne, hlearned⟩ :=
          h.cached name addresses expires (get?_eq_some_iff.1 hcache)
        have heq : r.lookup world net name (waiter, name) =
            (.ready (pick r.rotation addresses).2,
              { r with rotation := (pick r.rotation addresses).1 }, timed) := by
          simp [Resolver.lookup, hcache, hfresh, timed]
        rw [heq]
        refine ⟨⟨h.servers_eq, h.flow, h.tagged, h.message, h.asked, h.sent_all, h.cached⟩, rfl, ?_⟩
        intro address hready
        exact Lookup.ready.inj hready ▸ hlearned _ (pick_mem hne r.rotation)
    · have heq : r.lookup world net name (waiter, name) =
          r.ask world timed name (waiter, name) := by
        simp [Resolver.lookup, hcache, hfresh, timed]
      rw [heq]
      exact hask timed rfl rfl

end Resolver

/-! ## Every run -/

section Runs

variable {τ : Type} {servers : List Octets}

/-- The invariant of a run with its log. -/
def SoundRun (servers : List Octets) (c : ResolverRun τ) : Prop :=
  c.state.resolver.Sound servers c.state.net.sent (Learned c.state.net.received) ∧
    ∀ entry ∈ c.log, ∀ waiter name address, ((waiter, name), .ok address) ∈ entry.2 →
      Learned c.state.net.received name address

theorem soundRun_init : SoundRun (τ := τ) servers ⟨init servers, []⟩ := by
  constructor
  · exact ⟨rfl, by simp [init, Resolver.new, KeyedMap.empty],
      by simp [init, Resolver.new, KeyedMap.empty],
      by simp [init, Resolver.new, KeyedMap.empty],
      by simp [init], by simp [init, Resolver.new, KeyedMap.empty],
      by simp [init, Resolver.new, KeyedMap.empty]⟩
  · intro entry hentry
    exact absurd hentry not_mem_nil

/-- One call keeps the invariant: a lookup whatever is drawn, a poll when its responses are
unambiguous. -/
theorem soundRun_advance
    (c : ResolverRun τ) (call : ResolverCall τ × Outside) (hcopy : ServersCopy servers c call)
    (hone : UnambiguousId servers c call) (h : SoundRun servers c) :
    SoundRun servers (advance step c call) := by
  obtain ⟨hsound, hlog⟩ := h
  obtain ⟨action, outside⟩ := call
  let net : Net := { c.state.net with outside := outside, readings := 0, choices := 0 }
  have hnet : c.state.resolver.Sound servers net.sent (Learned net.received) := hsound
  cases action with
  | lookup name waiter =>
    obtain ⟨hsound', hreceived, hready⟩ := hnet.lookup name waiter
    have hsame : (advance step c (.lookup name waiter, outside)).state.net.received =
      c.state.net.received := hreceived
    rw [SoundRun, hsame]
    refine ⟨hsound', ?_⟩
    intro entry hentry waiter' name' address hmem
    rcases mem_snoc.1 hentry with hold | rfl
    · exact hlog entry hold waiter' name' address hmem
    simp only [step] at hmem
    split at hmem
    next address' hanswer =>
      obtain ⟨⟨rfl, rfl⟩, rfl⟩ : (waiter' = waiter ∧ name' = name) ∧ address = address' := by
        simpa [Prod.ext_iff] using hmem
      exact hready address hanswer
    · simp at hmem
    · simp at hmem
  | poll =>
    let received := (advance step c (.poll, outside)).state.net.received
    have hsub : net.received ⊆ received := Resolver.poll_received_subset c.state.resolver net
    have hgood : ∀ d ∈ net.outside.waiting,
        Resolver.GoodFor (Learned received) c.state.resolver d := by
      intro d hd hserver name query hmem
      have hflow := hnet.flow (ne_nil_of_mem hmem)
      have hreceived : received = net.received ++ outside.waiting :=
        Resolver.poll_received c.state.resolver net hflow
      have hd' : d ∈ received := by
        rw [hreceived]
        exact mem_append_right _ hd
      exact hnet.goodFor hd' (hcopy d hd) (hone d hd) hserver name query hmem
    obtain ⟨hsound', htold⟩ := (hnet.mono (List.Subset.refl _)
      (fun name address hlearned => hlearned.mono hsub) fun d hd => .inl hd).poll hgood
    refine ⟨hsound', ?_⟩
    intro entry hentry waiter' name' address hmem
    rcases mem_snoc.1 hentry with hold | rfl
    · exact (hlog entry hold waiter' name' address hmem).mono hsub
    · exact htold _ hmem address rfl

/-- In every run in which each arriving response bears an identification under which one question
was asked, every address that is told or cached for a name was read from a response about that name.
-/
theorem addresses_attributed (servers : List Octets) (calls : List (ResolverCall τ × Outside))
    (hcalls : Meets step
      (fun c call => ServersCopy servers c call ∧ UnambiguousId servers c call)
      ⟨init servers, []⟩ calls) :
    Attributed servers calls := by
  obtain ⟨hsound, hlog⟩ := execFrom_invariant_of_meets (I := SoundRun servers)
    (fun c call hcall h => soundRun_advance c call hcall.1 hcall.2 h) calls _ hcalls soundRun_init
  refine ⟨hlog, ?_⟩
  intro name addresses expires hmem
  exact (hsound.cached name addresses expires hmem).2

end Runs

/-! ## An identification that is drawn twice -/

/-- A successful response to the query for a one-letter name, with one address. -/
def oneLetterResponse (id : UInt8) (letter : UInt8) (address : Octets) : Bytes :=
  [0, id, 0x81, 0x80, 0, 1, 0, 1, 0, 0, 0, 0, 1, letter, 0, 0, 1, 0, 1] ++
    [0xc0, 12, 0, 1, 0, 1, 0, 0, 0, 60, 0, 4, address.1, address.2.1, address.2.2.1, address.2.2.2]

/-- The answers of the outside when `id` is drawn and `waiting` has arrived, at the time 0. -/
def outsideOf (id : UInt16) (waiting : List Datagram) : Outside :=
  ⟨.ok 3, id, fun _ => 0, fun _ => 0, waiting⟩

/-- Both servers answer a query for `a`, the second one after `b` was asked for under the same
identification. -/
def lateAnswerCalls : List (ResolverCall Unit × Outside) :=
  [(.lookup ['a'] (), outsideOf 7 []),
    (.poll, outsideOf 0 [(⟨(8, 8, 8, 8), 53⟩, oneLetterResponse 7 97 (1, 1, 1, 1))]),
    (.lookup ['b'] (), outsideOf 7 []),
    (.poll, outsideOf 0 [(⟨(8, 8, 4, 4), 53⟩, oneLetterResponse 7 97 (1, 1, 1, 1))])]

/-- The resolvers of `FALLBACK_RESOLVERS`. -/
def fallbackResolvers : List Octets := [(8, 8, 8, 8), (8, 8, 4, 4)]

instance decidableFromServer (servers : List Octets) (d : Datagram) :
    Decidable (FromServer servers d) :=
  inferInstanceAs (Decidable (_ ∧ _))

instance decidableServersCopy (servers : List Octets) {τ : Type} (c : ResolverRun τ)
    (call : ResolverCall τ × Outside) : Decidable (ServersCopy servers c call) :=
  inferInstanceAs (Decidable (∀ d ∈ call.2.waiting, FromServer servers d →
    ∃ query ∈ c.state.net.sent, query.1 = d.1 ∧ Dns.CopiesQuestion query.2 d.2))

instance decidableUnambiguousId (servers : List Octets) {τ : Type} (c : ResolverRun τ)
    (call : ResolverCall τ × Outside) : Decidable (UnambiguousId servers c call) :=
  inferInstanceAs (Decidable (∀ d ∈ call.2.waiting, FromServer servers d →
    ∀ query ∈ c.state.net.sent, ∀ query' ∈ c.state.net.sent,
      Dns.u16At query.2 0 = Dns.u16At d.2 0 → Dns.u16At query'.2 0 = Dns.u16At d.2 0 →
        query.2.drop Dns.headerLen = query'.2.drop Dns.headerLen))

/-- With another identification drawn for `b` the late response is nobody's. -/
theorem addresses_attributed_lateAnswer :
    Attributed fallbackResolvers (lateAnswerCalls.take 2 ++
      (.lookup ['b'] (), outsideOf 8 []) :: lateAnswerCalls.drop 3) :=
  addresses_attributed fallbackResolvers _ (by decide +kernel)

/-- Although every server copies the question it answers, `b` is told the address of `a`. -/
theorem late_answer_crosses_names :
    Meets step (ServersCopy fallbackResolvers)
        ⟨init fallbackResolvers, []⟩ lateAnswerCalls ∧
      ¬ Attributed fallbackResolvers lateAnswerCalls := by
  refine ⟨by decide +kernel, ?_⟩
  rintro ⟨htold, -⟩
  have hanswer : [(((), ['b']), Except.ok (1, 1, 1, 1))] ∈ (exec step
      (init fallbackResolvers) lateAnswerCalls).log.map Prod.snd := by
    decide +kernel
  obtain ⟨entry, hentry, htoldEntry⟩ := List.mem_map.1 hanswer
  have hlearned := htold entry hentry () ['b'] (1, 1, 1, 1)
    (by rw [htoldEntry]; exact List.mem_cons_self)
  obtain ⟨d, hd, hasks, -⟩ := hlearned
  have hnone : ∀ d ∈ (exec step (init fallbackResolvers)
      lateAnswerCalls).state.net.received, ¬ Dns.AsksFor d.2 ['b'] := by
    decide +kernel
  exact hnone d hd hasks

end GamePath.Engine.Socks
