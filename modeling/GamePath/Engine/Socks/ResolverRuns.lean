import GamePath.Lib.Run
import GamePath.Engine.Socks.Resolver

/-!
# Runs of the resolver

A run is a sequence of lookups and polls. Each call brings the answers the outside gives during it:
the flow, the random identification, the clock, the order in which the hash map is met and the
datagrams that arrived. What was sent and what was received is kept, for a statement about a run
speaks of it. A waiter carries the name it waits for, so that what it is told can be compared with
that name; the resolver itself never looks at its waiters.
-/

namespace GamePath.Engine.Socks

open Lib List Lib.Run
open Direct (Text)

/-- What the outside answers during one call of the resolver. -/
structure Outside where
  opened : Except Text FlowId
  id : UInt16
  clock : Nat → Instant
  order : Nat → Nat
  waiting : List Datagram

/-- The outside during a call, with everything sent and received so far. -/
structure Net where
  outside : Outside
  readings : Nat
  choices : Nat
  sent : List Datagram
  received : List Datagram

/-- The calls of the resolver, answered from the script of the current call. It makes no others. -/
def Net.world : World Net where
  tcpConnect net _ := (.error [], net)
  tcpState net _ := (.closed, net)
  tcpSend net _ _ := (0, net)
  tcpRecv net _ _ := ([], net)
  tcpSendIdle net _ := (true, net)
  tcpShutdown net _ := net
  tcpRelease net _ := net
  udpOpen net := (net.outside.opened, net)
  udpSend net _ remote payload := (true, { net with sent := net.sent ++ [(remote, payload)] })
  udpRecv net _ :=
    (net.outside.waiting, { net with received := net.received ++ net.outside.waiting })
  udpRelease net _ := net
  drive net := net
  now net := (net.outside.clock net.readings, { net with readings := net.readings + 1 })
  random net := (net.outside.id, net)
  hashOrder net := (net.outside.order net.choices, { net with choices := net.choices + 1 })
  read net _ _ := (.wouldBlock, net)
  write net _ _ := (.wouldBlock, net)
  shutdownWrite net _ := net
  recvFrom net := ([], net)
  sendTo net _ _ := (true, net)
  base64 _ := none

/-- A call of the resolver. -/
inductive ResolverCall (τ : Type) where
  | lookup (name : Text) (waiter : τ)
  | poll

/-- A waiter, the name it waits for and what it is told. -/
abbrev Told (τ : Type) := (τ × Text) × Except Text Octets

/-- The resolver with what is outside it. -/
structure ResolverState (τ : Type) where
  resolver : Resolver (τ × Text)
  net : Net

/-- A run of the resolver so far. -/
abbrev ResolverRun (τ : Type) := Config (ResolverState τ) (ResolverCall τ × Outside) (List (Told τ))

namespace ResolverState

variable {τ : Type}

/-- A resolver that was not asked anything yet. -/
def init (servers : List Octets) : ResolverState τ where
  resolver := Resolver.new servers
  net := ⟨⟨.error [], 0, fun _ => 0, fun _ => 0, []⟩, 0, 0, [], []⟩

/-- One call, with what it tells. -/
def step (s : ResolverState τ) (call : ResolverCall τ × Outside) :
    ResolverState τ × List (Told τ) :=
  let net := { s.net with outside := call.2, readings := 0, choices := 0 }
  match call.1 with
  | .lookup name waiter =>
    let (answer, resolver, net) := s.resolver.lookup Net.world net name (waiter, name)
    let told :=
      match answer with
      | .ready address => [((waiter, name), .ok address)]
      | .failed reason => [((waiter, name), .error reason)]
      | .pending => []
    (⟨resolver, net⟩, told)
  | .poll =>
    let (told, resolver, net) := s.resolver.poll Net.world net
    (⟨resolver, net⟩, told)

end ResolverState

/-! ## What the calls do to the outside -/

namespace Net

/-- Clock readings and choices of the hash map leave everything else as it was. -/
structure SameTraffic (net net' : Net) : Prop where
  outside : net'.outside = net.outside
  sent : net'.sent = net.sent
  received : net'.received = net.received

theorem SameTraffic.refl (net : Net) : SameTraffic net net := ⟨rfl, rfl, rfl⟩

theorem SameTraffic.trans {a b c : Net} (h : SameTraffic a b) (h' : SameTraffic b c) :
    SameTraffic a c :=
  ⟨h'.outside.trans h.outside, h'.sent.trans h.sent, h'.received.trans h.received⟩

end Net

namespace Resolver

variable {τ : Type}

theorem sendAll_sent (servers : List Octets) (flow : FlowId) (message : Bytes) (net : Net) :
    (sendAll Net.world servers flow message net).sent =
      net.sent ++ servers.map fun server => (⟨server, 53⟩, message) := by
  induction servers generalizing net with
  | nil => simp [sendAll]
  | cons server servers ih =>
    have hstep := ih (Net.world.udpSend net flow ⟨server, 53⟩ message).2
    simp only [sendAll, foldl_cons] at hstep ⊢
    rw [hstep]
    simp [Net.world]

theorem sendAll_received (servers : List Octets) (flow : FlowId) (message : Bytes) (net : Net) :
    (sendAll Net.world servers flow message net).received = net.received := by
  induction servers generalizing net with
  | nil => rfl
  | cons server servers ih => exact ih (Net.world.udpSend net flow ⟨server, 53⟩ message).2

theorem makeRoom_traffic (cache : KeyedMap Text (Option (List Octets) × Instant)) (net : Net) :
    net.SameTraffic (makeRoom Net.world cache net).2 := by
  simp only [makeRoom]
  split
  · exact ⟨rfl, rfl, rfl⟩
  · exact Net.SameTraffic.refl net

variable (r : Resolver τ)

theorem settle_traffic (net : Net) (name : Text) (query : Query τ)
    (answer : Dns.Answer) : net.SameTraffic (r.settle Net.world net name query answer).2.2 :=
  (makeRoom_traffic r.cache net).trans ⟨rfl, rfl, rfl⟩

theorem receive_traffic (net : Net) (datagram : Datagram) :
    net.SameTraffic (r.receive Net.world net datagram).2.2 := by
  have horder : net.SameTraffic (Net.world.hashOrder net).2 := ⟨rfl, rfl, rfl⟩
  simp only [receive]
  split
  · exact Net.SameTraffic.refl net
  · split
    · exact horder
    · exact horder.trans (settle_traffic r _ _ _ _)

theorem receiveAll_traffic (net : Net) (datagrams : List Datagram) :
    net.SameTraffic (receiveAll Net.world r net datagrams).2.2 := by
  induction datagrams generalizing r net with
  | nil => exact Net.SameTraffic.refl net
  | cons datagram datagrams ih => exact (receive_traffic r net datagram).trans (ih _ _)

theorem resend_received (flow : FlowId) (now : Instant) (net : Net) :
    (r.resend Net.world flow now net).received = net.received := by
  simp only [resend]
  generalize r.pending.entries = entries
  induction entries generalizing net with
  | nil => rfl
  | cons entry entries ih =>
    rw [foldl_cons, ih]
    split
    · exact sendAll_received r.servers flow entry.2.message net
    · rfl

theorem mem_resend_sent {r : Resolver τ} {flow : FlowId} {now : Instant} {net : Net} {d : Datagram}
    (h : d ∈ (r.resend Net.world flow now net).sent) :
    d ∈ net.sent ∨ ∃ entry ∈ r.pending.entries, d.2 = entry.2.message := by
  simp only [resend] at h
  generalize r.pending.entries = entries at h ⊢
  induction entries generalizing net with
  | nil => exact .inl h
  | cons entry entries ih =>
    rw [foldl_cons] at h
    rcases ih h with hsent | ⟨entry', hmem, heq⟩
    · split at hsent
      · rw [sendAll_sent, mem_append] at hsent
        rcases hsent with hsent | hnew
        · exact .inl hsent
        · obtain ⟨server, -, rfl⟩ := mem_map.1 hnew
          exact .inr ⟨entry, mem_cons_self, rfl⟩
      · exact .inl hsent
    · exact .inr ⟨entry', mem_cons_of_mem _ hmem, heq⟩

theorem subset_resend_sent (flow : FlowId) (now : Instant) (net : Net) :
    net.sent ⊆ (r.resend Net.world flow now net).sent := by
  intro d hd
  simp only [resend]
  generalize r.pending.entries = entries
  induction entries generalizing net with
  | nil => exact hd
  | cons entry entries ih =>
    rw [foldl_cons]
    apply ih
    split
    · rw [sendAll_sent]
      exact mem_append_left _ hd
    · exact hd

end Resolver

end GamePath.Engine.Socks
