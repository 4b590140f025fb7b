import GamePath.Engine.FragmentSources
import GamePath.Relay.Reloads

/-!
# Clients are kept apart

What a session holds outlives the frame that brought it: endpoints, fragments and repairs wait while
other clients' frames, replies and reloads of the registry come in between. `Life` says what a
session was built from: frames that open under the key its client is enrolled with now, and packets
from the TUN to the address it is enrolled with now. That is so for every session of every run
(`lives_run`), since a client that is enrolled otherwise starts over.

`Contained` is what follows for what a turn sends: packets for the TUN have the client's own address
as their source, and frames go to addresses its frames came from.
-/

namespace GamePath.Relay

open List Lib Engine Engine.Protocol Engine.Ipv4Fragments
open ClientRegistry (Codec Validated)

/-! ## Sources -/

theorem ipv4Source_append (header : Header) (rest : Bytes) :
    ipv4Source (header.bytes ++ rest) =
      if header.version >>> 4 = 4 then some header.source else none := by
  have hlong : 20 ≤ (header.bytes ++ rest).length := by
    rw [length_append, Header.length_bytes]
    omega
  have hsource : Ipv4Packet.source ⟨header.bytes ++ rest, hlong⟩ = header.source := by
    show (Header.of ⟨header.bytes ++ rest, hlong⟩).source = header.source
    rw [Header.of_append]
  have hversion : (header.bytes ++ rest).getD 0 0 = header.version := rfl
  rw [ipv4Source, dif_pos hlong, hversion, hsource]

theorem ipv4Source_packet (packet : Ipv4Packet) :
    ipv4Source packet.bytes =
      if (Header.of packet).version >>> 4 = 4 then some (Header.of packet).source else none := by
  have happend := ipv4Source_append (Header.of packet) (packet.bytes.drop 20)
  rw [Header.bytes_of_append_drop] at happend
  exact happend

theorem le_length_of_ipv4Source {bytes : Bytes} {address : Octets}
    (h : ipv4Source bytes = some address) : 20 ≤ bytes.length := by
  unfold ipv4Source at h
  split at h
  next hlong => exact hlong
  next => cases h

theorem ipv4Source_take {bytes : Bytes} {length : Nat} (h : 20 ≤ length) :
    ipv4Source (bytes.take length) = ipv4Source bytes := by
  by_cases hlong : 20 ≤ bytes.length
  · have hsplit : bytes = (Header.of ⟨bytes, hlong⟩).bytes ++ bytes.drop 20 :=
      (Header.bytes_of_append_drop ⟨bytes, hlong⟩).symm
    have htake : bytes.take length =
        (Header.of ⟨bytes, hlong⟩).bytes ++ (bytes.drop 20).take (length - 20) := by
      conv_lhs => rw [hsplit]
      rw [take_append, take_of_length_le (by rw [Header.length_bytes]; exact h),
        Header.length_bytes]
    rw [htake]
    exact (ipv4Source_packet ⟨bytes, hlong⟩).symm
  · have hshort : ¬ 20 ≤ (bytes.take length).length := by
      rw [length_take]
      omega
    rw [ipv4Source, ipv4Source, dif_neg hlong, dif_neg hshort]

theorem ipv4Source_assemble {header : Bytes} {address : Octets}
    (h : ipv4Source header = some address) (pieces : List (Piece UInt64)) :
    ipv4Source (assemble header pieces) = some address := by
  obtain ⟨header', rest, heq, hversion, hsource, -⟩ :=
    assemble_header ⟨header, le_length_of_ipv4Source h⟩ pieces
  have hheader := ipv4Source_packet ⟨header, le_length_of_ipv4Source h⟩
  rw [heq, ipv4Source_append, hversion, hsource, ← hheader]
  exact h

/-! ## What a turn sends -/

variable (crypto : SessionCrypto)

/-- The endpoint sent a frame of the peer's session that opens under its key. -/
def Heard (events : List Event) (peer : Peer) (endpoint : SocketAddr) :
    Prop :=
  ∃ bytes env header plaintext, Event.frame endpoint bytes env ∈ events ∧
    Opens crypto peer bytes header plaintext

/-- A session knows only endpoints its frames came from, and holds fragments only of packets from
the client's own address. -/
structure Guarded (crypto : SessionCrypto) (events : List Event) (peer : Peer) (address : Octets)
    (session : SessionState) : Prop where
  endpoints : ∀ entry ∈ session.endpoints.entries, Heard crypto events peer entry.address
  fragments : session.fragments.Headed fun header => ipv4Source header = some address

/-- A packet for the TUN has the client's own address as its source; a frame is sealed under the
peer's key and goes to an endpoint its frames came from. -/
def Allowed (events : List Event) (peer : Peer) (address : Octets) :
    Output → Prop
  | .tun _ datagram => ipv4Source datagram = some address
  | .udp endpoint frame => Heard crypto events peer endpoint ∧
      ∃ header payload, crypto.sealServer peer.key peer.sessionId header payload = some frame
  | .sealed _ _ _ => True

/-- A turn in progress keeps to its client. -/
structure Contained (crypto : SessionCrypto) (events : List Event) (peer : Peer) (address : Octets)
    (p : Progress) : Prop where
  guarded : Guarded crypto events peer address p.session
  allowed : ∀ output ∈ p.sent, Allowed crypto events peer address output

section Contained

variable {crypto : SessionCrypto} {env : Environment} {events : List Event} {peer : Peer}
variable {address : Octets} {source : Option SocketAddr}

theorem Contained.writeToTun {p : Progress} (h : Contained crypto events peer address p)
    {packet : Bytes} (hsource : ipv4Source packet = some address) (sequence : UInt64) :
    Contained crypto events peer address (p.writeToTun env sequence packet) := by
  have hsent : ∀ (q : Progress) (sequences : List UInt64) (datagram : Bytes),
      Contained crypto events peer address q → ipv4Source datagram = some address →
      Contained crypto events peer address (q.send [.tun sequences datagram]) := by
    intro q sequences datagram hq hdatagram
    refine ⟨hq.guarded, ?_⟩
    intro output houtput
    rcases mem_snoc.1 houtput with hold | rfl
    · exact hq.allowed output hold
    · exact hdatagram
  unfold Progress.writeToTun
  split
  next hfragment =>
    have hpush := h.guarded.fragments.push ⟨packet, hfragment.1⟩
      (fun hheader _ => (ipv4Source_take hheader).trans hsource) sequence (p.now env)
      (env.pick p.picks)
    generalize p.session.fragments.push ⟨packet, hfragment.1⟩ sequence (p.now env)
      (env.pick p.picks) = result at hpush
    obtain ⟨r, output⟩ := result
    obtain ⟨hheaded, hrebuilt⟩ := hpush
    have hkept : Contained crypto events peer address
        (({ p.tick with picks := p.picks + 1 } : Progress).update fun s =>
          { s with fragments := r }) := ⟨⟨h.guarded.endpoints, hheaded⟩, h.allowed⟩
    cases output with
    | none => exact hkept
    | some rebuilt =>
      obtain ⟨header, pieces, hheader, heq⟩ := hrebuilt rebuilt.1 rebuilt.2 rfl
      refine hsent _ _ _ hkept ?_
      rw [heq]
      exact ipv4Source_assemble hheader pieces
  next => exact hsent p _ _ h hsource

theorem Contained.move (hheard : ∀ endpoint, source = some endpoint →
      Heard crypto events peer endpoint) {p q : Progress}
    (hmove : Move crypto env peer address source p q) (h : Contained crypto events peer address p) :
    Contained crypto events peer address q := by
  cases hmove with
  | keep session readings picks hendpoints hsequence hfragments =>
    refine ⟨⟨?_, ?_⟩, h.allowed⟩
    · rw [hendpoints]
      exact h.guarded.endpoints
    · rw [hfragments]
      exact h.guarded.fragments
  | prune now =>
    refine ⟨⟨?_, h.guarded.fragments⟩, h.allowed⟩
    intro entry hentry
    exact h.guarded.endpoints entry (mem_of_mem_filter hentry)
  | apply endpoint policy healthy sequence now hsource =>
    refine ⟨⟨?_, h.guarded.fragments⟩, h.allowed⟩
    intro entry hentry
    rcases Endpoints.address_of_mem_apply hentry with hsame | ⟨old, hold, hsame⟩
    · rw [hsame]
      exact hheard endpoint hsource
    · rw [← hsame]
      exact h.guarded.endpoints old hold
  | fail => exact ⟨⟨h.guarded.endpoints, h.guarded.fragments⟩, h.allowed⟩
  | emit flags payload frame endpoints hsealed hendpoints =>
    refine ⟨⟨h.guarded.endpoints, h.guarded.fragments⟩, ?_⟩
    intro output houtput
    rcases mem_append.1 houtput with hold | hnew
    · exact h.allowed output hold
    rcases mem_cons.1 hnew with rfl | hudp
    · trivial
    · obtain ⟨endpoint, hendpoint, rfl⟩ := mem_map.1 hudp
      refine ⟨?_, _, payload, hsealed⟩
      rcases hendpoints endpoint hendpoint with hsource | ⟨entry, hentry, rfl⟩
      · exact hheard endpoint hsource
      · exact h.guarded.endpoints entry hentry
  | write sequence packet hsource hframe => exact h.writeToTun hsource sequence

theorem Turn.contained {event : Event} {session : SessionState} {p : Progress}
    (hturn : Turn crypto peer address event session p) (hevent : event ∈ events)
    (h : Guarded crypto events peer address session) : Contained crypto events peer address p := by
  have hnone : ∀ endpoint, (none : Option SocketAddr) = some endpoint →
      Heard crypto events peer endpoint := by
    intro endpoint heq
    cases heq
  cases hturn with
  | frame endpoint bytes env hopens =>
    have hheard : Heard crypto events peer endpoint := ⟨bytes, env, _, _, hevent, hopens⟩
    have hsource : ∀ other, some endpoint = some other → Heard crypto events peer other := by
      intro other heq
      rw [← Option.some.inj heq]
      exact hheard
    refine Moves.invariant (I := Contained crypto events peer address)
      (fun q r => Contained.move hsource) (Progress.moves_handle _ _ _ _) ⟨⟨?_, h.fragments⟩, ?_⟩
    · intro entry hentry
      rcases Endpoints.address_of_mem_observe hentry with hsame | ⟨old, hold, hsame⟩
      · rw [hsame]
        exact hheard
      · rw [← hsame]
        exact h.endpoints old hold
    · intro output houtput
      exact absurd houtput not_mem_nil
  | reply packet env hdestination =>
    refine Moves.invariant (I := Contained crypto events peer address)
      (fun q r => Contained.move hnone) (Progress.moves_sendReplies _ _) ⟨h, ?_⟩
    intro output houtput
    exact absurd houtput not_mem_nil
  | flush now env =>
    refine Moves.invariant (I := Contained crypto events peer address)
      (fun q r => Contained.move hnone) (moves_flushSession now session) ⟨h, ?_⟩
    intro output houtput
    exact absurd houtput not_mem_nil

end Contained

/-! ## Sessions of a run -/

/-- The session was made by turns of events for its peer: frames that open under the peer's key,
packets from the TUN to its address and wakeups of the flusher. -/
inductive Life (crypto : SessionCrypto) (events : List Event) (peer : Peer) (address : Octets) :
    SessionState → Prop where
  | new (now : Instant) (micros : UInt64) :
      Life crypto events peer address (SessionState.new now micros)
  | turn {event : Event} {session : SessionState} {p : Progress} (hevent : event ∈ events)
      (hlife : Life crypto events peer address session)
      (hturn : Turn crypto peer address event session p) :
      Life crypto events peer address p.session

section Life

variable {crypto : SessionCrypto} {events : List Event} {peer : Peer} {address : Octets}
variable {session : SessionState}

theorem Life.mono (h : Life crypto events peer address session) {events' : List Event}
    (hsub : ∀ event ∈ events, event ∈ events') : Life crypto events' peer address session := by
  induction h with
  | new now micros => exact Life.new now micros
  | turn hevent _ hturn ih => exact Life.turn (hsub _ hevent) ih hturn

theorem Life.guarded (h : Life crypto events peer address session) :
    Guarded crypto events peer address session := by
  induction h with
  | new now micros =>
    refine ⟨?_, Reassembler.headed_default⟩
    intro entry hentry
    exact absurd hentry not_mem_nil
  | turn hevent _ hturn ih => exact (hturn.contained hevent ih).guarded

end Life

/-- Every session has lived on its own client's frames and replies, under its present enrolment. -/
def Lives (clients : Clients) (events : List Event) : Prop :=
  ∀ clientId client sessionId session, clients.get? clientId = some client →
    client.sessions.get? sessionId = some session →
    Life crypto events (client.peer clientId sessionId) client.enrolment.virtualIpv4 session

variable {clients : Clients} {events : List Event}

theorem Lives.found {crypto : SessionCrypto} (h : Lives crypto clients events)
    {event : Event} {clientId : ClientId} {client : RelayClient} {sessionId : UInt64}
    {session : SessionState} {p : Progress}
    (hturn : TakesTurn crypto clients event clientId client sessionId session p) :
    Life crypto events (client.peer clientId sessionId) client.enrolment.virtualIpv4 session := by
  cases hturn.finds with
  | kept _ hkept =>
    rw [session?, hturn.enrolled] at hkept
    exact h clientId client sessionId session hturn.enrolled hkept
  | created endpoint bytes env => exact Life.new _ _

theorem Lives.step {crypto : SessionCrypto} (h : Lives crypto clients events) (event : Event) :
    Lives crypto (step crypto clients event).1 (events ++ [event]) := by
  intro clientId client' sessionId session' hclient' hsession'
  have hmono : ∀ other ∈ events, other ∈ events ++ [event] := fun other hother =>
    mem_append_left _ hother
  obtain ⟨client, hclient, henrolment, hwhence⟩ := step_session crypto clients event hclient'
    hsession'
  have hpeer : client'.peer clientId sessionId = client.peer clientId sessionId := by
    rw [RelayClient.peer, henrolment]
    rfl
  rw [hpeer, henrolment]
  rcases hwhence with hsame | ⟨session, p, hturn, rfl⟩
  · exact (h clientId client sessionId session' hclient hsame).mono hmono
  · have hlife := (h.found hturn).mono hmono
    exact Life.turn (mem_append_right _ (mem_singleton_self event)) hlife hturn.turn

theorem lives_run (registry : KeyedMap ClientId Enrolment)
    (events : List Event) : Lives crypto (serve crypto registry events).state events := by
  have hrun : Lives crypto (serve crypto registry events).state
      ((serve crypto registry events).log.map Prod.fst) := by
    refine Run.exec_invariant
      (I := fun cfg => Lives crypto cfg.state (cfg.log.map Prod.fst)) ?_ ?_ events
    · intro clientId client sessionId session hclient hsession
      rw [loadClients, KeyedMap.get?_mapValues, Option.map_eq_some_iff] at hclient
      obtain ⟨enrolment, -, rfl⟩ := hclient
      cases hsession
    · intro cfg event hcfg
      rw [Run.advance_log, map_append]
      exact hcfg.step event
  rw [serve, Run.exec, Run.execFrom_inputs] at hrun
  exact hrun

/-! ## Who is enrolled -/

/-- The clients are enrolled by a registry that passed the check. -/
def Enrolled (clients : Clients) : Prop :=
  ∃ registry, Validated registry ∧
    ∀ clientId, (clients.get? clientId).map RelayClient.enrolment = registry.get? clientId

theorem Enrolled.unique (h : Enrolled clients) {id id' : ClientId} {client client' : RelayClient}
    (hclient : clients.get? id = some client) (hclient' : clients.get? id' = some client')
    (hsame : client.enrolment.virtualIpv4 = client'.enrolment.virtualIpv4) : id = id' := by
  obtain ⟨registry, hvalid, hall⟩ := h
  have hid := hall id
  have hid' := hall id'
  rw [hclient] at hid
  rw [hclient'] at hid'
  exact hvalid.unique hid.symm hid'.symm hsame

/-- A registry that is loaded passed the check. -/
def Event.Checked : Event → Prop
  | .reload next => Validated next
  | _ => True

theorem enrolled_run {registry : KeyedMap ClientId Enrolment} (hregistry : Validated registry)
    (hchecked : ∀ event ∈ events, event.Checked) :
    Enrolled (serve crypto registry events).state := by
  have hmeets : Run.Meets (step crypto) (fun _ event => event.Checked) ⟨loadClients registry, []⟩
      events := Run.meets_of_forall (fun event hevent _ => hchecked event hevent) _
  refine Run.execFrom_invariant_of_meets (I := fun cfg => Enrolled cfg.state) ?_ events _ hmeets ?_
  · rintro cfg event hvalid ⟨current, hcurrent, hall⟩
    have henrolment := step_enrolment crypto cfg.state event
    cases event with
    | frame | reply | flush => exact ⟨current, hcurrent, fun id => (henrolment id).trans (hall id)⟩
    | reload next => exact ⟨next, hvalid, henrolment⟩
  · refine ⟨registry, hregistry, ?_⟩
    intro clientId
    rw [loadClients, KeyedMap.get?_mapValues, Option.map_map]
    exact Option.map_id'

/-! ## Isolation -/

theorem no_tun_of_moves {crypto : SessionCrypto} {env : Environment} {peer : Peer}
    (address : Octets) {p q : Progress} (h : Moves crypto env peer address none p q)
    (hp : ∀ sequences datagram, Output.tun sequences datagram ∉ p.sent) :
    ∀ sequences datagram, Output.tun sequences datagram ∉ q.sent := by
  refine Moves.invariant
    (I := fun p => ∀ sequences datagram, Output.tun sequences datagram ∉ p.sent) ?_ h hp
  intro p q hmove hp sequences datagram hin
  cases hmove with
  | keep | prune | apply | fail => exact hp _ _ hin
  | emit flags payload frame endpoints =>
    rcases mem_append.1 hin with hold | hnew
    · exact hp _ _ hold
    · rcases mem_cons.1 hnew with heq | hudp
      · cases heq
      · obtain ⟨endpoint, -, heq⟩ := mem_map.1 hudp
        cases heq
  | write sequence packet hsource hframe => cases hframe

/-- What an event sends, after `events`, keeps the clients apart. A packet for the TUN is made by a
frame that opens under the key of a client, from a session that has lived on frames that do, and its
source is the address the client is enrolled with. A frame is sealed under the key of a client, and
goes to an endpoint that sent a frame of that session which opens under the key. If it is sent for a
packet from the TUN, then the client is the one enrolled with the packet's destination; what the
session holds for repairs was addressed to that client too. -/
def Isolated (clients : Clients) (events : List Event) (event : Event) :
    Output → Prop
  | .tun sequences datagram => ∃ clientId client sessionId session p endpoint bytes env header
      plaintext, TakesTurn crypto clients event clientId client sessionId session p ∧
      Output.tun sequences datagram ∈ p.sent ∧ event = .frame endpoint bytes env ∧
      Opens crypto (client.peer clientId sessionId) bytes header plaintext ∧
      Life crypto events (client.peer clientId sessionId) client.enrolment.virtualIpv4 session ∧
      ipv4Source datagram = some client.enrolment.virtualIpv4
  | .udp endpoint frame => ∃ clientId client sessionId header payload,
      clients.get? clientId = some client ∧
      crypto.sealServer client.enrolment.key sessionId header payload = some frame ∧
      Heard crypto (events ++ [event]) (client.peer clientId sessionId) endpoint ∧
      (∀ session, client.sessions.get? sessionId = some session →
        Life crypto events (client.peer clientId sessionId) client.enrolment.virtualIpv4 session) ∧
      ∀ packet env, event = .reply packet env →
        ipv4Destination packet = some client.enrolment.virtualIpv4 ∧
        ∀ other client', clients.get? other = some client' →
          ipv4Destination packet = some client'.enrolment.virtualIpv4 → other = clientId
  | .sealed _ _ _ => True

/-- In every run every output keeps the clients apart. -/
theorem clients_isolated (crypto : SessionCrypto) (registry : KeyedMap ClientId Enrolment)
    (hregistry : Validated registry) (events : List Event)
    (hchecked : ∀ event ∈ events, event.Checked) (event : Event) :
    ∀ output ∈ (step crypto (serve crypto registry events).state event).2.sent,
      Isolated crypto (serve crypto registry events).state events event output := by
  have hlives := lives_run crypto registry events
  have henrolled := enrolled_run crypto hregistry hchecked
  generalize (serve crypto registry events).state = clients at hlives henrolled ⊢
  have hmono : ∀ other ∈ events, other ∈ events ++ [event] := fun other hother =>
    List.mem_append_left _ hother
  have hlast : event ∈ events ++ [event] := List.mem_append_right _ (List.mem_singleton_self event)
  intro output houtput
  rcases step_sent crypto clients event houtput with
    ⟨clientId, client, sessionId, session, p, hturn, hsent⟩ |
      ⟨endpoint, bytes, env, header, client, plaintext, reply, rfl, hauth, hprobe, heq⟩
  · have hlife := hlives.found hturn
    have hcontained := hturn.turn.contained hlast (hlife.mono hmono).guarded
    have hallowed := hcontained.allowed output hsent
    cases output with
    | tun sequences datagram =>
      have hempty : ∀ sequences datagram, Output.tun sequences datagram ∉ ([] : List Output) :=
        fun _ _ => List.not_mem_nil
      obtain ⟨henrolledNow, hfinds, hmade⟩ := hturn
      cases hmade with
      | frame endpoint bytes env hopens =>
        exact ⟨clientId, client, sessionId, session, _, endpoint, bytes, env, _, _,
          ⟨henrolledNow, hfinds, Turn.frame endpoint bytes env hopens session⟩, hsent, rfl,
          hopens, hlife, hallowed⟩
      | reply packet env hdestination =>
        exact absurd hsent (no_tun_of_moves client.enrolment.virtualIpv4
          (Progress.moves_sendReplies _ _) hempty sequences datagram)
      | flush now env =>
        exact absurd hsent (no_tun_of_moves client.enrolment.virtualIpv4
          (moves_flushSession now session) hempty sequences datagram)
    | udp endpoint frame =>
      obtain ⟨hheard, header, payload, hsealed⟩ := hallowed
      refine ⟨clientId, client, sessionId, header, payload, hturn.enrolled, hsealed, hheard,
        fun kept hkept => hlives clientId client sessionId kept hturn.enrolled hkept, ?_⟩
      rintro packet env rfl
      cases hturn.turn with
      | reply _ _ hdestination =>
        refine ⟨hdestination, ?_⟩
        intro other client' hother hsame
        rw [hdestination] at hsame
        exact henrolled.unique hother hturn.enrolled (Option.some.inj hsame).symm
    | sealed key id sequence => trivial
  · -- A probe is answered under the key it opened with, on the way it came.
    have hopens := opens_of_authenticate hauth
    have hclient := authenticate_client hauth
    rcases heq with rfl | rfl
    · trivial
    unfold statelessProbeReply at hprobe
    split at hprobe
    · cases hprobe
    obtain ⟨response, -, hsealed⟩ := Option.bind_eq_some_iff.1 hprobe
    refine ⟨header.clientId, client, header.sessionId, _, response, hclient, hsealed,
      ⟨bytes, env, header, plaintext, hlast, hopens⟩,
      fun kept hkept => hlives _ client _ kept hclient hkept, ?_⟩
    rintro packet env' heq
    cases heq

/-- A packet from the TUN to the client of the samples. -/
def sampleReply : Bytes :=
  [0x45, 0, 0, 20, 0, 0, 0, 0, 64, 17, 0, 0, 1, 1, 1, 1, 10, 203, 0, 2]

/-- A codec that reads the key and the ids of the samples. -/
def sampleCodec : Codec where
  base64 text :=
    if text = "AAAAAAAAAAAAAAAAAAAAAA" then some (List.replicate 16 0)
    else if text = "AQEBAQEBAQEBAQEBAQEBAQ" then some (List.replicate 16 1)
    else some (List.replicate 32 0)
  fromSlice _ := none

/-- The record of a client with a key of zeros. -/
def sampleRecord (clientId : String) (virtualIpv4 : Octets) : ClientRegistry.ClientRecord :=
  ⟨"client", 1, clientId, "AAAAAAAAAAAAAAAAAAAAAAAAAAAAAAAAAAAAAAAAAAA", virtualIpv4⟩

/-- A frame of the sample client, and then a packet from the TUN for it. -/
theorem clients_isolated_reply :
    (step nullCrypto (serve nullCrypto sampleRecords [arrivesAt 0 1]).state
      (.reply sampleReply ⟨fun _ => secs 1, 0, fun _ => 0⟩)).2.sent.length = 2 ∧
    ∀ output ∈ (step nullCrypto (serve nullCrypto sampleRecords [arrivesAt 0 1]).state
        (.reply sampleReply ⟨fun _ => secs 1, 0, fun _ => 0⟩)).2.sent,
      Isolated nullCrypto (serve nullCrypto sampleRecords [arrivesAt 0 1]).state [arrivesAt 0 1]
        (.reply sampleReply ⟨fun _ => secs 1, 0, fun _ => 0⟩) output := by
  refine ⟨by decide +kernel, clients_isolated nullCrypto sampleRecords ?_ _ ?_ _⟩
  · exact ⟨sampleCodec, [sampleRecord "AAAAAAAAAAAAAAAAAAAAAA" (10, 203, 0, 2)], _, rfl, rfl⟩
  · intro event hevent
    rw [List.mem_singleton.1 hevent]
    trivial

end GamePath.Relay
