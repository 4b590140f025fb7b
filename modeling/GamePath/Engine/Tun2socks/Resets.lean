import GamePath.Engine.Tun2socks.BuiltPackets
import GamePath.Engine.Tun2socks.FlowSteps

/-!
# The resets of the stack (`on_app_packet`, `open_tcp`, `pump_tcp`)

Every reset answers a segment of an application: one of a connection the stack does not know, or a
SYN it refuses, at once or after the dial. The builder is given the number behind the segment's
first, so every reset has sequence number zero and acknowledges a segment of length one. Its
receiver has to accept it exactly where the segment is without ACK and of that length, or
acknowledges zero (`acceptable_iff`).
-/

namespace GamePath.Engine.Tun2socks

open Lib Lib.Run List
open Socks (SocketAddr Token)

/-- The acknowledgement number of a segment. -/
def ackNumber (segment : Bytes) : UInt32 :=
  UInt32.ofNat (BigEndian.ofBytes ((segment.drop 8).take 4))

/-- `SEG.LEN`: the bytes behind the header, a SYN and a FIN counting one each. -/
def segmentLength (segment : Bytes) (head : TcpHead) : ℕ :=
  segment.length - ((segment.getD 12 0) >>> 4).toNat * 4 + (if head.syn then 1 else 0) +
    (if segment.getD 13 0 &&& 0x01 = 0 then 0 else 1)

/-- A packet is a whole segment of TCP. -/
structure Holds (packet : Bytes) (ip : Ipv4) (head : TcpHead) : Prop where
  parsed : parseIpv4 packet = some ip
  protocol : ip.protocol = protocolTcp
  whole : ip.fragmented = false
  head : parseTcp ip.payload = some head

/-- The flow of a segment. -/
def keyOf (ip : Ipv4) (head : TcpHead) : FlowKey :=
  ⟨head.sourcePort, ⟨ip.destination, head.destinationPort⟩⟩

/-- The reset that a stack sends for a segment. -/
def resetOf (client : Octets) (ip : Ipv4) (head : TcpHead) : Bytes :=
  buildTcpReset (keyOf ip head).remote ⟨client, (keyOf ip head).localPort⟩ (head.sequence + 1)

/-- What RFC 9293 asks of the reset that answers a segment (3.10.7.1), as its receiver reads it. -/
def Acceptable (segment : Bytes) (head : TcpHead) (reset : Bytes) : Prop :=
  ∃ ip answer, parseIpv4 reset = some ip ∧ parseTcp ip.payload = some answer ∧ answer.rst = true ∧
    if head.ack then answer.sequence = ackNumber segment
    else answer.sequence = 0 ∧ answer.ack = true ∧
      ackNumber ip.payload = head.sequence + UInt32.ofNat (segmentLength segment head)

section Reading

variable {packet : Bytes} {ip : Ipv4} {head : TcpHead}

theorem read_reset (source destination : SocketAddr) (acknowledges : UInt32) : ∃ segment answer,
    parseIpv4 (buildTcpReset source destination acknowledges) =
        some ⟨protocolTcp, source.ip, destination.ip, false, segment⟩ ∧
      parseTcp segment = some answer ∧ answer.rst = true ∧ answer.sequence = 0 ∧ answer.ack = true ∧
      ackNumber segment = acknowledges := by
  refine ⟨_, _, parseIpv4_ipv4Packet (Nat.le_of_ble_eq_true rfl), rfl, rfl, rfl, rfl, ?_⟩
  show UInt32.ofNat (BigEndian.ofBytes (BigEndian.toBytes 4 acknowledges.toNat)) = acknowledges
  rw [BigEndian.ofBytes_toBytes]
  exact UInt32.toNat_inj.1 (by simp)

theorem Holds.short (h : Holds packet ip head) : segmentLength ip.payload head < 2 ^ 32 := by
  have hle := parseIpv4_length h.parsed
  rw [segmentLength]
  split <;> split <;> omega

theorem acceptable_resetOf (h : Holds packet ip head) (client : Octets) :
    Acceptable ip.payload head (resetOf client ip head) ↔
      if head.ack then ackNumber ip.payload = 0 else segmentLength ip.payload head = 1 := by
  obtain ⟨segment, answer, hip, hhead, hrst, hsequence, hack, hnumber⟩ :=
    read_reset (keyOf ip head).remote ⟨client, (keyOf ip head).localPort⟩ (head.sequence + 1)
  have hread : Acceptable ip.payload head (resetOf client ip head) ↔
      if head.ack then 0 = ackNumber ip.payload
      else head.sequence + 1 = head.sequence + UInt32.ofNat (segmentLength ip.payload head) := by
    constructor
    · rintro ⟨ip', answer', hip', hhead', -, hfollows⟩
      cases hip.symm.trans hip'
      cases hhead.symm.trans hhead'
      rw [hsequence, hack, hnumber] at hfollows
      simpa using hfollows
    · intro hfollows
      refine ⟨_, answer, hip, hhead, hrst, ?_⟩
      rw [hsequence, hack, hnumber]
      simpa using hfollows
  have hone : head.sequence + 1 = head.sequence + UInt32.ofNat (segmentLength ip.payload head) ↔
      segmentLength ip.payload head = 1 := by
    have hshort := h.short
    rw [← UInt32.toNat_inj, UInt32.toNat_add, UInt32.toNat_add, UInt32.toNat_ofNat']
    change (head.sequence.toNat + 1) % _ = _ ↔ _
    omega
  rw [hread, hone, eq_comm (a := 0)]

end Reading

namespace Forwarding

/-! ## What the stack holds and has sent -/

/-- What is left of the flows holds the SYNs they held, and no reset is sent. -/
structure Quiet (s s' : Forwarding) : Prop where
  client : s'.client = s.client
  emitted : s'.emitted = s.emitted
  held : ∀ k flow' p, s'.tcp.get? k = some flow' → flow'.heldSyn = some p →
    ∃ flow, s.tcp.get? k = some flow ∧ flow.heldSyn = some p

/-- The SYNs that are held are segments of their flows, each a packet of the one kind, and every
reset sent after the first ones answers a packet of the other. -/
structure AnswersOnly (client : Octets) (Given Answered : Bytes → Prop) (before : List Bytes)
    (s : Forwarding) : Prop where
  sender : s.client = client
  held : ∀ k flow p, s.tcp.get? k = some flow → flow.heldSyn = some p →
    ∃ ip head, Given p.1 ∧ Tun2socks.Holds p.1 ip head ∧ k = keyOf ip head ∧ p.2 = head.sequence
  emitted : ∃ answers : List (Bytes × Ipv4 × TcpHead),
    s.emitted = before ++ answers.map (fun a => resetOf client a.2.1 a.2.2) ∧
      ∀ a ∈ answers, Answered a.1 ∧ Tun2socks.Holds a.1 a.2.1 a.2.2

variable {s s' s'' : Forwarding} {k : FlowKey} {flow : TcpFlow} {client : Octets}
  {Given Answered : Bytes → Prop} {before : List Bytes}

theorem Quiet.refl (s : Forwarding) :
    Quiet s s := ⟨rfl, rfl, fun _ flow _ hget hp => ⟨flow, hget, hp⟩⟩

theorem Quiet.trans (h : Quiet s s') (h' : Quiet s' s'') : Quiet s s'' where
  client := h'.client.trans h.client
  emitted := h'.emitted.trans h.emitted
  held := by
    intro k flow p hget hp
    obtain ⟨flow', hget', hp'⟩ := h'.held k flow p hget hp
    exact h.held k flow' p hget' hp'

theorem Quiet.foldl {α : Type} {f : Forwarding → α → Forwarding} (h : ∀ s a, Quiet s (f s a))
    (l : List α) :
    ∀ s, Quiet s (l.foldl f s) := by
  induction l with
  | nil => exact Quiet.refl
  | cons a l ih => exact fun s => (h s a).trans (ih _)

theorem AnswersOnly.quiet (h : AnswersOnly client Given Answered before s) (hquiet : Quiet s s') :
    AnswersOnly client Given Answered before s' where
  sender := hquiet.client.trans h.sender
  held := by
    intro k flow' p hget hp
    obtain ⟨flow, hget', hp'⟩ := hquiet.held k flow' p hget hp
    exact h.held k flow p hget' hp'
  emitted := hquiet.emitted ▸ h.emitted

theorem AnswersOnly.restart (h : AnswersOnly client Given Answered before s)
    {Given' Answered' : Bytes → Prop}
    (hgiven : ∀ k flow p, s.tcp.get? k = some flow → flow.heldSyn = some p → Given p.1 →
      Given' p.1) :
    AnswersOnly client Given' Answered' s.emitted s where
  sender := h.sender
  held := by
    intro k flow p hget hp
    obtain ⟨ip, head, hp', hrest⟩ := h.held k flow p hget hp
    exact ⟨ip, head, hgiven k flow p hget hp hp', hrest⟩
  emitted := ⟨[], (append_nil _).symm, nofun⟩

theorem AnswersOnly.reset (h : AnswersOnly client Given Answered before s) {packet : Bytes}
    {ip : Ipv4} {head : TcpHead}
    (hpacket : Answered packet) (hholds : Tun2socks.Holds packet ip head) :
    AnswersOnly client Given Answered before (s.reset (keyOf ip head) head.sequence) := by
  obtain ⟨answers, hemitted, hanswers⟩ := h.emitted
  refine ⟨h.sender, h.held, answers ++ [(packet, ip, head)], ?_, fun a ha => ?_⟩
  · rw [map_append, ← append_assoc, ← hemitted, ← h.sender]
    rfl
  · rcases mem_snoc.1 ha with ha | rfl
    · exact hanswers a ha
    · exact ⟨hpacket, hholds⟩

theorem quiet_insert (hget : s.tcp.get? k = some flow) {flow' : TcpFlow} {sockets : SocketSet}
    {rx : List Bytes} (hsyn : ∀ p, flow'.heldSyn = some p → flow.heldSyn = some p) :
    Quiet s { s with tcp := s.tcp.insert k flow', sockets, rx } := by
  refine ⟨rfl, rfl, fun j other p hother hp => ?_⟩
  rw [KeyedMap.get?_insert] at hother
  split at hother
  · rename_i heq
    cases hother
    exact ⟨flow, heq ▸ hget, hsyn p hp⟩
  · exact ⟨other, hother, hp⟩

theorem pumpOne_quiet (outside : FlowKey → Outside) (p : Pumped) (k : FlowKey) :
    Quiet p.state (pumpOne outside p k).state := by
  rw [pumpOne]
  cases hget : p.state.tcp.get? k with
  | none => exact .refl _
  | some flow =>
    have hquiet : Quiet p.state { p.state with
        sockets := putSocket p.state.sockets (flow.pump (p.state.socketOf flow) (outside k)).2.1
          (flow.pump (p.state.socketOf flow) (outside k)).2.2
        tcp := p.state.tcp.insert k (flow.pump (p.state.socketOf flow) (outside k)).2.1 } :=
      quiet_insert hget fun q hq => (TcpFlow.pump_heldSyn flow _ _).symm.trans hq
    dsimp only
    split <;> exact hquiet

theorem acceptTcp_quiet (s : Forwarding) (k : FlowKey) (leftover : Bytes) :
    Quiet s (s.acceptTcp k leftover) := by
  rw [acceptTcp]
  cases hget : s.tcp.get? k with
  | none => exact .refl s
  | some flow =>
    dsimp only
    split
    · exact quiet_insert hget fun _ => id
    · exact quiet_insert hget nofun

theorem removeTcp_quiet (s : Forwarding) (k : FlowKey) : Quiet s (s.removeTcp k).1 := by
  rw [removeTcp]
  split
  · exact .refl s
  · refine ⟨rfl, rfl, fun j other p hother hp => ⟨other, ?_, hp⟩⟩
    rw [KeyedMap.get?_erase] at hother
    split at hother
    · cases hother
    · exact hother

theorem removeAll_quiet (keys : List FlowKey) : ∀ s : Forwarding, Quiet s (s.removeAll keys).1 := by
  induction keys with
  | nil => exact Quiet.refl
  | cons k keys ih => exact fun s => (s.removeTcp_quiet k).trans (ih _)

theorem AnswersOnly.refuseHeld (h : AnswersOnly client Given Given before s) (k : FlowKey) :
    AnswersOnly client Given Given before (s.refuseHeld k) := by
  rw [Forwarding.refuseHeld]
  cases hp : (s.tcp.get? k).bind TcpFlow.heldSyn with
  | none => exact h
  | some p =>
    obtain ⟨flow, hget, hsyn⟩ := Option.bind_eq_some_iff.1 hp
    obtain ⟨ip, head, hgiven, hholds, rfl, hsequence⟩ := h.held k flow p hget hsyn
    dsimp only
    rw [hsequence]
    exact h.reset hgiven hholds

theorem AnswersOnly.turn (h : AnswersOnly client Given Given before s) (first : Reactions)
    (order : List FlowKey) (outside : FlowKey → Outside) (second : Reactions) :
    AnswersOnly client Given Given before (s.turn first order outside second).1 := by
  have hpoll (s : Forwarding) (r : Reactions) : Quiet s (s.poll r) :=
    ⟨rfl, rfl, (Quiet.refl s).held⟩
  have hpump : ∀ (keys : List FlowKey) (p : Pumped),
      Quiet p.state (keys.foldl (pumpOne outside) p).state := by
    intro keys
    induction keys with
    | nil => exact fun p => .refl _
    | cons k keys ih => exact fun p => (pumpOne_quiet outside p k).trans (ih _)
  have hrefused : ∀ (entries : List (FlowKey × String)) {s : Forwarding},
      AnswersOnly client Given Given before s →
      AnswersOnly client Given Given before
        (entries.foldl (fun s entry => s.refuseHeld entry.1) s) := by
    intro entries
    induction entries with
    | nil => exact id
    | cons entry entries ih => exact fun h => ih (h.refuseHeld entry.1)
  refine (AnswersOnly.quiet ?_ (removeAll_quiet _ _)).quiet (hpoll _ second)
  apply hrefused
  refine (h.quiet (hpoll s first)).quiet
    ((hpump ((s.poll first).tcp.keysIn order) ⟨_, [], [], []⟩).trans ?_)
  exact Quiet.foldl (fun s (entry : FlowKey × Bytes) => s.acceptTcp_quiet entry.1 entry.2) _ _

theorem AnswersOnly.onAppPacket (h : AnswersOnly client Given Answered before s) (packet : Bytes)
    (token : Token) (dialled : Bool) (now : Instant) :
    AnswersOnly client (fun p => Given p ∨ p = packet) (· = packet) s.emitted
      (s.onAppPacket packet token dialled now).1 := by
  replace h : AnswersOnly client (fun p => Given p ∨ p = packet) (· = packet) s.emitted s :=
    h.restart fun _ _ _ _ _ => .inl
  rw [Forwarding.onAppPacket]
  cases hip : parseIpv4 packet with
  | none => exact h
  | some ip =>
    dsimp only
    split
    · exact h
    rename_i hprotocol
    cases hhead : (if ip.fragmented = true then none else parseTcp ip.payload) with
    | none => exact h.quiet ⟨rfl, rfl, (Quiet.refl s).held⟩
    | some head =>
      have hholds : Tun2socks.Holds packet ip head := by
        split at hhead
        · cases hhead
        · exact ⟨hip, not_not.1 hprotocol, Bool.eq_false_iff.2 ‹_›, hhead⟩
      -- A reset is sent for this packet, or the packet is held as the SYN of its flow.
      have hreset := h.reset rfl hholds
      have hheld {flow : TcpFlow} (hsyn : flow.heldSyn = some (packet, head.sequence)) :
          AnswersOnly client (fun p => Given p ∨ p = packet) (· = packet) s.emitted
            { s with tcp := s.tcp.insert (keyOf ip head) flow } := by
        refine ⟨h.sender, fun j other p hother hp => ?_, h.emitted⟩
        rw [KeyedMap.get?_insert] at hother
        split at hother
        · cases hother
          cases hsyn.symm.trans hp
          exact ⟨ip, head, .inr rfl, hholds, ‹_›, rfl⟩
        · exact h.held j other p hother hp
      dsimp only
      split
      · split_ifs
        · exact h.quiet (removeTcp_quiet s _)
        · exact h.quiet ⟨rfl, rfl, (Quiet.refl s).held⟩
        · exact hheld rfl
        · exact h
      · split_ifs
        · rw [openTcp]
          split_ifs
          · exact hreset
          · exact hheld rfl
          · exact hreset
        · exact hreset
        · exact h

end Forwarding

/-- The packets of the applications in a run. -/
def packetsOf (events : List Event) : List Bytes :=
  events.filterMap fun
    | .packet bytes _ _ _ => some bytes
    | _ => none

/-- The packets that an event may answer: the one it brings, else one of those that are held. -/
def Event.Answers (Held : Bytes → Prop) : Event → Bytes → Prop
  | packet bytes _ _ _, p => p = bytes
  | _, p => Held p

namespace Forwarding

variable {client : Octets} {Given Answered : Bytes → Prop} {before : List Bytes} {s : Forwarding}

theorem AnswersOnly.step (h : AnswersOnly client Given Answered before s) (e : Event) :
    AnswersOnly client (fun p => Given p ∨ p ∈ packetsOf [e]) (e.Answers Given) s.emitted
      (s.step e).1 := by
  -- An event that brings no packet leaves the SYNs of before.
  have hother {s' : Forwarding} (hs : AnswersOnly client Given Given s.emitted s') :
      AnswersOnly client (fun p => Given p ∨ p ∈ packetsOf [e]) Given s.emitted s' := by
    refine ⟨hs.sender, fun k flow p hget hp => ?_, hs.emitted⟩
    obtain ⟨ip, head, hp', hrest⟩ := hs.held k flow p hget hp
    exact ⟨ip, head, .inl hp', hrest⟩
  have hsame : AnswersOnly client Given Given s.emitted s := h.restart fun _ _ _ _ _ => id
  cases e with
  | packet bytes token dialled now =>
    have hpackets (p : Bytes) : p ∈ packetsOf [.packet bytes token dialled now] ↔
        p = bytes := mem_singleton
    simp only [hpackets]
    exact h.onAppPacket bytes token dialled now
  | turn first order outside second => exact hother (hsame.turn first order outside second)
  | shutdown order => exact hother (hsame.quiet (removeAll_quiet _ s))
  | ready key readable o =>
    apply hother
    apply hsame.quiet
    show s.Quiet (s.ready key readable o)
    rw [Forwarding.ready]
    cases hget : s.tcp.get? key with
    | none => exact .refl _
    | some flow => exact quiet_insert hget fun _ => id

theorem answersOnly_exec (client : Octets) (exit : Exit) (events : List Event) :
    AnswersOnly client (· ∈ packetsOf events) (fun _ => False)
      (exec Forwarding.step (.new client exit) events).state.emitted
      (exec Forwarding.step (.new client exit) events).state := by
  induction events using List.reverseRecOn with
  | nil =>
    refine ⟨rfl, fun _ _ _ hget => ?_, [], (append_nil _).symm, nofun⟩
    cases hget
  | append_singleton events e ih =>
    rw [exec_concat events e]
    refine (ih.step e).restart fun _ _ p _ _ hp => ?_
    rw [packetsOf, filterMap_append]
    exact mem_append.2 hp

end Forwarding

/-- An event sends its resets for the segment it brings or for SYNs that are held, and the receiver
of such a reset has to accept it exactly where the segment has no ACK and is of length one, or
acknowledges zero. -/
theorem acceptable_iff (client : Octets) (exit : Exit) (events : List Event) (e : Event) :
    ∃ answers : List (Bytes × Ipv4 × TcpHead),
      (exec Forwarding.step (.new client exit) (events ++ [e])).state.emitted =
        (exec Forwarding.step (.new client exit) events).state.emitted ++
          answers.map (fun a => resetOf client a.2.1 a.2.2) ∧
      ∀ a ∈ answers, a.1 ∈ packetsOf (events ++ [e]) ∧
        e.Answers (fun packet => ∃ key flow sequence,
          (exec Forwarding.step (.new client exit) events).state.tcp.get? key = some flow ∧
            flow.heldSyn = some (packet, sequence)) a.1 ∧
        Tun2socks.Holds a.1 a.2.1 a.2.2 ∧
        (Acceptable a.2.1.payload a.2.2 (resetOf client a.2.1 a.2.2) ↔
          if a.2.2.ack then ackNumber a.2.1.payload = 0
          else segmentLength a.2.1.payload a.2.2 = 1) := by
  have hheld : Forwarding.AnswersOnly client (fun p => p ∈ packetsOf events ∧ ∃ key flow sequence,
      (exec Forwarding.step (.new client exit) events).state.tcp.get? key = some flow ∧
        flow.heldSyn = some (p, sequence)) (fun _ => False) _ _ :=
    (Forwarding.answersOnly_exec client exit events).restart fun k flow p hget hp hgiven =>
      ⟨hgiven, k, flow, p.2, hget, hp⟩
  obtain ⟨answers, hemitted, hanswers⟩ := (hheld.step e).emitted
  rw [exec_concat events e]
  refine ⟨answers, hemitted, fun a ha => ?_⟩
  obtain ⟨hfrom, hholds⟩ := hanswers a ha
  have hacceptable := acceptable_resetOf hholds client
  rw [packetsOf, List.filterMap_append, List.mem_append]
  cases e with
  | packet bytes token dialled now =>
    exact ⟨.inr (List.mem_singleton.2 hfrom), hfrom, hholds, hacceptable⟩
  | turn | shutdown | ready => exact ⟨.inl hfrom.1, hfrom.2, hholds, hacceptable⟩

/-- An acknowledgement of what the server sent, on a connection that the stack has ended. -/
def strayAck : Bytes :=
  [0xc3, 0x50, 0x01, 0xbb, 0, 0, 0, 5, 0, 0, 0, 9, 0x50, 0x10, 0xff, 0xff, 0, 0, 0, 0]

/-- The reset for an acknowledgement has sequence number zero, and the application waits on. -/
theorem stray_ack_reset_ignored :
    ∃ r ∈ (exec Forwarding.step (.new (10, 207, 0, 2) .adapter)
        [.packet (ipv4Packet (10, 207, 0, 2) (93, 184, 216,
          34) protocolTcp strayAck) 1 true 0]).state.emitted,
      ∃ ip head, Holds (ipv4Packet (10, 207, 0, 2) (93, 184, 216,
        34) protocolTcp strayAck) ip head ∧
        r = resetOf (10, 207, 0, 2) ip head ∧ ¬Acceptable ip.payload head r := by
  have hholds : Holds (ipv4Packet (10, 207, 0, 2) (93, 184, 216, 34) protocolTcp strayAck)
      ⟨protocolTcp, (10, 207, 0, 2), (93, 184, 216, 34), false, strayAck⟩ ⟨50000, 443, 5, false,
        true, false⟩ :=
    ⟨parseIpv4_ipv4Packet (by decide), rfl, rfl, by decide +kernel⟩
  refine ⟨_, List.mem_singleton.2 ?_, _, _, hholds, rfl, ?_⟩
  · decide +kernel
  · rw [acceptable_resetOf hholds]
    decide +kernel

end GamePath.Engine.Tun2socks
