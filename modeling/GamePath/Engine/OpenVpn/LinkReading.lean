import GamePath.Engine.Checksum
import GamePath.Engine.OpenVpn.Link

/-!
# Packets cut out of the byte stream (`Link::receive` over TCP, `take_framed`)

A read of the stream may end anywhere: inside a length, inside a packet, or after several packets.
What was read and is not yet a whole packet stays in `pending`. A call of `receive` makes at most
one read and returns at most one packet, so a packet that came with others is returned by a later
call, which reads nothing.

The stream is known by what the reads of it come to. `receive_in_order` says of every run of calls
which packets it has returned, and that a call returns no packet only when the next one is not all
there.
-/

namespace GamePath.Engine.OpenVpn

open Lib List BigEndian

def maxPacket : Nat := 65535

/-- The length of the array one read fills. -/
def readSize : Nat := 8192

/-- What waiting for the stream comes to: `set_read_timeout` refused, or the outcome of `read`. -/
inductive Reading where
  | refused (error : String)
  /-- `Ok(length)` with what was read. No bytes are the end of the stream. -/
  | data (bytes : Bytes)
  /-- `WouldBlock` or `TimedOut`. -/
  | waited
  | failed (error : String)
  deriving DecidableEq

/-- `take_framed`: what it returns, and the buffer it leaves. -/
def takeFramed (pending : Bytes) : Except String (Option Bytes) × Bytes :=
  match pending with
  | high :: low :: rest =>
    let length := (u16OfBe high low).toNat
    if length = 0 then (.error "the OpenVPN server framed a zero-length packet", pending)
    else if rest.length < length then (.ok none, pending)
    else (.ok (some (rest.take length)), rest.drop length)
  | _ => (.ok none, pending)

/-- The reading half of `Link::Tcp`: the bytes that do not yet form a packet, and what the reads to
come will come to. -/
structure ReadHalf where
  pending : Bytes
  incoming : List Reading

namespace ReadHalf

/-- The buffer after a read, with the first packet cut off. -/
def cut (pending : Bytes) (incoming : List Reading) : Except String (Option Bytes) × ReadHalf :=
  ((takeFramed pending).1, ⟨(takeFramed pending).2, incoming⟩)

/-- `Link::receive` over TCP. When nothing is to come, every wait expires. -/
def receive (link : ReadHalf) : Except String (Option Bytes) × ReadHalf :=
  match takeFramed link.pending with
  | (.error error, pending) => (.error error, { link with pending := pending })
  | (.ok (some packet), pending) => (.ok (some packet), { link with pending := pending })
  | (.ok none, pending) =>
    match link.incoming with
    | [] => (.ok none, ⟨pending, []⟩)
    | .refused error :: incoming =>
      (.error ("could not set an OpenVPN read timeout: " ++ error), ⟨pending, incoming⟩)
    | .data [] :: incoming => (.error "the OpenVPN server closed the connection",
      ⟨pending, incoming⟩)
    | .data bytes :: incoming => cut (pending ++ bytes) incoming
    | .waited :: incoming => (.ok none, ⟨pending, incoming⟩)
    | .failed error :: incoming =>
      (.error ("could not read from the OpenVPN link: " ++ error), ⟨pending, incoming⟩)

/-- `Link::connect` over TCP, for a stream whose reads come to `incoming`. -/
def connect (incoming : List Reading) : ReadHalf := ⟨[], incoming⟩

/-- The link after so many calls. -/
def after (link : ReadHalf) : Nat → ReadHalf
  | 0 => link
  | calls + 1 => (link.after calls).receive.2

/-- What call number `call` of a run returns. -/
def returned (link : ReadHalf) (call : Nat) : Except String (Option Bytes) :=
  (link.after call).receive.1

/-- The packets that the first `calls` calls returned, in order. -/
def packets (link : ReadHalf) : Nat → List Bytes
  | 0 => []
  | calls + 1 =>
    match link.returned calls with
    | .ok (some packet) => link.packets calls ++ [packet]
    | _ => link.packets calls

end ReadHalf

/-! ## The stream -/

/-- The bytes that a list of reads brings. -/
def Reading.bytes : Reading → Bytes
  | .data bytes => bytes
  | _ => []

/-- A read of a live stream: some bytes, as many as the array holds at most, or a wait that expired.
-/
def Reading.Live : Reading → Prop
  | .data bytes => 1 ≤ bytes.length ∧ bytes.length ≤ readSize
  | .waited => True
  | _ => False

/-- The bytes of a list of reads, one after the other. -/
def streamOf (readings : List Reading) : Bytes := readings.flatMap Reading.bytes

/-- Packets on the wire, each preceded by its length. -/
def wire (packets : List Bytes) : Bytes :=
  packets.flatMap fun packet => toBytes 2 packet.length ++ packet

/-- A packet that can be framed. -/
def Fits (packet : Bytes) : Prop := packet ≠ [] ∧ packet.length ≤ maxPacket

/-- The bytes that the first `calls` calls read. -/
def ReadHalf.bytesRead (link : ReadHalf) (calls : Nat) : Bytes :=
  streamOf (link.incoming.take (link.incoming.length - (link.after calls).incoming.length))

@[simp] theorem streamOf_nil : streamOf [] = [] := rfl

@[simp] theorem streamOf_append (readings readings' : List Reading) :
    streamOf (readings ++ readings') = streamOf readings ++ streamOf readings' :=
  flatMap_append

@[simp] theorem wire_nil : wire [] = [] := rfl

@[simp] theorem wire_cons (packet : Bytes) (packets : List Bytes) :
    wire (packet :: packets) = toBytes 2 packet.length ++ packet ++ wire packets := rfl

@[simp] theorem wire_append (packets packets' : List Bytes) :
    wire (packets ++ packets') = wire packets ++ wire packets' :=
  flatMap_append

/-! ## One packet is cut off -/

theorem takeFramed_length (length : Nat) (hpos : 0 < length) (hle : length ≤ maxPacket)
    (rest : Bytes) :
    takeFramed (toBytes 2 length ++ rest) =
      if rest.length < length then (.ok none, toBytes 2 length ++ rest)
      else (.ok (some (rest.take length)), rest.drop length) := by
  have hread : (u16OfBe (UInt8.ofNat (length / 256 ^ 1)) (UInt8.ofNat (length / 256 ^ 0))).toNat =
      length := by
    rw [u16OfBe_toNat, UInt8.toNat_ofNat', UInt8.toNat_ofNat']
    rw [maxPacket] at hle
    omega
  show takeFramed (UInt8.ofNat (length / 256 ^ 1) :: UInt8.ofNat (length / 256 ^ 0) :: rest) = _
  rw [takeFramed, hread, if_neg (by omega)]
  rfl

theorem takeFramed_frame {packet : Bytes} (hfits : Fits packet) (rest : Bytes) :
    takeFramed (toBytes 2 packet.length ++ packet ++ rest) = (.ok (some packet), rest) := by
  rw [append_assoc, takeFramed_length _ (length_pos_of_ne_nil hfits.1) hfits.2]
  rw [if_neg (by simp), take_left, drop_left]

theorem takeFramed_short {packet front : Bytes} (hfits : Fits packet)
    (hfront : front <+: toBytes 2 packet.length ++ packet)
    (hshort : front.length < 2 + packet.length) : takeFramed front = (.ok none, front) := by
  by_cases hlength : front.length < 2
  · -- The length itself is not all there.
    match front with
    | [] => rfl
    | [_] => rfl
    | _ :: _ :: _ => simp at hlength
  · obtain ⟨rest, rfl⟩ : toBytes 2 packet.length <+: front :=
      prefix_of_prefix_length_le (prefix_append _ _) hfront (by simp; omega)
    rw [takeFramed_length _ (length_pos_of_ne_nil hfits.1) hfits.2]
    simpa using hshort

/-- A buffer in front of the stream gives the next packet, or the packet is not all there. -/
theorem takeFramed_wire {pending later : Bytes} {sent : List Bytes}
    (hfits : ∀ packet ∈ sent, Fits packet) (hstream : pending ++ later = wire sent) :
    (∃ packet rest, sent = packet :: rest ∧ (takeFramed pending).1 = .ok (some packet) ∧
        (takeFramed pending).2 ++ later = wire rest ∧
        pending = toBytes 2 packet.length ++ packet ++ (takeFramed pending).2) ∨
      (takeFramed pending = (.ok none, pending) ∧
        ∀ packet rest, sent = packet :: rest → pending.length < 2 + packet.length) := by
  cases sent with
  | nil =>
    obtain ⟨rfl, rfl⟩ := append_eq_nil_iff.1 hstream
    exact .inr ⟨rfl, nofun⟩
  | cons packet rest =>
    have hpacket := hfits packet mem_cons_self
    by_cases hshort : pending.length < 2 + packet.length
    · right
      refine ⟨takeFramed_short hpacket ?_ hshort, ?_⟩
      · apply prefix_of_prefix_length_le ⟨later, hstream⟩ (prefix_append _ _)
        simp
        omega
      · rintro _ _ heq
        cases heq
        exact hshort
    left
    obtain ⟨behind, rfl⟩ : toBytes 2 packet.length ++ packet <+: pending := by
      apply prefix_of_prefix_length_le (prefix_append _ _) ⟨later, hstream⟩
      simp
      omega
    rw [append_assoc] at hstream
    refine ⟨packet, rest, rfl, ?_⟩
    rw [takeFramed_frame hpacket]
    exact ⟨rfl, append_cancel_left hstream, rfl⟩

namespace ReadHalf

variable {sent : List Bytes} {link : ReadHalf}

/-- What a call does to a stream that carries the packets `sent`. -/
structure Received (sent : List Bytes) (link : ReadHalf) : Prop where
  /-- The call reads at most once. -/
  reads : ∃ read, link.incoming = read ++ link.receive.2.incoming ∧ read.length ≤ 1 ∧
    (read = [] → link.incoming = [] ∨ ∃ packet, link.receive.1 = .ok (some packet))
  /-- The next packet is returned and leaves the buffer, or it is not all there. -/
  next :
    (∃ packet rest, sent = packet :: rest ∧ link.receive.1 = .ok (some packet) ∧
        link.receive.2.pending ++ streamOf link.receive.2.incoming = wire rest) ∨
      (link.receive.1 = .ok none ∧
        link.receive.2.pending ++ streamOf link.receive.2.incoming = wire sent ∧
        ∀ packet rest, sent = packet :: rest → link.receive.2.pending.length < 2 + packet.length)

/-- A buffer from which the first packet is cut, if it is there. -/
theorem next_cut {pending : Bytes} {incoming : List Reading} (hfits : ∀ packet ∈ sent, Fits packet)
    (hstream : pending ++ streamOf incoming = wire sent) :
    (∃ packet rest, sent = packet :: rest ∧ (cut pending incoming).1 = .ok (some packet) ∧
        (cut pending incoming).2.pending ++ streamOf (cut pending incoming).2.incoming =
          wire rest) ∨
      ((cut pending incoming).1 = .ok none ∧
        (cut pending incoming).2.pending ++ streamOf (cut pending incoming).2.incoming = wire sent ∧
        ∀ packet rest, sent = packet :: rest →
          (cut pending incoming).2.pending.length < 2 + packet.length) := by
  rcases takeFramed_wire hfits hstream with ⟨packet, rest, hsent, hpacket, hrest,
    -⟩ | ⟨hnone, hshort⟩
  · exact .inl ⟨packet, rest, hsent, hpacket, hrest⟩
  · right
    rw [cut, hnone]
    exact ⟨rfl, hstream, hshort⟩

theorem received (hfits : ∀ packet ∈ sent, Fits packet) (hlive : ∀ reading ∈ link.incoming,
    reading.Live)
    (hstream : link.pending ++ streamOf link.incoming = wire sent) : Received sent link := by
  obtain ⟨pending, incoming⟩ := link
  rcases takeFramed_wire hfits hstream with ⟨packet, rest, hsent, hpacket, hrest,
    -⟩ | ⟨hnone, hshort⟩
  · have hreceive : receive ⟨pending, incoming⟩ =
        (.ok (some packet), ⟨(takeFramed pending).2, incoming⟩) := by
      rw [receive, ← Prod.mk.eta (p := takeFramed pending), hpacket]
    constructor
    · rw [hreceive]
      exact ⟨[], rfl, Nat.zero_le 1, fun _ => .inr ⟨packet, rfl⟩⟩
    · rw [hreceive]
      exact .inl ⟨packet, rest, hsent, rfl, hrest⟩
  cases incoming with
  | nil =>
    have hreceive : receive ⟨pending, []⟩ = (.ok none, ⟨pending, []⟩) := by rw [receive, hnone]
    constructor
    · rw [hreceive]
      exact ⟨[], rfl, Nat.zero_le 1, fun _ => .inl rfl⟩
    · rw [hreceive]
      exact .inr ⟨rfl, hstream, hshort⟩
  | cons reading incoming =>
    have hreading := hlive reading mem_cons_self
    match reading, hreading with
    | .waited, _ =>
      have hreceive : receive ⟨pending, .waited :: incoming⟩ = (.ok none, ⟨pending, incoming⟩) := by
        rw [receive, hnone]
      constructor
      · rw [hreceive]
        exact ⟨[.waited], rfl, Nat.le_refl 1, nofun⟩
      · rw [hreceive]
        exact .inr ⟨rfl, hstream, hshort⟩
    | .data (byte :: bytes), _ =>
      have hreceive : receive ⟨pending, .data (byte :: bytes) :: incoming⟩ =
          cut (pending ++ byte :: bytes) incoming := by
        rw [receive, hnone]
      constructor
      · rw [hreceive]
        exact ⟨[.data (byte :: bytes)], rfl, Nat.le_refl 1, nofun⟩
      · rw [hreceive]
        apply next_cut hfits
        rw [append_assoc]
        exact hstream
    | .data [], h => cases h.1

/-! ## A run of calls -/

/-- What is known of a run of calls on a stream that carries the packets `sent`. -/
structure Follows (sent : List Bytes) (link : ReadHalf) (calls : Nat) : Prop where
  /-- The packets that were returned are the first ones that were sent. -/
  inOrder : link.packets calls <+: sent
  /-- What was read is what was returned, with the lengths, and what is pending. -/
  accounted : wire (link.packets calls) ++ (link.after calls).pending = link.bytesRead calls
  /-- What was read is the front of the stream. -/
  unread : link.bytesRead calls ++ streamOf (link.after calls).incoming = streamOf link.incoming
  /-- The next call returns the next packet, unless its last byte is still not read after the call.
  -/
  prompt : ∀ packet, link.packets calls ++ [packet] <+: sent →
    link.returned calls = .ok (some packet) ∨
      (link.returned calls = .ok none ∧
        (link.bytesRead (calls + 1)).length < (wire (link.packets calls ++ [packet])).length)
  /-- When all packets are returned nothing else is. -/
  quiet : link.packets calls = sent → link.returned calls = .ok none

/-- The invariant of a run: some of the reads are made, and the buffer is in front of the rest. -/
structure Reached (sent : List Bytes) (link : ReadHalf) (calls : Nat) : Prop where
  split : ∃ rest, sent = link.packets calls ++ rest ∧
    (link.after calls).pending ++ streamOf (link.after calls).incoming = wire rest
  reads : ∃ read, link.incoming = read ++ (link.after calls).incoming

variable {calls : Nat}

theorem bytesRead_of_reads {read : List Reading}
    (h : link.incoming = read ++ (link.after calls).incoming) :
    link.bytesRead calls = streamOf read := by
  rw [bytesRead, h]
  simp

theorem Reached.live (h : Reached sent link calls) (hlive : ∀ reading ∈ link.incoming,
    reading.Live) :
    ∀ reading ∈ (link.after calls).incoming, reading.Live := by
  obtain ⟨read, hread⟩ := h.reads
  intro reading hmem
  apply hlive
  rw [hread]
  exact mem_append_right _ hmem

theorem Reached.received (h : Reached sent link calls) (hfits : ∀ packet ∈ sent, Fits packet)
    (hlive : ∀ reading ∈ link.incoming, reading.Live) :
    ∃ rest, sent = link.packets calls ++ rest ∧ Received rest (link.after calls) := by
  obtain ⟨rest, hsent, hstream⟩ := h.split
  refine ⟨rest, hsent, ReadHalf.received (fun packet hmem => hfits packet ?_)
    (h.live hlive) hstream⟩
  rw [hsent]
  exact mem_append_right _ hmem

theorem packets_of_none (h : link.returned calls = .ok none) :
    link.packets (calls + 1) = link.packets calls := by
  rw [packets, h]

theorem packets_of_some {packet : Bytes} (h : link.returned calls = .ok (some packet)) :
    link.packets (calls + 1) = link.packets calls ++ [packet] := by
  rw [packets, h]

theorem Reached.next (h : Reached sent link calls) (hfits : ∀ packet ∈ sent, Fits packet)
    (hlive : ∀ reading ∈ link.incoming, reading.Live) : Reached sent link (calls + 1) := by
  obtain ⟨rest, hsent, hreads, hnext⟩ := h.received hfits hlive
  obtain ⟨before, hbefore⟩ := h.reads
  obtain ⟨read, hread, -⟩ := hreads
  constructor
  · rcases hnext with ⟨packet, rest', rfl, hpacket, hstream⟩ | ⟨hnone, hstream, -⟩
    · refine ⟨rest', ?_, hstream⟩
      rw [packets_of_some hpacket, append_assoc]
      exact hsent
    · refine ⟨rest, ?_, hstream⟩
      rw [packets_of_none hnone]
      exact hsent
  · refine ⟨before ++ read, ?_⟩
    rw [append_assoc]
    exact hbefore.trans (congrArg (before ++ ·) hread)

section

variable (hfits : ∀ packet ∈ sent, Fits packet) (hlive : ∀ reading ∈ link.incoming, reading.Live)
include hfits hlive

theorem reached (hstream : link.pending ++ streamOf link.incoming = wire sent) (calls : Nat) :
    Reached sent link calls := by
  induction calls with
  | zero => exact ⟨⟨sent, rfl, hstream⟩, ⟨[], rfl⟩⟩
  | succ calls ih => exact ih.next hfits hlive

omit hfits hlive in
theorem Reached.accounted (h : Reached sent link calls) (hempty : link.pending = [])
    (hstream : link.pending ++ streamOf link.incoming = wire sent) :
    wire (link.packets calls) ++ (link.after calls).pending = link.bytesRead calls := by
  obtain ⟨rest, hsent, hrest⟩ := h.split
  obtain ⟨read, hread⟩ := h.reads
  rw [bytesRead_of_reads hread]
  apply @append_cancel_right _ _ (streamOf (link.after calls).incoming)
  rw [append_assoc, hrest, ← wire_append, ← hsent, ← streamOf_append, ← hread, ← hstream, hempty,
    nil_append]

theorem follows (hempty : link.pending = []) (hstream : streamOf link.incoming = wire sent)
    (calls : Nat) :
    Follows sent link calls := by
  have hwhole : link.pending ++ streamOf link.incoming = wire sent := by rw [hempty, hstream,
    nil_append]
  have h := reached hfits hlive hwhole calls
  obtain ⟨rest, hsent, hreceived⟩ := h.received hfits hlive
  constructor
  · exact ⟨rest, hsent.symm⟩
  · exact h.accounted hempty hwhole
  · obtain ⟨read, hread⟩ := h.reads
    rw [bytesRead_of_reads hread, ← streamOf_append, ← hread]
  · rintro packet ⟨later, hlater⟩
    have hrest : rest = packet :: later := by
      rw [hsent, append_assoc] at hlater
      exact (append_cancel_left hlater).symm
    rcases hreceived.next with ⟨_, _, heq, hpacket, -⟩ | ⟨hnone, -, hshort⟩
    · cases hrest.symm.trans heq
      exact .inl hpacket
    refine .inr ⟨hnone, ?_⟩
    have hless := hshort packet later hrest
    have haccounted := (reached hfits hlive hwhole (calls + 1)).accounted hempty hwhole
    rw [packets_of_none hnone] at haccounted
    rw [← haccounted]
    simp only [wire_append, wire_cons, wire_nil, append_nil, length_append,
      length_toBytes]
    exact Nat.add_lt_add_left hless _
  · intro hall
    rw [hall] at hsent
    obtain rfl : rest = [] := by simpa using hsent
    rcases hreceived.next with ⟨_, _, heq, -⟩ | ⟨hnone, -⟩
    · cases heq
    · exact hnone

theorem length_packets (hstream : link.pending ++ streamOf link.incoming = wire sent)
    (calls : Nat) :
    link.packets calls = sent ∨
      calls + (link.after calls).incoming.length ≤ link.incoming.length +
        (link.packets calls).length := by
  induction calls with
  | zero => exact .inr (by simp [after, packets])
  | succ calls ih =>
    obtain ⟨rest, hsent, ⟨read, hread, -, hprogress⟩, hnext⟩ :=
      (reached hfits hlive hstream calls).received hfits hlive
    have hlength := congrArg List.length hread
    rw [length_append] at hlength
    have hafter : (link.after (calls + 1)).incoming = (link.after calls).receive.2.incoming := rfl
    rcases hnext with ⟨packet, rest', rfl, hpacket, -⟩ | ⟨hnone, hleft, hshort⟩
    · rw [packets_of_some hpacket]
      rcases ih with hall | hle
      · rw [hall] at hsent
        exact absurd hsent.symm (by simp)
      · right
        rw [hafter, length_append]
        simp only [length_singleton]
        omega
    rw [packets_of_none hnone]
    rcases ih with hall | hle
    · exact .inl hall
    cases hempty : read with
    | cons reading read' =>
      right
      rw [hempty] at hlength
      simp only [length_cons] at hlength
      rw [hafter]
      omega
    | nil =>
      -- Nothing was read: nothing is to come, so what is pending is all that is left.
      rcases hprogress hempty with hnothing | ⟨packet, hpacket⟩
      · left
        rw [hempty, hnothing, nil_append] at hread
        rw [← hread, streamOf_nil, append_nil] at hleft
        cases rest with
        | nil => rw [hsent, append_nil]
        | cons packet rest' =>
          have hless := hshort packet rest' rfl
          rw [hleft] at hless
          simp only [wire_cons, length_append, length_toBytes] at hless
          omega
      · cases hnone.symm.trans hpacket

end

end ReadHalf

/-- Packets that are framed, sent as one byte stream and cut into reads in any way come back from
`receive` one after the other, each from the first call that is made when it is all there and the
packets before it are returned; what was read is what was returned and what is pending, and as many
calls as there are reads and packets return them all. -/
theorem receive_in_order (sent : List Bytes) (incoming : List Reading)
    (hfits : ∀ packet ∈ sent, packet ≠ [] ∧ packet.length ≤ 65535) (hlive : ∀ reading ∈ incoming,
      reading = .waited ∨ ∃ bytes, reading = .data bytes ∧ 1 ≤ bytes.length ∧ bytes.length ≤ 8192)
    (hstream : streamOf incoming = wire sent) :
    (∀ calls, ReadHalf.Follows sent (ReadHalf.connect incoming) calls) ∧
      ∀ calls, incoming.length + sent.length ≤ calls →
        (ReadHalf.connect incoming).packets calls = sent := by
  have hreadings : ∀ reading ∈ incoming, reading.Live := by
    intro reading hmem
    rcases hlive reading hmem with rfl | ⟨bytes, rfl, hbytes⟩
    · trivial
    · exact hbytes
  have hfollows : ∀ calls, ReadHalf.Follows sent (ReadHalf.connect incoming) calls := fun calls =>
    ReadHalf.follows hfits hreadings rfl hstream calls
  refine ⟨hfollows, fun calls hcalls => ?_⟩
  obtain ⟨rest, hrest⟩ := (hfollows calls).inOrder
  have hlength : (ReadHalf.connect incoming).packets calls = sent ∨
      calls + ((ReadHalf.connect incoming).after calls).incoming.length ≤
        incoming.length + ((ReadHalf.connect incoming).packets calls).length :=
    @ReadHalf.length_packets sent (ReadHalf.connect incoming) hfits hreadings hstream calls
  rcases hlength with hall | hle
  · exact hall
  · have hsum := congrArg List.length hrest
    rw [List.length_append] at hsum
    obtain rfl : rest = [] := List.length_eq_zero_iff.1 (by omega)
    rw [← hrest, List.append_nil]

/-- Two packets, with a wait and a cut inside the second length. -/
theorem receive_in_order_two :
    (∀ calls, ReadHalf.Follows [[1, 2], [3]]
      (ReadHalf.connect [.data [0, 2, 1, 2, 0], .waited, .data [1, 3]]) calls) ∧
      ∀ calls, 5 ≤ calls →
        (ReadHalf.connect [.data [0, 2, 1, 2, 0], .waited, .data [1, 3]]).packets calls =
          [[1, 2], [3]] := by
  apply receive_in_order [[1, 2], [3]] [.data [0, 2, 1, 2, 0], .waited, .data [1, 3]]
  · decide
  · simp
  · decide

end GamePath.Engine.OpenVpn
