import GamePath.Engine.Checksum
import GamePath.Engine.Socks.World

/-!
# The packets of the forwarding stack (`tun2socks/packet.rs`)

The IPv4 packets the stack reads and writes itself. Checksums are summed in natural numbers: no
packet is long enough to overflow the `u32` of the source. A length that does not fit its 16 bits is
cut, as `as u16` does.
-/

namespace GamePath.Engine.Tun2socks

open Lib
open Socks (SocketAddr)

/-- The protocol numbers an IPv4 header names. -/
def protocolTcp : UInt8 := 6

def protocolUdp : UInt8 := 17

/-- The time to live of every packet built here. -/
def ttl : UInt8 := 64

/-- What is read of an IPv4 packet: the payload ends where the header says it does. -/
structure Ipv4 where
  protocol : UInt8
  source : Octets
  destination : Octets
  fragmented : Bool
  payload : Bytes

/-- `parse_ipv4`: a packet whose lengths do not fit together is refused. -/
def parseIpv4 : Bytes → Option Ipv4
  | packet@(b0 :: _ :: b2 :: b3 :: _ :: _ :: b6 :: b7 :: _ :: b9 :: _ :: _ ::
      s0 :: s1 :: s2 :: s3 :: d0 :: d1 :: d2 :: d3 :: _) =>
      let header := (b0 &&& 0x0f).toNat * 4
      let total := (u16OfBe b2 b3).toNat
      if b0 >>> 4 ≠ 4 then none
      else if header < 20 ∨ total < header ∨ packet.length < total then none
      else
        some
          { protocol := b9
            source := (s0, s1, s2, s3)
            destination := (d0, d1, d2, d3)
            -- More-fragments set, or any offset: not a whole datagram.
            fragmented := u16OfBe b6 b7 &&& 0x3fff != 0
            payload := (packet.take total).drop header }
  | _ => none

/-- The ports of a segment and the flags of it that are looked at. -/
structure TcpHead where
  sourcePort : UInt16
  destinationPort : UInt16
  sequence : UInt32
  syn : Bool
  ack : Bool
  rst : Bool
  deriving DecidableEq

def parseTcp (segment : Bytes) : Option TcpHead :=
  match segment with
  | s0 :: s1 :: d0 :: d1 :: q0 :: q1 :: q2 :: q3 :: _ :: _ :: _ :: _ :: _ :: flags :: _ =>
    if segment.length < 20 then none
    else
      some
        { sourcePort := u16OfBe s0 s1
          destinationPort := u16OfBe d0 d1
          sequence := UInt32.ofNat (BigEndian.ofBytes [q0, q1, q2, q3])
          syn := flags &&& 0x02 != 0
          ack := flags &&& 0x10 != 0
          rst := flags &&& 0x04 != 0 }
  | _ => none

/-- A datagram: its ports and what it carries. -/
structure Udp where
  sourcePort : UInt16
  destinationPort : UInt16
  payload : Bytes

/-- `parse_udp`: the datagram ends where its own length says. -/
def parseUdp : Bytes → Option Udp
  | segment@(s0 :: s1 :: d0 :: d1 :: l0 :: l1 :: _ :: _ :: _) =>
    let length := (u16OfBe l0 l1).toNat
    if length < 8 ∨ segment.length < length then none
    else some ⟨u16OfBe s0 s1, u16OfBe d0 d1, (segment.take length).drop 8⟩
  | _ => none

/-! ## Building packets -/

/-- `fold(sum(data, accumulator))`. -/
def checksum (data : Bytes) (accumulator : Nat) : UInt16 :=
  ~~~ (UInt16.ofNat (OnesComplement.fold 16 (accumulator + wordSum data)))

/-- The sum over the pseudo header, with which both checksums begin. -/
def pseudoHeader (source destination : Octets) (protocol : UInt8) (length : Nat) : Nat :=
  wordSum (octets source) + wordSum (octets destination) + protocol.toNat + length

/-- A whole packet around a payload. -/
def ipv4Packet (source destination : Octets) (protocol : UInt8) (payload : Bytes) : Bytes :=
  let total := UInt16.ofNat (20 + payload.length)
  -- Identification 0 with don't-fragment set, as for any atomic datagram.
  let header := [0x45, 0] ++ beU16 total ++ [0, 0, 0x40, 0, ttl, protocol, 0, 0] ++ octets source ++
    octets destination
  setU16 header 10 (checksum header 0) ++ payload

/-- `build_udp`. -/
def buildUdp (source destination : SocketAddr) (payload : Bytes) : Bytes :=
  let length := 8 + payload.length
  let segment := beU16 source.port ++ beU16 destination.port ++ beU16 (UInt16.ofNat length) ++
    [0, 0] ++
    payload
  let sum := checksum segment (pseudoHeader source.ip destination.ip protocolUdp length)
  -- A computed zero is sent as all ones; zero means that there is no checksum.
  ipv4Packet source.ip destination.ip protocolUdp
    (setU16 segment 6 (if sum = 0 then 0xffff else sum))

/-- `build_tcp_reset`: the reset that refuses a SYN, as a host with nothing listening would. -/
def buildTcpReset (source destination : SocketAddr) (acknowledges : UInt32) : Bytes :=
  -- Five-word header, RST and ACK, no window.
  let segment := beU16 source.port ++ beU16 destination.port ++ beU32 0 ++ beU32 acknowledges ++
    [0x50, 0x14, 0, 0, 0, 0, 0, 0]
  ipv4Packet source.ip destination.ip protocolTcp
    (setU16 segment 16 (checksum segment
      (pseudoHeader source.ip destination.ip protocolTcp segment.length)))

end GamePath.Engine.Tun2socks
