import GamePath.Engine.DirectRoutes

/-!
# What the LAN proxy runs in (`egress.rs`)

The proxy's event loop owns an egress, the sockets of its clients and a clock. `World` collects the
calls it makes to them, over a state of any type: `trait Egress` with the reads and writes of the
client streams, `Instant::now` and `rand::random` beside it. Every answer may depend on everything
that happened before, so a statement for every world covers every way the outside can behave.

Calls that the code repeats until they give nothing (`udp_recv`, `recv_from`) are one call here,
whose answer lists what the repeated calls give. A read or a write that was interrupted is made
again by the code; the answer here is the one that follows.
-/

namespace GamePath.Engine.Socks

open Direct (Text)

abbrev FlowId := Nat

abbrev Token := Nat

/-- `SocketAddrV4`. -/
structure SocketAddr where
  ip : Octets
  port : UInt16
  deriving DecidableEq

inductive TcpState where
  | connecting
  | opened
  | remoteClosed
  | closed
  | refused
  deriving DecidableEq

/-- A datagram with the address it came from. -/
abbrev Datagram := SocketAddr × Bytes

/-- What reading a client's stream comes to. No bytes is the end of the stream. -/
inductive ReadAnswer where
  | data (bytes : Bytes)
  | wouldBlock
  | failed

/-- What writing to a client's stream comes to. -/
inductive WriteAnswer where
  | written (count : Nat)
  | wouldBlock
  | failed

/-- The calls the proxy makes to what is outside it. -/
structure World (ω : Type) where
  tcpConnect : ω → SocketAddr → Except Text FlowId × ω
  tcpState : ω → FlowId → TcpState × ω
  tcpSend : ω → FlowId → Bytes → Nat × ω
  tcpRecv : ω → FlowId → Nat → Bytes × ω
  tcpSendIdle : ω → FlowId → Bool × ω
  tcpShutdown : ω → FlowId → ω
  tcpRelease : ω → FlowId → ω
  udpOpen : ω → Except Text FlowId × ω
  udpSend : ω → FlowId → SocketAddr → Bytes → Bool × ω
  /-- Every datagram waiting on a flow, in order. -/
  udpRecv : ω → FlowId → List Datagram × ω
  udpRelease : ω → FlowId → ω
  drive : ω → ω
  /-- `Instant::now`. -/
  now : ω → Instant × ω
  /-- `rand::random::<u16>`. -/
  random : ω → UInt16 × ω
  /-- Which of several entries of a hash map an iteration meets first. -/
  hashOrder : ω → Nat × ω
  /-- Reading at most so many bytes from a client's stream. -/
  read : ω → Token → Nat → ReadAnswer × ω
  /-- Writing to a client's stream. -/
  write : ω → Token → Bytes → WriteAnswer × ω
  /-- `shutdown(Shutdown::Write)`. -/
  shutdownWrite : ω → Token → ω
  /-- Every datagram waiting on the relay's UDP socket, in order. -/
  recvFrom : ω → List Datagram × ω
  /-- `send_to` on the relay's UDP socket, and whether it succeeded. -/
  sendTo : ω → SocketAddr → Bytes → Bool × ω
  /-- Decoding of standard base64, which another crate does. -/
  base64 : Text → Option Bytes

def destinationAllowed (address : Octets) : Bool :=
  !(address == (0, 0, 0, 0) || address.1 == 127 || (224 ≤ address.1 && address.1 ≤ 239) ||
    address == (255, 255, 255, 255) || (address.1 == 169 && address.2.1 == 254) ||
    address.1 == 0 || 240 ≤ address.1)

end GamePath.Engine.Socks
