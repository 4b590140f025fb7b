import GamePath.Engine.Basic

/-!
# Relay frames

`engine/src/protocol.rs`: the header of a frame between client and relay, its flags, how it is read
off a datagram, and the answer to a probe.
-/

namespace GamePath.Engine.Protocol

open Lib

/-- A client's identity, `[u8; 16]`. -/
abbrev ClientId := Vector UInt8 16

/-- `GPTH`, with which every frame begins. -/
def magic : Nat := 0x47505448

def version : UInt8 := 1

/-- The bytes in front of the payload. -/
def headerLen : Nat := 40

/-- The flags of a frame. -/
def flagControl : UInt8 := 1

def flagServerToClient : UInt8 := 2

def flagRepair : UInt8 := 4

def flagPathUnhealthy : UInt8 := 8

/-- A decoded header, without the magic number and the version. -/
structure FrameHeader where
  flags : UInt8
  clientId : ClientId
  sessionId : UInt64
  sequence : UInt64

/-- `header.flags & flag != 0`. -/
def FrameHeader.has (header : FrameHeader) (flag : UInt8) : Bool :=
  decide (header.flags &&& flag ≠ 0)

/-- Why a frame is refused before anything of it is used. -/
inductive DecodeError where
  | tooShort
  | invalidMagic
  | unsupportedVersion
  | invalidHeaderLength
  deriving DecidableEq

/-- `FrameHeader::decode`. -/
def FrameHeader.decode (bytes : Bytes) : Except DecodeError FrameHeader :=
  if bytes.length < headerLen then .error .tooShort
  else if BigEndian.ofBytes (bytes.take 4) ≠ magic then .error .invalidMagic
  else if bytes.getD 4 0 ≠ version then .error .unsupportedVersion
  else if BigEndian.ofBytes ((bytes.drop 6).take 2) ≠ headerLen then .error .invalidHeaderLength
  else
    .ok {
      flags := bytes.getD 5 0
      clientId := Vector.ofFn fun i => bytes.getD (8 + i.val) 0
      sessionId := UInt64.ofNat (BigEndian.ofBytes ((bytes.drop 24).take 8))
      sequence := UInt64.ofNat (BigEndian.ofBytes ((bytes.drop 32).take 8)) }

/-- The bytes of `ping`. -/
def ping : Bytes := [0x70, 0x69, 0x6e, 0x67]

/-- The bytes of `pong`. -/
def pong : Bytes := [0x70, 0x6f, 0x6e, 0x67]

/-- The payload that answers a probe, if the request is one. -/
def probeResponse (request : Bytes) : Option Bytes :=
  if request ≠ ping ∧ ¬ (request.length = 12 ∧ request.take 4 = ping) then none
  else some (pong ++ request.drop 4)

end GamePath.Engine.Protocol
