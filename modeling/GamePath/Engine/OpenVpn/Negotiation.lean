import GamePath.Engine.Socks.Wire
import GamePath.Engine.OpenVpn.DataChannel

/-!
# What the two ends of an OpenVPN session agree on

The part of `config.rs` a running session reads, the texts the two ends exchange inside TLS
(`session.rs`), and the derivation of the data keys from the random material (`crypto.rs`). A text
is the list of its characters.
-/

namespace GamePath.Engine.OpenVpn

open Direct (Text parseIpv4 splitOnce trim trimEndMatches isWhitespace digits)
open Dns (utf8Bytes)
open Socks (stripPrefix)

/-! ## The configuration -/

inductive Protocol where
  | udp
  | tcp
  deriving DecidableEq

def Protocol.optionsName : Protocol → Text
  | .udp => "UDPv4".toList
  | .tcp => "TCPv4_CLIENT".toList

structure Remote where
  host : Text
  port : UInt16
  protocol : Protocol

def Remote.endpoint (remote : Remote) : Text :=
  remote.host ++ ':' :: (toString remote.port.toNat).toList

/-- `OpenVpnConfig`. A configuration always has a remote. -/
structure OpenVpnConfig where
  remotes : List Remote
  remotes_ne_nil : remotes ≠ []
  controlAuth : Wrapping
  dataCiphers : List DataCipher
  fallbackCipher : DataCipher
  digest : Digest
  wantsCredentials : Bool
  tunMtu : UInt16

def Digest.asStr : Digest → String
  | .md5 => "MD5"
  | .sha1 => "SHA1"
  | .sha256 => "SHA256"
  | .sha512 => "SHA512"

def Digest.parse (name : Text) : Option Digest :=
  let name := (name.map Char.toUpper).filter fun c => c ≠ '-'
  if name = "MD5".toList then some .md5
  else if name = "SHA1".toList then some .sha1
  else if name = "SHA256".toList then some .sha256
  else if name = "SHA512".toList then some .sha512
  else none

def DataCipher.parse (name : Text) : Option DataCipher :=
  let name := name.map Char.toUpper
  if name = "AES-256-GCM".toList then some .aes256Gcm
  else if name = "AES-128-GCM".toList then some .aes128Gcm
  else if name = "CHACHA20-POLY1305".toList ∨ name = "CHACHA20POLY1305".toList then
    some .chaCha20Poly1305
  else if name = "AES-256-CBC".toList then some .aes256Cbc
  else if name = "AES-192-CBC".toList then some .aes192Cbc
  else if name = "AES-128-CBC".toList then some .aes128Cbc
  else none

namespace OpenVpnConfig

def optionsString (config : OpenVpnConfig) (protocol : Protocol) : Text :=
  "V4,dev-type tun,link-mtu 1549".toList ++
    ",tun-mtu ".toList ++ (toString config.tunMtu.toNat).toList ++
    ",proto ".toList ++ protocol.optionsName ++
    ",cipher ".toList ++ config.fallbackCipher.asStr.toList ++
    ",auth ".toList ++ config.digest.asStr.toList ++
    ",keysize ".toList ++ (toString (config.fallbackCipher.keyLen * 8)).toList ++
    ",key-method 2,tls-client".toList

def peerInfoIvProto : Nat := 2 ||| 4 ||| 16

def peerInfo (config : OpenVpnConfig) (remote : Remote) : Text :=
  let ciphers := ":".intercalate (config.dataCiphers.map DataCipher.asStr)
  ("IV_VER=2.6.0\nIV_PLAT=win\nIV_TCPNL=1\nIV_MTU=" ++ toString config.tunMtu.toNat ++
    "\nIV_NCP=2\nIV_CIPHERS=" ++ ciphers ++ "\nIV_PROTO=" ++ toString peerInfoIvProto ++
    "\nIV_LZO_STUB=1\nIV_COMP_STUB=1\nIV_COMP_STUBv2=1\nUV_ENDPOINT=").toList ++
    remote.endpoint ++ ['\n']

end OpenVpnConfig

structure Credentials where
  username : Option Text
  password : Option Text

/-! ## Key derivation -/

structure KeySource where
  preMaster : Vector UInt8 48
  random1 : Vector UInt8 32
  random2 : Vector UInt8 32

/-- The chunks `p_hash` appends, one for each turn of its loop. -/
def hashChunks (mac : Bytes → List Bytes → Bytes) (secret seed : Bytes) : Nat → Bytes → Bytes
  | 0, _ => []
  | turns + 1, a => mac secret [a, seed] ++ hashChunks mac secret seed turns (mac secret [a])

/-- `p_hash`. Every turn of its loop appends a hash, so there are no more turns than bytes. -/
def pHash (mac : Bytes → List Bytes → Bytes) (secret seed : Bytes) (length : Nat) : Bytes :=
  (hashChunks mac secret seed length (mac secret [seed])).take length

def tls1Prf (crypto : PacketCrypto) (secret seed : Bytes) (length : Nat) : Bytes :=
  let half := (secret.length + 1) / 2
  List.zipWith (fun left right => left ^^^ right)
    (pHash (crypto.hmac .md5) (secret.take half) seed length)
    (pHash (crypto.hmac .sha1) (secret.drop (secret.length - half)) seed length)

def openvpnPrf (crypto : PacketCrypto) (secret : Bytes) (label : Text)
    (clientSeed serverSeed : Bytes) (sessionIds : Option (SessionId × SessionId)) (length : Nat) :
    Bytes :=
  tls1Prf crypto secret
    (utf8Bytes label ++ clientSeed ++ serverSeed ++
      (sessionIds.map fun ids => ids.1.bytes ++ ids.2.bytes).getD [])
    length

/-- The 256 bytes of `KeyMaterial::derive`. -/
def expanded (crypto : PacketCrypto) (client : KeySource)
    (serverRandom1 serverRandom2 : Bytes) (clientSessionId serverSessionId : SessionId) : Bytes :=
  let master := openvpnPrf crypto client.preMaster.toList "OpenVPN master secret".toList
    client.random1.toList serverRandom1 none 48
  openvpnPrf crypto master "OpenVPN key expansion".toList client.random2.toList serverRandom2
    (some (clientSessionId, serverSessionId)) 256

def KeyMaterial.derive (crypto : PacketCrypto) (client : KeySource)
    (serverRandom1 serverRandom2 : Bytes) (clientSessionId serverSessionId : SessionId) :
    KeyMaterial :=
  let bytes := expanded crypto client serverRandom1 serverRandom2 clientSessionId serverSessionId
  Vector.ofFn fun i => bytes.getD i.val 0

/-! ## Texts of the server -/

structure Pushed where
  address : Octets
  gateway : Option Octets
  cipher : DataCipher
  digest : Digest
  peerId : Option UInt32
  keepalive : Option Nat

/-- `str::parse` for an unsigned number below a bound, which accepts one plus sign. -/
def parseBelow (bound : Nat) (value : Text) : Option Nat :=
  let unsigned :=
    match value with
    | '+' :: rest => rest
    | value => value
  if unsigned = [] then none else (digits unsigned).filter fun n => n < bound

def splitWhitespace (value : Text) : List Text :=
  (value.splitOnP isWhitespace).filter fun word => word ≠ []

def optionsValue (options : Text) (name : Text) : Option Text :=
  ((trimEndMatches (fun c => c = '\x00') options).splitOn ',').findSome? fun option =>
    (splitOnce ' ' option).bind fun parts =>
      if parts.1 = name then some (trim parts.2) else none

def describeRefusal (message : Text) : String :=
  let trimmed := trim message
  match stripPrefix "AUTH_FAILED".toList trimmed with
  | some detail =>
    let detail := trim (detail.dropWhile fun c => c = ',' || c = ' ')
    if detail = [] then "the OpenVPN server rejected the username and password for this node"
    else "the OpenVPN server rejected this node's login: " ++ String.ofList detail
  | none =>
    if trimmed = [] then "the OpenVPN server closed the session without saying why"
    else "the OpenVPN server refused the session: " ++ String.ofList trimmed

def implementedCipher (name : Text) : Except String DataCipher :=
  match DataCipher.parse name with
  | some cipher => .ok cipher
  | none =>
    .error ("the OpenVPN server uses the " ++ "\x60" ++ String.ofList name ++ "\x60" ++
      " cipher, which GamePath does not implement. Ask the provider for a configuration using " ++
      "AES-GCM, CHACHA20-POLY1305 or AES-CBC.")

/-- The variables of the loop of `read_push`. -/
structure PushReader where
  address : Option Octets
  gateway : Option Octets
  cipher : Option DataCipher
  peerId : Option UInt32
  ping : Option Nat

/-- One option of a push. -/
def PushReader.read (reader : PushReader) (option : Text) : Except String PushReader :=
  match splitWhitespace option with
  | [] => .ok reader
  | word :: words =>
    if word = "ifconfig".toList then .ok { reader with address := words.head?.bind parseIpv4 }
    else if word = "route-gateway".toList then
      .ok { reader with gateway := words.head?.bind parseIpv4 }
    else if word = "cipher".toList then
      (implementedCipher (words.headD [])).map fun cipher => { reader with cipher := some cipher }
    else if word = "peer-id".toList then
      .ok { reader with
        peerId := (words.head?.bind (parseBelow (2 ^ 32))).map UInt32.ofNat }
    else if word = "ping".toList then
      .ok { reader with ping := (words.head?.bind (parseBelow (2 ^ 64))).map secs }
    else .ok reader

/-- `read_push`: a server that does not negotiate runs the cipher its own options string names. -/
def readPush (config : OpenVpnConfig) (serverCipher serverDigest : Option Text) (options : Text) :
    Except String Pushed := do
  let reader ← (options.splitOn ',').foldlM PushReader.read ⟨none, none, none, none, none⟩
  let cipher ←
    match reader.cipher, serverCipher with
    | some pushed, _ => .ok pushed
    | none, some name => implementedCipher name
    | none, none => .ok config.fallbackCipher
  let digest := (serverDigest.bind Digest.parse).getD config.digest
  match reader.address with
  | none =>
    .error ("the OpenVPN server did not push a tunnel address, so there is nothing for inner " ++
      "packets to come from")
  | some address => .ok ⟨address, reader.gateway, cipher, digest, reader.peerId, reader.ping⟩

/-- `write_string`: a length of 16 bits, the bytes and a zero, or an empty field. -/
def writeString (value : Option Text) : Bytes :=
  match value with
  | some value =>
    if value = [] then [0, 0]
    else
      let bytes := utf8Bytes value
      beU16 (UInt16.ofNat (bytes.length + 1)) ++ bytes ++ [0]
  | none => [0, 0]

/-- What a MikroTik server says of its data channel. -/
example :
    optionsValue "V4,dev-type tun,cipher AES-256-CBC,auth SHA1,tls-server\x00".toList
        "cipher".toList =
      some "AES-256-CBC".toList := by
  decide +kernel

end GamePath.Engine.OpenVpn
