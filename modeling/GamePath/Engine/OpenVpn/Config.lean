import GamePath.Engine.OpenVpn.Negotiation
import GamePath.Engine.OpenVpn.X509Name

/-!
# Provider files (`openvpn/config.rs`)

An `.ovpn` file is lines of directives, with blocks between an opening and a closing tag. The parser
reads the directives that change what the client sends, refuses by name those it cannot honour and
passes over the rest; of a `<connection>` block it reads the remotes and what concerns them. What a
remote line leaves out is filled in at the end.

Reading PEM is another crate's and a parameter (`Pem`). A text is the list of its characters.
-/

namespace GamePath.Engine.OpenVpn

open Direct (Text trim utf8Len)
open Dns (utf8Bytes)
open Socks (stripPrefix)

/-- `rustls_pemfile::certs`, collected, and whether `rustls_pemfile::private_key` finds a key. -/
structure Pem where
  certs : Bytes → Except String (List Bytes)
  privateKey : Bytes → Except String Bool

abbrev StaticKey := Vector UInt8 256

inductive KeyDirection where
  | normal
  | inverse
  | bidirectional
  deriving DecidableEq

inductive ControlAuth where
  | none
  | tlsAuth (key : StaticKey) (direction : KeyDirection) (digest : Digest)
  | tlsCrypt (key : StaticKey)

/-- `OpenVpnConfig` as `parse` returns it, with what only the TLS layer reads. -/
structure FileConfig where
  remotes : List Remote
  ca : List Bytes
  clientCerts : List Bytes
  clientKey : Option Text
  controlAuth : ControlAuth
  dataCiphers : List DataCipher
  fallbackCipher : DataCipher
  digest : Digest
  wantsCredentials : Bool
  serverName : Option ServerNameCheck
  renegSeconds : Option Nat
  tunMtu : UInt16

structure PendingRemote where
  host : Text
  port : Option UInt16
  protocol : Option Protocol
  deriving DecidableEq

structure Parser where
  remotes : List PendingRemote
  protocol : Option Protocol
  port : Option UInt16
  ca : List Bytes
  clientCerts : List Bytes
  clientKey : Option Text
  tlsAuth : Option StaticKey
  keyDirection : Option Nat
  tlsCrypt : Option StaticKey
  ciphers : Option (List DataCipher)
  legacyCipher : Option DataCipher
  digest : Option Digest
  wantsCredentials : Bool
  serverName : Option ServerNameCheck
  renegSeconds : Option Nat
  tunMtu : Option UInt16

def unsupportedCertificateChecks : List Text :=
  ["peer-fingerprint".toList, "verify-hash".toList, "crl-verify".toList, "tls-verify".toList]

def supportedCiphers : String :=
    "AES-256-GCM, AES-128-GCM, CHACHA20-POLY1305 and AES-128/192/256-CBC"

def defaultCiphers : List DataCipher := [.aes256Gcm, .aes128Gcm, .chaCha20Poly1305]

/-- A text between back quotes, as the messages show it. -/
def quoted (text : Text) : String := "\x60" ++ String.ofList text ++ "\x60"

/-! ## Lines and words -/

/-- `str::lines`: a line ends at a line feed, or a carriage return and a line feed; the last one may
have no end. -/
def lines (source : Text) : List Text :=
  let parts := source.splitOn '\n'
  let last := parts.getLast?.getD []
  (parts.dropLast.map fun line => if line.getLast? = some '\r' then line.dropLast else line) ++
    (if last = [] then [] else [last])

def stripComment (line : Text) : Text :=
  let line := trim line
  if line.head? = some '#' ∨ line.head? = some ';' then [] else line

def inlineOpenTag (line : Text) : Option Text :=
  match line with
  | '<' :: rest =>
    if rest.getLast? = some '>' then
      let inner := rest.dropLast
      if inner.head? = some '/' ∨ inner = [] then none else some inner
    else none
  | _ => none

/-- The loop of `collect_inline`: the body up to the closing tag, and the lines behind it. -/
def collectInlineFrom (closing : Text) : List Text → Text → Option (Text × List Text)
  | [], _ => none
  | line :: rest, body =>
    if trim line = closing then some (body, rest)
    else collectInlineFrom closing rest (body ++ line ++ ['\n'])

def collectInline (rest : List Text) (tag : Text) : Except String (Text × List Text) :=
  match collectInlineFrom ("</".toList ++ tag ++ ['>']) rest [] with
  | some collected => .ok collected
  | none =>
    .error ("the OpenVPN configuration opens " ++ quoted ('<' :: tag ++ ['>']) ++
      " but never closes it")

/-- The loop of `tokenize`: whether a quotation is open, the word that is being read, and the words
before it. -/
def tokenizeFrom : Text → Bool → Text → List Text → List Text
  | [], _, current, tokens => if current = [] then tokens else tokens ++ [current]
  | c :: rest, quoted, current, tokens =>
    if c = '"' then tokenizeFrom rest (!quoted) current tokens
    else if Direct.isWhitespace c && !quoted then
      if current = [] then tokenizeFrom rest quoted [] tokens
      else tokenizeFrom rest quoted [] (tokens ++ [current])
    else tokenizeFrom rest quoted (current ++ [c]) tokens

def tokenize (line : Text) : List Text := tokenizeFrom line false [] []

/-! ## Values -/

def parseProtocol (name : Text) : Except String Protocol :=
  let lower := name.map Char.toLower
  if lower ∈ ["udp".toList, "udp4".toList, "udp6".toList] then .ok .udp
  else if lower ∈ ["tcp".toList, "tcp4".toList, "tcp6".toList, "tcp-client".toList,
    "tcp4-client".toList, "tcp6-client".toList] then .ok .tcp
  else if lower ∈ ["tcp-server".toList, "udp-server".toList] then
    .error "this is a server configuration, not a client one; it listens rather than connecting"
  else .error (quoted lower ++ " is not a protocol GamePath understands")

def parsePort (value : Text) : Except String UInt16 :=
  match (parseBelow 65536 value).filter fun port => port ≠ 0 with
  | some port => .ok (UInt16.ofNat port)
  | none => .error (quoted value ++ " is not a usable port number")

def readCertificates (pem : Pem) (body tag : Text) : Except String (List Bytes) :=
  match pem.certs (utf8Bytes body) with
  | .error error => .error ("the " ++ quoted ('<' :: tag ++ ['>']) ++
    " block is not readable PEM: " ++ error)
  | .ok [] => .error ("the " ++ quoted ('<' :: tag ++ ['>']) ++
    " block does not contain a certificate")
  | .ok certificates => .ok certificates

def readPrivateKey (pem : Pem) (body : Text) : Except String Text :=
  match pem.privateKey (utf8Bytes body) with
  | .error error => .error ("the " ++ quoted "<key>".toList ++ " block is not readable PEM: " ++
    error)
  | .ok false =>
    .error ("the " ++ quoted "<key>".toList ++
      " block does not contain a private key GamePath can read. " ++
      "A              passphrase-protected key has to be decrypted first.")
  | .ok true => .ok body

/-- The value of an ASCII hexadecimal digit. -/
def hexDigit (c : Char) : Option Nat :=
  if '0' ≤ c ∧ c ≤ '9' then some (c.toNat - '0'.toNat)
  else if 'a' ≤ c ∧ c ≤ 'f' then some (c.toNat - 'a'.toNat + 10)
  else if 'A' ≤ c ∧ c ≤ 'F' then some (c.toNat - 'A'.toNat + 10)
  else none

def readStaticKey (body tag : Text) : Except String StaticKey :=
  let hex := (((lines body).map trim).filter fun line =>
    line ≠ [] ∧ line.head? ≠ some '-' ∧ line.head? ≠ some '#').flatten
  if utf8Len hex ≠ 512 ∨ ¬ hex.all (fun c => (hexDigit c).isSome) then
    .error ("the " ++ quoted ('<' :: tag ++ ['>']) ++
      " block is not an OpenVPN static key; it should hold " ++
      "2048 bits written as 512 hex digits")
  else
    let digit := fun i => (hexDigit (hex.getD i '0')).getD 0
    .ok (Vector.ofFn fun i => UInt8.ofNat (digit (i.val * 2) * 16 + digit (i.val * 2 + 1)))

def okOr {α : Type} (value : Option α) (message : String) : Except String α :=
  match value with
  | some value => .ok value
  | none => .error message

/-- `argument(index).map(parse).transpose()`. -/
def transposed {α : Type} (parse : Text → Except String α) (argument : Option Text) :
    Except String (Option α) :=
  match argument with
  | none => .ok none
  | some value => (parse value).map some

namespace Parser

/-- `Parser::default`. -/
def start : Parser where
  remotes := []
  protocol := none
  port := none
  ca := []
  clientCerts := []
  clientKey := none
  tlsAuth := none
  keyDirection := none
  tlsCrypt := none
  ciphers := none
  legacyCipher := none
  digest := none
  wantsCredentials := false
  serverName := none
  renegSeconds := none
  tunMtu := none

/-! ## Directives -/

variable (parser : Parser)

/-- `remote`. -/
def remoteDirective (arguments : List Text) : Except String Parser := do
  let host ← okOr arguments[0]? "a \x60remote\x60 line in the OpenVPN configuration has no host"
  let port ← transposed parsePort arguments[1]?
  let protocol ← transposed parseProtocol arguments[2]?
  pure { parser with remotes := parser.remotes ++ [⟨host, port, protocol⟩] }

/-- `proto`. -/
def protoDirective (arguments : List Text) : Except String Parser := do
  let name ← okOr arguments[0]? "\x60proto\x60 needs udp or tcp"
  let protocol ← parseProtocol name
  pure { parser with protocol := some protocol }

/-- `port` and `rport`. -/
def portDirective (arguments : List Text) : Except String Parser := do
  let value ← okOr arguments[0]? "\x60port\x60 needs a number"
  let port ← parsePort value
  pure { parser with port := some port }

/-- `auth`. -/
def authDirective (arguments : List Text) : Except String Parser := do
  let name ← okOr arguments[0]? "\x60auth\x60 needs a digest name"
  let digest ← okOr (Digest.parse name)
    ("this configuration asks for the " ++ quoted name ++
      " digest, which GamePath does not implement")
  pure { parser with digest := some digest }

/-- `data-ciphers` and `ncp-ciphers`. -/
def ciphersDirective (arguments : List Text) : Except String Parser := do
  let list ← okOr arguments[0]? "\x60data-ciphers\x60 needs a list"
  let ciphers := (list.splitOn ':').filterMap DataCipher.parse
  if ciphers = [] then
    .error ("none of the ciphers in " ++ quoted ("data-ciphers ".toList ++ list) ++
      " are implemented by GamePath, which supports " ++ supportedCiphers)
  else pure { parser with ciphers := some ciphers }

/-- The directives that concern no remote. -/
def sessionDirective (directive : Text) (arguments : List Text) : Except String Parser :=
  if directive = "verify-x509-name".toList then
    (ServerNameCheck.parse arguments).map fun check => { parser with serverName := some check }
  else if directive ∈ ["dev".toList, "dev-type".toList] then
    match arguments[0]? with
    | none => .ok parser
    | some name =>
      if "tun".toList.isPrefixOf name then .ok parser
      else
        .error ("this configuration uses " ++ quoted ("dev ".toList ++ name) ++
          ". GamePath carries IP " ++
          "packets, so it needs a \x60tun\x60 configuration; ask the provider for one.")
  else if directive = "auth".toList then parser.authDirective arguments
  else if directive = "cipher".toList then
    .ok { parser with legacyCipher := DataCipher.parse (arguments[0]?.getD []) }
  else if directive ∈ ["data-ciphers".toList, "ncp-ciphers".toList] then
    parser.ciphersDirective arguments
  else if directive = "auth-user-pass".toList then
    match arguments[0]? with
    | some path =>
      .error ("this configuration reads its username and password from " ++ quoted path ++
        ". Remove that " ++
        "filename and enter the credentials in GamePath instead.")
    | none => .ok { parser with wantsCredentials := true }
  else if directive = "reneg-sec".toList then
    .ok { parser with renegSeconds := arguments[0]?.bind (parseBelow (2 ^ 64)) }
  else if directive = "tun-mtu".toList then
    .ok { parser with tunMtu := (arguments[0]?.bind (parseBelow (2 ^ 16))).map UInt16.ofNat }
  else if directive = "key-direction".toList then
    (okOr (arguments[0]?.bind
      (parseBelow 256)) "\x60key-direction\x60 needs 0 or 1").map fun direction =>
      { parser with keyDirection := some direction }
  else if directive ∈ ["ca".toList, "cert".toList, "key".toList, "tls-auth".toList,
    "tls-crypt".toList, "tls-crypt-v2".toList, "pkcs12".toList] then
    .error ("this configuration keeps its " ++ quoted directive ++
      " in a separate file. GamePath needs one " ++
      "self-contained file, with the certificates and keys inline between " ++
      quoted ('<' :: directive ++ ['>']) ++ " and " ++ quoted ("</".toList ++ directive ++ ['>']) ++
        " tags.")
  else if directive = "secret".toList then
    .error ("this configuration uses OpenVPN's static-key mode, which has no TLS handshake and " ++
      "is removed in current OpenVPN releases. Ask the provider for a normal TLS configuration.")
  else if directive ∈ ["comp-lzo".toList, "compress".toList] then
    match arguments[0]? with
    | none => .ok parser
    | some mode =>
      if mode ∈ ["no".toList, "stub".toList, "stub-v2".toList] then .ok parser
      else
        .error ("this configuration turns on " ++ quoted (directive ++ ' ' :: mode) ++
          ". GamePath does not " ++
          "compress tunnelled traffic, because compression leaks information about it and adds " ++
          "latency. Ask the provider for a configuration without compression.")
  else if directive = "fragment".toList then
    .error ("this configuration uses \x60--fragment\x60, OpenVPN's own packet splitting, which " ++
      "GamePath does not implement. Ask the provider for a configuration without it.")
  else if directive ∈ ["http-proxy".toList, "socks-proxy".toList] then
    .error ("this configuration reaches its server through " ++ quoted directive ++
      ". Add that proxy as its " ++
      "own GamePath node instead of naming it inside the OpenVPN file.")
  else if directive = "static-challenge".toList then
    .error ("this configuration asks for a one-time code at connect time, which GamePath cannot " ++
      "prompt for.")
  else .ok parser

/-- A directive without the two hyphens some files write in front of it. -/
def directiveName (directive : Text) : Text := (stripPrefix "--".toList directive).getD directive

def directive (parser : Parser) (directive : Text) (arguments : List Text) : Except String Parser :=
  let directive := directiveName directive
  if directive ∈ unsupportedCertificateChecks then
    .error ("GamePath cannot enforce the " ++ quoted directive ++
      " certificate verification requirement in " ++
      "this configuration. Use a client that supports this check.")
  else if directive = "remote".toList then parser.remoteDirective arguments
  else if directive = "proto".toList then parser.protoDirective arguments
  else if directive = "port".toList ∨ directive = "rport".toList then parser.portDirective arguments
  else parser.sessionDirective directive arguments

/-! ## Blocks -/

/-- The directives a `<connection>` block is read for. -/
def concernsConnection (name : Text) : Bool :=
  name ∈ ["remote".toList, "proto".toList, "port".toList, "rport".toList] ||
    name ∈ unsupportedCertificateChecks

/-- One line of a `<connection>` block. -/
def connectionLine (line : Text) : Except String Parser :=
  match tokenize (stripComment line) with
  | [] => .ok parser
  | directive :: arguments =>
    if concernsConnection (directiveName directive) then parser.directive directive arguments
    else .ok parser

/-- `Parser::inline`. -/
def inlineBlock (pem : Pem) (parser : Parser) (tag body : Text) : Except String Parser :=
  if tag ∈ unsupportedCertificateChecks then parser.directive tag []
  else if tag = "ca".toList then
    (readCertificates pem body "ca".toList).map fun ca => { parser with ca := ca }
  else if tag = "cert".toList then
    (readCertificates pem body "cert".toList).map fun certs => { parser with clientCerts := certs }
  else if tag = "key".toList then
    (readPrivateKey pem body).map fun key => { parser with clientKey := some key }
  else if tag = "tls-auth".toList then
    (readStaticKey body tag).map fun key => { parser with tlsAuth := some key }
  else if tag = "tls-crypt".toList then
    (readStaticKey body tag).map fun key => { parser with tlsCrypt := some key }
  else if tag = "tls-crypt-v2".toList then
    .error ("this configuration uses \x60tls-crypt-v2\x60, which GamePath does not implement " ++
      "yet. A \x60tls-crypt\x60 or plain configuration from the same provider will work.")
  else if tag = "connection".toList then (lines body).foldlM connectionLine parser
  else .ok parser

/-! ## The file -/

/-- How control packets are protected. `tls-crypt` is taken before `tls-auth`. -/
def controlAuth (digest : Digest) : Except String ControlAuth :=
  match parser.tlsCrypt, parser.tlsAuth with
  | some key, _ => .ok (.tlsCrypt key)
  | none, some key =>
    match parser.keyDirection with
    | some 0 => .ok (.tlsAuth key .normal digest)
    | some 1 => .ok (.tlsAuth key .inverse digest)
    | some other =>
      .error (quoted ("key-direction ".toList ++ (toString other).toList) ++
        " is neither 0 nor 1, so " ++
        "GamePath cannot tell which half of the `<tls-auth>` key to sign with")
    | none => .ok (.tlsAuth key .bidirectional digest)
  | none, none => .ok .none

/-- The ciphers to offer: the list of the file, or its one cipher and then the others. -/
def dataCiphers : List DataCipher :=
  match parser.ciphers, parser.legacyCipher with
  | some list, _ => list
  | none, some cipher => cipher :: defaultCiphers.filter fun kind => kind ≠ cipher
  | none, none => defaultCiphers

def finish : Except String FileConfig :=
  if parser.remotes = [] then
    .error "this OpenVPN configuration has no `remote` line, so there is no server to connect to"
  else if parser.ca = [] then
    .error ("this OpenVPN configuration has no `<ca>` block, so the server's certificate cannot " ++
      "be checked against anything.")
  else if parser.clientCerts.isEmpty ≠ parser.clientKey.isNone then
    .error ("this OpenVPN configuration has only one of `<cert>` and `<key>`. Certificate " ++
      "authentication needs both.")
  else if !parser.wantsCredentials && parser.clientKey.isNone then
    .error ("this OpenVPN configuration has neither `auth-user-pass` nor a client certificate, " ++
      "so there is no way to authenticate to the server.")
  else
    let digest := parser.digest.getD .sha1
    (parser.controlAuth digest).map fun controlAuth =>
      let fallbackCipher := (parser.legacyCipher.or parser.dataCiphers.head?).getD .aes256Gcm
      let defaultProtocol := parser.protocol.getD .udp
      let remotes := parser.remotes.map fun remote =>
        ⟨remote.host, (parser.port.or remote.port).getD 1194, remote.protocol.getD defaultProtocol⟩
      { remotes := remotes
        ca := parser.ca
        clientCerts := parser.clientCerts
        clientKey := parser.clientKey
        controlAuth := controlAuth
        dataCiphers := parser.dataCiphers
        fallbackCipher := fallbackCipher
        digest := digest
        wantsCredentials := parser.wantsCredentials
        serverName := parser.serverName
        renegSeconds := parser.renegSeconds
        tunMtu := parser.tunMtu.getD 1500 }

/-- The loop of `run`. Every turn takes a line, so as many turns as there are lines are enough. -/
def runFrom (pem : Pem) : Nat → List Text → Parser → Except String Parser
  | _, [], parser => .ok parser
  | 0, _ :: _, parser => .ok parser
  | fuel + 1, line :: rest, parser =>
    let line := stripComment line
    if line = [] then runFrom pem fuel rest parser
    else
      match inlineOpenTag line with
      | some tag => do
          let (body, rest) ← collectInline rest tag
          let parser ← parser.inlineBlock pem tag body
          runFrom pem fuel rest parser
      | none =>
        match tokenize line with
        | [] => runFrom pem fuel rest parser
        | directive :: arguments => do
            let parser ← parser.directive directive arguments
            runFrom pem fuel rest parser

def run (pem : Pem) (parser : Parser) (source : Text) : Except String FileConfig := do
  let parser ← runFrom pem (lines source).length (lines source) parser
  parser.finish

end Parser

def FileConfig.parse (pem : Pem) (source : Text) :
    Except String FileConfig := Parser.start.run pem source

end GamePath.Engine.OpenVpn
