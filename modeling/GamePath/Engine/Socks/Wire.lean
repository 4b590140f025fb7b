import GamePath.Engine.Dns
import GamePath.Engine.Socks.World

/-!
# The bytes of the proxy protocols (`wire.rs`)

SOCKS5 with its username and password, and the two forms of an HTTP proxy request. Every parser
takes what has arrived so far and says whether it is enough; `Parse.done` says how many bytes it
used. Decoding of base64 is another crate's and an argument of `parseHttpRequest`.
-/

namespace GamePath.Engine.Socks

open List

open Direct (Text fromUtf8Lossy parseIpv4 splitOnce trim trimEndMatches)
open Dns (utf8Bytes)

def socksVersion : UInt8 := 5

def methodNone : UInt8 := 0x00

def methodUserPass : UInt8 := 0x02

def methodUnacceptable : UInt8 := 0xff

def userPassVersion : UInt8 := 1

def commandConnect : UInt8 := 1

def commandUdpAssociate : UInt8 := 3

def maxHttpHead : Nat := 16 * 1024

inductive Reply where
  | succeeded
  | generalFailure
  | notAllowed
  | hostUnreachable
  | connectionRefused
  | ttlExpired
  | commandNotSupported
  | addressTypeNotSupported
  deriving DecidableEq

/-- The code of a reply on the wire. -/
def Reply.code : Reply → UInt8
  | .succeeded => 0
  | .generalFailure => 1
  | .notAllowed => 2
  | .hostUnreachable => 4
  | .connectionRefused => 5
  | .ttlExpired => 6
  | .commandNotSupported => 7
  | .addressTypeNotSupported => 8

inductive Target where
  | ip (address : SocketAddr)
  | domain (name : Text) (port : UInt16)
  | ipv6
  deriving DecidableEq

inductive Parse (α : Type) where
  | incomplete
  | done (value : α) (used : Nat)
  | invalid (reason : String)
  deriving DecidableEq

/-! ## SOCKS5 -/

def parseGreeting : Bytes → Parse Bytes
  | version :: count :: rest =>
    if version ≠ socksVersion then .invalid "not a SOCKS5 greeting"
    else if count.toNat ≤ rest.length then .done (rest.take count.toNat) (2 + count.toNat)
    else .incomplete
  | _ => .incomplete

def parseUserPass : Bytes → Parse (Text × Text)
  | version :: userLength :: rest =>
    if version ≠ userPassVersion then .invalid "unknown username/password version"
    else
      match rest[userLength.toNat]? with
      | none => .incomplete
      | some passwordLength =>
        let password := rest.drop (userLength.toNat + 1)
        if password.length < passwordLength.toNat then .incomplete
        else
          .done
            (fromUtf8Lossy (rest.take userLength.toNat),
              fromUtf8Lossy (password.take passwordLength.toNat))
            (2 + userLength.toNat + 1 + passwordLength.toNat)
  | _ => .incomplete

def userPassReply (accepted : Bool) : Bytes := [userPassVersion, if accepted then 0 else 1]

/-- `domain_target`: a domain that is really an address literal, which some clients send. -/
def domainTarget (name : Text) (port : UInt16) : Target :=
  match parseIpv4 name with
  | some address => .ip ⟨address, port⟩
  | none =>
    if name.contains ':' then .ipv6
    else .domain ((trimEndMatches (fun c => c == '.') name).map Char.toLower) port

def parseAddress : Bytes → Parse Target
  | [] => .incomplete
  | kind :: rest =>
    if kind = 1 then
      match rest with
      | a :: b :: c :: d :: hi :: lo :: _ => .done (.ip ⟨(a, b, c, d), u16OfBe hi lo⟩) 7
      | _ => .incomplete
    else if kind = 3 then
      match rest with
      | [] => .incomplete
      | length :: rest =>
        match rest.drop length.toNat with
        | hi :: lo :: _ =>
          .done (domainTarget (fromUtf8Lossy (rest.take length.toNat)) (u16OfBe hi lo))
            (2 + length.toNat + 2)
        | _ => .incomplete
    else if kind = 4 then if 18 ≤ rest.length then .done .ipv6 19 else .incomplete
    else .invalid "unknown address type"

structure Request where
  command : UInt8
  target : Target

def parseRequest : Bytes → Parse Request
  | version :: command :: _reserved :: rest =>
    if version ≠ socksVersion then .invalid "not a SOCKS5 request"
    else
      match parseAddress rest with
      | .done target used => .done ⟨command, target⟩ (3 + used)
      | .incomplete => .incomplete
      | .invalid reason => .invalid reason
  | _ => .incomplete

def reply (code : Reply) (bound : SocketAddr) : Bytes :=
  [socksVersion, code.code, 0, 1] ++ octets bound.ip ++ beU16 bound.port

def parseUdpDatagram : Bytes → Option (Target × Bytes)
  | 0 :: 0 :: 0 :: rest =>
    match parseAddress rest with
    | .done target used => some (target, rest.drop used)
    | _ => none
  | _ => none

def udpDatagram (source : SocketAddr) (payload : Bytes) : Bytes :=
  [0, 0, 0, 1] ++ octets source.ip ++ beU16 source.port ++ payload

/-! ## HTTP -/

structure HttpRequest where
  target : Target
  tunnel : Bool
  credentials : Option (Text × Text)
  upstreamHead : Bytes
  deriving DecidableEq

/-- Where the empty line of a request head begins. -/
def headEnd : Bytes → Option Nat
  | [] => none
  | byte :: rest =>
    if [13, 10, 13, 10].isPrefixOf (byte :: rest) then some 0
    else (headEnd rest).map fun position => position + 1

/-- `std::str::from_utf8`: what is read back as it was written is UTF-8. -/
def fromUtf8 (bytes : Bytes) : Option Text :=
  let text := fromUtf8Lossy bytes
  if utf8Bytes text = bytes then some text else none

/-- `str::split("\r\n")`. -/
def splitLines : Text → List Text
  | [] => [[]]
  | '\r' :: '\n' :: rest => [] :: splitLines rest
  | c :: rest =>
    match splitLines rest with
    | line :: lines => (c :: line) :: lines
    | [] => [[c]]

def rsplitOnce (c : Char) (value : Text) : Option (Text × Text) :=
  (splitOnce c value.reverse).map fun parts => (parts.2.reverse, parts.1.reverse)

def stripPrefix (start value : Text) : Option Text :=
  if start.isPrefixOf value then some (value.drop start.length) else none

/-- `str::parse::<u16>`, which accepts one plus sign. -/
def parseU16 (value : Text) : Option UInt16 :=
  let unsigned :=
    match value with
    | '+' :: rest => rest
    | value => value
  if unsigned = [] then none
  else ((Direct.digits unsigned).filter fun n => n ≤ 65535).map UInt16.ofNat

def authorityTarget (authority : Text) (defaultPort : UInt16) : Option Target :=
  let authority :=
    match rsplitOnce '@' authority with
    | some (_, host) => host
    | none => authority
  if authority.head? = some '[' then some .ipv6
  else
    match rsplitOnce ':' authority with
    | some (host, port) =>
      match parseU16 port with
      | none => none
      | some port => if host = [] then none else some (domainTarget host port)
    | none => if authority = [] then none else some (domainTarget authority defaultPort)

/-- The credentials of one header line. -/
def headerCredentials (base64 : Text → Option Bytes) (line : Text) : Option (Text × Text) := do
  let (name, value) ← splitOnce ':' line
  if eqIgnoreAsciiCase (trim name) "proxy-authorization".toList then
    let encoded ← stripPrefix "Basic ".toList (trim value)
    let decoded ← base64 (trim encoded)
    let text ← fromUtf8 decoded
    splitOnce ':' text
  else none

/-- The headers that are the proxy's own. -/
def hopHeaders : List Text :=
  ["proxy-authorization".toList, "proxy-connection".toList, "connection".toList,
    "keep-alive".toList]

/-- Whether a header line is the proxy's own. -/
def isHopHeader (line : Text) : Bool :=
  let name :=
    match splitOnce ':' line with
    | some (name, _) => name
    | none => line
  hopHeaders.any fun hop => eqIgnoreAsciiCase (trim name) hop

/-- The head of a forwarded request, in origin form. -/
def upstreamHead (method path version : Text) (headers : List Text) : Bytes :=
  utf8Bytes
    (method ++ [' '] ++ path ++ [' '] ++ version ++ ['\r', '\n'] ++
      (headers.filter fun line => !isHopHeader line).flatMap (fun line => line ++ ['\r', '\n']) ++
      "Connection: close\r\n\r\n".toList)

/-- The authority and the path of an absolute URI without its scheme. -/
def splitUri (rest : Text) : Text × Text :=
  let path := rest.dropWhile fun c => c != '/'
  (rest.takeWhile fun c => c != '/', if path = [] then ['/'] else path)

/-- The request of a head that was found and is text. -/
def parseHttpHead (base64 : Text → Option Bytes) (head : Text) (consumed : Nat) :
    Parse HttpRequest :=
  let lines := splitLines head
  match (lines.headD []).splitOn ' ' with
  | method :: uri :: version :: _ =>
    let headers := lines.tail
    let credentials := headers.findSome? (headerCredentials base64)
    if eqIgnoreAsciiCase method "CONNECT".toList then
      match authorityTarget uri 443 with
      | none => .invalid "CONNECT needs a host and port"
      | some target => .done ⟨target, true, credentials, []⟩ consumed
    else
      match stripPrefix "http://".toList uri with
      | none => .invalid "a proxied request needs an absolute http:// URI"
      | some rest =>
        let (authority, path) := splitUri rest
        match authorityTarget authority 80 with
        | none => .invalid "the request URI names no host"
        | some target =>
          .done ⟨target, false, credentials, upstreamHead method path version headers⟩ consumed
  | _ => .invalid "malformed HTTP request line"

def parseHttpRequest (base64 : Text → Option Bytes) (buffer : Bytes) : Parse HttpRequest :=
  match headEnd buffer with
  | none =>
    if buffer.length > maxHttpHead then .invalid "HTTP request head is too large" else .incomplete
  | some position =>
    match fromUtf8 (buffer.take position) with
    | none => .invalid "HTTP request head is not text"
    | some head => parseHttpHead base64 head (position + 4)

def httpEstablished : Bytes := utf8Bytes "HTTP/1.1 200 Connection established\r\n\r\n".toList

def httpAuthRequired : Bytes :=
  utf8Bytes ("HTTP/1.1 407 Proxy Authentication Required\r\n".toList ++
    "Proxy-Authenticate: Basic realm=\"GamePath\"\r\n".toList ++
    "Content-Length: 0\r\nConnection: close\r\n\r\n".toList)

/-- A failure with its status line. -/
def httpStatus (status : Text) : Bytes :=
  utf8Bytes ("HTTP/1.1 ".toList ++ status ++
    "\r\nContent-Length: 0\r\nConnection: close\r\n\r\n".toList)

def httpFailure : Reply → Bytes
  | .ttlExpired | .hostUnreachable => httpStatus "504 Gateway Timeout".toList
  | .notAllowed => httpStatus "403 Forbidden".toList
  | .addressTypeNotSupported | .commandNotSupported => httpStatus "400 Bad Request".toList
  | _ => httpStatus "502 Bad Gateway".toList

/-! ## A parser that is done has used something -/

/-- A parser uses part of what it was given, and not nothing. -/
def Parse.UsesSome {α : Type} (result : Parse α) (buffer : Bytes) : Prop :=
  ∀ value used, result = .done value used → 0 < used ∧ used ≤ buffer.length

variable (buffer : Bytes)

theorem parseGreeting_usesSome : (parseGreeting buffer).UsesSome buffer := by
  intro value used h
  simp only [parseGreeting] at h
  split at h
  · split at h
    · cases h
    · split at h
      · cases h
        simp only [length_cons]
        omega
      · cases h
  · cases h

theorem parseUserPass_usesSome : (parseUserPass buffer).UsesSome buffer := by
  intro value used h
  simp only [parseUserPass] at h
  split at h
  · split at h
    · cases h
    split at h
    · cases h
    next hget =>
      split at h
      · cases h
      next hlong =>
        cases h
        have hlt := (List.getElem?_eq_some_iff.1 hget).1
        simp only [length_drop, not_lt] at hlong
        simp only [length_cons]
        omega
  · cases h

theorem parseAddress_usesSome : (parseAddress buffer).UsesSome buffer := by
  intro value used h
  simp only [parseAddress] at h
  split at h
  · cases h
  split at h
  · split at h
    · cases h
      simp
    · cases h
  split at h
  · split at h
    · cases h
    split at h
    next hdrop =>
      cases h
      have hlength := congrArg List.length hdrop
      simp only [length_drop, length_cons] at hlength ⊢
      omega
    · cases h
  split at h
  · split at h
    · cases h
      simp only [length_cons]
      omega
    · cases h
  · cases h

theorem parseRequest_usesSome : (parseRequest buffer).UsesSome buffer := by
  intro value used h
  simp only [parseRequest] at h
  split at h
  next rest =>
    split at h
    · cases h
    split at h
    next target used' haddress =>
      cases h
      have haddress := parseAddress_usesSome rest target used' haddress
      simp only [length_cons]
      omega
    · cases h
    · cases h
  · cases h

theorem headEnd_le {buffer : Bytes} {position : Nat} (h : headEnd buffer = some position) :
    position + 4 ≤ buffer.length := by
  induction buffer generalizing position with
  | nil => simp [headEnd] at h
  | cons byte rest ih =>
    rw [headEnd] at h
    split at h
    next hstart =>
      cases h
      have hlength := (List.isPrefixOf_iff_prefix.1 hstart).length_le
      simpa using hlength
    · obtain ⟨position', hposition, rfl⟩ := Option.map_eq_some_iff.1 h
      have := ih hposition
      simp only [length_cons]
      omega

theorem parseHttpRequest_usesSome (base64 : Text → Option Bytes) (buffer : Bytes) :
    (parseHttpRequest base64 buffer).UsesSome buffer := by
  intro value used h
  have hconsumed : ∀ head consumed, parseHttpHead base64 head consumed = .done value used →
      used = consumed := by
    intro head consumed hhead
    simp only [parseHttpHead] at hhead
    split at hhead
    · split at hhead
      · split at hhead
        · cases hhead
        · exact (Parse.done.inj hhead).2.symm
      · split at hhead
        · cases hhead
        · split at hhead
          · cases hhead
          · exact (Parse.done.inj hhead).2.symm
    · cases hhead
  simp only [parseHttpRequest] at h
  split at h
  · split at h <;> cases h
  next position hposition =>
    split at h
    · cases h
    · have hused := hconsumed _ _ h
      have hle := headEnd_le hposition
      omega

end GamePath.Engine.Socks
