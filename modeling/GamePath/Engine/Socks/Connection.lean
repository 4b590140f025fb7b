import GamePath.Engine.Socks.Wire

/-!
# One client of the LAN proxy (`Connection` in `server.rs`)

A connection is a state machine: the first byte tells the protocol, a handshake says where to
connect, and then bytes are relayed both ways until both ends are done. `step` is one transition, if
what the client has sent so far allows it, and says whether it made progress; the caller repeats it
until it did not.

Only the unwritten part of the output buffer is modelled; what was written is never read again.
-/

namespace GamePath.Engine.Socks

open Direct (Text)
open Dns (utf8Bytes)

def handshakeTimeout : Nat := secs 15

def connectTimeout : Nat := secs 10

def clientBacklog : Nat := 256 * 1024

def readChunk : Nat := 32 * 1024

inductive Protocol where
  | socks
  | http
  deriving DecidableEq

inductive ReplyKind where
  | socks
  | httpTunnel
  | httpForward (head : Bytes)
  deriving DecidableEq

inductive Phase where
  | sniff
  | greeting
  | userPass
  | request
  | httpHead
  | resolving (port : UInt16) (reply : ReplyKind)
  | connecting (flow : FlowId) (reply : ReplyKind)
  | relaying (flow : FlowId)
  | udpControl (association : Nat)
  | closing
  deriving DecidableEq

/-- `Connection`, with `output` less what was written. -/
structure Connection where
  client : SocketAddr
  localAddress : SocketAddr
  phase : Phase
  protocol : Protocol
  input : Bytes
  output : Bytes
  readable : Bool
  writable : Bool
  clientDone : Bool
  upstreamShut : Bool
  clientShut : Bool
  deadline : Option Instant
  counted : Bool
  finished : Bool

def unspecified : SocketAddr := ⟨(0, 0, 0, 0), 0⟩

inductive Next where
  | connect (target : Target) (reply : ReplyKind)
  | associate (target : Target)

def sameSecret (left right : Text) : Bool :=
  let left := utf8Bytes left
  let right := utf8Bytes right
  left.length == right.length &&
    (left.zip right).foldl (fun difference pair => difference ||| (pair.1 ^^^ pair.2)) 0 == 0

/-- Whether a login is the one that is expected. -/
def sameLogin (given expected : Text × Text) : Bool :=
  sameSecret given.1 expected.1 && sameSecret given.2 expected.2

namespace Connection

variable {ω : Type}

def send (c : Connection) (bytes : Bytes) : Connection := { c with output := c.output ++ bytes }

def backlog (c : Connection) : Nat := c.output.length

variable (W : World ω)

def fail (c : Connection) (code : Reply) (w : ω) : Connection × ω :=
  let c :=
    match c.protocol with
    | .socks => c.send (reply code unspecified)
    | .http => c.send (httpFailure code)
  let (now, w) := W.now w
  ({ c with phase := .closing, deadline := some (now + secs 2) }, w)

/-! ## Reading and writing the client's stream -/

/-- The loop of `read_client`. A read that gives bytes takes from the room that is left, so as many
turns as there is room are enough. -/
def readClientFrom (W : World ω) (token : Token) (limit : Nat) :
    Nat → Connection → ω → Bool × Connection × ω
  | 0, c, w => (true, c, w)
  | fuel + 1, c, w =>
    if c.readable && !c.clientDone && decide (c.input.length < limit) then
      match W.read w token (min (limit - c.input.length) readChunk) with
      | (.data [], w) => readClientFrom W token limit fuel { c with clientDone := true } w
      | (.data bytes, w) => readClientFrom W token limit fuel { c with input := c.input ++ bytes } w
      | (.wouldBlock, w) => readClientFrom W token limit fuel { c with readable := false } w
      | (.failed, w) => (false, c, w)
    else (true, c, w)

/-- `Connection::read_client`, and whether it succeeded. -/
def readClient (token : Token) (limit : Nat) (c : Connection) (w : ω) :
    Bool × Connection × ω :=
  readClientFrom W token limit (limit - c.input.length) c w

/-- The loop of `write_client`. -/
def writeClientFrom (W : World ω) (token : Token) : Nat → Connection → ω → Bool × Connection × ω
  | 0, c, w => (true, c, w)
  | fuel + 1, c, w =>
    if c.writable && !c.output.isEmpty then
      match W.write w token c.output with
      | (.written 0, w) => (false, c, w)
      | (.written count, w) =>
        writeClientFrom W token fuel { c with output := c.output.drop count } w
      | (.wouldBlock, w) => writeClientFrom W token fuel { c with writable := false } w
      | (.failed, w) => (false, c, w)
    else (true, c, w)

/-- `Connection::write_client`, and whether it succeeded. -/
def writeClient (token : Token) (c : Connection) (w : ω) : Bool × Connection × ω :=
  writeClientFrom W token c.output.length c w

/-! ## One transition -/

/-- What a transition came to. -/
structure Stepped (ω : Type) where
  progressed : Bool
  next : Option Next
  connection : Connection
  world : ω

/-- The first byte tells the protocol. -/
def sniff (c : Connection) : Bool × Connection :=
  match c.input with
  | [] => (false, c)
  | first :: _ =>
    (true,
      if first = socksVersion then { c with phase := .greeting }
      else if (97 ≤ first ∧ first ≤ 122) ∨ (65 ≤ first ∧ first ≤ 90) then
        { c with protocol := .http, phase := .httpHead }
      -- SOCKS4 and anything else: nothing to say in its language.
      else { c with finished := true })

/-- The greeting decides how the client logs in. -/
def greet (credentials : Option (Text × Text)) (c : Connection) : Bool × Connection :=
  match parseGreeting c.input with
  | .incomplete => (false, c)
  | .invalid _ => (false, { c with finished := true })
  | .done methods used =>
    let c := { c with input := c.input.drop used }
    let method :=
      if credentials.isSome || !methods.contains methodNone then
        if methods.contains methodUserPass then some methodUserPass else none
      else some methodNone
    (true,
      match method with
      | some method =>
        if method = methodUserPass then
          { c.send [socksVersion, methodUserPass] with phase := .userPass }
        else { c.send [socksVersion, method] with phase := .request }
      | none => { c.send [socksVersion, methodUnacceptable] with phase := .closing })

/-- The login is compared with the credentials, when there are any. -/
def login (credentials : Option (Text × Text)) (c : Connection) : Bool × Connection :=
  match parseUserPass c.input with
  | .incomplete => (false, c)
  | .invalid _ => (false, { c with finished := true })
  | .done given used =>
    let c := { c with input := c.input.drop used }
    let accepted := credentials.all fun expected => sameLogin given expected
    let c := c.send (userPassReply accepted)
    (true, if accepted then { c with phase := .request } else { c with phase := .closing })

/-- A SOCKS request. -/
def takeRequest (c : Connection) (w : ω) : Stepped ω :=
  match parseRequest c.input with
  | .incomplete => ⟨false, none, c, w⟩
  | .invalid _ =>
    let (c, w) := c.fail W .generalFailure w
    ⟨true, none, c, w⟩
  | .done request used =>
    let c := { c with input := c.input.drop used }
    if request.command = commandConnect then ⟨true, some (.connect request.target .socks), c, w⟩
    else if request.command = commandUdpAssociate then
      ⟨true, some (.associate request.target), c, w⟩
    else
      let (c, w) := c.fail W .commandNotSupported w
      ⟨true, none, c, w⟩

/-- An HTTP request head. -/
def takeHttpHead (credentials : Option (Text × Text)) (c : Connection) (w : ω) :
    Stepped ω :=
  match parseHttpRequest W.base64 c.input with
  | .incomplete => ⟨false, none, c, w⟩
  | .invalid _ =>
    let (c, w) := c.fail W .commandNotSupported w
    ⟨true, none, c, w⟩
  | .done request used =>
    let c := { c with input := c.input.drop used }
    let authorised := credentials.all fun expected =>
      request.credentials.any fun given => sameLogin given expected
    if authorised then
      let kind := if request.tunnel then .httpTunnel else .httpForward request.upstreamHead
      ⟨true, some (.connect request.target kind), c, w⟩
    else ⟨true, none, { c.send httpAuthRequired with phase := .closing }, w⟩

/-- What the client sent goes to the flow, as much of it as the flow takes. -/
def sendInput (flow : FlowId) (c : Connection) (w : ω) : Connection × ω :=
  if c.input.isEmpty then (c, w)
  else
    let (sent, w) := W.tcpSend w flow c.input
    ({ c with input := c.input.drop sent }, w)

/-- The end of the client's stream is passed on when everything before it was sent. -/
def passEnd (flow : FlowId) (c : Connection) (w : ω) : Connection × ω :=
  if c.input.isEmpty && c.clientDone && !c.upstreamShut then
    ({ c with upstreamShut := true }, W.tcpShutdown w flow)
  else (c, w)

/-- Room that was freed lets the next read happen at once. -/
def readMore (token : Token) (c : Connection) (w : ω) : Stepped ω :=
  if c.input.isEmpty && c.readable && !c.clientDone then
    match readClient W token readChunk c w with
    | (false, c, w) => ⟨false, none, { c with finished := true }, w⟩
    | (true, c, w) => ⟨!c.input.isEmpty, none, c, w⟩
  else ⟨false, none, c, w⟩

/-- A transition of a connection that is relayed. -/
def relay (token : Token) (flow : FlowId) (c : Connection) (w : ω) : Stepped ω :=
  let (c, w) := c.sendInput W flow w
  let (c, w) := c.passEnd W flow w
  c.readMore W token w

/-- `step_connection`, for a connection that exists. -/
def step (credentials : Option (Text × Text)) (token : Token) (c : Connection) (w : ω) :
    Stepped ω :=
  match c.phase with
  | .sniff => ⟨c.sniff.1, none, c.sniff.2, w⟩
  | .greeting => ⟨(c.greet credentials).1, none, (c.greet credentials).2, w⟩
  | .userPass => ⟨(c.login credentials).1, none, (c.login credentials).2, w⟩
  | .request => c.takeRequest W w
  | .httpHead => c.takeHttpHead W credentials w
  | .relaying flow => c.relay W token flow w
  | .udpControl _ =>
    -- Nothing is expected on the control stream; its closing is what ends the association.
    ⟨false, none, { c with input := [], finished := c.finished || c.clientDone }, w⟩
  | .resolving _ _ => ⟨false, none, c, w⟩
  | .connecting _ _ => ⟨false, none, c, w⟩
  | .closing => ⟨false, none, c, w⟩

end Connection

end GamePath.Engine.Socks
