import GamePath.Engine.Dns
import GamePath.Engine.Tun2socks.Packet

/-!
# The client side of a SOCKS5 handshake (`tun2socks/handshake.rs`)

A state machine fed with bytes as they arrive. It owns no socket: what it wants sent is part of its
answer.
-/

namespace GamePath.Engine.Tun2socks

open Direct (Text)
open Dns (utf8Bytes)
open Socks (SocketAddr)

def version : UInt8 := 5

inductive Command where
  | connect
  | udpAssociate
  deriving DecidableEq

/-- `Command as u8`. -/
def Command.code : Command → UInt8
  | .connect => 1
  | .udpAssociate => 3

inductive Stage where
  | method
  | auth
  | reply
  | done
  deriving DecidableEq

inductive IpAddr where
  | v4 (address : Octets)
  | v6 (address : Bytes)
  deriving DecidableEq

/-- `Step`. `bound` is the proxy's reply address; `leftover` came behind the reply and belongs to
the connection. -/
inductive Step where
  | send (bytes : Bytes)
  | wait
  | done (bound : IpAddr × UInt16) (leftover : Bytes)
  deriving DecidableEq

structure Handshake where
  stage : Stage
  command : Command
  target : SocketAddr
  credentials : Option (Text × Text)
  input : Bytes
  deriving DecidableEq

/-- `reply_error`: RFC 1928's reply codes, in words a user can act on. -/
def replyError (code : UInt8) : String :=
  let reason :=
    match code with
    | 1 => "general failure"
    | 2 => "not allowed by its rules"
    | 3 => "network unreachable"
    | 4 => "host unreachable"
    | 5 => "connection refused"
    | 6 => "TTL expired"
    | 7 => "command not supported"
    | 8 => "address type not supported"
    | _ => "an unknown error"
  "the SOCKS5 proxy refused the request: " ++ reason ++ " (code " ++ toString code.toNat ++ ")"

namespace Handshake

/-- The greeting of `Handshake::start`. -/
def greeting (credentials : Option (Text × Text)) : Bytes :=
  if credentials.isSome then [version, 2, 0, 2] else [version, 1, 0]

/-- `Handshake::start`: the bytes are the greeting to send first. -/
def start (command : Command) (target : SocketAddr) (credentials : Option (Text × Text)) :
    Handshake × Bytes :=
  (⟨.method, command, target, credentials, []⟩, greeting credentials)

/-- The login of RFC 1929. -/
def login (username password : Text) : Bytes :=
  [1, UInt8.ofNat (utf8Bytes username).length] ++ utf8Bytes username ++
    [UInt8.ofNat (utf8Bytes password).length] ++ utf8Bytes password

/-- The request itself. -/
def requestBytes (command : Command) (target : SocketAddr) : Bytes :=
  [version, command.code, 0, 1] ++ octets target.ip ++ beU16 target.port

/-- `request`. A proxy that answers fast may already have put its reply behind the method byte; it
is parsed on the next receive. -/
def request (h : Handshake) : Step × Handshake :=
  (.send (requestBytes h.command h.target), { h with stage := .reply })

def method (h : Handshake) : Except String (Step × Handshake) :=
  match h.input with
  | answered :: method :: rest =>
    if answered ≠ version then
      .error ("the proxy is not SOCKS5 (it answered version " ++ toString answered.toNat ++ ")")
    else
      let h := { h with input := rest }
      if method = 0 then .ok h.request
      else if method = 2 then
        match h.credentials with
        | none => .error "the SOCKS5 proxy requires a username and password"
        | some (username, password) => .ok (.send (login username password),
          { h with stage := .auth })
      else if method = 0xff then
        .error "the SOCKS5 proxy accepted none of the login methods offered"
      else
        .error ("the SOCKS5 proxy asked for login method " ++ toString method.toNat ++
          ", which GamePath does not support")
  | _ => .ok (.wait, h)

def auth (h : Handshake) : Except String (Step × Handshake) :=
  match h.input with
  | _ :: status :: rest =>
    if status ≠ 0 then .error "the SOCKS5 proxy rejected the username and password"
    else .ok { h with input := rest }.request
  | _ => .ok (.wait, h)

/-- How many bytes the address of a reply takes, once that can be told. -/
def addressLength (addressType : UInt8) (rest : Bytes) : Except String (Option Nat) :=
  if addressType = 1 then .ok (some 4)
  else if addressType = 4 then .ok (some 16)
  else if addressType = 3 then .ok (rest.head?.map fun length => 1 + length.toNat)
  else .error ("the SOCKS5 proxy replied with address type " ++ toString addressType.toNat)

/-- The address of a reply. A name cannot be dialled without a lookup; callers only use the port of
a bound address, so the unspecified address stands in. -/
def replyAddress (addressType : UInt8) (address : Bytes) : IpAddr :=
  match addressType, address with
  | 1, [a, b, c, d] => .v4 (a, b, c, d)
  | 4, address => .v6 address
  | _, _ => .v4 (0, 0, 0, 0)

/-- The port at the end of a reply. -/
def replyPort (port : Bytes) : UInt16 :=
  match port with
  | [hi, lo] => u16OfBe hi lo
  | _ => 0

def reply (h : Handshake) : Except String (Step × Handshake) :=
  match h.input with
  | answered :: code :: _ :: addressType :: rest =>
    if answered ≠ version then
      .error ("the proxy is not SOCKS5 (it answered version " ++ toString answered.toNat ++ ")")
    else if code ≠ 0 then .error (replyError code)
    else
      match addressLength addressType rest with
      | .error reason => .error reason
      | .ok none => .ok (.wait, h)
      | .ok (some length) =>
        if rest.length < length + 2 then .ok (.wait, h)
        else
          let bound := (replyAddress addressType (rest.take length),
            replyPort ((rest.drop length).take 2))
          .ok (.done bound (rest.drop (length + 2)), { h with input := [], stage := .done })
  | _ => .ok (.wait, h)

def receive (h : Handshake) (data : Bytes) : Except String (Step × Handshake) :=
  let h := { h with input := h.input ++ data }
  match h.stage with
  | .method => h.method
  | .auth => h.auth
  | .reply => h.reply
  | .done => .error "the SOCKS5 handshake already finished"

/-! ## What is said and heard -/

/-- Everything the client says in a whole handshake. -/
def Dialogue (credentials : Option (Text × Text)) (command : Command) (target : SocketAddr)
    (said : Bytes) : Prop :=
  said = greeting credentials ++ requestBytes command target ∨
    ∃ username password, credentials = some (username, password) ∧
      said = greeting credentials ++ login username password ++ requestBytes command target

/-- Everything the client has said up to the stage it is in. -/
def Said (h : Handshake) (said : Bytes) : Prop :=
  match h.stage with
  | .method => said = greeting h.credentials
  | .auth => ∃ username password, h.credentials = some (username, password) ∧
      said = greeting h.credentials ++ login username password
  | .reply => Dialogue h.credentials h.command h.target said
  | .done => False

/-- A whole reply to the request, as the proxy grants it. -/
def IsReply (reply : Bytes) : Prop :=
  ∃ reserved addressType rest length, reply = version :: 0 :: reserved :: addressType :: rest ∧
    addressLength addressType rest = .ok (some length) ∧ rest.length = length + 2

/-- The proxy's answers before the reply: a method, and the answer to a login. -/
def Admits (heard : Bytes) : Prop := heard = [version, 0] ∨ ∃ v, heard = [version, 2, v, 0]

/-- Everything the proxy says in a whole handshake. -/
def Answers (heard : Bytes) : Prop :=
  ∃ before reply, heard = before ++ reply ∧ Admits before ∧ IsReply reply

/-- Everything the client has taken note of up to the stage it is in. -/
def Heard (h : Handshake) (heard : Bytes) : Prop :=
  match h.stage with
  | .method => heard = []
  | .auth => heard = [version, 2]
  | .reply => Admits heard
  | .done => False

/-- What one call of `receive` comes to, when it is no error. -/
inductive Received (h : Handshake) (said heard : Bytes) (data : Bytes) :
    Step → Handshake → Prop where
  | send (bytes heard' : Bytes) (h' : Handshake) (hsaid : h'.Said (said ++ bytes))
    (hheard : h'.Heard heard')
      (hinput : heard ++ h.input ++ data = heard' ++ h'.input) : Received h said heard data
        (.send bytes) h'
  | wait (h' : Handshake) (hsaid : h'.Said said) (hheard : h'.Heard heard)
      (hinput : heard ++ h.input ++ data = heard ++ h'.input) : Received h said heard data .wait h'
  | done (bound : IpAddr × UInt16) (leftover heard' : Bytes) (h' : Handshake)
      (hsaid : Dialogue h.credentials h.command h.target said) (hheard : Answers heard')
      (hinput : heard ++ h.input ++ data = heard' ++ leftover) :
      Received h said heard data (.done bound leftover) h'

/-- The parameters of a handshake do not change. -/
structure SameTarget (h h' : Handshake) : Prop where
  command : h'.command = h.command
  target : h'.target = h.target
  credentials : h'.credentials = h.credentials

variable {h h' : Handshake} {step : Step}

/-- The method answer is waited for, or asks for the request or for a login. -/
theorem method_cases (hok : h.method = .ok (step, h')) :
    (step = .wait ∧ h' = h) ∨
    (∃ rest, h.input = version :: 0 :: rest ∧ step = .send (requestBytes h.command h.target) ∧
      h' = { h with input := rest, stage := .reply }) ∨
    ∃ rest username password, h.input = version :: 2 :: rest ∧
      h.credentials = some (username, password) ∧
      step = .send (login username password) ∧ h' = { h with input := rest, stage := .auth } := by
  rw [method] at hok
  split at hok
  next answered method rest hinput =>
    split at hok
    · cases hok
    next hversion =>
      have hversion : answered = version := by simpa using hversion
      dsimp only at hok
      split at hok
      next hmethod =>
        simp only [Except.ok.injEq, request, Prod.mk.injEq] at hok
        exact .inr (.inl ⟨rest, by rw [hinput, hversion, hmethod], hok.1.symm, hok.2.symm⟩)
      split at hok
      next hmethod =>
        split at hok
        · cases hok
        next username password hcredentials =>
          simp only [Except.ok.injEq, Prod.mk.injEq] at hok
          exact .inr (.inr ⟨rest, username, password, by rw [hinput, hversion, hmethod],
            hcredentials, hok.1.symm, hok.2.symm⟩)
      · split at hok <;> cases hok
  · simp only [Except.ok.injEq, Prod.mk.injEq] at hok
    exact .inl ⟨hok.1.symm, hok.2.symm⟩

theorem auth_cases (hok : h.auth = .ok (step, h')) :
    (step = .wait ∧ h' = h) ∨
    ∃ v rest, h.input = v :: 0 :: rest ∧ step = .send (requestBytes h.command h.target) ∧
      h' = { h with input := rest, stage := .reply } := by
  rw [auth] at hok
  split at hok
  next v status rest hinput =>
    split at hok
    · cases hok
    next hstatus =>
      have hstatus : status = 0 := by simpa using hstatus
      simp only [Except.ok.injEq, request, Prod.mk.injEq] at hok
      exact .inr ⟨v, rest, by rw [hinput, hstatus], hok.1.symm, hok.2.symm⟩
  · simp only [Except.ok.injEq, Prod.mk.injEq] at hok
    exact .inl ⟨hok.1.symm, hok.2.symm⟩

theorem addressLength_take {addressType : UInt8} {rest : Bytes} {length n : Nat}
    (h : addressLength addressType rest = .ok (some length)) (hn : length ≤ n) :
    addressLength addressType (rest.take n) = .ok (some length) := by
  rw [addressLength] at h ⊢
  split
  next htype =>
    rw [if_pos htype] at h
    exact h
  next htype =>
    rw [if_neg htype] at h
    split
    next htype' =>
      rw [if_pos htype'] at h
      exact h
    next htype' =>
      rw [if_neg htype'] at h
      split
      next hname =>
        rw [if_pos hname] at h
        -- The length byte of a name is its first.
        cases rest with
        | nil => cases h
        | cons b rest =>
          have hlength : 1 + b.toNat = length := by simpa using h
          obtain ⟨m, rfl⟩ := Nat.exists_eq_add_of_le' (show 1 ≤ n by omega)
          simpa using hlength
      next hname =>
        rw [if_neg hname] at h
        cases h

/-- The reply is waited for, or is whole and what follows it is left over. -/
theorem reply_cases (hok : h.reply = .ok (step, h')) :
    (step = .wait ∧ h' = h) ∨
    ∃ answer leftover bound, h.input = answer ++ leftover ∧ IsReply answer ∧
      step = .done bound leftover ∧
      h' = { h with input := [], stage := .done } := by
  rw [reply] at hok
  split at hok
  next answered code reserved addressType rest hinput =>
    split at hok
    · cases hok
    next hversion =>
      have hversion : answered = version := by simpa using hversion
      split at hok
      · cases hok
      next hcode =>
        have hcode : code = 0 := by simpa using hcode
        split at hok
        · cases hok
        · simp only [Except.ok.injEq, Prod.mk.injEq] at hok
          exact .inl ⟨hok.1.symm, hok.2.symm⟩
        next length hlength =>
          split at hok
          · simp only [Except.ok.injEq, Prod.mk.injEq] at hok
            exact .inl ⟨hok.1.symm, hok.2.symm⟩
          next hlong =>
            simp only [Except.ok.injEq, Prod.mk.injEq] at hok
            refine .inr ⟨version :: 0 :: reserved :: addressType :: rest.take (length + 2),
              rest.drop (length + 2), _, ?_, ?_, hok.1.symm, hok.2.symm⟩
            · rw [hinput, hversion, hcode]
              simp
            · refine ⟨reserved, addressType, rest.take (length + 2), length, rfl, ?_, ?_⟩
              · exact addressLength_take hlength (Nat.le_add_right _ _)
              · rw [List.length_take]
                omega
  · simp only [Except.ok.injEq, Prod.mk.injEq] at hok
    exact .inl ⟨hok.1.symm, hok.2.symm⟩

/-- No byte either way is lost by a call of `receive`. -/
theorem receive_received {said heard data : Bytes} (hsaid : h.Said said) (hheard : h.Heard heard)
    (hok : h.receive data = .ok (step, h')) :
    Received h said heard data step h' ∧ h.SameTarget h' := by
  simp only [receive] at hok
  cases hstage : h.stage with
  | method =>
    simp only [hstage] at hok
    simp only [Said, hstage] at hsaid
    simp only [Heard, hstage] at hheard
    subst hsaid hheard
    rcases method_cases hok with ⟨rfl, rfl⟩ | ⟨rest, hinput, rfl, rfl⟩ | ⟨rest, username, password,
      hinput, hcred, rfl, rfl⟩
    · refine ⟨.wait _ ?_ ?_ rfl, ⟨rfl, rfl, rfl⟩⟩
      · simp only [Said]
      · simp only [Heard]
    · exact ⟨.send _ [version, 0] _ (.inl rfl) (.inl rfl) hinput, ⟨rfl, rfl, rfl⟩⟩
    · exact ⟨.send _ [version, 2] _ ⟨username, password, hcred, rfl⟩ rfl hinput, ⟨rfl, rfl, rfl⟩⟩
  | auth =>
    simp only [hstage] at hok
    simp only [Said, hstage] at hsaid
    simp only [Heard, hstage] at hheard
    subst hheard
    obtain ⟨username, password, hcred, rfl⟩ := hsaid
    rcases auth_cases hok with ⟨rfl, rfl⟩ | ⟨v, rest, hinput, rfl, rfl⟩
    · refine ⟨.wait _ ?_ ?_ (List.append_assoc _ _ _), ⟨rfl, rfl, rfl⟩⟩
      · exact ⟨username, password, hcred, rfl⟩
      · simp only [Heard]
    · refine ⟨.send _ [version, 2, v, 0] _ (.inr ⟨username, password, hcred, rfl⟩)
        (.inr ⟨v, rfl⟩) ?_, ⟨rfl, rfl, rfl⟩⟩
      have hinput : h.input ++ data = v :: 0 :: rest := hinput
      simp [hinput]
  | reply =>
    simp only [hstage] at hok
    simp only [Said, hstage] at hsaid
    simp only [Heard, hstage] at hheard
    rcases reply_cases hok with ⟨rfl, rfl⟩ | ⟨answer, leftover, bound, hinput, hreply, rfl, rfl⟩
    · refine ⟨.wait _ ?_ ?_ (List.append_assoc _ _ _), ⟨rfl, rfl, rfl⟩⟩
      · exact hsaid
      · exact hheard
    · have hinput : h.input ++ data = answer ++ leftover := hinput
      refine ⟨.done bound leftover (heard ++ answer) _ hsaid ⟨heard, answer, rfl, hheard,
        hreply⟩ ?_, ⟨rfl, rfl, rfl⟩⟩
      rw [List.append_assoc, hinput, List.append_assoc]
  | done => simp [hstage] at hok

end Handshake

end GamePath.Engine.Tun2socks
