import GamePath.Lib.Feeding
import GamePath.Engine.Socks.Connection
import GamePath.Engine.Socks.HttpHead

/-!
# The handshake of a client, by its bytes

The handshake of a connection as a machine on what the client has sent: it depends on the phase, the
protocol and the parsers of `wire.rs`, and not on the time or on the rest of the connection. A
parser that is done with the front of a buffer is done in the same way when more arrives. The head
of an HTTP request has a limit that only counts while the head is not complete, so this fails for a
longer one.
-/

namespace GamePath.Engine.Socks

open Lib List
open Direct (Text)

/-! ## The machine -/

section Machine

/-- What the client and the server see of a handshake. -/
structure Hand where
  phase : Phase
  protocol : Protocol
  sent : Bytes

/-- How a handshake ends: the server is asked for something, the connection is closing or given up,
or the loop goes round for ever. -/
inductive Ending where
  | asks (next : Next) (hand : Hand)
  | ended (finished : Bool) (hand : Hand)
  | spins

/-- Letters begin an HTTP method. -/
def IsLetter (first : UInt8) : Prop := (97 ≤ first ∧ first ≤ 122) ∨ (65 ≤ first ∧ first ≤ 90)

instance (first : UInt8) : Decidable (IsLetter first) := inferInstanceAs (Decidable (_ ∨ _))

namespace Hand

variable (credentials : Option (Text × Text)) (hand : Hand)

/-- The handshake fails with a reply. -/
def fail (code : Reply) : Hand :=
  { hand with
    phase := .closing
    sent := hand.sent ++
      match hand.protocol with
      | .socks => reply code unspecified
      | .http => httpFailure code }

/-- The first byte tells the protocol. -/
def sniff : Bytes → Option (Turn Hand Ending)
  | [] => none
  | first :: _ =>
    if first = socksVersion then some (.on { hand with phase := .greeting } 0)
    else if IsLetter first then some (.on { hand with protocol := .http, phase := .httpHead } 0)
    else some (.ends .spins 0)

/-- The methods of a greeting. -/
def greeted (methods : Bytes) (used : ℕ) : Turn Hand Ending :=
  let method :=
    if credentials.isSome || !methods.contains methodNone then
      if methods.contains methodUserPass then some methodUserPass else none
    else some methodNone
  match method with
  | some method =>
    if method = methodUserPass then
      .on { hand with phase := .userPass, sent := hand.sent ++ [socksVersion, methodUserPass] } used
    else .on { hand with phase := .request, sent := hand.sent ++ [socksVersion, method] } used
  | none =>
    .ends
      (.ended false
        { hand with phase := .closing, sent := hand.sent ++ [socksVersion, methodUnacceptable] })
      used

/-- A login. -/
def loggedIn (given : Text × Text) (used : ℕ) : Turn Hand Ending :=
  let accepted := credentials.all fun expected => sameLogin given expected
  let sent := hand.sent ++ userPassReply accepted
  if accepted then .on { hand with phase := .request, sent := sent } used
  else .ends (.ended false { hand with phase := .closing, sent := sent }) used

/-- A SOCKS request. -/
def requested (request : Request) (used : ℕ) : Turn Hand Ending :=
  if request.command = commandConnect then .ends (.asks (.connect request.target .socks) hand) used
  else if request.command = commandUdpAssociate then
    .ends (.asks (.associate request.target) hand) used
  else .ends (.ended false (hand.fail .commandNotSupported)) used

/-- An HTTP request head. -/
def headRead (request : HttpRequest) (used : ℕ) : Turn Hand Ending :=
  let authorised := credentials.all fun expected =>
    request.credentials.any fun given => sameLogin given expected
  if authorised then
    let kind := if request.tunnel then .httpTunnel else .httpForward request.upstreamHead
    .ends (.asks (.connect request.target kind) hand) used
  else
    .ends (.ended false { hand with phase := .closing, sent := hand.sent ++ httpAuthRequired }) used

end Hand

/-- What follows from what a parser says. -/
def onParse {α : Type} (invalid : Ending) (done : α → ℕ → Turn Hand Ending) :
    Parse α → Option (Turn Hand Ending)
  | .incomplete => none
  | .invalid _ => some (.ends invalid 0)
  | .done value used => some (done value used)

/-- The handshake, on what the client has sent and is not used yet. -/
def handshake (base64 : Text → Option Bytes) (credentials : Option (Text × Text)) (hand : Hand)
    (input : Bytes) : Option (Turn Hand Ending) :=
  match hand.phase with
  | .sniff => hand.sniff input
  | .greeting => onParse (.ended true hand) (hand.greeted credentials) (parseGreeting input)
  | .userPass => onParse (.ended true hand) (hand.loggedIn credentials) (parseUserPass input)
  | .request => onParse (.ended false (hand.fail .generalFailure)) hand.requested
    (parseRequest input)
  | .httpHead =>
    onParse (.ended false (hand.fail .commandNotSupported)) (hand.headRead credentials)
      (parseHttpRequest base64 input)
  | _ => none

end Machine

/-! ## Parsers on a buffer that grows -/

section Growing

variable {α : Type}

/-- What a parser says of a front it says of the whole, once it does not wait for more. -/
def Parse.Grows (parse : Bytes → Parse α) : Prop :=
  ∀ front more, parse front ≠ .incomplete → parse (front ++ more) = parse front

theorem parseGreeting_grows : Parse.Grows parseGreeting := by
  intro front more h
  match front with
  | [] => exact absurd rfl h
  | [_] => exact absurd rfl h
  | version :: count :: rest =>
    rw [cons_append, cons_append, parseGreeting, parseGreeting]
    rw [parseGreeting] at h
    by_cases hversion : version ≠ socksVersion
    · rw [if_pos hversion, if_pos hversion]
    rw [if_neg hversion] at h ⊢
    rw [if_neg hversion]
    by_cases hcount : count.toNat ≤ rest.length
    · rw [if_pos hcount, if_pos (by rw [length_append]; omega),
        take_append_of_le_length hcount]
    · rw [if_neg hcount] at h
      exact absurd rfl h

theorem parseUserPass_grows : Parse.Grows parseUserPass := by
  intro front more h
  match front with
  | [] => exact absurd rfl h
  | [_] => exact absurd rfl h
  | version :: userLength :: rest =>
    rw [cons_append, cons_append, parseUserPass, parseUserPass]
    rw [parseUserPass] at h
    by_cases hversion : version ≠ userPassVersion
    · rw [if_pos hversion, if_pos hversion]
    rw [if_neg hversion] at h ⊢
    rw [if_neg hversion]
    cases hlength : rest[userLength.toNat]? with
    | none =>
      rw [hlength] at h
      exact absurd rfl h
    | some passwordLength =>
      have hlt := (List.getElem?_eq_some_iff.1 hlength).1
      rw [hlength] at h
      rw [getElem?_append_left hlt, hlength]
      dsimp only at h ⊢
      by_cases hshort : (rest.drop (userLength.toNat + 1)).length < passwordLength.toNat
      · rw [if_pos hshort] at h
        exact absurd rfl h
      · rw [if_neg hshort, drop_append_of_le_length (by omega),
          if_neg (by rw [length_append]; omega), take_append_of_le_length (by omega),
          take_append_of_le_length (by omega)]

theorem parseAddress_grows : Parse.Grows parseAddress := by
  intro front more h
  match front with
  | [] => exact absurd rfl h
  | kind :: rest =>
    simp only [cons_append, parseAddress] at h ⊢
    by_cases hip : kind = 1
    · rw [if_pos hip] at h ⊢
      rw [if_pos hip]
      split at h
      · rfl
      · exact absurd rfl h
    rw [if_neg hip] at h ⊢
    rw [if_neg hip]
    by_cases hdomain : kind = 3
    · rw [if_pos hdomain] at h ⊢
      rw [if_pos hdomain]
      cases rest with
      | nil => exact absurd rfl h
      | cons length name =>
        dsimp only [cons_append] at h ⊢
        split at h
        · next hi lo behind hdrop =>
          have hle : length.toNat ≤ name.length := by
            have := congrArg List.length hdrop
            rw [length_drop, length_cons] at this
            omega
          rw [drop_append_of_le_length hle, hdrop, take_append_of_le_length hle]
          rfl
        · exact absurd rfl h
    · rw [if_neg hdomain] at h ⊢
      rw [if_neg hdomain]
      by_cases hsix : kind = 4
      · rw [if_pos hsix] at h ⊢
        rw [if_pos hsix]
        by_cases hroom : 18 ≤ rest.length
        · rw [if_pos hroom, if_pos (by rw [length_append]; omega)]
        · rw [if_neg hroom] at h
          exact absurd rfl h
      · rw [if_neg hsix, if_neg hsix]

theorem parseRequest_grows : Parse.Grows parseRequest := by
  intro front more h
  match front with
  | [] => exact absurd rfl h
  | [_] => exact absurd rfl h
  | [_, _] => exact absurd rfl h
  | version :: command :: reserved :: rest =>
    rw [cons_append, cons_append, cons_append, parseRequest, parseRequest]
    rw [parseRequest] at h
    by_cases hversion : version ≠ socksVersion
    · rw [if_pos hversion, if_pos hversion]
    · rw [if_neg hversion] at h ⊢
      rw [if_neg hversion, parseAddress_grows rest more]
      intro hwaits
      rw [hwaits] at h
      exact absurd rfl h

variable {position : ℕ}

theorem headEnd_append {front : Bytes} (h : headEnd front = some position) (more : Bytes) :
    headEnd (front ++ more) = some position := by
  obtain ⟨hat, hfirst⟩ := headEnd_eq_some_iff.1 h
  have hle := headEnd_le h
  rw [headEnd_eq_some_iff, drop_append_of_le_length (by omega)]
  refine ⟨hat.trans (prefix_append _ _), fun k hk hprefix => hfirst k hk ?_⟩
  rw [drop_append_of_le_length (by omega)] at hprefix
  exact prefix_of_prefix_length_le hprefix (prefix_append _ _)
    (by rw [length_drop]; change 4 ≤ _; omega)

theorem parseHttpRequest_append (base64 : Text → Option Bytes) {front : Bytes}
    (h : headEnd front = some position) (more : Bytes) :
    parseHttpRequest base64 (front ++ more) = parseHttpRequest base64 front := by
  have hle := headEnd_le h
  rw [parseHttpRequest, parseHttpRequest, headEnd_append h, h]
  dsimp only
  rw [take_append_of_le_length (by omega)]

theorem headEnd_front {front more : Bytes} (h : headEnd (front ++ more) = some position)
    (hroom : position + 4 ≤ front.length) : headEnd front = some position := by
  obtain ⟨hat, hfirst⟩ := headEnd_eq_some_iff.1 h
  rw [drop_append_of_le_length (by omega)] at hat
  rw [headEnd_eq_some_iff]
  refine ⟨?_, fun k hk hprefix => hfirst k hk ?_⟩
  · exact prefix_of_prefix_length_le hat (prefix_append _ _)
      (by rw [length_drop]; change 4 ≤ _; omega)
  · rw [drop_append_of_le_length (by omega)]
    exact hprefix.trans (prefix_append _ _)

theorem headEnd_of_done {base64 : Text → Option Bytes} {buffer : Bytes} {request : HttpRequest}
    {used : ℕ} (h : parseHttpRequest base64 buffer = .done request used) :
    ∃ position, headEnd buffer = some position ∧ position + 4 = used := by
  obtain ⟨head, hhead⟩ := exists_writtenIn h
  refine ⟨_, hhead.headEnd, ?_⟩
  rw [hhead.parseHttpRequest, parseHttpHead] at h
  split at h
  · split at h
    · split at h
      · cases h
      · exact (Parse.done.inj h).2
    split at h
    · cases h
    · dsimp only at h
      split at h
      · cases h
      · exact (Parse.done.inj h).2
  · cases h

end Growing

/-! ## The handshake is steady -/

section Steadiness

/-- The most of a client's bytes that a connection keeps in a handshake. -/
def inputLimit : ℕ := 64 * 1024

/-- A head that is longer than the limit is not one of a request. -/
def Fits (base64 : Text → Option Bytes) (hand : Hand) (input : Bytes) : Prop :=
  (hand.phase = .httpHead ∨ hand.phase = .sniff ∧ ∃ first rest, input = first :: rest ∧
    IsLetter first) →
    ∀ request used, parseHttpRequest base64 (input.take inputLimit) = .done request used →
      used ≤ maxHttpHead + 1

variable {base64 : Text → Option Bytes} {credentials : Option (Text × Text)} {hand : Hand}

theorem Hand.used_greeted (methods : Bytes) (used : ℕ) :
    (hand.greeted credentials methods used).used = used := by
  simp only [Hand.greeted]
  split
  · split <;> rfl
  · rfl

theorem Hand.used_loggedIn (given : Text × Text) (used : ℕ) :
    (hand.loggedIn credentials given used).used = used := by
  simp only [Hand.loggedIn]
  split <;> rfl

theorem Hand.used_requested (request : Request) (used : ℕ) :
    (hand.requested request used).used = used := by
  rw [Hand.requested]
  split_ifs <;> rfl

theorem Hand.used_headRead (request : HttpRequest) (used : ℕ) :
    (hand.headRead credentials request used).used = used := by
  simp only [Hand.headRead]
  split_ifs <;> rfl

variable {α : Type} {done : α → ℕ → Turn Hand Ending} {turn : Turn Hand Ending} {invalid : Ending}

theorem used_onParse {result : Parse α} {buffer : Bytes}
    (hdone : ∀ value used, (done value used).used = used) (hresult : result.UsesSome buffer)
    (h : onParse invalid done result = some turn) :
    turn.used ≤ buffer.length := by
  cases result with
  | incomplete => cases h
  | invalid reason =>
    cases h
    exact Nat.zero_le _
  | done value used =>
    cases h
    rw [hdone]
    exact (hresult value used rfl).2

theorem onParse_append {parse : Bytes → Parse α} (hparse : Parse.Grows parse)
    {front more : Bytes} (h : onParse invalid done (parse front) = some turn) :
    onParse invalid done (parse (front ++ more)) = some turn := by
  rw [hparse front more, h]
  intro hwaits
  rw [hwaits] at h
  cases h

theorem onHead_append {done : HttpRequest → ℕ → Turn Hand Ending} {front more : Bytes}
    (hfits : ∀ request used, parseHttpRequest base64 (front ++ more) = .done request used →
      used ≤ maxHttpHead + 1)
    (h : onParse invalid done (parseHttpRequest base64 front) = some turn) :
    onParse invalid done (parseHttpRequest base64 (front ++ more)) = some turn := by
  cases hend : headEnd front with
  | some position => rw [parseHttpRequest_append base64 hend, h]
  | none =>
    -- The front is too long for a head, so the whole is, or its head is not accepted.
    have hfront : parseHttpRequest base64 front =
        if front.length > maxHttpHead then
          .invalid "HTTP request head is too large" else .incomplete := by
      rw [parseHttpRequest, hend]
    rw [hfront] at h
    by_cases hlong : front.length > maxHttpHead
    · rw [if_pos hlong] at h
      cases hwhole : parseHttpRequest base64 (front ++ more) with
      | invalid reason => exact h
      | done request used =>
        obtain ⟨position, hposition, rfl⟩ := headEnd_of_done hwhole
        have := hfits request _ hwhole
        rw [headEnd_front hposition (by omega)] at hend
        cases hend
      | incomplete =>
        rw [parseHttpRequest] at hwhole
        split at hwhole
        · rw [if_pos (by rw [length_append]; omega)] at hwhole
          cases hwhole
        split at hwhole
        · cases hwhole
        simp only [parseHttpHead] at hwhole
        split at hwhole
        · split_ifs at hwhole
          · split at hwhole <;> cases hwhole
          · split at hwhole
            · cases hwhole
            · split at hwhole <;> cases hwhole
        · cases hwhole
    · rw [if_neg hlong] at h
      cases h

theorem exists_of_onParse {ending : Ending} {result : Parse α} {used : ℕ}
    (h : onParse ending done result = some (.on hand used)) :
    ∃ value used', done value used' = .on hand used := by
  cases result with
  | incomplete | invalid => cases h
  | done value used' => exact ⟨value, used', Option.some.inj h⟩

theorem fits_of_phase {input : Bytes} (h : hand.phase = .userPass ∨ hand.phase = .request) :
    Fits base64 hand input := by
  rintro (hphase | ⟨hphase, -⟩)
  · rw [hphase] at h
    rcases h with h | h <;> cases h
  · rw [hphase] at h
    rcases h with h | h <;> cases h

/-- The handshake does with the whole what it does with a front of it. -/
theorem handshake_steady (base64 : Text → Option Bytes) (credentials : Option (Text × Text)) :
    Steady (handshake base64 credentials) inputLimit (Fits base64) where
  used_le := by
    intro hand buffer turn h
    rw [handshake] at h
    split at h
    · rw [Hand.sniff.eq_def] at h
      split at h
      · cases h
      · split_ifs at h <;> obtain rfl := Option.some.inj h <;> exact Nat.zero_le _
    · exact used_onParse hand.used_greeted (parseGreeting_usesSome buffer) h
    · exact used_onParse hand.used_loggedIn (parseUserPass_usesSome buffer) h
    · exact used_onParse hand.used_requested (parseRequest_usesSome buffer) h
    · exact used_onParse hand.used_headRead (parseHttpRequest_usesSome base64 buffer) h
    · cases h
  same := by
    rintro hand input front turn hfits ⟨more, hmore⟩ h
    rw [← hmore]
    rw [handshake] at h ⊢
    split at h
    · cases front with
      | nil => cases h
      | cons first rest => exact h
    · exact onParse_append parseGreeting_grows h
    · exact onParse_append parseUserPass_grows h
    · exact onParse_append parseRequest_grows h
    next hphase =>
      have hhead := hfits (.inl hphase)
      rw [← hmore] at hhead
      exact onHead_append hhead h
    · cases h
  next := by
    intro hand hand' input used hfits h
    rw [handshake] at h
    split at h
    next hphase =>
      cases input with
      | nil => cases h
      | cons first rest =>
        change hand.sniff (first :: _) = _ at h
        rw [Hand.sniff] at h
        split_ifs at h with hsocks hletter
        · cases h
          rintro (hhead | ⟨hsniff, -⟩)
          · cases hhead
          · cases hsniff
        · cases h
          exact fun _ => hfits (.inr ⟨hphase, first, rest, rfl, hletter⟩)
        · cases h
    · obtain ⟨methods, used', hmethods⟩ := exists_of_onParse h
      simp only [Hand.greeted] at hmethods
      split at hmethods
      · split at hmethods
        · cases hmethods
          exact fits_of_phase (.inl rfl)
        · cases hmethods
          exact fits_of_phase (.inr rfl)
      · cases hmethods
    · obtain ⟨given, used', hgiven⟩ := exists_of_onParse h
      simp only [Hand.loggedIn] at hgiven
      split at hgiven
      · cases hgiven
        exact fits_of_phase (.inr rfl)
      · cases hgiven
    · obtain ⟨request, used', hrequest⟩ := exists_of_onParse h
      rw [Hand.requested] at hrequest
      split_ifs at hrequest
    · obtain ⟨request, used', hrequest⟩ := exists_of_onParse h
      simp only [Hand.headRead] at hrequest
      split_ifs at hrequest
    · cases h

end Steadiness

end GamePath.Engine.Socks
