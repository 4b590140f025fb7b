import GamePath.Engine.Checksum
import GamePath.Engine.DirectReply

/-!
# Asking one DNS question (`dns.rs`)

Building an A query and reading the A records out of the answer to it. A response is known by its
identification and its response bit alone; the question it repeats is skipped over, not compared. So
`readAnswer` says of a message whether it answers *some* query sent under an identification, and
`AsksFor`, which the code does not compute, says which name the message is about.
-/

namespace GamePath.Engine.Dns

open Lib
open Direct (Text slice)

/-- The bytes of a text (`str::as_bytes`). -/
def utf8Bytes (value : Text) : Bytes := value.flatMap String.utf8EncodeChar

def flagRecursionDesired : UInt16 := 0x0100

def flagResponse : UInt16 := 0x8000

def rcodeMask : UInt16 := 0x000f

def typeA : UInt16 := 1

def classIn : UInt16 := 1

def headerLen : Nat := 12

/-! ## The query -/

/-- The labels of a name on the wire, unless one is too long. -/
def encodeLabels : List Text → Option Bytes
  | [] => some []
  | label :: labels =>
    let bytes := utf8Bytes label
    if bytes.length > 63 then none
    else (encodeLabels labels).map fun rest => UInt8.ofNat bytes.length :: bytes ++ rest

/-- The part of a query after its header: the name and what is asked about it. -/
def question (hostname : Text) : Option Bytes :=
  (encodeLabels ((hostname.splitOn '.').filter fun label => label ≠ [])).map fun labels =>
    labels ++ [0] ++ beU16 typeA ++ beU16 classIn

/-- The header of a query: one question, no answer, authority or additional records. -/
def queryHeader (id : UInt16) : Bytes :=
  beU16 id ++ beU16 flagRecursionDesired ++ beU16 1 ++ List.replicate 6 0

def query (id : UInt16) (hostname : Text) : Option Bytes :=
  match question hostname with
  | none => none
  | some asked =>
    let message := queryHeader id ++ asked
    if message.length ≤ 255 + headerLen + 5 then some message else none

/-! ## The answer -/

inductive ResolverVerdict where
  | answered
  | mismatched
  | refused (rcode : UInt16)

/-- `u16::from_be_bytes([message[at], message[at + 1]])`, where the message is long enough. -/
def u16At (message : Bytes) (position : Nat) : UInt16 :=
  u16OfBe (message.getD position 0) (message.getD (position + 1) 0)

def verdict (response : Bytes) (id : UInt16) : ResolverVerdict :=
  if response.length < headerLen then .mismatched
  else if u16At response 0 ≠ id then .mismatched
  else
    let flags := u16At response 2
    if flags &&& flagResponse = 0 then .mismatched
    else if flags &&& rcodeMask = 0 then .answered
    else .refused (flags &&& rcodeMask)

inductive Answer where
  | addresses (addresses : List Octets) (ttl : UInt32)
  | noAddress (rcode : UInt16)
  deriving DecidableEq

/-- The loop of `skip_name`. Every turn moves on in the message, so as many turns as it has bytes
are enough. -/
def skipNameFrom (message : Bytes) : Nat → Nat → Option Nat
  | 0, _ => none
  | fuel + 1, position =>
    match message[position]? with
    | none => none
    | some length =>
      if length = 0 then some (position + 1)
      else if length &&& 0xc0 = 0xc0 then (message[position + 1]?).map fun _ => position + 2
      else if length &&& 0xc0 = 0 then skipNameFrom message fuel (position + 1 + length.toNat)
      else none

def skipName (message : Bytes) (position : Nat) : Option Nat :=
  skipNameFrom message message.length position

/-- Past the questions of a message, each a name and four bytes. -/
def skipQuestions (message : Bytes) : Nat → Nat → Option Nat
  | 0, position => some position
  | count + 1, position =>
    match skipName message position with
    | none => none
    | some position => skipQuestions message count (position + 4)

/-- The A records among the next `count` records, with the shortest of their TTLs. -/
def readRecords (message : Bytes) :
    Nat → Nat → List Octets → UInt32 → Option (List Octets × UInt32)
  | 0, _, addresses, ttl => some (addresses, ttl)
  | count + 1, position, addresses, ttl =>
    match skipName message position with
    | none => none
    | some position =>
      match slice message position 10 with
      | none => none
      | some fixed =>
        let recordType := u16At fixed 0
        let recordClass := u16At fixed 2
        let recordTtl := UInt32.ofNat (BigEndian.ofBytes ((fixed.drop 4).take 4))
        let length := (u16At fixed 8).toNat
        match slice message (position + 10) length with
        | none => none
        | some data =>
          let position := position + 10 + length
          match data with
          | [a, b, c, d] =>
            if recordType = typeA ∧ recordClass = classIn then
              readRecords message count position (addresses ++ [(a, b, c, d)])
                (if recordTtl < ttl then recordTtl else ttl)
            else readRecords message count position addresses ttl
          | _ => readRecords message count position addresses ttl

/-- The records of a response that reported success. -/
def readSuccess (response : Bytes) : Option Answer :=
  match skipQuestions response (u16At response 4).toNat headerLen with
  | none => none
  | some position =>
    match readRecords response (u16At response 6).toNat position [] (UInt32.ofNat (2 ^ 32 - 1)) with
    | none => none
    | some ([], _) => some (.noAddress 0)
    | some (addresses, ttl) => some (.addresses addresses ttl)

def readAnswer (response : Bytes) (id : UInt16) : Option Answer :=
  match verdict response id with
  | .mismatched => none
  | .refused rcode => some (.noAddress rcode)
  | .answered => readSuccess response

/-- The loop of `question_name`. Every turn moves on in the message. -/
def questionNameFrom (message : Bytes) : Nat → Nat → Text → Option Text
  | 0, _, _ => none
  | fuel + 1, position, name =>
    match message[position]? with
    | none => none
    | some length =>
      if length = 0 then some name
      -- A question never uses compression; anything else is not one.
      else if length > 63 ∨ Direct.utf8Len name + length.toNat > 255 then none
      else
        match slice message (position + 1) length.toNat with
        | none => none
        | some label =>
          questionNameFrom message fuel (position + 1 + length.toNat)
            (Direct.joinLabel name label)

def questionName (message : Bytes) : Option Text :=
  questionNameFrom message message.length headerLen []

/-- The message's question section is the question a query for the name asks. -/
def AsksFor (message : Bytes) (hostname : Text) : Prop :=
  u16At message 4 = 1 ∧ ∃ asked, question hostname = some asked ∧ asked <+: message.drop headerLen

/-- The response repeats the identification and the question of a query, as a server does. -/
def CopiesQuestion (message response : Bytes) : Prop :=
  u16At response 0 = u16At message 0 ∧ u16At response 4 = u16At message 4 ∧
    message.drop headerLen <+: response.drop headerLen

instance decidableAsksFor (message : Bytes) (hostname : Text) :
    Decidable (AsksFor message hostname) :=
  decidable_of_iff
    (u16At message 4 = 1 ∧
      (question hostname).any (fun asked => asked.isPrefixOf (message.drop headerLen)) = true) (by
      refine and_congr_right fun _ => ?_
      cases question hostname with
      | none => simp
      | some asked => simp [List.isPrefixOf_iff_prefix])

instance decidableCopiesQuestion (message response : Bytes) :
    Decidable (CopiesQuestion message response) :=
  inferInstanceAs (Decidable (_ ∧ _ ∧ _))

/-! ## What an answer says about its query -/

variable {id : UInt16} {response : Bytes}

theorem id_of_readAnswer {answer : Answer} (h : readAnswer response id = some answer) :
    u16At response 0 = id := by
  by_contra hne
  have hmismatched : verdict response id = .mismatched := by
    simp [verdict, hne]
  simp [readAnswer, hmismatched] at h

theorem readAnswer_of_ne {id other : UInt16} {answer : Answer}
    (h : readAnswer response id = some answer) (hne : other ≠ id) :
    readAnswer response other = none := by
  cases hother : readAnswer response other with
  | none => rfl
  | some answer' =>
    have hid := id_of_readAnswer hother
    rw [id_of_readAnswer h] at hid
    exact absurd hid.symm hne

theorem addresses_ne_nil {addresses : List Octets} {ttl : UInt32}
    (h : readAnswer response id = some (.addresses addresses ttl)) : addresses ≠ [] := by
  intro hnil
  simp only [readAnswer] at h
  split at h
  · cases h
  · cases h
  · simp only [readSuccess] at h
    split at h
    · cases h
    · split at h <;> simp_all

variable {message : Bytes} {hostname : Text}

theorem query_eq_some (h : query id hostname = some message) :
    ∃ asked, question hostname = some asked ∧ message = queryHeader id ++ asked := by
  simp only [query] at h
  cases hasked : question hostname with
  | none => simp [hasked] at h
  | some asked =>
    rw [hasked] at h
    refine ⟨asked, rfl, ?_⟩
    dsimp only at h
    split at h
    · exact (Option.some.inj h).symm
    · cases h

theorem u16At_query (h : query id hostname = some message) : u16At message 0 = id := by
  obtain ⟨asked, -, rfl⟩ := query_eq_some h
  simp [u16At, queryHeader, beU16]

theorem length_queryHeader (id : UInt16) : (queryHeader id).length = headerLen := by
  simp [queryHeader, beU16, headerLen]

theorem drop_query (h : query id hostname = some message) :
    question hostname = some (message.drop headerLen) := by
  obtain ⟨asked, hasked, rfl⟩ := query_eq_some h
  rw [hasked, ← length_queryHeader id, List.drop_left]

theorem count_query (h : query id hostname = some message) : u16At message 4 = 1 := by
  obtain ⟨asked, -, rfl⟩ := query_eq_some h
  simp [u16At, queryHeader, beU16]

theorem AsksFor.of_copiesQuestion {hostname asked : Text} {message response : Bytes}
    (hquery : query id asked = some message) (hcopies : CopiesQuestion message response)
    (hsame : question hostname = question asked) : AsksFor response hostname := by
  obtain ⟨-, hcount, hquestion⟩ := hcopies
  refine ⟨hcount.trans (count_query hquery), message.drop headerLen, ?_, hquestion⟩
  rw [hsame]
  exact drop_query hquery

end GamePath.Engine.Dns
