import GamePath.Engine.DnsMessages

/-!
# The DNS readers on any bytes

The readers once more, as calls that may fail to return: `bytes[i]` panics when the index is out of
range, and a loop may not end. Each call returns, for any bytes, what the reader without these
faults gives. So no index is out of range, and every loop ends.

The three readers agree on well-formed responses (`dns_readers_agree`).
-/

namespace GamePath.Engine.DnsCalls

open List

open Direct (Text slice utf8Len joinLabel NameReader)
open Dns (u16At headerLen)
open SplitCapture (LabelReader Ipv4Fields headerLength octetsAt)
open DnsMessages (length_of_slice)

/-- How a call can fail to return. -/
inductive Fault where
  | outOfRange
  | endless
  deriving DecidableEq

/-- A call of a function of the source. -/
abbrev Call (α : Type) := Except Fault α

/-! ## Indices -/

section Indices

/-- `bytes[i]`. -/
def index (bytes : Bytes) (i : ℕ) : Call UInt8 :=
  match bytes[i]? with
  | some b => .ok b
  | none => .error .outOfRange

/-- `u16::from_be_bytes([bytes[i], bytes[i + 1]])`. -/
def indexU16 (bytes : Bytes) (i : ℕ) : Call UInt16 := do
  let hi ← index bytes i
  let lo ← index bytes (i + 1)
  pure (u16OfBe hi lo)

/-- `Ipv4Addr::new(bytes[i], bytes[i + 1], bytes[i + 2], bytes[i + 3])`. -/
def indexOctets (bytes : Bytes) (i : ℕ) : Call Octets := do
  let a ← index bytes i
  let b ← index bytes (i + 1)
  let c ← index bytes (i + 2)
  let d ← index bytes (i + 3)
  pure (a, b, c, d)

variable {bytes : Bytes} {i : ℕ}

@[simp] theorem ok_bind {α β : Type} (a : α) (f : α → Call β) : (Except.ok a >>= f) = f a := rfl

theorem index_eq (h : i < bytes.length) : index bytes i = .ok (bytes.getD i 0) := by
  rw [index, getD_eq_getElem?_getD, getElem?_eq_getElem h]
  rfl

theorem indexU16_eq (h : i + 1 < bytes.length) : indexU16 bytes i = .ok (u16At bytes i) := by
  rw [indexU16, index_eq (by omega), index_eq h]
  rfl

theorem indexOctets_eq (h : i + 3 < bytes.length) :
    indexOctets bytes i = .ok (octetsAt bytes i) := by
  rw [indexOctets, index_eq (by omega), index_eq (by omega), index_eq (by omega), index_eq h]
  rfl

end Indices

/-! ## `dns.rs` -/

section Dns

/-- The loop of `skip_name`. -/
def skipNameFrom (message : Bytes) : ℕ → ℕ → Call (Option ℕ)
  | 0, _ => .error .endless
  | fuel + 1, position =>
    match message[position]? with
    | none => .ok none
    | some length =>
      if length = 0 then .ok (some (position + 1))
      else if length &&& 0xc0 = 0xc0 then
        .ok ((message[position + 1]?).map fun _ => position + 2)
      else if length &&& 0xc0 = 0 then
        skipNameFrom message fuel (position + 1 + length.toNat)
      else .ok none

def skipName (message : Bytes) (position : ℕ) : Call (Option ℕ) :=
  skipNameFrom message (message.length + 1) position

/-- The loop over the questions. -/
def skipQuestions (message : Bytes) : ℕ → ℕ → Call (Option ℕ)
  | 0, position => .ok (some position)
  | count + 1, position => do
      match ← skipName message position with
      | none => pure none
      | some position => skipQuestions message count (position + 4)

def verdict (response : Bytes) (id : UInt16) : Call Dns.ResolverVerdict := do
  if response.length < headerLen then pure .mismatched
  else if (← indexU16 response 0) ≠ id then pure .mismatched
  else
    let flags ← indexU16 response 2
    if flags &&& Dns.flagResponse = 0 then pure .mismatched
    else if flags &&& Dns.rcodeMask = 0 then pure .answered
    else pure (.refused (flags &&& Dns.rcodeMask))

/-- The loop over the answers. -/
def readRecords (message : Bytes) :
    ℕ → ℕ → List Octets → UInt32 → Call (Option (List Octets × UInt32))
  | 0, _, addresses, ttl => .ok (some (addresses, ttl))
  | count + 1, position, addresses, ttl => do
      match ← skipName message position with
      | none => pure none
      | some position =>
        match slice message position 10 with
        | none => pure none
        | some fixed =>
          let recordType ← indexU16 fixed 0
          let recordClass ← indexU16 fixed 2
          let (a, b, c, d) ← indexOctets fixed 4
          let recordTtl := UInt32.ofNat (Lib.BigEndian.ofBytes [a, b, c, d])
          let length ← indexU16 fixed 8
          match slice message (position + 10) length.toNat with
          | none => pure none
          | some data =>
            let position := position + 10 + length.toNat
            if recordType = Dns.typeA ∧ recordClass = Dns.classIn ∧ length = 4 then
              let address ← indexOctets data 0
              readRecords message count position (addresses ++ [address])
                (if recordTtl < ttl then recordTtl else ttl)
            else readRecords message count position addresses ttl

def readAnswer (response : Bytes) (id : UInt16) : Call (Option Dns.Answer) := do
  match ← verdict response id with
  | .mismatched => pure none
  | .refused rcode => pure (some (.noAddress rcode))
  | .answered =>
    let questions ← indexU16 response 4
    let answers ← indexU16 response 6
    match ← skipQuestions response questions.toNat headerLen with
    | none => pure none
    | some position =>
      match ← readRecords response answers.toNat position [] (UInt32.ofNat (2 ^ 32 - 1)) with
      | none => pure none
      | some ([], _) => pure (some (.noAddress 0))
      | some (addresses, ttl) => pure (some (.addresses addresses ttl))

/-- The loop of `question_name`. -/
def questionNameFrom (message : Bytes) : ℕ → ℕ → Text → Call (Option Text)
  | 0, _, _ => .error .endless
  | fuel + 1, position, name =>
    match message[position]? with
    | none => .ok none
    | some length =>
      if length = 0 then .ok (some name)
      else if length > 63 ∨ utf8Len name + length.toNat > 255 then .ok none
      else
        match slice message (position + 1) length.toNat with
        | none => .ok none
        | some label =>
          questionNameFrom message fuel (position + 1 + length.toNat) (joinLabel name label)

def questionName (message : Bytes) : Call (Option Text) :=
  questionNameFrom message (message.length + 1) headerLen []

/-! ### What the calls return -/

section Returns

variable {message fixed : Bytes}

theorem skipNameFrom_eq (fuel : ℕ) :
    ∀ fuel' position : ℕ, message.length ≤ position + fuel → message.length ≤ position + fuel' →
      skipNameFrom message (fuel + 1) position = .ok (Dns.skipNameFrom message fuel' position) := by
  -- Past the end of the message there is nothing to read, with fuel or without.
  have hend : ∀ fuel fuel' position, message.length ≤ position →
      skipNameFrom message (fuel + 1) position = .ok (Dns.skipNameFrom message fuel' position) := by
    intro fuel fuel' position hpast
    have hnone : message[position]? = none := getElem?_eq_none hpast
    cases fuel' with
    | zero | succ => simp [skipNameFrom, Dns.skipNameFrom, hnone]
  induction fuel with
  | zero => exact fun fuel' position hfuel _ => hend 0 fuel' position hfuel
  | succ fuel ih =>
    intro fuel' position hfuel hfuel'
    cases fuel' with
    | zero => exact hend (fuel + 1) 0 position hfuel'
    | succ fuel' =>
      rw [skipNameFrom, Dns.skipNameFrom]
      cases message[position]? with
      | none => rfl
      | some length =>
        dsimp only
        split_ifs
        · rfl
        · rfl
        · exact ih fuel' (position + 1 + length.toNat) (by omega) (by omega)
        · rfl

theorem skipName_eq (message : Bytes) (position : ℕ) :
    skipName message position = .ok (Dns.skipName message position) :=
  skipNameFrom_eq _ _ _ (by omega) (by omega)

theorem skipQuestions_eq (message : Bytes) (count : ℕ) :
    ∀ position,
      skipQuestions message count position = .ok (Dns.skipQuestions message count position) := by
  induction count with
  | zero => exact fun position => rfl
  | succ count ih =>
    intro position
    rw [skipQuestions, Dns.skipQuestions, skipName_eq]
    cases Dns.skipName message position with
    | none => rfl
    | some position => exact ih (position + 4)

theorem verdict_eq (message : Bytes) (id : UInt16) :
    verdict message id = .ok (Dns.verdict message id) := by
  rw [verdict, Dns.verdict]
  by_cases hshort : message.length < headerLen
  · simp only [hshort, if_true]
    rfl
  · have hlong : 12 ≤ message.length := not_lt.1 hshort
    simp only [hshort, if_false, indexU16_eq (by omega : 0 + 1 < message.length),
      indexU16_eq (by omega : 2 + 1 < message.length), ok_bind]
    split_ifs <;> rfl

theorem take_four {bytes : Bytes} {i : ℕ} (h : i + 3 < bytes.length) :
    (bytes.drop i).take 4 =
      [bytes.getD i 0, bytes.getD (i + 1) 0, bytes.getD (i + 2) 0, bytes.getD (i + 3) 0] := by
  apply ext_getElem
  · simp only [length_take, length_drop, length_cons, length_nil]
    omega
  intro j hj hj'
  simp only [length_cons, length_nil] at hj'
  rw [getElem_take, getElem_drop]
  have hbyte : ∀ k, i + k < bytes.length → bytes[i + k]? = some (bytes.getD (i + k) 0) := by
    intro k hk
    rw [getD_eq_getElem?_getD, getElem?_eq_getElem hk, Option.getD_some]
  apply Option.some.inj
  rw [← getElem?_eq_getElem, hbyte j (by omega)]
  obtain rfl | rfl | rfl | rfl : j = 0 ∨ j = 1 ∨ j = 2 ∨ j = 3 := by omega
  all_goals rfl

theorem readRecords_eq (message : Bytes) (count : ℕ) :
    ∀ position addresses ttl,
      readRecords message count position addresses ttl =
        .ok (Dns.readRecords message count position addresses ttl) := by
  induction count with
  | zero => exact fun position addresses ttl => rfl
  | succ count ih =>
    intro position addresses ttl
    rw [readRecords, Dns.readRecords, skipName_eq, ok_bind]
    cases Dns.skipName message position with
    | none => rfl
    | some position =>
      dsimp only
      cases hfixed : slice message position 10 with
      | none => rfl
      | some fixed =>
        have hten := length_of_slice hfixed
        simp only [indexU16_eq (by omega : 0 + 1 < fixed.length),
          indexU16_eq (by omega : 2 + 1 < fixed.length),
          indexU16_eq (by omega : 8 + 1 < fixed.length),
          indexOctets_eq (by omega : 4 + 3 < fixed.length), ok_bind, octetsAt,
          take_four (by omega : 4 + 3 < fixed.length)]
        cases hdata : slice message (position + 10) (u16At fixed 8).toNat with
        | none => rfl
        | some data =>
          have hlength := length_of_slice hdata
          by_cases hfour : data.length = 4
          · obtain ⟨a, b, c, d, rfl⟩ := length_eq_four.1 hfour
            have hlength' : u16At fixed 8 = 4 := UInt16.toNat_inj.1 (hlength.symm.trans hfour)
            have hoctets : indexOctets [a, b, c, d] 0 = .ok (a, b, c, d) := rfl
            simp only [hlength', and_true, hoctets, ok_bind]
            by_cases hA : u16At fixed 0 = Dns.typeA ∧ u16At fixed 2 = Dns.classIn
            · rw [if_pos hA, if_pos hA]
              exact ih _ _ _
            · rw [if_neg hA, if_neg hA]
              exact ih _ _ _
          have hlength' : ¬ u16At fixed 8 = 4 := by
            intro heq
            rw [heq] at hlength
            exact hfour hlength
          simp only [hlength', and_false, if_false]
          split
          · exact absurd rfl hfour
          · exact ih _ _ _

theorem readAnswer_eq (message : Bytes) (id : UInt16) :
    readAnswer message id = .ok (Dns.readAnswer message id) := by
  rw [readAnswer, verdict_eq, ok_bind, Dns.readAnswer]
  cases hverdict : Dns.verdict message id with
  | mismatched | refused => rfl
  | answered =>
    have hlong : 12 ≤ message.length := by
      by_contra hshort
      rw [Dns.verdict, if_pos (by simpa [headerLen] using hshort)] at hverdict
      cases hverdict
    rw [Dns.readSuccess, indexU16_eq (by omega), ok_bind, indexU16_eq (by omega), ok_bind,
      skipQuestions_eq, ok_bind]
    cases Dns.skipQuestions message (u16At message 4).toNat headerLen with
    | none => rfl
    | some position =>
      dsimp only
      rw [readRecords_eq, ok_bind]
      rcases Dns.readRecords message (u16At message 6).toNat position []
        (UInt32.ofNat (2 ^ 32 - 1)) with _ | ⟨⟨⟩ | ⟨address, rest⟩, ttl⟩
      · rfl
      · rfl
      · rfl

theorem questionNameFrom_eq (message : Bytes) (fuel : ℕ) :
    ∀ (fuel' position : ℕ) (name : Text), message.length ≤ position + fuel →
      message.length ≤ position + fuel' →
      questionNameFrom message (fuel + 1) position name =
        .ok (Dns.questionNameFrom message fuel' position name) := by
  have hend : ∀ fuel fuel' position name, message.length ≤ position →
      questionNameFrom message (fuel + 1) position name =
        .ok (Dns.questionNameFrom message fuel' position name) := by
    intro fuel fuel' position name hpast
    have hnone : message[position]? = none := getElem?_eq_none hpast
    cases fuel' with
    | zero | succ => simp [questionNameFrom, Dns.questionNameFrom, hnone]
  induction fuel with
  | zero => exact fun fuel' position name hfuel _ => hend 0 fuel' position name hfuel
  | succ fuel ih =>
    intro fuel' position name hfuel hfuel'
    cases fuel' with
    | zero => exact hend (fuel + 1) 0 position name hfuel'
    | succ fuel' =>
      rw [questionNameFrom, Dns.questionNameFrom]
      cases message[position]? with
      | none => rfl
      | some length =>
        dsimp only
        split_ifs
        · rfl
        · rfl
        · cases slice message (position + 1) length.toNat with
          | none => rfl
          | some label => exact ih fuel' _ _ (by omega) (by omega)

theorem questionName_eq (message : Bytes) :
    questionName message = .ok (Dns.questionName message) :=
  questionNameFrom_eq _ _ _ _ _ (by omega) (by omega)

end Returns

end Dns

/-! ## `direct_list.rs` -/

namespace Reply

/-- The loop of `read_name`. -/
def runName (message : Bytes) : ℕ → NameReader → Call (Option (Text × ℕ))
  | 0, _ => .error .endless
  | fuel + 1, reader =>
    match reader.turn message with
    | .again reader => runName message fuel reader
    | .done result => .ok result

variable (message : Bytes)

def readName (offset : ℕ) : Call (Option (Text × ℕ)) :=
  let reader : NameReader := ⟨[], none, 0, offset⟩
  runName message (reader.turnsLeft + 1) reader

/-- The loop over the questions. -/
def readQuestions (message : Bytes) : ℕ → ℕ → List Text → Call (Option (List Text × ℕ))
  | 0, offset, names => .ok (some (names, offset))
  | count + 1, offset, names => do
      match ← readName message offset with
      | none => pure none
      | some (name, next) => readQuestions message count (next + 4) (names ++ [name])

/-- What one record adds. -/
def readRecord (owner : Text) (kind length start : ℕ) (data : Bytes)
    (answer : Direct.Answer) : Call Direct.Answer := do
  if kind = 1 ∧ length = 4 then
    let address ← indexOctets data 0
    pure { answer with addresses := answer.addresses ++ [address] }
  else if kind = 5 then
    match ← readName message start with
    | some (target, _) => pure { answer with names := answer.names ++ [owner, target] }
    | none => pure { answer with names := answer.names ++ [owner] }
  else pure answer

/-- The loop over the answers. -/
def readRecords (message : Bytes) : ℕ → ℕ → Direct.Answer → Call (Option Direct.Answer)
  | 0, _, answer => .ok (some answer)
  | count + 1, offset, answer => do
      match ← readName message offset with
      | none => pure none
      | some (owner, next) =>
        match slice message next 10 with
        | none => pure none
        | some header =>
          let kind := (← indexU16 header 0).toNat
          let length := (← indexU16 header 8).toNat
          match slice message (next + 10) length with
          | none => pure none
          | some data =>
            let answer ← readRecord message owner kind length (next + 10) data answer
            readRecords message count (next + 10 + length) answer

def readAnswer : Call (Option Direct.Answer) := do
  if message.length < 12 then pure none
  else if (← index message 2) &&& 0x80 = 0 then pure none
  else if (← index message 3) &&& 0x0f ≠ 0 then pure none
  else
    let questions ← indexU16 message 4
    let answers ← indexU16 message 6
    match ← readQuestions message questions.toNat 12 [] with
    | none => pure none
    | some (names, offset) => readRecords message answers.toNat offset ⟨names, []⟩

theorem runName_eq (fuel : ℕ) :
    ∀ reader : NameReader, reader.Bounded → reader.turnsLeft < fuel →
      runName message fuel reader = .ok (reader.run message fuel) := by
  induction fuel with
  | zero => exact fun reader _ hlt => absurd hlt (Nat.not_lt_zero _)
  | succ fuel ih =>
    intro reader hbounded hlt
    rw [runName, NameReader.run]
    cases hturn : reader.turn message with
    | done result => rfl
    | again reader' =>
      obtain ⟨hbounded', hless⟩ := NameReader.turnsLeft_lt hbounded hturn
      exact ih reader' hbounded' (by omega)

theorem readName_eq (offset : ℕ) :
    readName message offset = .ok (Direct.readName message offset) :=
  runName_eq message _ _ ⟨Nat.zero_le _, Nat.zero_le _⟩ (Nat.lt_succ_self _)

theorem readQuestions_eq (count : ℕ) :
    ∀ offset names, readQuestions message count offset names =
      .ok (Direct.readQuestions message count offset names) := by
  induction count with
  | zero => exact fun offset names => rfl
  | succ count ih =>
    intro offset names
    rw [readQuestions, Direct.readQuestions, readName_eq]
    cases Direct.readName message offset with
    | none => rfl
    | some read => exact ih _ _

theorem readRecord_eq (owner : Text) (kind start : ℕ) (data : Bytes) (answer : Direct.Answer) :
    readRecord message owner kind data.length start data answer =
      .ok (Direct.readRecord message owner kind data.length start data answer) := by
  by_cases hA : kind = 1 ∧ data.length = 4
  · obtain ⟨a, b, c, d, rfl⟩ := length_eq_four.1 hA.2
    rw [readRecord]
    simp only [Direct.readRecord, if_pos hA]
    rfl
  rw [readRecord]
  simp only [Direct.readRecord, if_neg hA]
  split
  · rw [readName_eq]
    cases Direct.readName message start with
    | none | some => rfl
  · rfl

theorem readRecords_eq (count : ℕ) :
    ∀ offset answer, readRecords message count offset answer =
      .ok (Direct.readRecords message count offset answer) := by
  induction count with
  | zero => exact fun offset answer => rfl
  | succ count ih =>
    intro offset answer
    rw [readRecords, Direct.readRecords, readName_eq, ok_bind]
    cases Direct.readName message offset with
    | none => rfl
    | some read =>
      dsimp only [Option.bind_eq_bind, Option.bind_some]
      cases hheader : slice message read.2 10 with
      | none => rfl
      | some header =>
        have hten := length_of_slice hheader
        dsimp only [Option.bind_some]
        rw [indexU16_eq (by omega), ok_bind, indexU16_eq (by omega), ok_bind,
          DnsMessages.u16At_direct (by omega), DnsMessages.u16At_direct (by omega)]
        dsimp only [Option.bind_some]
        cases hdata : slice message (read.2 + 10) (u16At header 8).toNat with
        | none => rfl
        | some data =>
          have hlength := length_of_slice hdata
          dsimp only [Option.bind_some]
          rw [← hlength, readRecord_eq]
          exact ih _ _

theorem readAnswer_eq :
    readAnswer message = .ok (Direct.readAnswer message) := by
  by_cases hshort : message.length < 12
  · -- Whatever the header has, it is not long enough.
    rw [readAnswer]
    simp only [Direct.readAnswer, hshort, true_or, if_true]
    cases message[2]? <;> cases message[3]? <;> cases Direct.u16At message 4 <;>
      cases Direct.u16At message 6 <;> rfl
  have hflags : message[2]? = some (message.getD 2 0) := by
    rw [getD_eq_getElem?_getD, getElem?_eq_getElem (by omega), Option.getD_some]
  have hcode : message[3]? = some (message.getD 3 0) := by
    rw [getD_eq_getElem?_getD, getElem?_eq_getElem (by omega), Option.getD_some]
  rw [readAnswer, if_neg hshort, index_eq (by omega), index_eq (by omega)]
  simp only [Direct.readAnswer, hflags, hcode,
    DnsMessages.u16At_direct (by omega : 4 + 1 < message.length),
    DnsMessages.u16At_direct (by omega : 6 + 1 < message.length), Option.bind_eq_bind,
    Option.bind_some, hshort, false_or, ok_bind]
  by_cases hquery : message.getD 2 0 &&& 0x80 = 0
  · rw [if_pos hquery, if_pos (.inl hquery)]
    rfl
  by_cases hfailed : message.getD 3 0 &&& 0x0f ≠ 0
  · rw [if_neg hquery, if_pos hfailed, if_pos (.inr hfailed)]
    rfl
  · rw [if_neg hquery, if_neg hfailed, if_neg (by rintro (h | h); exacts [hquery h, hfailed h]),
      indexU16_eq (by omega), ok_bind, indexU16_eq (by omega), ok_bind, readQuestions_eq, ok_bind]
    cases Direct.readQuestions message (u16At message 4).toNat 12 [] with
    | none => rfl
    | some read => exact readRecords_eq message _ _ _

end Reply

/-! ## `split_capture.rs` -/

namespace Sniffed

variable (lowercase : Text → Text)

/-- The loop of `dns_name`. -/
def runName (packet : Bytes) : ℕ → LabelReader → Call (Option (Text × ℕ))
  | 0, _ => .error .endless
  | fuel + 1, reader =>
    match reader.turn lowercase packet with
    | .again reader => runName packet fuel reader
    | .done result => .ok result

def dnsName (packet : Bytes) (offset : ℕ) : Call (Option (Text × ℕ)) :=
  let reader : LabelReader := ⟨[], none, 0, offset⟩
  runName lowercase packet (reader.turnsLeft packet + 1) reader

/-- The loop over the questions. -/
def matchQuestions (dns : Bytes) (hostnames : List Text) :
    ℕ → ℕ → Option Text → Call (Option (Option Text × ℕ))
  | 0, offset, matched => .ok (some (matched, offset))
  | count + 1, offset, matched => do
      match ← dnsName lowercase dns offset with
      | none => pure none
      | some (name, next) =>
        if next + 4 > dns.length then pure none
        else
          matchQuestions dns hostnames count (next + 4)
            (matched.or (SplitCapture.mostSpecificRule name hostnames))

/-- The loop over the answers. -/
def collectAnswers (dns : Bytes) (rule : Text) :
    ℕ → ℕ → List (Octets × Text) → Call (List (Octets × Text))
  | 0, _, result => .ok result
  | count + 1, offset, result => do
      match ← dnsName lowercase dns offset with
      | none => pure result
      | some (_, next) =>
        if next + 10 > dns.length then pure result
        else
          let kind ← indexU16 dns next
          let length := (← indexU16 dns (next + 8)).toNat
          if next + 10 + length > dns.length then pure result
          else if kind = 1 ∧ length = 4 then
            let address ← indexOctets dns (next + 10)
            collectAnswers dns rule count (next + 10 + length) (result ++ [(address, rule)])
          else collectAnswers dns rule count (next + 10 + length) result

/-- The reader inside `dns_addresses`. -/
def messageAddresses (dns : Bytes) (hostnames : List Text) : Call (List (Octets × Text)) := do
  if dns.length < 12 then pure []
  else if (← index dns 2) &&& 0x80 = 0 then pure []
  else
    let questions ← indexU16 dns 4
    let answers ← indexU16 dns 6
    match ← matchQuestions lowercase dns hostnames questions.toNat 12 none with
    | some (some rule, offset) => collectAnswers lowercase dns rule answers.toNat offset []
    | _ => pure []

/-- The ports in `ipv4_fields`. -/
def ports (packet : Bytes) (header : ℕ) (protocol : UInt8) : Call (UInt16 × UInt16) :=
  if protocol = 6 ∨ protocol = 17 then do
    let source ← indexU16 packet header
    let destination ← indexU16 packet (header + 2)
    pure (source, destination)
  else if protocol = 1 ∧ header + 8 ≤ packet.length then do
    let id ← indexU16 packet (header + 4)
    pure (id, id)
  else pure (0, 0)

def ipv4Fields (packet : Bytes) : Call (Option Ipv4Fields) := do
  if packet.length < 20 then pure none
  else if (← index packet 0) >>> 4 ≠ 4 then pure none
  else
    let header := ((← index packet 0) &&& 0x0f).toNat * 4
    if header < 20 ∨ packet.length < header + 4 then pure none
    else
      let protocol ← index packet 9
      let ports ← ports packet header protocol
      let source ← indexOctets packet 12
      let destination ← indexOctets packet 16
      pure (some ⟨source, destination, protocol, ports.1, ports.2⟩)

def dnsAddresses (packet : Bytes) (hostnames : List Text) : Call (List (Octets × Text)) := do
  match ← ipv4Fields packet with
  | none => pure []
  | some fields =>
    if fields.protocol ≠ 17 ∨ fields.sourcePort ≠ 53 then pure []
    else
      let header := ((← index packet 0) &&& 0x0f).toNat * 4
      if header + 8 ≤ packet.length then
        messageAddresses lowercase (packet.drop (header + 8)) hostnames
      else pure []

variable {lowercase} {packet : Bytes} {reader reader' : LabelReader}

theorem turnsLeft_lt (hjumps : reader.jumps ≤ 16)
    (hturn : reader.turn lowercase packet = .again reader') :
    reader'.jumps ≤ 16 ∧ reader'.turnsLeft packet < reader.turnsLeft packet := by
  rw [LabelReader.turn] at hturn
  split at hturn
  · cases hturn
  rename_i length hlength
  have hlt := (List.getElem?_eq_some_iff.1 hlength).1
  split at hturn
  · split at hturn
    · cases hturn
    split at hturn
    · cases hturn
    -- A jump may go anywhere, but there is one less of them.
    cases hturn
    refine ⟨by dsimp only; omega, ?_⟩
    obtain ⟨left, hleft⟩ : ∃ left, 16 - reader.jumps = left + 1 :=
      ⟨15 - reader.jumps, by omega⟩
    have hleft' : 16 - (reader.jumps + 1) = left := by omega
    simp only [LabelReader.turnsLeft, hleft, hleft', Nat.add_mul]
    omega
  · split at hturn
    · cases hturn
    split at hturn
    · cases hturn
    · cases hturn
      refine ⟨hjumps, ?_⟩
      simp only [LabelReader.turnsLeft]
      omega

theorem runName_eq (fuel : ℕ) :
    ∀ reader : LabelReader, reader.jumps ≤ 16 → reader.turnsLeft packet < fuel →
      runName lowercase packet fuel reader = .ok (reader.run lowercase packet fuel) := by
  induction fuel with
  | zero => exact fun reader _ hlt => absurd hlt (Nat.not_lt_zero _)
  | succ fuel ih =>
    intro reader hjumps hlt
    rw [runName, LabelReader.run]
    cases hturn : reader.turn lowercase packet with
    | done result => rfl
    | again reader' =>
      obtain ⟨hjumps', hless⟩ := turnsLeft_lt hjumps hturn
      exact ih reader' hjumps' (by omega)

theorem dnsName_eq (packet : Bytes) (offset : ℕ) :
    dnsName lowercase packet offset = .ok (SplitCapture.dnsName lowercase packet offset) :=
  runName_eq _ _ (Nat.zero_le _) (Nat.lt_succ_self _)

theorem matchQuestions_eq (dns : Bytes) (hostnames : List Text) (count : ℕ) :
    ∀ offset matched, matchQuestions lowercase dns hostnames count offset matched =
      .ok (SplitCapture.matchQuestions lowercase dns hostnames count offset matched) := by
  induction count with
  | zero => exact fun offset matched => rfl
  | succ count ih =>
    intro offset matched
    rw [matchQuestions, SplitCapture.matchQuestions, dnsName_eq, ok_bind]
    cases SplitCapture.dnsName lowercase dns offset with
    | none => rfl
    | some read =>
      dsimp only
      split_ifs
      · rfl
      · exact ih _ _

theorem collectAnswers_eq (dns : Bytes) (rule : Text) (count : ℕ) :
    ∀ offset result, collectAnswers lowercase dns rule count offset result =
      .ok (SplitCapture.collectAnswers lowercase dns rule count offset result) := by
  induction count with
  | zero => exact fun offset result => rfl
  | succ count ih =>
    intro offset result
    rw [collectAnswers, SplitCapture.collectAnswers, dnsName_eq, ok_bind]
    cases SplitCapture.dnsName lowercase dns offset with
    | none => rfl
    | some read =>
      dsimp only
      by_cases hroom : read.2 + 10 > dns.length
      · rw [if_pos hroom, if_pos hroom]
        rfl
      rw [if_neg hroom, if_neg hroom, indexU16_eq (by omega), ok_bind, indexU16_eq (by omega),
        ok_bind]
      by_cases hdata : read.2 + 10 + (u16At dns (read.2 + 8)).toNat > dns.length
      · rw [if_pos hdata, if_pos hdata]
        rfl
      rw [if_neg hdata, if_neg hdata]
      by_cases hA : u16At dns read.2 = 1 ∧ (u16At dns (read.2 + 8)).toNat = 4
      · rw [if_pos hA, if_pos hA, indexOctets_eq (by omega)]
        exact ih _ _
      · rw [if_neg hA, if_neg hA]
        exact ih _ _

theorem messageAddresses_eq (dns : Bytes) (hostnames : List Text) :
    messageAddresses lowercase dns hostnames =
      .ok (SplitCapture.messageAddresses lowercase dns hostnames) := by
  rw [messageAddresses, SplitCapture.messageAddresses]
  by_cases hshort : dns.length < 12
  · rw [if_pos hshort, if_pos (.inl hshort)]
    rfl
  rw [if_neg hshort, index_eq (by omega), ok_bind]
  by_cases hquery : dns.getD 2 0 &&& 0x80 = 0
  · rw [if_pos hquery, if_pos (.inr hquery)]
    rfl
  rw [if_neg hquery, if_neg (by rintro (h | h); exacts [hshort h, hquery h]),
    indexU16_eq (by omega), ok_bind, indexU16_eq (by omega), ok_bind, matchQuestions_eq, ok_bind]
  rcases SplitCapture.matchQuestions lowercase dns hostnames (u16At dns 4).toNat 12 none with
    _ | ⟨_ | rule, offset⟩
  · rfl
  · rfl
  · exact collectAnswers_eq dns rule _ _ _

theorem ipv4Fields_eq (packet : Bytes) :
    ipv4Fields packet = .ok (SplitCapture.ipv4Fields packet) := by
  rw [ipv4Fields, SplitCapture.ipv4Fields]
  by_cases hshort : packet.length < 20
  · rw [if_pos hshort, if_pos (.inl hshort)]
    rfl
  rw [if_neg hshort, index_eq (by omega), ok_bind]
  by_cases hversion : packet.getD 0 0 >>> 4 ≠ 4
  · rw [if_pos hversion, if_pos (.inr hversion)]
    rfl
  rw [if_neg hversion, if_neg (by rintro (h | h); exacts [hshort h, hversion h])]
  change (if headerLength packet < 20 ∨ packet.length < headerLength packet + 4 then _ else _) = _
  by_cases hheader : headerLength packet < 20 ∨ packet.length < headerLength packet + 4
  · simp only [if_pos hheader]
    rfl
  simp only [if_neg hheader]
  rw [index_eq (by omega)]
  change ports packet (headerLength packet) (packet.getD 9 0) >>= _ = _
  rw [ports, indexOctets_eq (by omega), indexOctets_eq (by omega)]
  -- The ports are read only where there is room for them.
  by_cases hports : packet.getD 9 0 = 6 ∨ packet.getD 9 0 = 17
  · rw [if_pos hports, if_pos hports, indexU16_eq (by omega), indexU16_eq (by omega)]
    rfl
  rw [if_neg hports, if_neg hports]
  by_cases hecho : packet.getD 9 0 = 1 ∧ headerLength packet + 8 ≤ packet.length
  · rw [if_pos hecho, if_pos hecho, indexU16_eq (by omega)]
    rfl
  · rw [if_neg hecho, if_neg hecho]
    rfl

theorem dnsAddresses_eq (packet : Bytes) (hostnames : List Text) :
    dnsAddresses lowercase packet hostnames =
      .ok (SplitCapture.dnsAddresses lowercase packet hostnames) := by
  rw [dnsAddresses, SplitCapture.dnsAddresses, ipv4Fields_eq, ok_bind]
  cases hfields : SplitCapture.ipv4Fields packet with
  | none => rfl
  | some fields =>
    have hlong : 20 ≤ packet.length := by
      by_contra hshort
      rw [SplitCapture.ipv4Fields, if_pos (.inl (not_le.1 hshort))] at hfields
      cases hfields
    dsimp only
    by_cases hother : fields.protocol ≠ 17 ∨ fields.sourcePort ≠ 53
    · rw [if_pos hother, if_pos hother]
      rfl
    · rw [if_neg hother, index_eq (by omega), ok_bind]
      change (if headerLength packet + 8 ≤ packet.length then _ else _) = _
      split_ifs
      · exact messageAddresses_eq _ _
      · rfl

end Sniffed

/-! ## All three -/

section Agreement

open DnsMessages

/-- Of a well-formed response, the three readers give the addresses of its A records. Of any bytes,
each of them ends, with no index out of range. -/
theorem dns_readers_agree {lowercase : Text → Text} (hlower : LowersAscii lowercase) :
    (∀ message questions records, GoodResponse message questions records →
      (Dns.readAnswer message (u16At message 0)).map answeredAddresses = some (addresses records) ∧
      (Direct.readAnswer message).map Direct.Answer.addresses = some (addresses records) ∧
      ∀ packet fields hostnames, SplitCapture.ipv4Fields packet = some fields →
        fields.protocol = 17 → fields.sourcePort = 53 →
        packet.drop (headerLength packet + 8) = message →
        (∃ labels ∈ questions, ∃ rule ∈ hostnames,
          SplitCapture.hostnameMatches (lowerText (dotted labels)) rule = true) →
        ∃ rule ∈ hostnames, SplitCapture.dnsAddresses lowercase packet hostnames =
          (addresses records).map fun address => (address, rule)) ∧
    ∀ bytes : Bytes,
      (∀ id, readAnswer bytes id = .ok (Dns.readAnswer bytes id)) ∧
      Reply.readAnswer bytes = .ok (Direct.readAnswer bytes) ∧
      (∀ hostnames, Sniffed.dnsAddresses lowercase bytes hostnames =
        .ok (SplitCapture.dnsAddresses lowercase bytes hostnames)) ∧
      questionName bytes = .ok (Dns.questionName bytes) := by
  constructor
  · intro message questions records h
    refine ⟨h.readAnswer, h.readAnswer_direct, ?_⟩
    rintro packet fields hostnames hfields hudp hport hmessage ⟨labels, hlabels, rule,
      hrule, hmatch⟩
    obtain ⟨found, hfound, heq⟩ := h.messageAddresses hlower hlabels hrule hmatch
    refine ⟨found, hfound, ?_⟩
    have hroom : headerLength packet + 8 ≤ packet.length := by
      have hlong := h.long
      rw [← hmessage, List.length_drop, headerLen] at hlong
      omega
    rw [SplitCapture.dnsAddresses, hfields]
    simp only [hudp, hport, hroom, hmessage, ne_eq, not_true_eq_false, or_self, if_true, if_false]
    exact heq
  · intro bytes
    refine ⟨readAnswer_eq bytes, Reply.readAnswer_eq bytes, Sniffed.dnsAddresses_eq bytes, ?_⟩
    exact questionName_eq bytes

/-- The answer for `api.anthropic.com`, whose owner is a pointer to the question. -/
def anthropicAnswer : Bytes :=
  [0x12, 0x34, 0x81, 0x80, 0, 1, 0, 1, 0, 0, 0, 0,
    3, 97, 112, 105, 9, 97, 110, 116, 104, 114, 111, 112, 105, 99, 3, 99, 111, 109, 0, 0, 1, 0, 1,
    0xc0, 12, 0, 1, 0, 1, 0, 0, 0, 60, 0, 4, 160, 79, 104, 10]

/-- The datagram from port 53 that carries it. -/
def anthropicPacket : Bytes :=
  [0x45, 0, 0, 0, 0, 0, 0, 0, 64, 17, 0, 0, 8, 8, 8, 8, 10, 0, 0, 2, 0, 53, 0xc3, 0x50, 0, 0, 0, 0]
    ++ anthropicAnswer

/-- The labels of its question. -/
def anthropicLabels : List Bytes :=
  [[97, 112, 105], [97, 110, 116, 104, 114, 111, 112, 105, 99], [99, 111, 109]]

theorem anthropicLabels_ascii : ∀ label ∈ anthropicLabels, ∀ b ∈ label, b < 128 := by
  simp [anthropicLabels]

theorem anthropicName : NameAt anthropicAnswer 12 anthropicLabels 0 31 := by
  have hfirst : anthropicAnswer[12]? = some 3 := rfl
  have hsecond : anthropicAnswer[16]? = some 9 := rfl
  have hthird : anthropicAnswer[26]? = some 3 := rfl
  apply NameAt.label hfirst (by decide) (by decide) (by decide)
  apply NameAt.label hsecond (by decide) (by decide) (by decide)
  apply NameAt.label hthird (by decide) (by decide) (by decide)
  exact NameAt.root rfl

theorem anthropicAnswer_good :
    GoodResponse anthropicAnswer [anthropicLabels] [⟨1, [160, 79, 104, 10]⟩] where
  long := by decide
  response := by decide
  success := by decide
  questionCount := by decide
  answerCount := by decide
  sections := by
    refine ⟨35, ?_, ?_⟩
    · exact .cons ⟨⟨0, by decide, anthropicName⟩, anthropicLabels_ascii, by decide⟩ (by decide) .nil
    have hhigh : anthropicAnswer[35]? = some 0xc0 := rfl
    have hlow : anthropicAnswer[36]? = some 12 := rfl
    have howner : NameAt anthropicAnswer 35 anthropicLabels 1 37 :=
      .pointer hhigh (by decide) hlow anthropicName
    have hfixed : slice anthropicAnswer 37 10 = some [0, 1, 0, 1, 0, 0, 0, 60, 0, 4] := by decide
    exact .cons ⟨⟨1, by decide, howner⟩, anthropicLabels_ascii, by decide⟩ hfixed (by decide)
      (by decide)
      (by decide) (by decide) (fun _ => rfl) .nil

/-- The rule for the whole name is matched, and the address is under it. -/
theorem dns_readers_agree_anthropic :
    (Dns.readAnswer anthropicAnswer 0x1234).map answeredAddresses = some [(160, 79, 104, 10)] ∧
      (Direct.readAnswer anthropicAnswer).map Direct.Answer.addresses = some [(160, 79, 104, 10)] ∧
      ∃ rule ∈ ["anthropic.com".toList, "api.anthropic.com".toList],
        SplitCapture.dnsAddresses (List.map Char.toLower) anthropicPacket
          ["anthropic.com".toList, "api.anthropic.com".toList] = [((160, 79, 104, 10), rule)] := by
  obtain ⟨hdns, hdirect, hsplit⟩ :=
    (@dns_readers_agree (List.map Char.toLower) fun _ _ => rfl).1 _ _ _ anthropicAnswer_good
  refine ⟨hdns, hdirect, ?_⟩
  exact hsplit anthropicPacket ⟨(8, 8, 8, 8), (10, 0, 0, 2), 17, 53, 50000⟩ _
    (by decide +kernel) rfl
    rfl (by decide +kernel) ⟨anthropicLabels, List.mem_singleton_self _, "api.anthropic.com".toList,
      by simp, by decide +kernel⟩

end Agreement

end GamePath.Engine.DnsCalls
