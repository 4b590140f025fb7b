import GamePath.Engine.DirectList

/-!
# The DNS replies the direct list learns from (`direct_list.rs`)

Reading the names and the addresses of a DNS reply out of an IPv4 datagram. Every offset is checked,
and a malformed message is no answer. A name may be compressed: it jumps back through the message,
at most sixteen times, and is at most 253 bytes long, so its loop ends whatever the message holds.
-/

namespace GamePath.Engine.Direct

/-! ## UTF-8 -/

/-- The first byte, if it is between two bounds, and what follows it. -/
def continuation (low high : UInt8) : Bytes → Option (UInt8 × Bytes)
  | [] => none
  | b :: rest => if low ≤ b ∧ b ≤ high then some (b, rest) else none

/-- What stands for a sequence that is not UTF-8, `U+FFFD`. -/
def replacementCharacter : Char := Char.ofNat 0xfffd

/-- The low six bits of a continuation byte. -/
def low6 (b : UInt8) : Nat := (b &&& 0x3f).toNat

/-- The second byte that may follow the first one of three or of four. -/
def secondBounds (b : UInt8) : UInt8 × UInt8 :=
  if b = 0xe0 then (0xa0, 0xbf) else if b = 0xed then (0x80, 0x9f)
  else if b = 0xf0 then (0x90, 0xbf) else if b = 0xf4 then (0x80, 0x8f) else (0x80, 0xbf)

/-- The character that begins with a byte, and what follows it. A sequence that breaks off gives one
replacement character for the part of it that was well formed. -/
def decodeChar (b : UInt8) (rest : Bytes) : Char × Bytes :=
  if b < 0x80 then (Char.ofNat b.toNat, rest)
  else if 0xc2 ≤ b ∧ b ≤ 0xdf then
    match continuation 0x80 0xbf rest with
    | none => (replacementCharacter, rest)
    | some (c, rest) => (Char.ofNat ((b &&& 0x1f).toNat * 64 + low6 c), rest)
  else if 0xe0 ≤ b ∧ b ≤ 0xef then
    match continuation (secondBounds b).1 (secondBounds b).2 rest with
    | none => (replacementCharacter, rest)
    | some (c, rest) =>
      match continuation 0x80 0xbf rest with
      | none => (replacementCharacter, rest)
      | some (d, rest) =>
        (Char.ofNat (((b &&& 0x0f).toNat * 64 + low6 c) * 64 + low6 d), rest)
  else if 0xf0 ≤ b ∧ b ≤ 0xf4 then
    match continuation (secondBounds b).1 (secondBounds b).2 rest with
    | none => (replacementCharacter, rest)
    | some (c, rest) =>
      match continuation 0x80 0xbf rest with
      | none => (replacementCharacter, rest)
      | some (d, rest) =>
        match continuation 0x80 0xbf rest with
        | none => (replacementCharacter, rest)
        | some (e, rest) =>
          (Char.ofNat ((((b &&& 0x07).toNat * 64 + low6 c) * 64 + low6 d) * 64 + low6 e),
            rest)
  else (replacementCharacter, rest)

/-- Decodes up to `fuel` characters. -/
def decodeChars : Nat → Bytes → Text
  | 0, _ => []
  | _ + 1, [] => []
  | fuel + 1, b :: rest => (decodeChar b rest).1 :: decodeChars fuel (decodeChar b rest).2

/-- `String::from_utf8_lossy`; every character has a byte. -/
def fromUtf8Lossy (bytes : Bytes) : Text := decodeChars bytes.length bytes

/-! ## Names -/

/-- `bytes.get(start..start + length)`. -/
def slice (bytes : Bytes) (start length : Nat) : Option Bytes :=
  if start + length ≤ bytes.length then some ((bytes.drop start).take length) else none

/-- A name with one more label, in lower case. -/
def joinLabel (name : Text) (label : Bytes) : Text :=
  (if name = [] then [] else name ++ ['.']) ++ (fromUtf8Lossy label).map Char.toLower

/-- The variables of the loop of `read_name`. -/
structure NameReader where
  name : Text
  resume : Option Nat
  jumps : Nat
  offset : Nat

/-- What a turn of the loop comes to. -/
inductive NameTurn where
  | again (reader : NameReader)
  | done (result : Option (Text × Nat))

/-- One turn of the loop of `read_name`. -/
def NameReader.turn (message : Bytes) (reader : NameReader) : NameTurn :=
  match message[reader.offset]? with
  | none => .done none
  | some length =>
    if length &&& 0xc0 = 0xc0 then
      match message[reader.offset + 1]? with
      | none => .done none
      | some low =>
        if reader.jumps + 1 > 16 then .done none
        else
          .again
            { reader with
              resume := some (reader.resume.getD (reader.offset + 2))
              offset := (length &&& 0x3f).toNat * 256 + low.toNat
              jumps := reader.jumps + 1 }
    else if length > 63 then .done none
    else if length = 0 then .done (some (reader.name, reader.resume.getD (reader.offset + 1)))
    else
      match slice message (reader.offset + 1) length.toNat with
      | none => .done none
      | some label =>
        if utf8Len (joinLabel reader.name label) > 253 then .done none
        else
          .again
            { reader with
              name := joinLabel reader.name label
              offset := reader.offset + 1 + length.toNat }

/-- The loop of `read_name`. -/
def NameReader.run (message : Bytes) : Nat → NameReader → Option (Text × Nat)
  | 0, _ => none
  | fuel + 1, reader =>
    match reader.turn message with
    | .again reader => reader.run message fuel
    | .done result => result

/-- How many turns the loop can still take: sixteen jumps, and a byte of the name for each label. -/
def NameReader.turnsLeft (reader : NameReader) : Nat :=
  (16 - reader.jumps) + (253 - utf8Len reader.name)

/-- `read_name`: a name at an offset, and where the record continues. -/
def readName (message : Bytes) (offset : Nat) : Option (Text × Nat) :=
  let reader : NameReader := ⟨[], none, 0, offset⟩
  reader.run message (reader.turnsLeft + 1)

/-! ### The loop ends -/

theorem utf8Len_append (t t' : Text) : utf8Len (t ++ t') = utf8Len t + utf8Len t' := by
  simp [utf8Len]

theorem utf8Len_pos {t : Text} (h : t ≠ []) : 0 < utf8Len t := by
  cases t with
  | nil => exact absurd rfl h
  | cons c t =>
    have := c.utf8Size_pos
    simp only [utf8Len, List.map_cons, List.sum_cons]
    omega

theorem fromUtf8Lossy_ne_nil {bytes : Bytes} (h : bytes ≠ []) : fromUtf8Lossy bytes ≠ [] := by
  cases bytes with
  | nil => exact absurd rfl h
  | cons b rest => simp [fromUtf8Lossy, decodeChars]

theorem utf8Len_lt_joinLabel (name : Text) {label : Bytes} (h : label ≠ []) :
    utf8Len name < utf8Len (joinLabel name label) := by
  have hgrows : 0 < utf8Len ((fromUtf8Lossy label).map Char.toLower) := by
    apply utf8Len_pos
    simpa using fromUtf8Lossy_ne_nil h
  rw [joinLabel, utf8Len_append]
  split
  · rename_i hempty
    rw [hempty]
    simpa [utf8Len] using hgrows
  · rw [utf8Len_append]
    omega

theorem slice_ne_nil {bytes label : Bytes} {start length : Nat} (hpos : 0 < length)
    (h : slice bytes start length = some label) : label ≠ [] := by
  unfold slice at h
  split at h
  · cases h
    intro hnil
    have := congrArg List.length hnil
    simp only [List.length_take, List.length_drop, List.length_nil] at this
    omega
  · cases h

namespace NameReader

variable {message : Bytes} {reader reader' : NameReader}

/-- The reader is within the bounds the loop checks. -/
structure Bounded (reader : NameReader) : Prop where
  jumps : reader.jumps ≤ 16
  name : utf8Len reader.name ≤ 253

/-- A turn that goes on has jumped once more or made the name longer. -/
theorem turnsLeft_lt (h : reader.Bounded) (hturn : reader.turn message = .again reader') :
    reader'.Bounded ∧ reader'.turnsLeft < reader.turnsLeft := by
  have hjumps := h.jumps
  have hname := h.name
  unfold turn at hturn
  split at hturn
  · cases hturn
  rename_i length _
  split at hturn
  · -- A jump.
    split at hturn
    · cases hturn
    split at hturn
    · cases hturn
    · cases hturn
      refine ⟨⟨by simp only; omega, hname⟩, ?_⟩
      simp only [turnsLeft]
      omega
  split at hturn
  · cases hturn
  split at hturn
  · cases hturn
  rename_i hpos
  split at hturn
  · cases hturn
  rename_i label hlabel
  split at hturn
  · cases hturn
  cases hturn
  have hnonzero : 0 < length.toNat := by
    apply Nat.pos_of_ne_zero
    intro h0
    exact hpos (UInt8.toNat_inj.1 h0)
  have hlonger := utf8Len_lt_joinLabel reader.name (slice_ne_nil hnonzero hlabel)
  refine ⟨⟨hjumps, by simp only; omega⟩, ?_⟩
  simp only [turnsLeft]
  omega

end NameReader

/-! ## Answers -/

structure Answer where
  names : List Text
  addresses : List Octets

/-- The bytes of a big-endian `u16` at an offset. -/
def u16At (bytes : Bytes) (i : Nat) : Option Nat :=
  match bytes[i]?, bytes[i + 1]? with
  | some hi, some lo => some (u16OfBe hi lo).toNat
  | _, _ => none

/-- The loop over the questions: their names, and where the answers begin. -/
def readQuestions (message : Bytes) : Nat → Nat → List Text → Option (List Text × Nat)
  | 0, offset, names => some (names, offset)
  | count + 1, offset, names => do
      let (name, next) ← readName message offset
      readQuestions message count (next + 4) (names ++ [name])

/-- What one record adds: an address, or the owner and the target of an alias. -/
def readRecord (message : Bytes) (owner : Text) (kind length start : Nat) (data : Bytes)
    (answer : Answer) : Answer :=
  if kind = 1 ∧ length = 4 then
    match data with
    | [a, b, c, d] => { answer with addresses := answer.addresses ++ [(a, b, c, d)] }
    | _ => answer
  else if kind = 5 then
    match readName message start with
    | some (target, _) => { answer with names := answer.names ++ [owner, target] }
    | none => { answer with names := answer.names ++ [owner] }
  else answer

/-- The loop over the answers. -/
def readRecords (message : Bytes) : Nat → Nat → Answer → Option Answer
  | 0, _, answer => some answer
  | count + 1, offset, answer => do
      let (owner, next) ← readName message offset
      let header ← slice message next 10
      let kind ← u16At header 0
      let length ← u16At header 8
      let data ← slice message (next + 10) length
      readRecords message count (next + 10 + length)
        (readRecord message owner kind length (next + 10) data answer)

def readAnswer (message : Bytes) : Option Answer := do
  let flags : UInt8 ← message[2]?
  let code : UInt8 ← message[3]?
  let questions ← u16At message 4
  let answers ← u16At message 6
  if message.length < 12 ∨ flags &&& 0x80 = 0 ∨ code &&& 0x0f ≠ 0 then none
  else
    let (names, offset) ← readQuestions message questions 12 []
    readRecords message answers offset ⟨names, []⟩

/-- `udp_dns_reply`: the message of a whole UDP datagram from port 53. -/
def udpDnsReply (packet : Bytes) : Option Bytes := do
  let version : UInt8 ← packet[0]?
  let protocol : UInt8 ← packet[9]?
  let fragment ← u16At packet 6
  if packet.length < 20 ∨ version >>> 4 ≠ 4 ∨ protocol ≠ 17 then none
  else if fragment % 2 ^ 14 ≠ 0 then none
  else
    let header := (version &&& 0x0f).toNat * 4
    let udp ← slice packet header 8
    let port ← u16At udp 0
    if port ≠ 53 then none else some (packet.drop (header + 8))

def isDnsReply (packet : Bytes) : Bool := (udpDnsReply packet).isSome

/-- `reply_question`: the name a DNS reply answers. -/
def replyQuestion (packet : Bytes) : Option Text :=
  (udpDnsReply packet).bind fun message => (readName message 12).map Prod.fst

def DirectList.answeredAddresses (list : DirectList) (packet : Bytes) : List Octets :=
  if list.hasDomains then
    match (udpDnsReply packet).bind readAnswer with
    | none => []
    | some answer => if answer.names.any list.matchesName then answer.addresses else []
  else []

end GamePath.Engine.Direct
