import GamePath.Engine.CaptureClassifier
import GamePath.Engine.Utf8

/-!
# The DNS answers that split capture sniffs (`split_capture.rs`)

`dns_addresses` reads the addresses out of a reply whose question falls under one of the hostname
rules, each with its rule. Its own reader of names takes the first sixteen pointers of a name, like
the one of the direct list, but labels of any length below the mark of a pointer.

`str::to_lowercase` goes by the tables of Unicode. It is a parameter here, and what is said of it is
only what it does to ASCII.
-/

namespace GamePath.Engine.SplitCapture

open Direct (Text slice)
open Dns (u16At)
open Socks (fromUtf8)

/-! ## Names -/

section Names

variable (lowercase : Text → Text)

/-- The variables of the loop of `dns_name`. -/
structure LabelReader where
  labels : List Text
  next : Option Nat
  jumps : Nat
  offset : Nat

/-- What a turn of the loop comes to. -/
inductive LabelTurn where
  | again (reader : LabelReader)
  | done (result : Option (Text × Nat))

/-- One turn of the loop of `dns_name`. -/
def LabelReader.turn (packet : Bytes) (reader : LabelReader) : LabelTurn :=
  match packet[reader.offset]? with
  | none => .done none
  | some length =>
    if length &&& 0xc0 = 0xc0 then
      match packet[reader.offset + 1]? with
      | none => .done none
      | some low =>
        if reader.jumps + 1 > 16 then .done none
        else
          .again
            { reader with
              next := some (reader.next.getD (reader.offset + 2))
              offset := (length &&& 0x3f).toNat * 256 + low.toNat
              jumps := reader.jumps + 1 }
    else if length = 0 then
      .done
        (some (lowercase (List.intercalate ['.'] reader.labels),
          reader.next.getD (reader.offset + 1)))
    else
      match (slice packet (reader.offset + 1) length.toNat).bind fromUtf8 with
      | none => .done none
      | some label =>
        .again
          { reader with
            labels := reader.labels ++ [label]
            offset := reader.offset + 1 + length.toNat }

/-- The loop of `dns_name`. -/
def LabelReader.run (packet : Bytes) : Nat → LabelReader → Option (Text × Nat)
  | 0, _ => none
  | fuel + 1, reader =>
    match reader.turn lowercase packet with
    | .again reader => reader.run packet fuel
    | .done result => result

/-- How many turns the loop can still take: the bytes to the end, and all bytes after each jump. -/
def LabelReader.turnsLeft (packet : Bytes) (reader : LabelReader) : Nat :=
  (16 - reader.jumps) * (packet.length + 1) + (packet.length - reader.offset)

/-- `dns_name`: a name at an offset, and where the record continues. -/
def dnsName (packet : Bytes) (offset : Nat) : Option (Text × Nat) :=
  let reader : LabelReader := ⟨[], none, 0, offset⟩
  reader.run lowercase packet (reader.turnsLeft packet + 1)

end Names

/-! ## Addresses -/

section Addresses

variable (lowercase : Text → Text)

/-- The loop over the questions: the first rule that one of them falls under, and where the answers
begin. -/
def matchQuestions (dns : Bytes) (hostnames : List Text) :
    Nat → Nat → Option Text → Option (Option Text × Nat)
  | 0, offset, matched => some (matched, offset)
  | count + 1, offset, matched =>
    match dnsName lowercase dns offset with
    | none => none
    | some (name, next) =>
      if next + 4 > dns.length then none
      else
        matchQuestions dns hostnames count (next + 4)
          (matched.or (mostSpecificRule name hostnames))

/-- The loop over the answers, which ends at the first one that is malformed. -/
def collectAnswers (dns : Bytes) (rule : Text) :
    Nat → Nat → List (Octets × Text) → List (Octets × Text)
  | 0, _, result => result
  | count + 1, offset, result =>
    match dnsName lowercase dns offset with
    | none => result
    | some (_, next) =>
      if next + 10 > dns.length then result
      else
        let kind := u16At dns next
        let length := (u16At dns (next + 8)).toNat
        if next + 10 + length > dns.length then result
        else
          collectAnswers dns rule count (next + 10 + length)
            (if kind = 1 ∧ length = 4 then result ++ [(octetsAt dns (next + 10), rule)]
            else result)

/-- The reader inside `dns_addresses`, on the message of a datagram. -/
def messageAddresses (dns : Bytes) (hostnames : List Text) : List (Octets × Text) :=
  if dns.length < 12 ∨ dns.getD 2 0 &&& 0x80 = 0 then []
  else
    match matchQuestions lowercase dns hostnames (u16At dns 4).toNat 12 none with
    | some (some rule, offset) => collectAnswers lowercase dns rule (u16At dns 6).toNat offset []
    | _ => []

def dnsAddresses (packet : Bytes) (hostnames : List Text) : List (Octets × Text) :=
  match ipv4Fields packet with
  | none => []
  | some fields =>
    if fields.protocol ≠ 17 ∨ fields.sourcePort ≠ 53 then []
    else if headerLength packet + 8 ≤ packet.length then
      messageAddresses lowercase (packet.drop (headerLength packet + 8)) hostnames
    else []

end Addresses

end GamePath.Engine.SplitCapture
