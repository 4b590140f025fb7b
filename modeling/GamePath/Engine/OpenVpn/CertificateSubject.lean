import GamePath.Engine.OpenVpn.X509Name

/-!
# The subject of a DER certificate is read as it was written

`IsCertificate` says of a byte string that it is the DER encoding of a certificate with a given
subject: elements inside elements, with whatever the fields around the subject contain. `subject`
reads that subject back, comes to a result on every byte string, and finds no subject in a strict
front of a certificate.
-/

namespace GamePath.Engine.OpenVpn

open Lib List Der
open Direct (Text)
open Dns (utf8Bytes)
open Socks (fromUtf8)
open BigEndian (ofBytes toBytes)

namespace X509Name

/-! ## Certificates -/

/-- A value of one of the string types, with what the type allows. -/
inductive DirectoryString where
  | utf8 (text : Text)
  | printable (text : Text) (ascii : ∀ c ∈ text, c.toNat < 128)
  | ia5 (text : Text) (ascii : ∀ c ∈ text, c.toNat < 128)
  /-- The bytes of the value, which are Latin-1. -/
  | teletex (bytes : Bytes)
  | bmp (text : Text) (basic : ∀ c ∈ text, c.toNat < 0x10000)

namespace DirectoryString

def tag : DirectoryString → UInt8
  | utf8 _ => 0x0c
  | printable _ _ => 0x13
  | ia5 _ _ => 0x16
  | teletex _ => 0x14
  | bmp _ _ => 0x1e

def contents : DirectoryString → Bytes
  | utf8 text => utf8Bytes text
  | printable text _ => text.map fun c => UInt8.ofNat c.toNat
  | ia5 text _ => text.map fun c => UInt8.ofNat c.toNat
  | teletex bytes => bytes
  | bmp text _ => text.flatMap fun c => BigEndian.toBytes 2 c.toNat

/-- The text of a value. -/
def text : DirectoryString → Text
  | utf8 text => text
  | printable text _ => text
  | ia5 text _ => text
  | teletex bytes => bytes.map fun byte => Char.ofNat byte.toNat
  | bmp text _ => text

end DirectoryString

/-- `AttributeTypeAndValue`. -/
structure Attribute where
  oid : Bytes
  value : DirectoryString

/-- What `subject` is to return for a name. -/
def written (name : List (List Attribute)) : List Rdn :=
  name.map fun rdn => rdn.map fun attr => (attr.oid, attr.value.text)

variable (bytes : Bytes)

def IsAttribute (attr : Attribute) : Prop :=
  ∃ oid value, Element objectIdentifier attr.oid oid ∧
    Element attr.value.tag attr.value.contents value ∧
    Element sequence (oid ++ value) bytes

/-- `RelativeDistinguishedName`. -/
def IsRdn (rdn : List Attribute) : Prop :=
  ∃ attributes, List.Forall₂ IsAttribute attributes rdn ∧ Element set attributes.flatten bytes

/-- `Name`. -/
def IsName (name : List (List Attribute)) : Prop :=
  ∃ rdns, List.Forall₂ IsRdn rdns name ∧ Element sequence rdns.flatten bytes

/-- The fields of a `TBSCertificate` in front of its subject, and what follows the subject. -/
structure Surroundings where
  version : Option Bytes
  serial : Bytes
  signature : Bytes
  issuer : Bytes
  validity : Bytes
  behind : Bytes

/-- Bytes that are the fields in front of the subject. -/
def IsFront (around : Surroundings) : Prop :=
  ∃ version serial signature issuer validity,
    (match around.version with
      | none => version = []
      | some contents => Element explicitVersion contents version) ∧
    Element 0x02 around.serial serial ∧ Element sequence around.signature signature ∧
    Element sequence around.issuer issuer ∧ Element sequence around.validity validity ∧
    bytes = version ++ serial ++ signature ++ issuer ++ validity

/-- Bytes that are a certificate whose subject is `name`: the `TBSCertificate` with any fields
around the subject, and any signature behind it. -/
def IsCertificate (name : List (List Attribute)) : Prop :=
  ∃ around front subject tbs signed, IsFront front around ∧ IsName subject name ∧
    Element sequence (front ++ subject ++ around.behind) tbs ∧
    Element sequence (tbs ++ signed) bytes

/-! ## One element -/

theorem foldLength_eq : foldLength bytes = ofBytes bytes := by
  have hfold : ∀ (bytes : Bytes) (n : Nat),
      bytes.foldl (fun length byte => length <<< 8 ||| byte.toNat) n =
        n * 256 ^ bytes.length + ofBytes bytes := by
    intro bytes
    induction bytes with
    | nil =>
      intro n
      simp [ofBytes]
    | cons b bytes ih =>
      intro n
      have hb : b.toNat < 2 ^ 8 := b.toNat_lt
      rw [foldl_cons, ih, ← Nat.shiftLeft_add_eq_or_of_lt hb, Nat.shiftLeft_eq, ofBytes,
        length_cons]
      ring
  rw [foldLength, hfold, Nat.zero_mul, Nat.zero_add]

theorem readLength_eq (first : UInt8) (input : Bytes) :
    readLength first input = some (splitLength (first :: input)) := by
  rw [readLength, splitLength]
  dsimp only
  split
  · rfl
  · split
    · rfl
    next hcount =>
      have hle : (first &&& 0x7f).toNat ≤ input.length := by omega
      rw [splitAt, if_pos hle, Option.map_some, foldLength_eq]

theorem read_eq (input : Bytes) : read input = some (split input) := by
  match input with
  | [] => rfl
  | [_] => rfl
  | tag :: first :: input =>
    rw [read, readLength_eq, split]
    cases splitLength (first :: input) with
    | none => rfl
    | some parts =>
      dsimp only [andThen_some]
      split
      next hle => rw [splitAt, if_pos hle, Option.map_some]
      next => rfl

section

variable {tag : UInt8} {contents bytes : Bytes} (h : Element tag contents bytes)
include h

theorem read_element (rest : Bytes) : read (bytes ++ rest) = some (some (tag, contents, rest)) := by
  rw [read_eq, split_append h]

theorem read_last :
    read bytes = some (some (tag, contents, [])) := by
  have hread := read_element h []
  rwa [append_nil] at hread

theorem element_ne_nil :
    ∃ rest, bytes = tag :: rest := by
  obtain ⟨length, -, rfl⟩ := h
  exact ⟨_, rfl⟩

end

/-! ## Every call has a result -/

theorem andThen_isSome {α β : Type} {x : Checked α} {f : α → Checked β} (hx : x.isSome)
    (hf : ∀ a, x = some (some a) → (f a).isSome) : (andThen x f).isSome := by
  match x, hx with
  | some none, _ => rfl
  | some (some a), _ => exact hf a rfl

theorem read_isSome (input : Bytes) : (read input).isSome := by
  rw [read_eq]
  rfl

theorem readRdn_isSome (fuel : Nat) (set : Bytes) (rdn : Rdn) (h : set.length ≤ fuel) :
    (readRdn fuel set rdn).isSome := by
  induction fuel generalizing set rdn with
  | zero =>
    rw [length_eq_zero_iff.1 (Nat.le_zero.1 h)]
    rfl
  | succ fuel ih =>
    cases set with
    | nil => rfl
    | cons byte set =>
      rw [readRdn]
      · apply andThen_isSome (read_isSome _)
        rintro ⟨tag, attr, next⟩ hread
        apply andThen_isSome (read_isSome _)
        rintro ⟨oidTag, oid, value⟩ -
        dsimp only
        split
        · rfl
        apply andThen_isSome (read_isSome _)
        rintro ⟨stringTag, value, -⟩ -
        split
        · rfl
        · apply ih
          -- An element was taken off, so less is left.
          rw [read_eq] at hread
          have hless := (length_of_split (Option.some.inj hread)).2
          omega
      · exact cons_ne_nil _ _

theorem readRdns_isSome (fuel : Nat) (name : Bytes) (rdns : List Rdn) (h : name.length ≤ fuel) :
    (readRdns fuel name rdns).isSome := by
  induction fuel generalizing name rdns with
  | zero =>
    rw [length_eq_zero_iff.1 (Nat.le_zero.1 h)]
    rfl
  | succ fuel ih =>
    cases name with
    | nil => rfl
    | cons byte name =>
      rw [readRdns]
      · apply andThen_isSome (read_isSome _)
        rintro ⟨tag, names, rest⟩ hread
        dsimp only
        split
        · rfl
        apply andThen_isSome (readRdn_isSome _ _ _ (Nat.le_refl _))
        rintro rdn -
        apply ih
        rw [read_eq] at hread
        have hless := (length_of_split (Option.some.inj hread)).2
        omega
      · exact cons_ne_nil _ _

theorem skip_isSome (count : Nat) (fields : Bytes) : (skip count fields).isSome := by
  induction count generalizing fields with
  | zero => rfl
  | succ count ih =>
    apply andThen_isSome (read_isSome _)
    rintro ⟨-, -, rest⟩ -
    exact ih rest

theorem subject_isSome (certificate : Bytes) : (subject certificate).isSome := by
  apply andThen_isSome (read_isSome _)
  rintro ⟨tag, certificate, -⟩ -
  dsimp only
  split
  · rfl
  apply andThen_isSome (read_isSome _)
  rintro ⟨tag, fields, -⟩ -
  split
  · rfl
  apply andThen_isSome
  · split
    · exact skip_isSome _ _
    · rfl
  rintro fields -
  apply andThen_isSome (skip_isSome _ _)
  rintro fields -
  apply andThen_isSome (read_isSome _)
  rintro ⟨tag, name, -⟩ -
  split
  · rfl
  · exact readRdns_isSome _ _ _ (Nat.le_refl _)

/-! ## The subject comes back -/

theorem decodeUtf16_basic (text : Text) (hbasic : ∀ c ∈ text, c.toNat < 0x10000) :
    decodeUtf16 (utf16Units (text.flatMap fun c => toBytes 2 c.toNat)) = some text := by
  induction text with
  | nil => rfl
  | cons c text ih =>
    have hc := hbasic c mem_cons_self
    have hrest := ih fun d hd => hbasic d (mem_cons_of_mem _ hd)
    have hunit : (u16OfBe (UInt8.ofNat (c.toNat / 256 ^ 1))
        (UInt8.ofNat (c.toNat / 256 ^ 0))).toNat = c.toNat := by
      rw [u16OfBe_toNat, UInt8.toNat_ofNat', UInt8.toNat_ofNat']
      omega
    have hback : Char.ofNat c.toNat = c := Char.ofNat_toNat c
    -- A character is no surrogate.
    have hplain : ¬ (0xd800 ≤ u16OfBe (UInt8.ofNat (c.toNat / 256 ^ 1))
        (UInt8.ofNat (c.toNat / 256 ^ 0)) ∧
        u16OfBe (UInt8.ofNat (c.toNat / 256 ^ 1)) (UInt8.ofNat (c.toNat / 256 ^ 0)) ≤ 0xdfff) := by
      have hvalid : c.toNat < 0xd800 ∨ (0xdfff < c.toNat ∧ c.toNat < 0x110000) := c.valid
      rw [UInt16.le_iff_toNat_le, UInt16.le_iff_toNat_le, hunit]
      show ¬ (0xd800 ≤ c.toNat ∧ c.toNat ≤ 0xdfff)
      omega
    show decodeUtf16 (u16OfBe (UInt8.ofNat (c.toNat / 256 ^ 1)) (UInt8.ofNat (c.toNat / 256 ^ 0)) ::
      utf16Units (text.flatMap fun c => toBytes 2 c.toNat)) = some (c :: text)
    cases hunits : utf16Units (text.flatMap fun c => toBytes 2 c.toNat) with
    | nil =>
      rw [hunits] at hrest
      obtain rfl : [] = text := Option.some.inj hrest
      rw [decodeUtf16, if_neg hplain, hunit, hback]
    | cons next units =>
      rw [hunits] at hrest
      rw [decodeUtf16, if_pos hplain, hrest, hunit, hback, Option.map_some]

theorem length_basic (text : Text) :
    (text.flatMap fun c => toBytes 2 c.toNat).length % 2 = 0 := by
  induction text with
  | nil => rfl
  | cons c text ih =>
    rw [flatMap_cons, length_append, BigEndian.length_toBytes]
    omega

theorem decodeString_contents (value : DirectoryString) :
    decodeString value.tag value.contents = some value.text := by
  have hascii : ∀ text : Text, (∀ c ∈ text, c.toNat < 128) →
      fromUtf8 (text.map fun c => UInt8.ofNat c.toNat) = some text := by
    intro text h
    rw [← Utf8.utf8Bytes_ascii h, Utf8.fromUtf8_utf8Bytes]
  cases value with
  | utf8 text => exact Utf8.fromUtf8_utf8Bytes text
  | printable text h | ia5 text h => exact hascii text h
  | teletex bytes => rfl
  | bmp text h =>
    show (if (0x1e : UInt8) = 0x1e ∧ (text.flatMap fun c => toBytes 2 c.toNat).length % 2 = 0 then
      decodeUtf16 (utf16Units (text.flatMap fun c => toBytes 2 c.toNat)) else none) = some text
    rw [if_pos ⟨rfl, length_basic text⟩, decodeUtf16_basic text h]

theorem readRdn_written {attributes : List Bytes} {rdn : List Attribute}
    (h : List.Forall₂ IsAttribute attributes rdn) (fuel : Nat)
    (hfuel : attributes.flatten.length ≤ fuel) (before : Rdn) :
    readRdn fuel attributes.flatten before =
      some (some (before ++ rdn.map fun attr => (attr.oid, attr.value.text))) := by
  induction h generalizing fuel before with
  | nil =>
    rw [flatten_nil, map_nil, append_nil, readRdn]
  | @cons bytes attr attributes rdn hattr _ ih =>
    obtain ⟨oid, value, hoid, hvalue, hbytes⟩ := hattr
    obtain ⟨rest, hhead⟩ := element_ne_nil hbytes
    have hcons : (bytes :: attributes).flatten = sequence :: (rest ++ attributes.flatten) := by
      rw [flatten_cons, hhead, cons_append]
    cases fuel with
    | zero =>
      rw [hcons] at hfuel
      simp at hfuel
    | succ fuel =>
      have hfit : attributes.flatten.length ≤ fuel := by
        rw [hcons, length_cons, length_append] at hfuel
        omega
      rw [hcons, readRdn, ← cons_append, ← hhead, read_element hbytes]
      · simp only [andThen_some, read_element hoid, read_last hvalue, decodeString_contents, ne_eq,
          not_true_eq_false, or_self, if_false]
        rw [ih fuel hfit, append_assoc, singleton_append, map_cons]
      · exact cons_ne_nil _ _

variable {name : List (List Attribute)}

theorem readRdns_written {rdns : List Bytes}
    (h : List.Forall₂ IsRdn rdns name) (fuel : Nat) (hfuel : rdns.flatten.length ≤ fuel)
    (before : List Rdn) :
    readRdns fuel rdns.flatten before = some (some (before ++ written name)) := by
  induction h generalizing fuel before with
  | nil =>
    rw [flatten_nil, written, map_nil, append_nil, readRdns]
  | @cons bytes rdn rdns name hrdn _ ih =>
    obtain ⟨attributes, hattributes, hbytes⟩ := hrdn
    obtain ⟨rest, hhead⟩ := element_ne_nil hbytes
    have hcons : (bytes :: rdns).flatten = set :: (rest ++ rdns.flatten) := by
      rw [flatten_cons, hhead, cons_append]
    cases fuel with
    | zero =>
      rw [hcons] at hfuel
      simp at hfuel
    | succ fuel =>
      have hfit : rdns.flatten.length ≤ fuel := by
        rw [hcons, length_cons, length_append] at hfuel
        omega
      rw [hcons, readRdns, ← cons_append, ← hhead, read_element hbytes]
      · simp only [andThen_some, readRdn_written hattributes _ (Nat.le_refl _), ne_eq,
          not_true_eq_false, if_false]
        rw [ih fuel hfit, nil_append, append_assoc, singleton_append, written, written,
          map_cons]
      · exact cons_ne_nil _ _

theorem skip_front {front : Bytes} {around : Surroundings} (h : IsFront front around)
    (rest : Bytes) :
    (andThen (if (front ++ rest).head? = some explicitVersion then skip 1 (front ++ rest)
      else some (some (front ++ rest))) fun fields => skip 4 fields) = some (some rest) := by
  obtain ⟨version, serial, signature, issuer, validity, hversion, hserial, hsignature, hissuer,
    hvalidity, rfl⟩ := h
  have hfour : skip 4 (serial ++ (signature ++ (issuer ++ (validity ++ rest)))) =
      some (some rest) := by
    simp only [skip, read_element hserial, read_element hsignature, read_element hissuer,
      read_element hvalidity, andThen_some]
  simp only [append_assoc]
  cases haround : around.version with
  | none =>
    rw [haround] at hversion
    obtain ⟨behind, hhead⟩ := element_ne_nil hserial
    rw [hversion, nil_append, if_neg]
    · rw [andThen_some, hfour]
    · rw [hhead, cons_append, head?_cons]
      decide
  | some contents =>
    rw [haround] at hversion
    obtain ⟨behind, hhead⟩ := element_ne_nil hversion
    rw [if_pos]
    · simp only [skip, read_element hversion, andThen_some]
      exact hfour
    · rw [hhead, cons_append, head?_cons]

theorem subject_of_isCertificate {certificate : Bytes}
    (h : IsCertificate certificate name) : subject certificate = some (some (written name)) := by
  obtain ⟨around, front, subjectBytes, tbs, signed, hfront, ⟨rdns, hrdns, hsubject⟩, htbs,
    hcertificate⟩ := h
  have hskip := skip_front hfront (subjectBytes ++ around.behind)
  have hjoin : ∀ (x : Checked Bytes) (f : Bytes → Checked (List Rdn)),
      (andThen x fun fields => andThen (skip 4 fields) f) =
        andThen (andThen x fun fields => skip 4 fields) f := by
    rintro (_ | _ | fields) f <;> rfl
  simp only [subject, read_last hcertificate, read_element htbs, andThen_some, ne_eq,
    not_true_eq_false, if_false]
  rw [hjoin, append_assoc, hskip]
  simp only [read_element hsubject, andThen_some, not_true_eq_false, if_false]
  rw [readRdns_written hrdns _ (Nat.le_refl _), nil_append]

theorem subject_front {certificate front : Bytes}
    (h : IsCertificate certificate name) (hfront : front <+: certificate)
    (hne : front ≠ certificate) :
    subject front = some none := by
  obtain ⟨around, _, subjectBytes, tbs, signed, -, -, -, hcertificate⟩ := h
  rw [subject, read_eq, split_front hcertificate hfront hne]
  rfl

end X509Name

open X509Name

/-- The subject of every DER certificate is read as it was written; reading any byte string comes to
a result without indexing out of range; and no check is met by a strict front of a certificate. -/
theorem subject_agrees_with_der :
    (∀ certificate name, IsCertificate certificate name →
      subject certificate = some (some (written name))) ∧
    (∀ bytes, (subject bytes).isSome ∧ ∀ check : ServerNameCheck,
      (check.matchesCertificate bytes).isSome) ∧
    ∀ certificate name front, IsCertificate certificate name → front <+: certificate →
      front ≠ certificate →
      ∀ check : ServerNameCheck, check.matchesCertificate front = some false := by
  refine ⟨fun _ _ => subject_of_isCertificate, fun bytes => ⟨subject_isSome bytes, fun check => ?_⟩,
    ?_⟩
  · rw [ServerNameCheck.matchesCertificate, Option.isSome_map]
    exact subject_isSome bytes
  · intro certificate name front h hfront hne check
    rw [ServerNameCheck.matchesCertificate, subject_front h hfront hne]
    rfl

/-- A certificate of version 1 with the common name `vpn`, and its front without the last byte. -/
theorem subject_agrees_with_der_vpn :
    let certificate : Bytes := [0x30, 0x1b, 0x30, 0x19, 0x02, 0x01, 0x01, 0x30, 0x00, 0x30, 0x00,
      0x30, 0x00,
      0x30, 0x0e, 0x31, 0x0c, 0x30, 0x0a, 0x06, 0x03, 0x55, 0x04, 0x03, 0x0c, 0x03, 0x76,
        0x70, 0x6e]
    subject certificate = some (some [[([0x55, 0x04, 0x03], ['v', 'p', 'n'])]]) ∧
      (ServerNameCheck.name ['v', 'p', 'n']).matchesCertificate (certificate.take 28) =
        some false := by
  intro certificate
  have helement : ∀ (tag : UInt8) (contents : Bytes) (h : contents.length < 128),
      Element tag contents (tag :: UInt8.ofNat contents.length :: contents) := fun _ _ h =>
        ⟨_, .short h, rfl⟩
  have hvpn : IsCertificate certificate [[⟨commonName, .utf8 ['v', 'p', 'n']⟩]] := by
    refine ⟨⟨none, [1], [], [], [], []⟩, [0x02, 0x01, 0x01, 0x30, 0x00, 0x30, 0x00, 0x30, 0x00],
      [0x30, 0x0e, 0x31, 0x0c, 0x30, 0x0a, 0x06, 0x03, 0x55, 0x04, 0x03, 0x0c, 0x03, 0x76,
        0x70, 0x6e],
      certificate.drop 2, [], ?_, ?_, ?_, ?_⟩
    · exact ⟨[], [0x02, 0x01, 0x01], [0x30, 0x00], [0x30, 0x00], [0x30, 0x00], rfl,
        helement _ [1] (by decide),
        helement _ [] (by decide), helement _ [] (by decide), helement _ [] (by decide), rfl⟩
    · refine ⟨[_], .cons ⟨[_], .cons ⟨_, _, helement _ _ ?_, helement _ _ ?_, helement _ _ ?_⟩ .nil,
        helement _ _ ?_⟩ .nil, helement _ _ ?_⟩ <;> decide
    · exact helement _ (certificate.drop 4) (by decide)
    · exact helement _ (certificate.drop 2) (by decide)
  refine ⟨subject_agrees_with_der.1 certificate _ hvpn, ?_⟩
  exact subject_agrees_with_der.2.2 certificate _ _ hvpn (List.take_prefix 28 certificate)
    (by decide) _

end GamePath.Engine.OpenVpn
