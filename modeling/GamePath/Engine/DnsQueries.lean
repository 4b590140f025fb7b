import Mathlib.Data.Bool.AllAny
import GamePath.Engine.DnsMessages

/-!
# The queries that are built (`dns.rs`)

`query` refuses a label over 63 bytes and a name over a limit, and the limit is one byte above that
of the wire: a name of 256 bytes is emitted. Apart from such names a query is built exactly for the
hostnames that can be encoded (`encodes_iff`). What it says is what `question_name` reads back.

The labels of a query are those of the hostname that are not empty, so a dot at the end and two dots
in a row are passed over.
-/

namespace GamePath.Engine.DnsQueries

open List DnsMessages Dns

open Direct (Text slice utf8Len joinLabel)
open Dns (u16At headerLen query question encodeLabels queryHeader utf8Bytes)
open DnsMessages (NameAt dotted lowerText)

/-! ## What is asked of a query -/

section Specification

/-- The labels of a hostname that are not empty. -/
def labelsOf (hostname : Text) : List Text := (hostname.splitOn '.').filter fun label => label ≠ []

/-- No label is over 63 bytes. -/
def LabelsFit (hostname : Text) : Prop := ∀ label ∈ labelsOf hostname, (utf8Bytes label).length ≤ 63

/-- The length of the encoded name: a byte before each label, and the root. -/
def encodedLength (hostname : Text) : ℕ :=
  ((labelsOf hostname).map fun label => (utf8Bytes label).length + 1).sum + 1

/-- The message has one question, of type A and class IN, about the name with these labels, and ends
with it. -/
structure Asks (message : Bytes) (id : UInt16) (labels : List Bytes) : Prop where
  id : u16At message 0 = id
  questions : u16At message 4 = 1
  others : u16At message 6 = 0 ∧ u16At message 8 = 0 ∧ u16At message 10 = 0
  question : ∃ next, NameAt message headerLen labels 0 next ∧ u16At message next = typeA ∧
    u16At message (next + 2) = classIn ∧ message.length = next + 4

/-- A query is built for the hostname just when it can be encoded, and it asks for the hostname. -/
structure Encodes (id : UInt16) (hostname : Text) : Prop where
  built : (query id hostname).isSome = true ↔ LabelsFit hostname ∧ encodedLength hostname ≤ 255
  asks : (∀ label ∈ hostname.splitOn '.', label ≠ []) → ∀ message,
    query id hostname = some message →
    questionName message = some (hostname.map Char.toLower) ∧
      Asks message id ((hostname.splitOn '.').map utf8Bytes)

instance decidableLabelsFit (hostname : Text) : Decidable (LabelsFit hostname) :=
  inferInstanceAs (Decidable (∀ label ∈ labelsOf hostname, _))

end Specification

/-! ## The labels on the wire -/

section Wire

/-- Labels, each behind its length. -/
def wire (labels : List Bytes) : Bytes :=
  labels.flatMap fun label => UInt8.ofNat label.length :: label

theorem wire_cons (label : Bytes) (labels : List Bytes) :
    wire (label :: labels) = UInt8.ofNat label.length :: label ++ wire labels := rfl

theorem length_wire (labels : List Bytes) :
    (wire labels).length = (labels.map fun label => label.length + 1).sum := by
  induction labels with
  | nil => rfl
  | cons label labels ih =>
    rw [wire_cons, length_append, ih, length_cons, map_cons, sum_cons]

theorem encodeLabels_eq (labels : List Text) :
    encodeLabels labels =
      if ∀ label ∈ labels, (utf8Bytes label).length ≤ 63 then some (wire (labels.map utf8Bytes))
      else none := by
  induction labels with
  | nil => rfl
  | cons label labels ih =>
    have hcons : (∀ l ∈ label :: labels, (utf8Bytes l).length ≤ 63) ↔
        (utf8Bytes label).length ≤ 63 ∧ ∀ l ∈ labels, (utf8Bytes l).length ≤ 63 :=
      forall_mem_cons
    rw [encodeLabels, ih]
    by_cases hlabel : (utf8Bytes label).length ≤ 63
    · rw [if_neg (not_lt.2 hlabel)]
      by_cases hlabels : ∀ label ∈ labels, (utf8Bytes label).length ≤ 63
      · rw [if_pos hlabels, if_pos (hcons.2 ⟨hlabel, hlabels⟩), map_cons]
        rfl
      · rw [if_neg hlabels, if_neg fun h => hlabels (hcons.1 h).2]
        rfl
    · rw [if_pos (not_le.1 hlabel), if_neg fun h => hlabel (hcons.1 h).1]

theorem slice_middle (before label behind : Bytes) :
    slice (before ++ label ++ behind) before.length label.length = some label := by
  rw [slice, if_pos (by simp only [length_append]; omega), append_assoc, drop_left,
    take_left]

theorem nameAt_wire (labels : List Bytes) (hfit : ∀ label ∈ labels, label ≠ [] ∧
    label.length ≤ 63) :
    ∀ before behind, NameAt (before ++ (wire labels ++ 0 :: behind)) before.length labels 0
      (before.length + (wire labels).length + 1) := by
  induction labels with
  | nil =>
    intro before behind
    apply NameAt.root
    rw [wire, flatMap_nil, nil_append, getElem?_append_right le_rfl, Nat.sub_self,
      getElem?_cons_zero]
  | cons label labels ih =>
    intro before behind
    obtain ⟨⟨hne, hle⟩, hlabels⟩ := forall_mem_cons.1 hfit
    have hlength : (UInt8.ofNat label.length).toNat = label.length := by
      rw [UInt8.toNat_ofNat']
      omega
    have hread : (before ++ (wire (label :: labels) ++ 0 :: behind))[before.length]? =
        some (UInt8.ofNat label.length) := by
      rw [getElem?_append_right le_rfl, Nat.sub_self]
      rfl
    have hmessage : before ++ (wire (label :: labels) ++ 0 :: behind) =
        before ++ [UInt8.ofNat label.length] ++ label ++ (wire labels ++ 0 :: behind) := by
      rw [wire_cons]
      simp
    have hstart : (before ++ [UInt8.ofNat label.length]).length = before.length + 1 := by
      rw [length_append, length_singleton]
    have hslice : slice (before ++ (wire (label :: labels) ++ 0 :: behind)) (before.length + 1)
        (UInt8.ofNat label.length).toNat = some label := by
      rw [hmessage, hlength, ← hstart, slice_middle]
    have hrest := ih hlabels (before ++ [UInt8.ofNat label.length] ++ label) behind
    rw [← hmessage, length_append, hstart] at hrest
    have hnext : before.length + 1 + label.length + (wire labels).length + 1 =
        before.length + (wire (label :: labels)).length + 1 := by
      rw [wire_cons, length_append, length_cons]
      omega
    rw [hnext] at hrest
    apply NameAt.label hread ?_ ?_ hslice (by rwa [hlength])
    · intro hzero
      rw [← UInt8.toNat_inj, hlength] at hzero
      exact hne (length_eq_zero_iff.1 hzero)
    · rw [UInt8.le_iff_toNat_le, hlength]
      exact hle

end Wire

/-! ## What is built -/

section Built

variable {id : UInt16} {hostname : Text}

/-- The message of a query, whatever its length. -/
def message (id : UInt16) (labels : List Bytes) : Bytes :=
  queryHeader id ++ (wire labels ++ 0 :: [0, 1, 0, 1])

theorem length_message (id : UInt16) (hostname : Text) :
    (message id ((labelsOf hostname).map utf8Bytes)).length = encodedLength hostname + 16 := by
  rw [message, length_append, length_queryHeader, length_append, length_wire,
    encodedLength, map_map]
  simp only [headerLen, length_cons, length_nil, Function.comp_def]
  omega

theorem query_eq (id : UInt16) (hostname : Text) :
    query id hostname =
      if LabelsFit hostname ∧ encodedLength hostname ≤ 256 then
        some (message id ((labelsOf hostname).map utf8Bytes))
      else none := by
  have hquestion : question hostname =
      if LabelsFit hostname then
        some (wire ((labelsOf hostname).map utf8Bytes) ++ 0 :: [0, 1, 0, 1])
      else none := by
    rw [question, encodeLabels_eq]
    change (if LabelsFit hostname then _ else _ : Option Bytes).map _ = _
    split_ifs
    · simp only [append_assoc]
      rfl
    · rfl
  rw [query, hquestion]
  by_cases hfit : LabelsFit hostname
  · have hlength := length_message id hostname
    rw [message] at hlength
    rw [if_pos hfit]
    dsimp only
    by_cases hshort : encodedLength hostname ≤ 256
    · rw [if_pos (by rw [headerLen]; omega), if_pos ⟨hfit, hshort⟩, message]
    · rw [if_neg (by rw [headerLen]; omega), if_neg fun h => hshort h.2]
  · rw [if_neg hfit, if_neg fun h => hfit h.1]

theorem questionNameFrom_eq {message : Bytes} {offset pointers next : ℕ} {labels : List Bytes}
    (h : NameAt message offset labels pointers next) (hpointers : pointers = 0)
    (hascii : ∀ label ∈ labels, ∀ b ∈ label, b < 128) :
    ∀ (fuel : ℕ) (name : Text), labels.length < fuel →
      utf8Len (labels.foldl joinLabel name) ≤ 255 →
      questionNameFrom message fuel offset name = some (labels.foldl joinLabel name) := by
  induction h with
  | root hzero =>
    intro fuel name hfuel _
    obtain ⟨fuel, rfl⟩ : ∃ k, fuel = k + 1 := ⟨fuel - 1, by omega⟩
    simp [questionNameFrom, hzero]
  | @label offset pointers next length label labels hlength hpos hle hslice _ ih =>
    intro fuel name hfuel hshort
    obtain ⟨fuel, rfl⟩ : ∃ k, fuel = k + 1 := ⟨fuel - 1, by omega⟩
    obtain ⟨hlabel, hlabels⟩ := forall_mem_cons.1 hascii
    -- The text with the label is at least as long as the text before it and the label.
    have hjoined : utf8Len name + length.toNat ≤ utf8Len (joinLabel name label) := by
      rw [joinLabel_ascii name hlabel, Direct.utf8Len_append,
        utf8Len_lowerText hlabel, length_of_slice hslice]
      split
      · rename_i hempty
        rw [hempty]
      · rw [Direct.utf8Len_append]
        omega
    have hrest := utf8Len_le_foldl_joinLabel labels (joinLabel name label)
    rw [foldl_cons] at hshort ⊢
    rw [length_cons] at hfuel
    have hfits : ¬ (length > 63 ∨ utf8Len name + length.toNat > 255) := by
      rintro (hlong | hlong)
      · exact absurd hle (UInt8.not_le.2 hlong)
      · omega
    rw [questionNameFrom, hlength]
    simp only [hpos, hfits, hslice, if_false]
    exact ih hpointers hlabels fuel (joinLabel name label) (by omega) hshort
  | pointer => exact absurd hpointers (Nat.succ_ne_zero _)

theorem asciiText_utf8Bytes {text : Text} (hascii : ∀ c ∈ text, c.toNat < 128) :
    asciiText (utf8Bytes text) = text := by
  rw [Utf8.utf8Bytes_ascii hascii, asciiText, map_map]
  refine (map_congr_left ?_).trans (map_id text)
  intro c hc
  have hlt := hascii c hc
  rw [Function.comp_apply, UInt8.toNat_ofNat', Nat.mod_eq_of_lt (by omega), Char.ofNat_toNat]
  rfl

theorem length_dotted {labels : List Bytes} (hne : labels ≠ []) :
    (dotted labels).length + 1 = (labels.map fun label => label.length + 1).sum := by
  cases labels with
  | nil => exact absurd rfl hne
  | cons label labels =>
    have hrest : ∀ ls : List Bytes, (ls.flatMap fun label => '.'.toUInt8 :: label).length =
        (ls.map fun label => label.length + 1).sum := by
      intro ls
      rw [length_flatMap]
      rfl
    rw [dotted, length_append, hrest, map_cons, sum_cons]
    omega

theorem mem_intercalate {separator label : Text} {c : Char} (hc : c ∈ label) :
    ∀ labels : List Text, label ∈ labels → c ∈ List.intercalate separator labels := by
  intro labels
  induction labels with
  | nil => exact nofun
  | cons first labels ih =>
    intro hlabel
    cases labels with
    | nil =>
      obtain rfl := mem_singleton.1 hlabel
      simpa using hc
    | cons second labels =>
      rw [intercalate_cons_cons, mem_append, mem_append]
      rcases mem_cons.1 hlabel with rfl | hrest
      · exact .inl (.inl hc)
      · exact .inr (ih hrest)

theorem mem_hostname {label : Text} {c : Char} (hlabel : label ∈ hostname.splitOn '.')
    (hc : c ∈ label) :
    c ∈ hostname := by
  have hmem := @mem_intercalate ['.'] label c hc _ hlabel
  rwa [intercalate_splitOn] at hmem

theorem utf8Bytes_lt {text : Text} (hascii : ∀ c ∈ text, c.toNat < 128) :
    ∀ b ∈ utf8Bytes text, b < 128 := by
  intro b hb
  rw [Utf8.utf8Bytes_ascii hascii] at hb
  obtain ⟨c, hc, rfl⟩ := mem_map.1 hb
  have hlt := hascii c hc
  rw [UInt8.lt_iff_toNat_lt, UInt8.toNat_ofNat', Nat.mod_eq_of_lt (by omega)]
  exact hlt

theorem utf8Bytes_ne_nil {text : Text} (hascii : ∀ c ∈ text, c.toNat < 128) (hne : text ≠ []) :
    utf8Bytes text ≠ [] := by
  rw [Utf8.utf8Bytes_ascii hascii, ne_eq, map_eq_nil_iff]
  exact hne

theorem asciiText_dotted (hascii : ∀ c ∈ hostname, c.toNat < 128) :
    asciiText (dotted ((hostname.splitOn '.').map utf8Bytes)) = hostname := by
  have hlabels : ((hostname.splitOn '.').map utf8Bytes).map asciiText =
      hostname.splitOn '.' := by
    rw [map_map]
    refine (map_congr_left ?_).trans (map_id _)
    exact fun label hlabel => asciiText_utf8Bytes fun c hc => hascii c (mem_hostname hlabel hc)
  rw [← intercalate_asciiText, hlabels, intercalate_splitOn]

theorem getD_behind (id : UInt16) (labels : List Bytes) (i : ℕ) :
    (message id labels).getD (headerLen + (wire labels).length + 1 + i) 0 =
      ([0, 1, 0, 1] : Bytes).getD i 0 := by
  have hmessage : message id labels = (queryHeader id ++ wire labels ++ [0]) ++ [0, 1, 0, 1] := by
    simp [message]
  have hlength : (queryHeader id ++ wire labels ++ [0]).length =
      headerLen + (wire labels).length + 1 := by
    rw [length_append, length_append, length_queryHeader, length_singleton]
  rw [hmessage, ← hlength, getD_eq_getElem?_getD, getElem?_append_right (by omega),
    Nat.add_sub_cancel_left, getD_eq_getElem?_getD]

theorem asks_of_query (hascii : ∀ c ∈ hostname, c.toNat < 128)
    (hne : ∀ label ∈ hostname.splitOn '.', label ≠ []) {m : Bytes}
    (hquery : query id hostname = some m) :
    questionName m = some (hostname.map Char.toLower) ∧
      Asks m id ((hostname.splitOn '.').map utf8Bytes) := by
  have hlabels : labelsOf hostname = hostname.splitOn '.' := by
    rw [labelsOf, filter_eq_self]
    exact fun label hlabel => decide_eq_true (hne label hlabel)
  have hid := u16At_query hquery
  have hcount := count_query hquery
  have hlabelAscii : ∀ label ∈ hostname.splitOn '.', ∀ c ∈ label, c.toNat < 128 :=
    fun label hlabel c hc => hascii c (mem_hostname hlabel hc)
  rw [query_eq, hlabels] at hquery
  split_ifs at hquery with hfits
  obtain ⟨hfit, hshort⟩ := hfits
  cases hquery
  -- The labels of the hostname, as bytes.
  have hbytes : ∀ label ∈ (hostname.splitOn '.').map utf8Bytes,
      (label ≠ [] ∧ label.length ≤ 63) ∧ ∀ b ∈ label, b < 128 := by
    intro bytes hmem
    obtain ⟨label, hlabel, rfl⟩ := mem_map.1 hmem
    rw [LabelsFit, hlabels] at hfit
    exact ⟨⟨utf8Bytes_ne_nil (hlabelAscii label hlabel) (hne label hlabel), hfit label hlabel⟩,
      utf8Bytes_lt (hlabelAscii label hlabel)⟩
  have hname := nameAt_wire _ (fun label hlabel => (hbytes label hlabel).1) (queryHeader id)
    [0, 1, 0, 1]
  rw [length_queryHeader] at hname
  constructor
  · have hascii' : ∀ label ∈ (hostname.splitOn '.').map utf8Bytes, ∀ b ∈ label, b < 128 :=
      fun label hlabel => (hbytes label hlabel).2
    have hne' : ∀ label ∈ (hostname.splitOn '.').map utf8Bytes, label ≠ [] :=
      fun label hlabel => (hbytes label hlabel).1.1
    have hread := foldl_joinLabel _ hascii' hne'
    have hlower : lowerText (dotted ((hostname.splitOn '.').map utf8Bytes)) =
        hostname.map Char.toLower := by
      conv_rhs => rw [← asciiText_dotted hascii]
      rw [asciiText, map_map]
      rfl
    -- The text is two bytes shorter than the encoded name.
    have hdots := @length_dotted ((hostname.splitOn '.').map utf8Bytes) (by simp [splitOn_ne_nil])
    have hcount := length_le_dotted hne'
    have hlength := length_message id hostname
    rw [encodedLength, hlabels] at hshort hlength
    rw [map_map] at hdots
    change _ = ((hostname.splitOn '.').map fun label => (utf8Bytes label).length + 1).sum at hdots
    rw [← hlower, ← hread]
    apply questionNameFrom_eq hname rfl hascii'
    · omega
    · rw [hread, utf8Len_lowerText (dotted_ascii hascii')]
      omega
  · refine ⟨hid, hcount, ?_, _, hname, ?_, ?_, ?_⟩
    · simp [u16At, message, queryHeader, beU16, u16OfBe]
    · rw [u16At, getD_behind id _ 1, getD_behind id _ 0]
      rfl
    · rw [u16At, getD_behind id _ 2, getD_behind id _ 3]
      rfl
    · rw [message, length_append, length_append, length_queryHeader]
      simp only [length_cons, length_nil]
      omega

/-- A query is built for the hostnames that can be encoded, apart from those whose encoded name is
one byte too long, and it asks for the hostname. -/
theorem encodes_iff (id : UInt16) {hostname : Text} (hascii : ∀ c ∈ hostname, c.toNat < 128) :
    Encodes id hostname ↔ ¬ (LabelsFit hostname ∧ encodedLength hostname = 256) := by
  have hsome : (query id hostname).isSome = true ↔
      LabelsFit hostname ∧ encodedLength hostname ≤ 256 := by
    rw [query_eq]
    split_ifs with h
    · exact ⟨fun _ => h, fun _ => rfl⟩
    · exact ⟨fun hsome => (by cases hsome), fun hfits => absurd hfits h⟩
  constructor
  · rintro h ⟨hfit, hlong⟩
    have hbuilt := h.built.1 (hsome.2 ⟨hfit, by omega⟩)
    omega
  · intro hnot
    refine ⟨hsome.trans ?_, fun hne m hquery => asks_of_query hascii hne hquery⟩
    refine and_congr_right fun hfit => ?_
    have hne : encodedLength hostname ≠ 256 := fun heq => hnot ⟨hfit, heq⟩
    omega

/-- The hostname of the test. -/
theorem encodes_iff_pingkhor : Encodes 7 "Turkey1.Pingkhor.XYZ".toList :=
  (encodes_iff 7 (List.all_iff_forall_prop.1 (by decide))).2 (by decide +kernel)

/-- Three labels of 63 bytes and one of 62. -/
def longHostname : Text :=
  List.intercalate ['.']
    [List.replicate 63 'a', List.replicate 63 'a', List.replicate 63 'a', List.replicate 62 'a']

/-- Its encoded name has 256 bytes, and a query is built for it. -/
theorem query_for_256_bytes :
    (∀ c ∈ longHostname, c.toNat < 128) ∧ encodedLength longHostname = 256 ∧
      (query 7 longHostname).isSome = true ∧ ¬ Encodes 7 longHostname := by
  have hlength : encodedLength longHostname = 256 := by decide +kernel
  have hsome : (query 7 longHostname).isSome = true := by decide +kernel
  refine ⟨List.all_iff_forall_prop.1 (by decide +kernel), hlength, hsome, fun h => ?_⟩
  have hshort := (h.built.1 hsome).2
  omega

end Built

end GamePath.Engine.DnsQueries
