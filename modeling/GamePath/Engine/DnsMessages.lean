import GamePath.Engine.SplitDns

/-!
# Well-formed DNS responses

What a response means, said of its bytes and of no reader: names with their pointers (`NameAt`), the
questions, and the records of the answer section. Each reader of the engine walks a well-formed
response to its end, so all of them read its addresses.
-/

namespace GamePath.Engine.DnsMessages

open List

open Direct (Text slice utf8Len joinLabel NameReader)
open Dns (u16At headerLen)
open SplitCapture (LabelReader)
open SplitCapture (hostnameMatches mostSpecificRule octetsAt)

/-! ## Names -/

section Names

/-- The labels of the name at an offset, how many pointers it takes to read them, and where the
message goes on after it. -/
inductive NameAt (message : Bytes) : ℕ → List Bytes → ℕ → ℕ → Prop where
  | root {offset : ℕ} : message[offset]? = some 0 → NameAt message offset [] 0 (offset + 1)
  | label {offset pointers next : ℕ} {length : UInt8} {label : Bytes} {labels : List Bytes} :
      message[offset]? = some length → length ≠ 0 → length ≤ 63 →
      slice message (offset + 1) length.toNat = some label →
      NameAt message (offset + 1 + length.toNat) labels pointers next →
      NameAt message offset (label :: labels) pointers next
  | pointer {offset pointers next : ℕ} {high low : UInt8} {labels : List Bytes} :
      message[offset]? = some high → high &&& 0xc0 = 0xc0 → message[offset + 1]? = some low →
      NameAt message ((high &&& 0x3f).toNat * 256 + low.toNat) labels pointers next →
      NameAt message offset labels (pointers + 1) (offset + 2)

/-- The labels with dots between them. -/
def dotted : List Bytes → Bytes
  | [] => []
  | label :: labels => label ++ labels.flatMap fun label => '.'.toUInt8 :: label

/-- The text of ASCII bytes in lower case. -/
def lowerText (bytes : Bytes) : Text := bytes.map fun b => (Char.ofNat b.toNat).toLower

/-- The name at an offset is well formed: ASCII labels, at most sixteen pointers, and at most 253
characters. -/
structure GoodName (message : Bytes) (offset : ℕ) (labels : List Bytes) (next : ℕ) : Prop where
  read : ∃ pointers ≤ 16, NameAt message offset labels pointers next
  ascii : ∀ label ∈ labels, ∀ b ∈ label, b < 128
  short : (dotted labels).length ≤ 253

end Names

/-! ## Responses -/

section Responses

/-- The questions from an offset on, each a name and four bytes, and where they end. -/
inductive QuestionsAt (message : Bytes) : ℕ → List (List Bytes) → ℕ → Prop where
  | nil {offset : ℕ} : QuestionsAt message offset [] offset
  | cons {offset next last : ℕ} {labels : List Bytes} {questions : List (List Bytes)} :
      GoodName message offset labels next → next + 4 ≤ message.length →
      QuestionsAt message (next + 4) questions last →
      QuestionsAt message offset (labels :: questions) last

/-- The kind of a record and its data. -/
structure Record where
  kind : UInt16
  data : Bytes

/-- The records of class IN from an offset on. The data of an A record are four bytes. -/
inductive RecordsAt (message : Bytes) : ℕ → List Record → Prop where
  | nil {offset : ℕ} : RecordsAt message offset []
  | cons {offset next : ℕ} {labels : List Bytes} {fixed : Bytes} {record : Record}
      {records : List Record} :
      GoodName message offset labels next → slice message next 10 = some fixed →
      u16At fixed 0 = record.kind → u16At fixed 2 = Dns.classIn →
      (u16At fixed 8).toNat = record.data.length →
      slice message (next + 10) record.data.length = some record.data →
      (record.kind = Dns.typeA → record.data.length = 4) →
      RecordsAt message (next + 10 + record.data.length) records →
      RecordsAt message offset (record :: records)

/-- The address of an A record. -/
def Record.address (record : Record) : Option Octets :=
  match record.data with
  | [a, b, c, d] => if record.kind = Dns.typeA then some (a, b, c, d) else none
  | _ => none

/-- A well-formed response with response code 0, its questions and the records of its answer
section. -/
structure GoodResponse (message : Bytes) (questions : List (List Bytes)) (records : List Record) :
    Prop where
  long : headerLen ≤ message.length
  response : message.getD 2 0 &&& 0x80 ≠ 0
  success : message.getD 3 0 &&& 0x0f = 0
  questionCount : (u16At message 4).toNat = questions.length
  answerCount : (u16At message 6).toNat = records.length
  sections : ∃ offset, QuestionsAt message headerLen questions offset ∧
    RecordsAt message offset records

end Responses

/-! ## One name, three readers -/

section Readers

variable {message : Bytes} {offset next pointers : ℕ} {labels : List Bytes}

theorem forall_byte {p : UInt8 → Prop} (h : ∀ n : Fin 256, p (UInt8.ofNat n)) (b : UInt8) :
    p b := by
  have := h ⟨b.toNat, b.toNat_lt⟩
  rwa [UInt8.ofNat_toNat] at this

theorem and_mark_of_le (length : UInt8) : length ≤ 63 → length &&& 0xc0 = 0 :=
  forall_byte (p := fun length => length ≤ 63 → length &&& 0xc0 = 0) (by decide +kernel) length

theorem ne_zero_of_mark (high : UInt8) : high &&& 0xc0 = 0xc0 → high ≠ 0 :=
  forall_byte (p := fun high => high &&& 0xc0 = 0xc0 → high ≠ 0) (by decide +kernel) high

theorem NameAt.skipName (h : NameAt message offset labels pointers next) :
    Dns.skipName message offset = some next := by
  -- There is fuel for each byte from the offset on.
  have hfrom : ∀ fuel, message.length ≤ offset + fuel →
      Dns.skipNameFrom message fuel offset = some next := by
    induction h with
    | root hzero =>
      intro fuel hfuel
      have hlt := (List.getElem?_eq_some_iff.1 hzero).1
      obtain ⟨fuel, rfl⟩ : ∃ k, fuel = k + 1 := ⟨fuel - 1, by omega⟩
      simp [Dns.skipNameFrom, hzero]
    | @label offset pointers next length label labels hlength hpos hle _ _ ih =>
      intro fuel hfuel
      have hlt := (List.getElem?_eq_some_iff.1 hlength).1
      obtain ⟨fuel, rfl⟩ : ∃ k, fuel = k + 1 := ⟨fuel - 1, by omega⟩
      have hmark := and_mark_of_le _ hle
      rw [Dns.skipNameFrom, hlength]
      simp only [hpos, if_false, hmark]
      exact ih fuel (by omega)
    | pointer hhigh hmark hlow _ _ =>
      intro fuel hfuel
      have hlt := (List.getElem?_eq_some_iff.1 hhigh).1
      obtain ⟨fuel, rfl⟩ : ∃ k, fuel = k + 1 := ⟨fuel - 1, by omega⟩
      rw [Dns.skipNameFrom, hhigh]
      simp [ne_zero_of_mark _ hmark, hmark, hlow]
  exact hfrom message.length (by omega)

theorem NameAt.label_ne_nil (h : NameAt message offset labels pointers next) :
    ∀ label ∈ labels, label ≠ [] := by
  induction h with
  | root => simp
  | label _ hpos _ hslice _ ih =>
    rw [forall_mem_cons]
    refine ⟨Direct.slice_ne_nil ?_ hslice, ih⟩
    apply Nat.pos_of_ne_zero
    intro hzero
    exact hpos (UInt8.toNat_inj.1 hzero)
  | pointer _ _ _ _ ih => exact ih

theorem utf8Len_le_joinLabel (name : Text) (label : Bytes) :
    utf8Len name ≤ utf8Len (joinLabel name label) := by
  rw [joinLabel, Direct.utf8Len_append]
  split
  · rename_i hempty
    rw [hempty]
    exact Nat.zero_le _
  · rw [Direct.utf8Len_append]
    omega

theorem utf8Len_le_foldl_joinLabel (labels : List Bytes) :
    ∀ name : Text, utf8Len name ≤ utf8Len (labels.foldl joinLabel name) := by
  induction labels with
  | nil => exact fun _ => le_rfl
  | cons label labels ih => exact fun name => (utf8Len_le_joinLabel name label).trans (ih _)

theorem NameAt.run_nameReader (h : NameAt message offset labels pointers next) :
    ∀ (fuel : ℕ) (reader : NameReader), reader.offset = offset → pointers + labels.length < fuel →
      reader.jumps + pointers ≤ 16 → utf8Len (labels.foldl joinLabel reader.name) ≤ 253 →
      NameReader.run message fuel reader =
        some (labels.foldl joinLabel reader.name, reader.resume.getD next) := by
  induction h with
  | root hzero =>
    rintro fuel reader rfl hfuel _ _
    obtain ⟨fuel, rfl⟩ : ∃ k, fuel = k + 1 := ⟨fuel - 1, by omega⟩
    simp [NameReader.run, NameReader.turn, hzero]
  | @label offset pointers next length label labels hlength hpos hle hslice _ ih =>
    rintro fuel reader rfl hfuel hjumps hshort
    obtain ⟨fuel, rfl⟩ : ∃ k, fuel = k + 1 := ⟨fuel - 1, by omega⟩
    have hmark := and_mark_of_le length hle
    have hfits : ¬ utf8Len (joinLabel reader.name label) > 253 := by
      have := utf8Len_le_foldl_joinLabel labels (joinLabel reader.name label)
      rw [foldl_cons] at hshort
      omega
    rw [length_cons] at hfuel
    rw [NameReader.run, NameReader.turn, hlength]
    have hlabel : ¬ length > 63 := UInt8.not_lt.2 hle
    simp only [hmark, hpos, hlabel, hslice, hfits, if_false]
    exact ih fuel
      { reader with
        name := joinLabel reader.name label
        offset := reader.offset + 1 + length.toNat }
      rfl (by omega) hjumps hshort
  | @pointer offset pointers next high low labels hhigh hmark hlow _ ih =>
    rintro fuel reader rfl hfuel hjumps hshort
    obtain ⟨fuel, rfl⟩ : ∃ k, fuel = k + 1 := ⟨fuel - 1, by omega⟩
    have hmore : ¬ reader.jumps + 1 > 16 := by omega
    rw [NameReader.run, NameReader.turn, hhigh]
    simp only [hmark, hlow, hmore, if_true, if_false]
    exact ih fuel
      { reader with
        resume := some (reader.resume.getD (reader.offset + 2))
        offset := (high &&& 0x3f).toNat * 256 + low.toNat
        jumps := reader.jumps + 1 }
      rfl (by omega) (by dsimp only; omega) hshort

/-! ### ASCII -/

/-- The text of ASCII bytes. -/
def asciiText (bytes : Bytes) : Text := bytes.map fun b => Char.ofNat b.toNat

theorem toNat_ofNat_byte (b : UInt8) : b < 128 → (Char.ofNat b.toNat).toNat = b.toNat :=
  forall_byte (p := fun b => b < 128 → (Char.ofNat b.toNat).toNat = b.toNat)
    (by decide +kernel) b

theorem utf8Size_toLower_byte (b : UInt8) :
    b < 128 → ((Char.ofNat b.toNat).toLower).utf8Size = 1 :=
  forall_byte (p := fun b => b < 128 → ((Char.ofNat b.toNat).toLower).utf8Size = 1)
    (by decide +kernel) b

variable {bytes : Bytes}

theorem utf8Bytes_asciiText (h : ∀ b ∈ bytes, b < 128) :
    Dns.utf8Bytes (asciiText bytes) = bytes := by
  have htoNat : ∀ b ∈ bytes, (Char.ofNat b.toNat).toNat = b.toNat :=
    fun b hb => toNat_ofNat_byte b (h b hb)
  rw [Utf8.utf8Bytes_ascii, asciiText, map_map]
  · refine (map_congr_left ?_).trans (map_id bytes)
    intro b hb
    rw [Function.comp_apply, htoNat b hb, UInt8.ofNat_toNat]
    rfl
  · intro c hc
    obtain ⟨b, hb, rfl⟩ := mem_map.1 hc
    rw [htoNat b hb]
    exact UInt8.lt_iff_toNat_lt.1 (h b hb)

theorem fromUtf8Lossy_ascii (h : ∀ b ∈ bytes, b < 128) :
    Direct.fromUtf8Lossy bytes = asciiText bytes := by
  conv_lhs => rw [← utf8Bytes_asciiText h]
  exact Utf8.fromUtf8Lossy_utf8Bytes _

theorem fromUtf8_ascii (h : ∀ b ∈ bytes, b < 128) :
    Socks.fromUtf8 bytes = some (asciiText bytes) := by
  conv_lhs => rw [← utf8Bytes_asciiText h]
  exact Utf8.fromUtf8_utf8Bytes _

theorem lowerText_append (bytes bytes' : Bytes) :
    lowerText (bytes ++ bytes') = lowerText bytes ++ lowerText bytes' :=
  map_append

theorem joinLabel_ascii {label : Bytes} (name : Text) (h : ∀ b ∈ label, b < 128) :
    joinLabel name label = (if name = [] then [] else name ++ ['.']) ++ lowerText label := by
  rw [joinLabel, fromUtf8Lossy_ascii h, asciiText, map_map]
  rfl

theorem utf8Len_lowerText (h : ∀ b ∈ bytes, b < 128) :
    utf8Len (lowerText bytes) = bytes.length := by
  induction bytes with
  | nil => rfl
  | cons b bytes ih =>
    obtain ⟨hb, hbytes⟩ := forall_mem_cons.1 h
    have hsize := utf8Size_toLower_byte b hb
    have hrest := ih hbytes
    simp only [utf8Len, lowerText, map_cons, sum_cons, length_cons] at hrest ⊢
    omega

theorem foldl_joinLabel_append (labels : List Bytes) (hascii : ∀ label ∈ labels, ∀ b ∈ label,
    b < 128) :
    ∀ name : Text, name ≠ [] →
      labels.foldl joinLabel name =
        name ++ lowerText (labels.flatMap fun label => '.'.toUInt8 :: label) := by
  induction labels with
  | nil =>
    intro name _
    simp [lowerText]
  | cons label labels ih =>
    intro name hname
    obtain ⟨hlabel, hlabels⟩ := forall_mem_cons.1 hascii
    have hjoined : joinLabel name label = name ++ lowerText ('.'.toUInt8 :: label) := by
      rw [joinLabel_ascii name hlabel, if_neg hname, append_assoc]
      rfl
    rw [foldl_cons, ih hlabels _ (by rw [hjoined]; simp [hname]), hjoined, flatMap_cons,
      lowerText_append, append_assoc]

theorem foldl_joinLabel (labels : List Bytes) (hascii : ∀ label ∈ labels, ∀ b ∈ label, b < 128)
    (hne : ∀ label ∈ labels, label ≠ []) :
    labels.foldl joinLabel [] = lowerText (dotted labels) := by
  cases labels with
  | nil => rfl
  | cons label labels =>
    obtain ⟨hlabel, hlabels⟩ := forall_mem_cons.1 hascii
    have hfirst : joinLabel [] label = lowerText label := by
      rw [joinLabel_ascii [] hlabel, if_pos rfl, nil_append]
    rw [foldl_cons, hfirst, foldl_joinLabel_append labels hlabels, dotted, lowerText_append]
    rw [lowerText, ne_eq, map_eq_nil_iff]
    exact hne label mem_cons_self

theorem dotted_ascii (hascii : ∀ label ∈ labels, ∀ b ∈ label, b < 128) :
    ∀ b ∈ dotted labels, b < 128 := by
  intro b hb
  cases labels with
  | nil => cases hb
  | cons label labels =>
    obtain ⟨hlabel, hlabels⟩ := forall_mem_cons.1 hascii
    rcases mem_append.1 hb with hb | hb
    · exact hlabel b hb
    · obtain ⟨label', hlabel', hb⟩ := mem_flatMap.1 hb
      rcases mem_cons.1 hb with rfl | hb
      · decide
      · exact hlabels label' hlabel' b hb

theorem length_le_dotted (hne : ∀ label ∈ labels, label ≠ []) :
    labels.length ≤ (dotted labels).length := by
  cases labels with
  | nil => exact Nat.zero_le _
  | cons label labels =>
    have hfirst := length_pos_of_ne_nil (hne label mem_cons_self)
    have hrest : ∀ ls : List Bytes,
        ls.length ≤ (ls.flatMap fun label => '.'.toUInt8 :: label).length := by
      intro ls
      induction ls with
      | nil => exact Nat.zero_le _
      | cons l ls ih =>
        rw [flatMap_cons, length_append, length_cons, length_cons]
        omega
    have := hrest labels
    rw [dotted, length_append, length_cons]
    omega

theorem intercalate_asciiText (labels : List Bytes) :
    List.intercalate ['.'] (labels.map asciiText) = asciiText (dotted labels) := by
  cases labels with
  | nil => rfl
  | cons label labels =>
    induction labels generalizing label with
    | nil => simp [dotted]
    | cons label' labels ih =>
      rw [map_cons, map_cons, intercalate_cons_cons, ← map_cons, ih]
      simp [dotted, asciiText, Char.toUInt8]

theorem NameAt.turns_le (h : NameAt message offset labels pointers next) :
    pointers + labels.length ≤
      pointers * (message.length + 1) + (message.length - offset) := by
  induction h with
  | root => simp
  | label hlength _ _ _ _ ih =>
    have hlt := (List.getElem?_eq_some_iff.1 hlength).1
    rw [length_cons]
    omega
  | pointer _ _ _ _ ih =>
    rw [Nat.add_mul]
    omega

/-- The reader of split capture appends the labels to those it has. -/
theorem NameAt.run_labelReader (lowercase : Text → Text)
    (h : NameAt message offset labels pointers next) :
    (∀ label ∈ labels, ∀ b ∈ label, b < 128) →
    ∀ (fuel : ℕ) (reader : LabelReader), reader.offset = offset → pointers + labels.length < fuel →
      reader.jumps + pointers ≤ 16 →
      LabelReader.run lowercase message fuel reader =
        some (lowercase (List.intercalate ['.'] (reader.labels ++ labels.map asciiText)),
          reader.next.getD next) := by
  induction h with
  | root hzero =>
    rintro - fuel reader rfl hfuel _
    obtain ⟨fuel, rfl⟩ : ∃ k, fuel = k + 1 := ⟨fuel - 1, by omega⟩
    simp [LabelReader.run, LabelReader.turn, hzero]
  | @label offset pointers next length label labels hlength hpos hle hslice _ ih =>
    rintro hascii fuel reader rfl hfuel hjumps
    obtain ⟨fuel, rfl⟩ : ∃ k, fuel = k + 1 := ⟨fuel - 1, by omega⟩
    obtain ⟨hlabel, hlabels⟩ := forall_mem_cons.1 hascii
    have hmark : ¬ length &&& 0xc0 = 0xc0 := by
      rw [and_mark_of_le length hle]
      decide
    have hread : (slice message (reader.offset + 1) length.toNat).bind Socks.fromUtf8 =
        some (asciiText label) := by
      rw [hslice, Option.bind_some, fromUtf8_ascii hlabel]
    rw [length_cons] at hfuel
    rw [LabelReader.run, LabelReader.turn, hlength]
    simp only [hmark, hpos, hread, if_false]
    have hrest := ih hlabels fuel
      { reader with
        labels := reader.labels ++ [asciiText label]
        offset := reader.offset + 1 + length.toNat }
      rfl (by omega) hjumps
    rwa [append_assoc, singleton_append] at hrest
  | @pointer offset pointers next high low labels hhigh hmark hlow _ ih =>
    rintro hascii fuel reader rfl hfuel hjumps
    obtain ⟨fuel, rfl⟩ : ∃ k, fuel = k + 1 := ⟨fuel - 1, by omega⟩
    have hmore : ¬ reader.jumps + 1 > 16 := by omega
    rw [LabelReader.run, LabelReader.turn, hhigh]
    simp only [hmark, hlow, hmore, if_true, if_false]
    exact ih hascii fuel
      { reader with
        next := some (reader.next.getD (reader.offset + 2))
        offset := (high &&& 0x3f).toNat * 256 + low.toNat
        jumps := reader.jumps + 1 }
      rfl (by omega) (by dsimp only; omega)

/-- What `str::to_lowercase` does to ASCII. -/
def LowersAscii (lowercase : Text → Text) : Prop :=
  ∀ text : Text, (∀ c ∈ text, c.toNat < 128) → lowercase text = text.map Char.toLower

theorem lowercase_asciiText {lowercase : Text → Text} (hlower : LowersAscii lowercase)
    (h : ∀ b ∈ bytes, b < 128) : lowercase (asciiText bytes) = lowerText bytes := by
  rw [hlower, asciiText, map_map]
  · rfl
  · intro c hc
    obtain ⟨b, hb, rfl⟩ := mem_map.1 hc
    rw [toNat_ofNat_byte b (h b hb)]
    exact UInt8.lt_iff_toNat_lt.1 (h b hb)

namespace GoodName

theorem skipName (h : GoodName message offset labels next) :
    Dns.skipName message offset = some next := by
  obtain ⟨pointers, -, hname⟩ := h.read
  exact hname.skipName

theorem readName (h : GoodName message offset labels next) :
    Direct.readName message offset = some (lowerText (dotted labels), next) := by
  obtain ⟨pointers, hpointers, hname⟩ := h.read
  have hne := hname.label_ne_nil
  have htext := foldl_joinLabel labels h.ascii hne
  have hcount := length_le_dotted hne
  have hshort := h.short
  rw [Direct.readName, hname.run_nameReader _ _ rfl, htext]
  · rfl
  · simp only [NameReader.turnsLeft, utf8Len, map_nil, sum_nil]
    omega
  · dsimp only
    omega
  · rw [htext, utf8Len_lowerText (dotted_ascii h.ascii)]
    exact hshort

theorem dnsName {lowercase : Text → Text} (hlower : LowersAscii lowercase)
    (h : GoodName message offset labels next) :
    SplitCapture.dnsName lowercase message offset = some (lowerText (dotted labels), next) := by
  obtain ⟨pointers, hpointers, hname⟩ := h.read
  have hturns := hname.turns_le
  have hmore : pointers * (message.length + 1) ≤ 16 * (message.length + 1) :=
    Nat.mul_le_mul_right _ hpointers
  rw [SplitCapture.dnsName, hname.run_labelReader lowercase h.ascii _ _ rfl, nil_append,
    intercalate_asciiText, lowercase_asciiText hlower (dotted_ascii h.ascii)]
  · rfl
  · simp only [LabelReader.turnsLeft, Nat.sub_zero]
    omega
  · dsimp only
    omega

end GoodName

end Readers

/-! ## Whole responses, three readers -/

section Agreement

variable {message : Bytes} {offset last : ℕ} {questions : List (List Bytes)} {records : List Record}

theorem QuestionsAt.skipQuestions (h : QuestionsAt message offset questions last) :
    Dns.skipQuestions message questions.length offset = some last := by
  induction h with
  | nil => rfl
  | cons hname _ _ ih =>
    rw [length_cons, Dns.skipQuestions, hname.skipName]
    exact ih

theorem QuestionsAt.readQuestions (h : QuestionsAt message offset questions last) :
    ∀ names : List Text,
      Direct.readQuestions message questions.length offset names =
        some (names ++ questions.map fun labels => lowerText (dotted labels), last) := by
  induction h with
  | nil =>
    intro names
    simp [Direct.readQuestions]
  | cons hname _ _ ih =>
    intro names
    rw [length_cons, Direct.readQuestions, hname.readName]
    simp only [Option.bind_eq_bind, Option.bind_some]
    rw [ih, map_cons, append_assoc, singleton_append]

/-- The rule that split capture finds for the questions. -/
theorem QuestionsAt.matchQuestions {lowercase : Text → Text} (hlower : LowersAscii lowercase)
    (hostnames : List Text) (h : QuestionsAt message offset questions last) :
    ∀ matched : Option Text,
      SplitCapture.matchQuestions lowercase message hostnames questions.length offset matched =
        some (questions.foldl (fun matched labels =>
          matched.or (mostSpecificRule (lowerText (dotted labels)) hostnames)) matched,
          last) := by
  induction h with
  | nil =>
    intro matched
    rfl
  | cons hname hroom _ ih =>
    intro matched
    rw [length_cons, SplitCapture.matchQuestions, hname.dnsName hlower]
    simp only [not_lt.2 hroom, if_false]
    rw [ih, foldl_cons]

/-- The addresses of the A records in their order. -/
def addresses (records : List Record) : List Octets := records.filterMap Record.address

theorem addresses_cons (record : Record) (records : List Record) :
    addresses (record :: records) = record.address.toList ++ addresses records := by
  cases haddress : record.address <;> simp [addresses, haddress]

theorem exists_four {data : Bytes} (h : data.length = 4) : ∃ a b c d, data = [a, b, c, d] := by
  match data, h with
  | [a, b, c, d], _ => exact ⟨a, b, c, d, rfl⟩

theorem Record.address_cases (record : Record) :
    (record.kind = Dns.typeA ∧ ∃ a b c d, record.data = [a, b, c, d] ∧
      record.address = some (a, b, c, d)) ∨
    (¬ (record.kind = Dns.typeA ∧ record.data.length = 4) ∧ record.address = none) := by
  by_cases hA : record.kind = Dns.typeA ∧ record.data.length = 4
  · obtain ⟨a, b, c, d, hdata⟩ := exists_four hA.2
    exact .inl ⟨hA.1, a, b, c, d, hdata, by simp [Record.address, hdata, hA.1]⟩
  refine .inr ⟨hA, ?_⟩
  rw [Record.address]
  split
  · rename_i hdata
    rw [if_neg]
    rintro hkind
    exact hA ⟨hkind, by rw [hdata]; rfl⟩
  · rfl

variable {bytes data : Bytes}

theorem length_of_slice {start length : ℕ} (h : slice bytes start length = some data) :
    data.length = length := by
  rw [slice] at h
  split_ifs at h with hroom
  rw [← Option.some.inj h, length_take, length_drop]
  omega

theorem u16At_direct {bytes : Bytes} {i : ℕ} (h : i + 1 < bytes.length) :
    Direct.u16At bytes i = some (u16At bytes i).toNat := by
  have hlow : i < bytes.length := by omega
  simp only [Direct.u16At, u16At, getD_eq_getElem?_getD, getElem?_eq_getElem h,
    getElem?_eq_getElem hlow, Option.getD_some]

theorem getD_slice {start length i : ℕ} (h : slice bytes start length = some data)
    (hi : i < length) :
    data.getD i 0 = bytes.getD (start + i) 0 := by
  rw [slice] at h
  split_ifs at h
  rw [← Option.some.inj h, getD_eq_getElem?_getD, getD_eq_getElem?_getD,
    getElem?_take_of_lt hi, getElem?_drop]

theorem u16At_slice {start length i : ℕ} (h : slice bytes start length = some data)
    (hi : i + 1 < length) :
    u16At data i = u16At bytes (start + i) := by
  rw [u16At, u16At, getD_slice h hi, getD_slice h (by omega), Nat.add_assoc]

theorem le_of_slice {start length : ℕ} (h : slice bytes start length = some data) :
    start + length ≤ bytes.length := by
  rw [slice] at h
  split_ifs at h with hroom
  exact hroom

theorem toNat_eq_one_iff {kind : UInt16} : kind.toNat = 1 ↔ kind = Dns.typeA := by
  rw [← UInt16.toNat_inj]
  rfl

theorem RecordsAt.readRecords (h : RecordsAt message offset records) :
    ∀ (held : List Octets) (ttl : UInt32),
      (Dns.readRecords message records.length offset held ttl).map Prod.fst =
        some (held ++ addresses records) := by
  induction h with
  | nil =>
    intro held ttl
    simp [Dns.readRecords, addresses]
  | @cons offset next labels fixed record records hname hfixed hkind hclass hlength hdata _ _ ih =>
    intro held ttl
    rw [length_cons, Dns.readRecords, hname.skipName, addresses_cons]
    simp only [hfixed, hkind, hclass, hlength, hdata]
    rcases record.address_cases with ⟨hA, a, b, c, d, hbytes, haddress⟩ | ⟨hnot, haddress⟩
    · rw [haddress]
      simp only [hbytes, hA, and_self, if_true, Option.toList_some]
      rw [← append_assoc]
      rw [hbytes] at ih
      exact ih _ _
    rw [haddress]
    split
    · rename_i hbytes
      rw [if_neg fun hA => hnot ⟨hA.1, by rw [hbytes]; rfl⟩]
      exact ih held ttl
    · exact ih held ttl

theorem RecordsAt.readRecords_direct (h : RecordsAt message offset records) :
    ∀ answer : Direct.Answer,
      (Direct.readRecords message records.length offset answer).map Direct.Answer.addresses =
        some (answer.addresses ++ addresses records) := by
  induction h with
  | nil =>
    intro answer
    simp [Direct.readRecords, addresses]
  | @cons offset next labels fixed record records hname hfixed hkind _ hlength hdata _ _ ih =>
    intro answer
    have hten := length_of_slice hfixed
    have hadds : ∀ owner start,
        (Direct.readRecord message owner record.kind.toNat record.data.length start record.data
          answer).addresses = answer.addresses ++ record.address.toList := by
      intro owner start
      simp only [Direct.readRecord, toNat_eq_one_iff]
      rcases record.address_cases with ⟨hA, a, b, c, d, hbytes, haddress⟩ | ⟨hnot, haddress⟩
      · rw [if_pos ⟨hA, by rw [hbytes]; rfl⟩, haddress, hbytes]
        rfl
      · rw [haddress, Option.toList_none, append_nil]
        split_ifs
        · split <;> rfl
        · rfl
    rw [length_cons, Direct.readRecords, hname.readName, addresses_cons, ← append_assoc]
    simp only [Option.bind_eq_bind, Option.bind_some, hfixed]
    rw [u16At_direct (by omega), u16At_direct (by omega), hkind, hlength]
    simp only [Option.bind_some, hdata]
    rw [ih, hadds]

theorem RecordsAt.collectAnswers {lowercase : Text → Text} (hlower : LowersAscii lowercase)
    (rule : Text) (h : RecordsAt message offset records) :
    ∀ result : List (Octets × Text),
      SplitCapture.collectAnswers lowercase message rule records.length offset result =
        result ++ (addresses records).map fun address => (address, rule) := by
  induction h with
  | nil =>
    intro result
    simp [SplitCapture.collectAnswers, addresses]
  | @cons offset next labels fixed record records hname hfixed hkind _ hlength hdata _ _ ih =>
    intro result
    have hroom := le_of_slice hfixed
    have hroom' := le_of_slice hdata
    have hkind' : u16At message next = record.kind := by
      rw [← hkind, u16At_slice hfixed (by omega), Nat.add_zero]
    have hlength' : (u16At message (next + 8)).toNat = record.data.length := by
      rw [← hlength, u16At_slice hfixed (by omega)]
    rw [length_cons, SplitCapture.collectAnswers, hname.dnsName hlower, addresses_cons]
    simp only [not_lt.2 hroom, hkind', hlength', not_lt.2 hroom', if_false]
    rw [ih]
    rcases record.address_cases with ⟨hA, a, b, c, d, hbytes, haddress⟩ | ⟨hnot, haddress⟩
    · have hoctets : octetsAt message (next + 10) = (a, b, c, d) := by
        have hbyte : ∀ i, i < 4 → message.getD (next + 10 + i) 0 = [a, b, c, d].getD i 0 := by
          intro i hi
          rw [← hbytes, getD_slice hdata (by rw [hbytes]; exact hi)]
        have h0 : message.getD (next + 10) 0 = a := hbyte 0 (by omega)
        have h1 : message.getD (next + 10 + 1) 0 = b := hbyte 1 (by omega)
        have h2 : message.getD (next + 10 + 2) 0 = c := hbyte 2 (by omega)
        have h3 : message.getD (next + 10 + 3) 0 = d := hbyte 3 (by omega)
        rw [octetsAt, h0, h1, h2, h3]
      rw [if_pos ⟨hA, by rw [hbytes]; rfl⟩, haddress, hoctets]
      simp
    · rw [if_neg (show ¬ (record.kind = 1 ∧ _) from hnot), haddress]
      simp

/-! ### The header -/

theorem u16OfBe_and (hi lo : UInt8) (mask : UInt16) :
    u16OfBe hi lo &&& mask = hi.toUInt16 <<< 8 &&& mask ||| lo.toUInt16 &&& mask := by
  apply UInt16.toBitVec_inj.1
  exact BitVec.and_or_distrib_right

theorem flagResponse_iff (hi lo : UInt8) :
    u16OfBe hi lo &&& Dns.flagResponse = 0 ↔ hi &&& 0x80 = 0 := by
  have hlow : lo.toUInt16 &&& Dns.flagResponse = 0 :=
    forall_byte (p := fun lo => lo.toUInt16 &&& Dns.flagResponse = 0) (by decide +kernel) lo
  have hhigh : hi.toUInt16 <<< 8 &&& Dns.flagResponse = 0 ↔ hi &&& 0x80 = 0 :=
    forall_byte (p := fun hi => hi.toUInt16 <<< 8 &&& Dns.flagResponse = 0 ↔ hi &&& 0x80 = 0)
      (by decide +kernel) hi
  rw [u16OfBe_and, hlow, UInt16.or_zero, hhigh]

theorem rcodeMask_iff (hi lo : UInt8) :
    u16OfBe hi lo &&& Dns.rcodeMask = 0 ↔ lo &&& 0x0f = 0 := by
  have hhigh : hi.toUInt16 <<< 8 &&& Dns.rcodeMask = 0 :=
    forall_byte (p := fun hi => hi.toUInt16 <<< 8 &&& Dns.rcodeMask = 0) (by decide +kernel) hi
  have hlow : lo.toUInt16 &&& Dns.rcodeMask = 0 ↔ lo &&& 0x0f = 0 :=
    forall_byte (p := fun lo => lo.toUInt16 &&& Dns.rcodeMask = 0 ↔ lo &&& 0x0f = 0)
      (by decide +kernel) lo
  rw [u16OfBe_and, hhigh, UInt16.zero_or, hlow]

/-! ### The rule -/

theorem foldl_rule_mem {step : Option Text → Text → Option Text} (rules : List Text)
    (hstep : ∀ best rule, step best rule = some rule ∨ ∃ held, best = some held ∧
      step best rule = some held) :
    ∀ best, (∀ found, rules.foldl step best = some found → best = some found ∨ found ∈ rules) ∧
      (best ≠ none ∨ rules ≠ [] → rules.foldl step best ≠ none) := by
  induction rules with
  | nil =>
    intro best
    exact ⟨fun found h => .inl h, fun h => h.resolve_right (by simp)⟩
  | cons rule rules ih =>
    intro best
    obtain ⟨hmem, hsome⟩ := ih (step best rule)
    have hnext : step best rule ≠ none := by
      rcases hstep best rule with heq | ⟨held, -, heq⟩ <;> simp [heq]
    refine ⟨?_, fun _ => hsome (.inl hnext)⟩
    intro found hfound
    rcases hmem found hfound with hbest | hrest
    · rcases hstep best rule with heq | ⟨held, rfl, heq⟩
      · rw [heq] at hbest
        cases hbest
        exact .inr mem_cons_self
      · rw [heq] at hbest
        exact .inl hbest
    · exact .inr (mem_cons_of_mem _ hrest)

theorem mostSpecificRule_mem (name : Text) (hostnames : List Text) :
    (∀ found, mostSpecificRule name hostnames = some found → found ∈ hostnames) ∧
      ∀ rule ∈ hostnames, hostnameMatches name rule = true →
        mostSpecificRule name hostnames ≠ none := by
  obtain ⟨hmem, hsome⟩ : (∀ found, mostSpecificRule name hostnames = some found →
        none = some found ∨ found ∈ hostnames.filter (hostnameMatches name)) ∧
      (none ≠ none ∨ hostnames.filter (hostnameMatches name) ≠ [] →
        mostSpecificRule name hostnames ≠ none) := by
    refine foldl_rule_mem _ (fun best rule => ?_) none
    cases best with
    | none => exact .inl rfl
    | some held =>
      dsimp only
      split_ifs
      · exact .inr ⟨held, rfl, rfl⟩
      · exact .inl rfl
  constructor
  · intro found hfound
    exact mem_of_mem_filter ((hmem found hfound).resolve_left (by simp))
  · intro rule hrule hmatch
    exact hsome (.inr (ne_nil_of_mem (mem_filter.2 ⟨hrule, hmatch⟩)))

theorem exists_matched {hostnames : List Text} {labels : List Bytes} {rule : Text}
    (hlabels : labels ∈ questions) (hrule : rule ∈ hostnames)
    (hmatch : hostnameMatches (lowerText (dotted labels)) rule = true) :
    ∃ found ∈ hostnames, questions.foldl (fun matched labels =>
      matched.or (mostSpecificRule (lowerText (dotted labels)) hostnames)) none =
        some found := by
  induction questions with
  | nil => cases hlabels
  | cons first questions ih =>
    rw [foldl_cons]
    cases hfirst : mostSpecificRule (lowerText (dotted first)) hostnames with
    | some held =>
      -- The first rule that is found is kept.
      have hkept : ∀ questions : List (List Bytes), questions.foldl (fun matched labels =>
          matched.or (mostSpecificRule (lowerText (dotted labels)) hostnames))
            (some held) = some held := by
        intro questions
        induction questions with
        | nil => rfl
        | cons labels questions ih => exact ih
      exact ⟨held, (mostSpecificRule_mem _ _).1 held hfirst, hkept questions⟩
    | none =>
      rcases mem_cons.1 hlabels with rfl | hrest
      · exact absurd hfirst ((mostSpecificRule_mem _ _).2 rule hrule hmatch)
      · exact ih hrest

/-- The addresses of an answer. -/
def answeredAddresses : Dns.Answer → List Octets
  | .addresses addresses _ => addresses
  | .noAddress _ => []

namespace GoodResponse

variable (h : GoodResponse message questions records)

include h

theorem readAnswer :
    (Dns.readAnswer message (u16At message 0)).map answeredAddresses =
      some (addresses records) := by
  obtain ⟨offset, hquestions, hrecords⟩ := h.sections
  have hverdict : Dns.verdict message (u16At message 0) = .answered := by
    have hresponse : u16At message 2 &&& Dns.flagResponse ≠ 0 :=
      mt (flagResponse_iff _ _).1 h.response
    have hsuccess : u16At message 2 &&& Dns.rcodeMask = 0 := (rcodeMask_iff _ _).2 h.success
    rw [Dns.verdict, if_neg (not_lt.2 h.long), if_neg (by simp)]
    simp only [hresponse, hsuccess, if_false, if_true]
  have hread := hrecords.readRecords [] (UInt32.ofNat (2 ^ 32 - 1))
  obtain ⟨⟨found, ttl⟩, hfound, heq⟩ := Option.map_eq_some_iff.1 hread
  obtain rfl : found = addresses records := by simpa using heq
  rw [Dns.readAnswer, hverdict]
  simp only [Dns.readSuccess]
  rw [h.questionCount, hquestions.skipQuestions, h.answerCount]
  simp only [hfound]
  cases hnone : addresses records with
  | nil | cons => rfl

theorem readAnswer_direct :
    (Direct.readAnswer message).map Direct.Answer.addresses = some (addresses records) := by
  obtain ⟨offset, hquestions, hrecords⟩ := h.sections
  have hlong : 12 ≤ message.length := h.long
  have hresponse := h.response
  have hsuccess := h.success
  rw [getD_eq_getElem?_getD, getElem?_eq_getElem (by omega)]
    at hresponse hsuccess
  have hbad : ¬ (message.length < 12 ∨ message[2] &&& 0x80 = 0 ∨ message[3] &&& 0x0f ≠ 0) := by
    rintro (hshort | hquery | hfailed)
    · omega
    · exact hresponse hquery
    · exact hfailed hsuccess
  simp only [Direct.readAnswer, getElem?_eq_getElem (by omega : 2 < message.length),
    getElem?_eq_getElem (by omega : 3 < message.length),
      u16At_direct (by omega : 4 + 1 < message.length),
    u16At_direct (by omega : 6 + 1 < message.length), Option.bind_eq_bind, Option.bind_some,
      if_neg hbad]
  rw [h.questionCount, show (12 : ℕ) = headerLen from rfl, hquestions.readQuestions, h.answerCount]
  exact hrecords.readRecords_direct _

theorem messageAddresses {lowercase : Text → Text} (hlower : LowersAscii lowercase)
    {hostnames : List Text} {labels : List Bytes} {rule : Text} (hlabels : labels ∈ questions)
    (hrule : rule ∈ hostnames) (hmatch : hostnameMatches (lowerText (dotted labels)) rule = true) :
    ∃ rule ∈ hostnames, SplitCapture.messageAddresses lowercase message hostnames =
      (addresses records).map fun address => (address, rule) := by
  obtain ⟨offset, hquestions, hrecords⟩ := h.sections
  obtain ⟨found, hfound, heq⟩ := exists_matched hlabels hrule hmatch
  have hlong : 12 ≤ message.length := h.long
  refine ⟨found, hfound, ?_⟩
  rw [SplitCapture.messageAddresses, if_neg, h.questionCount, h.answerCount]
  · have hmatched := hquestions.matchQuestions hlower hostnames none
    rw [heq] at hmatched
    rw [show (12 : ℕ) = headerLen from rfl, hmatched]
    exact hrecords.collectAnswers hlower found []
  · rintro (hshort | hquery)
    · omega
    · exact h.response hquery

end GoodResponse

end Agreement

end GamePath.Engine.DnsMessages
