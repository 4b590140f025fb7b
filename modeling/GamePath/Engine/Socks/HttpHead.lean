import GamePath.Engine.Utf8

/-!
# The head of an HTTP request

A head is lines, and its first line is words. `Head.WrittenIn` says of the bytes alone that a head
stands at their front, up to the first empty line. Each request that `parse_http_request` accepts
has a head (`exists_writtenIn`), and what the parser reads is what is written (`splitLines_text`).
-/

namespace GamePath.Engine.Socks

open List

open Direct (Text splitOnce)
open Dns (utf8Bytes)

/-! ## Splitting at a character -/

section SplitOnce

variable {c : Char} {before after value : Text}

theorem splitOnce_append (h : c ∉ before) :
    splitOnce c (before ++ c :: after) = some (before, after) := by
  induction before with
  | nil => simp [splitOnce]
  | cons d before ih =>
    have hd : d ≠ c := fun heq => h (heq ▸ mem_cons_self)
    have hrest : c ∉ before := fun hmem => h (mem_cons_of_mem _ hmem)
    rw [cons_append, splitOnce, if_neg hd, ih hrest]
    rfl

theorem splitOnce_eq_none (h : c ∉ value) : splitOnce c value = none := by
  induction value with
  | nil => rfl
  | cons d value ih =>
    have hd : d ≠ c := fun heq => h (heq ▸ mem_cons_self)
    have hrest : c ∉ value := fun hmem => h (mem_cons_of_mem _ hmem)
    rw [splitOnce, if_neg hd, ih hrest]
    rfl

theorem rsplitOnce_append (h : c ∉ after) :
    rsplitOnce c (before ++ c :: after) = some (before, after) := by
  have hreverse : (before ++ c :: after).reverse = after.reverse ++ c :: before.reverse := by simp
  rw [rsplitOnce, hreverse, splitOnce_append (by simpa using h)]
  simp

theorem rsplitOnce_eq_none (h : c ∉ value) : rsplitOnce c value = none := by
  rw [rsplitOnce, splitOnce_eq_none (by simpa using h)]
  rfl

theorem not_mem_of_mem_splitOn (c : Char) (value : Text) : ∀ part ∈ value.splitOn c, c ∉ part := by
  induction value with
  | nil => simp
  | cons d value ih =>
    rw [splitOn_cons_eq_if_modifyHead]
    split_ifs with hd
    · exact forall_mem_cons.2 ⟨not_mem_nil, ih⟩
    have hne : c ≠ d := fun heq => hd (beq_iff_eq.2 heq.symm)
    cases hparts : value.splitOn c with
    | nil => exact absurd hparts (splitOn_ne_nil c value)
    | cons part parts =>
      rw [hparts, forall_mem_cons] at ih
      exact forall_mem_cons.2 ⟨not_mem_cons_of_ne_of_not_mem hne ih.1, ih.2⟩

end SplitOnce

/-! ## Lines -/

section Lines

/-- `"\r\n"`. -/
def crlf : Text := ['\r', '\n']

theorem splitLines_ne_nil (text : Text) : splitLines text ≠ [] := by
  induction text using splitLines.induct with
  | case1 | case2 => simp [splitLines]
  | case3 _ _ hne _ _ hlines | case4 _ _ hne hlines =>
    rw [splitLines, hlines]
    · exact cons_ne_nil _ _
    · exact hne

theorem intercalate_cons_char (c : Char) (line : Text) (lines : List Text) :
    crlf.intercalate ((c :: line) :: lines) = c :: crlf.intercalate (line :: lines) := by
  cases lines with
  | nil => simp
  | cons next lines => rw [intercalate_cons_cons, intercalate_cons_cons]; rfl

theorem intercalate_splitLines (text : Text) : crlf.intercalate (splitLines text) = text := by
  induction text using splitLines.induct with
  | case1 => rfl
  | case2 rest ih =>
    rw [splitLines, intercalate_cons_of_ne_nil (splitLines_ne_nil rest), ih]
    rfl
  | case3 c rest hne line lines hlines ih =>
    rw [splitLines, hlines]
    · rw [hlines] at ih
      rw [intercalate_cons_char, ih]
    · exact hne
  | case4 c rest hne hlines ih => exact absurd hlines (splitLines_ne_nil rest)

/-- No line of a text has an end of a line inside. -/
theorem not_infix_of_mem_splitLines (text : Text) : ∀ line ∈ splitLines text, ¬ crlf <:+: line := by
  induction text using splitLines.induct with
  | case1 =>
    intro line hline
    obtain rfl := mem_singleton.1 hline
    decide
  | case2 rest ih =>
    rw [splitLines, forall_mem_cons]
    exact ⟨by decide, ih⟩
  | case3 c rest hne line lines hlines ih =>
    rw [splitLines, hlines]
    · rw [hlines, forall_mem_cons] at ih
      refine forall_mem_cons.2 ⟨?_, ih.2⟩
      intro hinfix
      rcases infix_cons_iff.1 hinfix with hprefix | hinfix
      · -- The text would begin with the end of a line.
        obtain ⟨behind, hbehind⟩ := hprefix
        cases hbehind
        have htext := intercalate_splitLines rest
        rw [hlines] at htext
        change crlf.intercalate (('\n' :: behind) :: lines) = rest at htext
        rw [intercalate_cons_char] at htext
        exact hne _ rfl htext.symm
      · exact ih.1 hinfix
    · exact hne
  | case4 c rest hne hlines ih => exact absurd hlines (splitLines_ne_nil rest)

theorem splitLines_cons {c : Char} {rest line : Text} {lines : List Text}
    (hne : ¬ crlf <+: c :: rest)
    (h : splitLines rest = line :: lines) : splitLines (c :: rest) = (c :: line) :: lines := by
  rw [splitLines, h]
  rintro behind rfl rfl
  exact hne ⟨behind, rfl⟩

theorem splitLines_append {line : Text} (h : ¬ crlf <:+: line) (rest : Text) :
    splitLines (line ++ crlf ++ rest) = line :: splitLines rest := by
  induction line with
  | nil => rfl
  | cons c line ih =>
    have hline : ¬ crlf <:+: line := fun hinfix => h (infix_cons hinfix)
    apply splitLines_cons _ (ih hline)
    rintro ⟨behind, hbehind⟩
    obtain ⟨rfl, hnext⟩ := List.cons.inj hbehind
    cases line with
    | nil => cases hnext
    | cons d line =>
      cases hnext
      exact h ⟨[], line, rfl⟩

theorem splitLines_eq_singleton {line : Text} (h : ¬ crlf <:+: line) :
    splitLines line = [line] := by
  induction line with
  | nil => rfl
  | cons c line ih =>
    have hline : ¬ crlf <:+: line := fun hinfix => h (infix_cons hinfix)
    exact splitLines_cons (fun hprefix => h hprefix.isInfix) (ih hline)

theorem splitLines_intercalate {lines : List Text} (hne : lines ≠ [])
    (h : ∀ line ∈ lines, ¬ crlf <:+: line) : splitLines (crlf.intercalate lines) = lines := by
  induction lines with
  | nil => exact absurd rfl hne
  | cons line lines ih =>
    obtain ⟨hline, hlines⟩ := forall_mem_cons.1 h
    cases lines with
    | nil => rw [intercalate_singleton, splitLines_eq_singleton hline]
    | cons next lines =>
      rw [intercalate_cons_cons, splitLines_append hline, ih (cons_ne_nil _ _) hlines]

end Lines

/-! ## The head -/

section Head

/-- A request head: the words of the request line, with those that nothing reads, and the header
lines. -/
structure Head where
  method : Text
  uri : Text
  version : Text
  more : List Text
  headers : List Text

/-- The words of the request line. -/
def Head.words (head : Head) : List Text := head.method :: head.uri :: head.version :: head.more

/-- The lines of the head. -/
def Head.lines (head : Head) : List Text := List.intercalate [' '] head.words :: head.headers

/-- The text of the head. -/
def Head.text (head : Head) : Text := crlf.intercalate head.lines

/-- The head stands at the front of the bytes, and the first empty line ends it. -/
structure Head.WrittenIn (head : Head) (buffer : Bytes) : Prop where
  text : utf8Bytes head.text ++ [13, 10, 13, 10] <+: buffer
  first : ∀ k < (utf8Bytes head.text).length, ¬ [13, 10, 13, 10] <+: buffer.drop k
  words : ∀ word ∈ head.words, ' ' ∉ word
  lines : ∀ line ∈ head.lines, ¬ crlf <:+: line

theorem headEnd_eq_some_iff {buffer : Bytes} :
    ∀ {position : ℕ}, headEnd buffer = some position ↔
      [13, 10, 13, 10] <+: buffer.drop position ∧
        ∀ k < position, ¬ [13, 10, 13, 10] <+: buffer.drop k := by
  induction buffer with
  | nil =>
    intro position
    simp [headEnd]
  | cons byte rest ih =>
    intro position
    rw [headEnd]
    split
    next hstart =>
      rw [List.isPrefixOf_iff_prefix] at hstart
      constructor
      · intro heq
        cases heq
        exact ⟨hstart, fun k hk => absurd hk (Nat.not_lt_zero _)⟩
      · rintro ⟨-, hfirst⟩
        cases position with
        | zero => rfl
        | succ position => exact absurd hstart (hfirst 0 (Nat.succ_pos _))
    next hstart =>
      rw [List.isPrefixOf_iff_prefix] at hstart
      cases position with
      | zero =>
        constructor
        · intro heq
          obtain ⟨position, -, heq⟩ := Option.map_eq_some_iff.1 heq
          cases heq
        · exact fun h => absurd h.1 hstart
      | succ position =>
        rw [Option.map_eq_some_iff]
        constructor
        · rintro ⟨position', hposition, heq⟩
          cases heq
          obtain ⟨hat, hfirst⟩ := ih.1 hposition
          refine ⟨hat, ?_⟩
          rintro (_ | k) hk
          · exact hstart
          · exact hfirst k (by omega)
        · rintro ⟨hat, hfirst⟩
          exact ⟨position, ih.2 ⟨hat, fun k hk => hfirst (k + 1) (by omega)⟩, rfl⟩

namespace Head.WrittenIn

variable {head : Head} {buffer : Bytes}

section

variable (h : head.WrittenIn buffer)
include h

theorem headEnd :
    Socks.headEnd buffer = some (utf8Bytes head.text).length := by
  obtain ⟨body, hbody⟩ := h.text
  rw [headEnd_eq_some_iff]
  refine ⟨⟨body, ?_⟩, h.first⟩
  rw [← hbody, append_assoc, drop_left]

theorem read :
    fromUtf8 (buffer.take (utf8Bytes head.text).length) = some head.text := by
  obtain ⟨body, hbody⟩ := h.text
  rw [← hbody, append_assoc, take_left, Utf8.fromUtf8_utf8Bytes]

theorem splitLines_text : splitLines head.text = head.lines :=
  splitLines_intercalate (cons_ne_nil _ _) h.lines

theorem splitOn_line :
    (List.intercalate [' '] head.words).splitOn ' ' = head.words :=
  splitOn_intercalate ' ' h.words (cons_ne_nil _ _)

theorem parseHttpRequest (base64 : Text → Option Bytes) :
    Socks.parseHttpRequest base64 buffer =
      parseHttpHead base64 head.text ((utf8Bytes head.text).length + 4) := by
  rw [Socks.parseHttpRequest, h.headEnd]
  dsimp only
  rw [h.read]

end

end Head.WrittenIn

/-- The request line of what is accepted has three words. -/
theorem exists_words {base64 : Text → Option Bytes} {text line : Text} {headers : List Text}
    {consumed used : ℕ} {request : HttpRequest}
    (h : parseHttpHead base64 text consumed = .done request used)
    (hlines : splitLines text = line :: headers) :
    ∃ method uri version more, line.splitOn ' ' = method :: uri :: version :: more := by
  rw [parseHttpHead, hlines] at h
  split at h
  · next method uri version more hwords => exact ⟨method, uri, version, more, hwords⟩
  · cases h

/-- Whatever is accepted begins with a head. -/
theorem exists_writtenIn {base64 : Text → Option Bytes} {buffer : Bytes} {request : HttpRequest}
    {used : ℕ} (h : parseHttpRequest base64 buffer = .done request used) :
    ∃ head : Head, head.WrittenIn buffer := by
  rw [parseHttpRequest] at h
  cases hend : headEnd buffer with
  | none =>
    rw [hend] at h
    split_ifs at h
  | some position =>
    rw [hend] at h
    dsimp only at h
    cases htext : fromUtf8 (buffer.take position) with
    | none =>
      rw [htext] at h
      cases h
    | some text =>
      rw [htext] at h
      have hbytes := Utf8.fromUtf8_eq_some_iff.1 htext
      obtain ⟨⟨body, hbody⟩, hfirst⟩ := headEnd_eq_some_iff.1 hend
      have hposition : (utf8Bytes text).length = position := by
        have hle := headEnd_le hend
        rw [← hbytes, length_take]
        omega
      obtain ⟨line, headers, hlines⟩ := exists_cons_of_ne_nil (splitLines_ne_nil text)
      obtain ⟨method, uri, version, more, hwords⟩ := exists_words h hlines
      have hline : List.intercalate [' '] (method :: uri :: version :: more) = line := by
        rw [← hwords, intercalate_splitOn]
      have hhead : (⟨method, uri, version, more, headers⟩ : Head).lines = splitLines text := by
        rw [hlines, Head.lines, Head.words, hline]
      have hheadText : (⟨method, uri, version, more, headers⟩ : Head).text = text := by
        rw [Head.text, hhead, intercalate_splitLines]
      refine ⟨⟨method, uri, version, more, headers⟩, ?_, ?_, ?_, ?_⟩
      · rw [hheadText, ← hbytes]
        refine ⟨body, ?_⟩
        rw [append_assoc, hbody, take_append_drop]
      · rwa [hheadText, hposition]
      · intro word hword
        rw [Head.words, ← hwords] at hword
        exact not_mem_of_mem_splitOn ' ' line word hword
      · rw [hhead]
        exact not_infix_of_mem_splitLines text

end Head

end GamePath.Engine.Socks
