import GamePath.Engine.OpenVpn.Config

/-!
# Which port and protocol a remote gets

A remote line may name its own port and protocol; its connection block may set them, the file may
set them, and 1194 over UDP is what is left. `resolved` reads a file that way, from its directives
and blocks alone (`items`).

The parser keeps one port and one protocol for the whole file, which the directives inside every
block set as those outside do, and a port so set is taken before a remote's own. `remotes_parse`
says what a parse comes to, and `remotes_resolved_iff` for which files that is what `resolved` says.
-/

namespace GamePath.Engine.OpenVpn

open List FileConfig

open Direct (Text)

deriving instance DecidableEq for Remote

/-! ## What a file says -/

/-- A directive with its words. -/
structure Statement where
  name : Text
  arguments : List Text

/-- What stands in a file: a directive, or a block between its tags. -/
inductive Item where
  | directive (statement : Statement)
  | block (tag body : Text)

namespace Statement

/-- The remote that a remote line names, with its own port and protocol. -/
def remote? (s : Statement) : Option PendingRemote :=
  if s.name = "remote".toList then
    s.arguments[0]?.map fun host =>
      ⟨host, s.arguments[1]?.bind fun value => (parsePort value).toOption,
        s.arguments[2]?.bind fun name => (parseProtocol name).toOption⟩
  else none

/-- The port that a `port` or `rport` line sets. -/
def port? (s : Statement) : Option UInt16 :=
  if s.name = "port".toList ∨ s.name = "rport".toList then
    s.arguments[0]?.bind fun value => (parsePort value).toOption
  else none

/-- The protocol that a `proto` line sets. -/
def protocol? (s : Statement) : Option Protocol :=
  if s.name = "proto".toList then s.arguments[0]?.bind fun name =>
    (parseProtocol name).toOption else none

end Statement

/-- The directive on a line of a block. -/
def statementOf (line : Text) : Option Statement :=
  match tokenize (stripComment line) with
  | [] => none
  | directive :: arguments => some ⟨Parser.directiveName directive, arguments⟩

/-- The directives of a block, in order. -/
def statementsOf (body : Text) : List Statement := (lines body).filterMap statementOf

/-- What stands in the lines of a file. A block takes a line at least. -/
def itemsFrom : Nat → List Text → List Item
  | _, [] => []
  | 0, _ :: _ => []
  | fuel + 1, line :: rest =>
    match inlineOpenTag (stripComment line) with
    | some tag =>
      match collectInlineFrom ("</".toList ++ tag ++ ['>']) rest [] with
      | some (body, rest) => .block tag body :: itemsFrom fuel rest
      | none => []
    | none =>
      match statementOf line with
      | none => itemsFrom fuel rest
      | some statement => .directive statement :: itemsFrom fuel rest

/-- What stands in a file. -/
def items (source : Text) : List Item := itemsFrom (lines source).length (lines source)

/-- What the last statement that sets it sets. -/
def lastOf {α : Type} (setting : Statement → Option α) (statements : List Statement) : Option α :=
  (statements.filterMap setting).getLast?

/-- The directives at file level. -/
def Item.atFileLevel : Item → List Statement
  | .directive statement => [statement]
  | .block _ _ => []

/-- The directives at file level and in connection blocks. -/
def Item.statements : Item → List Statement
  | .directive statement => [statement]
  | .block tag body => if tag = "connection".toList then statementsOf body else []

/-- A remote line with what its connection block sets. -/
structure Declared where
  remote : PendingRemote
  blockPort : Option UInt16
  blockProtocol : Option Protocol
  deriving DecidableEq

/-- The remote lines of an item. -/
def Item.declared : Item → List Declared
  | .directive statement => statement.remote?.toList.map fun remote => ⟨remote, none, none⟩
  | .block tag body =>
    if tag = "connection".toList then
      ((statementsOf body).filterMap Statement.remote?).map fun remote =>
        ⟨remote, lastOf Statement.port? (statementsOf body), lastOf Statement.protocol?
          (statementsOf body)⟩
    else []

/-- The last setting at file level. -/
def fileSetting {α : Type} (setting : Statement → Option α) (items : List Item) : Option α :=
  lastOf setting (items.flatMap Item.atFileLevel)

/-- The last setting of the file, inside blocks and outside. -/
def lastSetting {α : Type} (setting : Statement → Option α) (items : List Item) : Option α :=
  lastOf setting (items.flatMap Item.statements)

/-- The remotes of a file, each with its own port and protocol, else its block's, else the file's.
-/
def resolved (items : List Item) : List Remote :=
  (items.flatMap Item.declared).map fun d =>
    ⟨d.remote.host,
      ((d.remote.port.or d.blockPort).or (fileSetting Statement.port? items)).getD 1194,
      ((d.remote.protocol.or d.blockProtocol).or (fileSetting Statement.protocol? items)).getD .udp⟩

/-! ## What the parser keeps of it -/

theorem of_bind_ok {α β : Type} {x : Except String α} {f : α → Except String β} {b : β}
    (h : (x >>= f) = .ok b) : ∃ a, x = .ok a ∧ f a = .ok b := by
  cases x with
  | error error => cases h
  | ok a => exact ⟨a, rfl, h⟩

theorem of_map_ok {α β : Type} {x : Except String α} {f : α → β} {b : β} (h : x.map f = .ok b) :
    ∃ a, x = .ok a ∧ f a = b := by
  cases x with
  | error error => cases h
  | ok a => exact ⟨a, rfl, Except.ok.inj h⟩

theorem of_okOr {α : Type} {value : Option α} {message : String} {a : α}
    (h : okOr value message = .ok a) : value = some a := by
  cases value with
  | none => cases h
  | some b => rw [okOr] at h; rw [Except.ok.inj h]

theorem of_transposed {α : Type} {parse : Text → Except String α} {argument : Option Text}
    {a : Option α} (h : transposed parse argument = .ok a) :
    a = argument.bind fun value => (parse value).toOption := by
  cases argument with
  | none => exact (Except.ok.inj h).symm
  | some value =>
    obtain ⟨b, hb, rfl⟩ := of_map_ok h
    rw [Option.bind_some, hb]
    rfl

namespace Parser

/-- The parser has read these statements and nothing else about remotes. -/
structure Grows (statements : List Statement) (parser parser' : Parser) : Prop where
  remotes : parser'.remotes = parser.remotes ++ statements.filterMap Statement.remote?
  port : parser'.port = (lastOf Statement.port? statements).or parser.port
  protocol : parser'.protocol = (lastOf Statement.protocol? statements).or parser.protocol

theorem Grows.refl (parser : Parser) : Grows [] parser parser :=
  ⟨(append_nil _).symm, rfl, rfl⟩

theorem lastOf_append {α : Type} (setting : Statement → Option α)
    (statements statements' : List Statement) :
    lastOf setting (statements ++ statements') = (lastOf setting statements').or
      (lastOf setting statements) := by
  rw [lastOf, filterMap_append, getLast?_append]
  rfl

theorem Grows.trans {statements statements' : List Statement} {p q r : Parser}
    (h : Grows statements p q)
    (h' : Grows statements' q r) : Grows (statements ++ statements') p r := by
  constructor
  · rw [h'.remotes, h.remotes, filterMap_append, append_assoc]
  · rw [h'.port, h.port, lastOf_append, Option.or_assoc]
  · rw [h'.protocol, h.protocol, lastOf_append, Option.or_assoc]

/-- A statement that says nothing about remotes. -/
def Silent (s : Statement) : Prop := s.remote? = none ∧ s.port? = none ∧ s.protocol? = none

theorem silent_of_name {s : Statement} (hremote : s.name ≠ "remote".toList)
    (hport : s.name ≠ "port".toList)
    (hrport : s.name ≠ "rport".toList) (hproto : s.name ≠ "proto".toList) : Silent s :=
  ⟨if_neg hremote, if_neg (not_or.2 ⟨hport, hrport⟩), if_neg hproto⟩

variable {p p' : Parser}

theorem Grows.of_silent {s : Statement} (h : Silent s) (hremotes : p'.remotes = p.remotes)
    (hport : p'.port = p.port) (hprotocol : p'.protocol = p.protocol) : Grows [s] p p' := by
  constructor
  · rw [filterMap_cons, h.1, filterMap_nil, append_nil, hremotes]
  · rw [lastOf, filterMap_cons, h.2.1, hport]
    rfl
  · rw [lastOf, filterMap_cons, h.2.2, hprotocol]
    rfl

/-- What the parser knows about remotes stays as it is, unless the file is refused. -/
def Keeps (parser : Parser) (result : Except String Parser) : Prop :=
  ∀ parser', result = .ok parser' →
    parser'.remotes = parser.remotes ∧ parser'.port = parser.port ∧
      parser'.protocol = parser.protocol

theorem Keeps.error (parser : Parser) (message : String) : parser.Keeps (.error message) := by
  intro _ h
  cases h

theorem Keeps.ok {parser parser' : Parser} (hremotes : parser'.remotes = parser.remotes)
    (hport : parser'.port = parser.port) (hprotocol : parser'.protocol = parser.protocol) :
    parser.Keeps (.ok parser') := by
  intro _ h
  cases h
  exact ⟨hremotes, hport, hprotocol⟩

variable {parser : Parser}

theorem Keeps.ite {c : Prop} [Decidable c] {x y : Except String Parser} (hx : parser.Keeps x)
    (hy : parser.Keeps y) : parser.Keeps (if c then x else y) := by
  split
  · exact hx
  · exact hy

theorem Keeps.map {α : Type} {x : Except String α} {f : α → Parser}
    (hf : ∀ a, parser.Keeps (.ok (f a))) : parser.Keeps (x.map f) := by
  cases x with
  | error message => exact .error parser message
  | ok a => exact hf a

theorem Keeps.bind {α : Type} {x : Except String α} {f : α → Except String Parser}
    (hf : ∀ a, parser.Keeps (f a)) : parser.Keeps (x >>= f) := by
  cases x with
  | error message => exact .error parser message
  | ok a => exact hf a

theorem authDirective_keeps (p : Parser) (arguments : List Text) :
    p.Keeps (p.authDirective arguments) :=
  .bind fun _ => .bind fun _ => .ok rfl rfl rfl

theorem ciphersDirective_keeps (p : Parser) (arguments : List Text) :
    p.Keeps (p.ciphersDirective arguments) :=
  .bind fun _ => .ite (.error _ _) (.ok rfl rfl rfl)

theorem sessionDirective_keeps (p : Parser) (name : Text) (arguments : List Text) :
    p.Keeps (p.sessionDirective name arguments) := by
  have hauth := authDirective_keeps p arguments
  have hciphers := ciphersDirective_keeps p arguments
  rw [sessionDirective]
  cases arguments[0]? with
  | none | some =>
    repeat' apply Keeps.ite
    all_goals first
      | exact .error _ _
      | exact .ok rfl rfl rfl
      | exact .map fun _ => .ok rfl rfl rfl
      | assumption

theorem directive_grows {name : Text} {arguments : List Text}
    (h : p.directive name arguments = .ok p') : Grows [⟨directiveName name, arguments⟩] p p' := by
  rw [directive] at h
  split at h
  · cases h
  split at h
  next hname =>
    obtain ⟨host, hhost, h⟩ := of_bind_ok h
    obtain ⟨port, hport, h⟩ := of_bind_ok h
    obtain ⟨protocol, hprotocol, h⟩ := of_bind_ok h
    cases h
    have hremote : Statement.remote? ⟨directiveName name, arguments⟩ =
        some ⟨host, port, protocol⟩ := by
      rw [Statement.remote?, if_pos hname, of_okOr hhost, Option.map_some, of_transposed hport,
        of_transposed hprotocol]
    constructor
    · rw [filterMap_cons, hremote]
      rfl
    · rw [lastOf, filterMap_cons, Statement.port?, if_neg (by simp [hname])]
      rfl
    · rw [lastOf, filterMap_cons, Statement.protocol?, if_neg (by simp [hname])]
      rfl
  next hremote =>
    split at h
    next hname =>
      obtain ⟨argument, hargument, h⟩ := of_bind_ok h
      obtain ⟨protocol, hprotocol, h⟩ := of_bind_ok h
      cases h
      have hset : Statement.protocol? ⟨directiveName name, arguments⟩ = some protocol := by
        rw [Statement.protocol?, if_pos hname, of_okOr hargument, Option.bind_some, hprotocol]
        rfl
      constructor
      · rw [filterMap_cons, Statement.remote?, if_neg hremote, filterMap_nil, append_nil]
      · rw [lastOf, filterMap_cons, Statement.port?, if_neg (by simp [hname])]
        rfl
      · rw [lastOf, filterMap_cons, hset]
        rfl
    next hproto =>
      split at h
      next hname =>
        obtain ⟨argument, hargument, h⟩ := of_bind_ok h
        obtain ⟨port, hport, h⟩ := of_bind_ok h
        cases h
        have hset : Statement.port? ⟨directiveName name, arguments⟩ = some port := by
          rw [Statement.port?, if_pos hname, of_okOr hargument, Option.bind_some, hport]
          rfl
        constructor
        · rw [filterMap_cons, Statement.remote?, if_neg hremote, filterMap_nil, append_nil]
        · rw [lastOf, filterMap_cons, hset]
          rfl
        · rw [lastOf, filterMap_cons, Statement.protocol?, if_neg hproto]
          rfl
      next hport =>
        obtain ⟨hremotes, hsame, hprotocol⟩ := sessionDirective_keeps _ _ _ _ h
        have hports := not_or.1 hport
        exact .of_silent (silent_of_name hremote hports.1 hports.2 hproto) hremotes hsame hprotocol

/-! ### Blocks -/

theorem connectionLine_grows {line : Text} (h : p.connectionLine line = .ok p') :
    Grows (statementOf line).toList p p' := by
  rw [connectionLine] at h
  rw [statementOf]
  cases htokens : tokenize (stripComment line) with
  | nil =>
    rw [htokens] at h
    cases h
    exact .refl _
  | cons name arguments =>
    rw [htokens] at h
    dsimp only at h
    split at h
    · exact directive_grows h
    next hother =>
      cases h
      -- A line that is passed over concerns no remote.
      rw [concernsConnection, Bool.not_eq_true, Bool.or_eq_false_iff,
          decide_eq_false_iff_not] at hother
      have hnames := hother.1
      simp only [mem_cons, not_mem_nil, or_false, not_or] at hnames
      exact .of_silent (silent_of_name hnames.1 hnames.2.2.1 hnames.2.2.2 hnames.2.1) rfl rfl rfl

theorem foldlM_grows {body : List Text} (h : body.foldlM connectionLine p = .ok p') :
    Grows (body.filterMap statementOf) p p' := by
  induction body generalizing p with
  | nil =>
    cases h
    exact .refl _
  | cons line body ih =>
    obtain ⟨q, hq, h⟩ := of_bind_ok h
    have hline := connectionLine_grows hq
    have hrest := hline.trans (ih h)
    cases hs : statementOf line with
    | none | some => simpa [hs] using hrest

theorem directive_unsupported (p : Parser) {name : Text} (h : name ∈ unsupportedCertificateChecks)
    (arguments : List Text) : p.Keeps (p.directive name arguments) := by
  have hname : directiveName name = name := by
    simp only [unsupportedCertificateChecks, mem_cons, not_mem_nil, or_false] at h
    rcases h with rfl | rfl | rfl | rfl <;> decide
  rw [directive, hname, if_pos h]
  exact .error _ _

theorem inlineBlock_keeps (pem : Pem) (p : Parser) {tag : Text} (h : tag ≠ "connection".toList)
    (body : Text) :
    p.Keeps (p.inlineBlock pem tag body) := by
  rw [inlineBlock, if_neg h]
  by_cases hcheck : tag ∈ unsupportedCertificateChecks
  · rw [if_pos hcheck]
    exact directive_unsupported p hcheck []
  repeat' apply Keeps.ite
  all_goals first
    | exact .error _ _
    | exact .ok rfl rfl rfl
    | exact .map fun _ => .ok rfl rfl rfl

theorem inlineBlock_grows {pem : Pem} {tag body : Text} (h : p.inlineBlock pem tag body = .ok p') :
    Grows (Item.block tag body).statements p p' := by
  by_cases hconnection : tag = "connection".toList
  · subst hconnection
    exact foldlM_grows h
  · obtain ⟨hremotes, hport, hprotocol⟩ := inlineBlock_keeps pem p hconnection body p' h
    rw [Item.statements, if_neg hconnection]
    exact ⟨by rw [hremotes, filterMap_nil, append_nil], hport, hprotocol⟩

/-! ### The file -/

theorem length_collectInlineFrom {closing body collected : Text} {rest rest' : List Text}
    (h : collectInlineFrom closing rest body = some (collected, rest')) :
    rest'.length ≤ rest.length := by
  induction rest generalizing body with
  | nil => cases h
  | cons line rest ih =>
    rw [collectInlineFrom] at h
    split at h
    · cases h
      simp
    · exact Nat.le_succ_of_le (ih h)

theorem runFrom_grows {pem : Pem} {fuel : Nat} {rest : List Text} (hfuel : rest.length ≤ fuel)
    (h : runFrom pem fuel rest p = .ok p') :
    Grows ((itemsFrom fuel rest).flatMap Item.statements) p p' := by
  induction fuel generalizing rest p with
  | zero =>
    rw [length_eq_zero_iff.1 (Nat.le_zero.1 hfuel)] at h ⊢
    cases h
    exact .refl _
  | succ fuel ih =>
    cases rest with
    | nil =>
      cases h
      exact .refl _
    | cons line rest =>
      have hrest : rest.length ≤ fuel := by simpa using hfuel
      rw [runFrom] at h
      rw [itemsFrom]
      split at h
      next hempty =>
        -- An empty line or a comment.
        rw [statementOf, hempty]
        exact ih hrest h
      next hline =>
        cases htag : inlineOpenTag (stripComment line) with
        | some tag =>
          rw [htag] at h
          obtain ⟨⟨body, behind⟩, hcollected, h⟩ := of_bind_ok h
          obtain ⟨q, hq, h⟩ := of_bind_ok h
          rw [collectInline] at hcollected
          cases hfrom : collectInlineFrom ("</".toList ++ tag ++ ['>']) rest [] with
          | none =>
            rw [hfrom] at hcollected
            cases hcollected
          | some collected =>
            rw [hfrom] at hcollected
            cases hcollected
            have hbehind := length_collectInlineFrom hfrom
            dsimp only
            rw [hfrom]
            exact (inlineBlock_grows hq).trans (ih (Nat.le_trans hbehind hrest) h)
        | none =>
          rw [htag] at h
          rw [statementOf]
          cases htokens : tokenize (stripComment line) with
          | nil =>
            rw [htokens] at h
            exact ih hrest h
          | cons name arguments =>
            rw [htokens] at h
            obtain ⟨q, hq, h⟩ := of_bind_ok h
            exact (directive_grows hq).trans (ih hrest h)

theorem remotes_finish {p : Parser} {config : FileConfig} (h : p.finish = .ok config) :
    config.remotes = p.remotes.map fun remote =>
      ⟨remote.host, (p.port.or remote.port).getD 1194,
        remote.protocol.getD (p.protocol.getD .udp)⟩ := by
  rw [finish] at h
  -- Each of the four checks refuses the file or has no effect.
  split at h
  · cases h
  split at h
  · cases h
  split at h
  · cases h
  split at h
  · cases h
  · obtain ⟨controlAuth, -, rfl⟩ := of_map_ok h
    rfl

end Parser

theorem map_declared (items : List Item) :
    (items.flatMap Item.declared).map Declared.remote =
      (items.flatMap Item.statements).filterMap Statement.remote? := by
  induction items with
  | nil => rfl
  | cons item items ih =>
    rw [flatMap_cons, flatMap_cons, map_append, filterMap_append]
    congr 1
    cases item with
    | directive statement =>
      rw [Item.declared, Item.statements]
      cases h : statement.remote? <;> simp [h]
    | block tag body =>
      rw [Item.declared, Item.statements]
      split
      · rw [map_map]
        exact map_id _
      · rfl

/-- What a parse comes to: the last port of the file before a remote's own, and the last protocol of
the file where a remote has none. -/
theorem remotes_parse {pem : Pem} {source : Text} {config : FileConfig}
    (h : parse pem source = .ok config) :
    config.remotes = ((items source).flatMap Item.declared).map fun d =>
      ⟨d.remote.host, ((lastSetting Statement.port? (items source)).or d.remote.port).getD 1194,
        d.remote.protocol.getD ((lastSetting Statement.protocol? (items source)).getD .udp)⟩ := by
  obtain ⟨p, hp, hfinish⟩ := of_bind_ok h
  have hgrows := Parser.runFrom_grows (Nat.le_refl _) hp
  have hremotes : p.remotes = ((items source).flatMap Item.declared).map Declared.remote := by
    rw [map_declared, hgrows.remotes]
    rfl
  rw [Parser.remotes_finish hfinish, hremotes, map_map, hgrows.port, hgrows.protocol]
  simp only [Parser.start, Option.or_none]
  rfl

/-! ## When it is what the file says -/

/-- Wherever a port is set, it is the one every remote is to have: remotes with their own port name
it, so do connection blocks for theirs, and what the file sets for the others is it. -/
def PortsAgree (items : List Item) : Prop :=
  ∀ last, lastSetting Statement.port? items = some last → ∀ d ∈ items.flatMap Item.declared,
    (∀ port, d.remote.port = some port → port = last) ∧
      (d.remote.port = none → ∀ port, d.blockPort = some port → port = last) ∧
      (d.remote.port = none → d.blockPort = none →
        (fileSetting Statement.port? items).getD 1194 = last)

/-- Wherever a protocol is set, it is the one every remote without its own is to have. -/
def ProtocolsAgree (items : List Item) : Prop :=
  ∀ last, lastSetting Statement.protocol? items = some last → ∀ d ∈ items.flatMap Item.declared,
    d.remote.protocol = none →
      (∀ protocol, d.blockProtocol = some protocol → protocol = last) ∧
        (d.blockProtocol = none → (fileSetting Statement.protocol? items).getD .udp = last)

theorem fileSetting_eq_none {α : Type} {setting : Statement → Option α} {items : List Item}
    (h : lastSetting setting items = none) : fileSetting setting items = none := by
  rw [lastSetting, lastOf, getLast?_eq_none_iff, filterMap_eq_nil_iff] at h
  rw [fileSetting, lastOf, getLast?_eq_none_iff, filterMap_eq_nil_iff]
  intro statement hmem
  obtain ⟨item, hitem, hstatement⟩ := mem_flatMap.1 hmem
  apply h statement
  refine mem_flatMap.2 ⟨item, hitem, ?_⟩
  cases item with
  | directive _ => exact hstatement
  | block _ _ => cases hstatement

theorem blockSetting_eq_none {items : List Item} {d : Declared}
    (hd : d ∈ items.flatMap Item.declared) :
    (lastSetting Statement.port? items = none → d.blockPort = none) ∧
      (lastSetting Statement.protocol? items = none → d.blockProtocol = none) := by
  obtain ⟨item, hitem, hdeclared⟩ := mem_flatMap.1 hd
  cases item with
  | directive statement =>
    obtain ⟨remote, -, rfl⟩ := mem_map.1 hdeclared
    exact ⟨fun _ => rfl, fun _ => rfl⟩
  | block tag body =>
    rw [Item.declared] at hdeclared
    split at hdeclared
    next hconnection =>
      have hblock : ∀ (α : Type) (setting : Statement → Option α),
          lastSetting setting items = none →
          lastOf setting (statementsOf body) = none := by
        intro α setting h
        rw [lastSetting, lastOf, getLast?_eq_none_iff, filterMap_eq_nil_iff] at h
        rw [lastOf, getLast?_eq_none_iff, filterMap_eq_nil_iff]
        intro statement hstatement
        apply h statement
        refine mem_flatMap.2 ⟨_, hitem, ?_⟩
        rw [Item.statements, if_pos hconnection]
        exact hstatement
      obtain ⟨remote, -, rfl⟩ := mem_map.1 hdeclared
      exact ⟨hblock _ _, hblock _ _⟩
    · cases hdeclared

/-- The remotes of a file that parses are what the file says if and only if its ports and its
protocols agree. -/
theorem remotes_resolved_iff {pem : Pem} {source : Text} {config : FileConfig}
    (h : parse pem source = .ok config) :
    config.remotes = resolved (items source) ↔ PortsAgree (items source) ∧
      ProtocolsAgree (items source) := by
  rw [remotes_parse h, resolved, List.map_inj_left]
  constructor
  · intro hall
    constructor
    · intro last hlast d hd
      have hport := (Remote.mk.inj (hall d hd)).2.1
      rw [hlast, Option.some_or] at hport
      refine ⟨fun port hown => ?_, fun hown port hblock => ?_, fun hown hblock => ?_⟩
      · rw [hown] at hport
        exact hport.symm
      · rw [hown, hblock] at hport
        exact hport.symm
      · rw [hown, hblock] at hport
        exact hport.symm
    intro last hlast d hd hown
    have hprotocol := (Remote.mk.inj (hall d hd)).2.2
    rw [hlast, hown] at hprotocol
    refine ⟨fun protocol hblock => ?_, fun hblock => ?_⟩
    · rw [hblock] at hprotocol
      exact hprotocol.symm
    · rw [hblock] at hprotocol
      exact hprotocol.symm
  · rintro ⟨hports, hprotocols⟩ d hd
    have hblock := blockSetting_eq_none hd
    congr 1
    · cases hlast : lastSetting Statement.port? (items source) with
      | none =>
        rw [hblock.1 hlast, fileSetting_eq_none hlast]
        cases d.remote.port <;> rfl
      | some last =>
        obtain ⟨hown, hset, hfile⟩ := hports last hlast d hd
        cases hport : d.remote.port with
        | some port => exact (hown port hport).symm
        | none =>
          cases hblockPort : d.blockPort with
          | some port => exact (hset hport port hblockPort).symm
          | none => exact (hfile hport hblockPort).symm
    · cases hprotocol : d.remote.protocol with
      | some protocol => rfl
      | none =>
        cases hlast : lastSetting Statement.protocol? (items source) with
        | none =>
          rw [hblock.2 hlast, fileSetting_eq_none hlast]
          rfl
        | some last =>
          obtain ⟨hset, hfile⟩ := hprotocols last hlast d hd hprotocol
          cases hblockProtocol : d.blockProtocol with
          | some protocol => exact (hset protocol hblockProtocol).symm
          | none => exact (hfile hblockProtocol).symm

/-- PEM that finds one certificate wherever it is asked. -/
def somePem : Pem := ⟨fun _ => .ok [[0x30]], fun _ => .ok true⟩

/-- A file whose only port is set in the block of its remote. -/
def oneBlock : Text :=
  "auth-user-pass
<connection>
remote a.example
port 443
</connection>
<ca>
</ca>
".toList

/-- A file with a remote of its own port, a block that sets a port, and a block that sets none. -/
def twoBlocks : Text :=
  ("auth-user-pass
remote a.example 1195
<connection>
remote b.example
port 443
</connection>
" ++
    "<connection>
remote c.example
</connection>
<ca>
</ca>
").toList

/-- The port of the one block is its remote's. -/
theorem remotes_resolved_iff_oneBlock :
    (parse somePem oneBlock).toOption.map remotes = some (resolved (items oneBlock)) := by
  have hdeclared : (items oneBlock).flatMap Item.declared =
      [⟨⟨"a.example".toList, none, none⟩, some 443, none⟩] := by
    decide +kernel
  have hports : lastSetting Statement.port? (items oneBlock) = some 443 := by decide +kernel
  have hprotocols : lastSetting Statement.protocol? (items oneBlock) = none := by decide +kernel
  have hparsed : (parse somePem oneBlock).toOption.isSome := by decide +kernel
  cases hparse : parse somePem oneBlock with
  | error message =>
    rw [hparse] at hparsed
    cases hparsed
  | ok config =>
    refine congrArg some ((remotes_resolved_iff hparse).2 ⟨fun last hlast d hd => ?_,
      fun last hlast => ?_⟩)
    · rw [hdeclared, List.mem_singleton] at hd
      cases hlast
      subst hd
      exact ⟨nofun, fun _ _ hport => (Option.some.inj hport).symm, nofun⟩
    · cases hlast

/-- The port of one block is given to every remote, also to one with its own. -/
theorem block_port_changes_others :
    (parse somePem twoBlocks).toOption.map remotes =
        some [⟨"a.example".toList, 443, .udp⟩, ⟨"b.example".toList, 443, .udp⟩,
          ⟨"c.example".toList, 443, .udp⟩] ∧
      resolved (items twoBlocks) =
        [⟨"a.example".toList, 1195, .udp⟩, ⟨"b.example".toList, 443, .udp⟩,
          ⟨"c.example".toList, 1194, .udp⟩] := by
  constructor <;> decide +kernel

end GamePath.Engine.OpenVpn
