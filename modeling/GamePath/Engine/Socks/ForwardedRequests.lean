import Mathlib.Data.Bool.AllAny
import GamePath.Engine.Socks.HttpHead
import Mathlib.Data.List.DropRight

/-!
# Where a forwarded HTTP request goes (`parse_http_request`)

The URI of a proxied request is split where its path begins, at the first slash. A URI may have a
query and no path. The split then takes the query, or the part of it before a slash, for a part of
the host, and nothing of it is forwarded. Every other URI is forwarded to its host and port, with
its path and query as they are written (`forwards_iff`).
-/

namespace GamePath.Engine.Socks

open List Option

open Direct (Text trim parseIpv4)
open Dns (utf8Bytes)

/-! ## An absolute URI (RFC 3986) -/

section Uri

/-- `unreserved`. -/
def isUnreserved (c : Char) : Bool := c.isAlphanum || "-._~".toList.contains c

/-- `sub-delims`. -/
def isSubDelim (c : Char) : Bool := "!$&'()*+,;=".toList.contains c

/-- `HEXDIG`. -/
def isHexDigit (c : Char) : Bool := c.isDigit || "abcdefABCDEF".toList.contains c

/-- Characters that every component may have or this one, and bytes written with a percent sign. -/
inductive Encoded (extra : List Char) : Text → Prop where
  | nil : Encoded extra []
  | plain {c : Char} {rest : Text} :
      isUnreserved c = true ∨ isSubDelim c = true ∨ c ∈ extra → Encoded extra rest →
      Encoded extra (c :: rest)
  | percent {high low : Char} {rest : Text} :
      isHexDigit high = true → isHexDigit low = true → Encoded extra rest →
      Encoded extra ('%' :: high :: low :: rest)

/-- The host: an IP literal, between brackets, or a name, which may be an IPv4 address. -/
inductive Host where
  | literal (address : Text)
  | named (name : Text)

/-- An `http` URI: `http://` and the components that follow. -/
structure HttpUri where
  userInfo : Option Text
  host : Host
  port : Option Text
  path : Text
  query : Option Text

/-- The host as it is written. -/
def Host.text : Host → Text
  | .literal address => '[' :: address ++ [']']
  | .named name => name

/-- The host is of characters that it may have. The two forms of an IP literal are of the characters
allowed here. -/
def Host.Valid : Host → Prop
  | .literal address => Encoded [':'] address
  | .named name => Encoded [] name

namespace HttpUri

variable (uri : HttpUri)

/-- The host and the port as they are written. -/
def hostPort : Text := uri.host.text ++ uri.port.elim [] fun digits => ':' :: digits

def authority : Text := (uri.userInfo.elim [] fun info => info ++ ['@']) ++ uri.hostPort

/-- The query with its question mark. -/
def queryText : Text := uri.query.elim [] fun query => '?' :: query

/-- The URI as it is written. -/
def text : Text := "http://".toList ++ (uri.authority ++ (uri.path ++ uri.queryText))

/-- The components are of characters that they may have, and a path that is not empty begins with a
slash. -/
structure Valid : Prop where
  userInfo : ∀ info, uri.userInfo = some info → Encoded [':'] info
  host : uri.host.Valid
  port : ∀ digits, uri.port = some digits → ∀ c ∈ digits, c.isDigit = true
  path : uri.path = [] ∨ ∃ rest, uri.path = '/' :: rest
  pathChars : Encoded [':', '@', '/'] uri.path
  query : ∀ query, uri.query = some query → Encoded [':', '@', '/', '?'] query

/-- The port, which is 80 when it is absent or empty. -/
def portNumber : UInt16 :=
  match uri.port with
  | none | some [] => 80
  | some digits => UInt16.ofNat (digits.foldl (fun n c => 10 * n + (c.toNat - '0'.toNat)) 0)

/-- The target that the host and the port name. A name has no case, and none of the dots at its
end. -/
def target : Target :=
  match uri.host with
  | .literal _ => .ipv6
  | .named name =>
    match parseIpv4 name with
    | some address => .ip ⟨address, uri.portNumber⟩
    | none => .domain ((name.rdropWhile fun c => c == '.').map Char.toLower) uri.portNumber

/-- The path and the query, with a slash for an empty path. -/
def originForm : Text := (if uri.path = [] then ['/'] else uri.path) ++ uri.queryText

end HttpUri

end Uri

/-! ## What is forwarded -/

section Forwarded

/-- A header line that is the proxy's own: the name before its first colon is one of four. -/
def isProxyOwn (line : Text) : Bool :=
  ["proxy-authorization", "proxy-connection", "connection", "keep-alive"].any fun name =>
    eqIgnoreAsciiCase (trim (line.takeWhile fun c => c != ':')) name.toList

/-- The head to be forwarded: the path and the query in place of the URI, the header lines that are
not the proxy's own, and one that closes the connection. -/
def forwardedText (head : Head) (uri : HttpUri) : Text :=
  head.method ++ [' '] ++ uri.originForm ++ [' '] ++ head.version ++ crlf ++
    (head.headers.filter fun line => !isProxyOwn line).flatMap (fun line => line ++ crlf) ++
    "Connection: close\r\n\r\n".toList

/-- The request goes where its URI says, with the head to be forwarded. -/
structure Forwards (head : Head) (uri : HttpUri) (request : HttpRequest) : Prop where
  target : request.target = uri.target
  upstreamHead : request.upstreamHead = utf8Bytes (forwardedText head uri)

end Forwarded

/-! ## Characters of the components -/

section Characters

variable {extra : List Char} {text : Text} {c : Char}

theorem Encoded.not_mem (h : Encoded extra text)
    (hc : isUnreserved c = false ∧ isSubDelim c = false ∧ c ∉ extra ∧ c ≠ '%') : c ∉ text := by
  obtain ⟨hunreserved, hdelim, hextra, hpercent⟩ := hc
  have hhex : ∀ d, isHexDigit d = true → c ≠ d := by
    rintro d hd rfl
    -- A hexadecimal digit is a letter or a digit.
    have hfalse : (c.isDigit || "abcdefABCDEF".toList.contains c) = false := by
      rw [isUnreserved, Bool.or_eq_false_iff, Char.isAlphanum, Bool.or_eq_false_iff] at hunreserved
      rw [hunreserved.1.2, Bool.eq_false_iff]
      intro hmem
      have halpha : c.isAlpha = true := by
        have hletters : "abcdefABCDEF".toList.all Char.isAlpha = true := by decide
        exact all_eq_true.1 hletters c (contains_iff_mem.1 hmem)
      rw [hunreserved.1.1] at halpha
      cases halpha
    rw [isHexDigit, hfalse] at hd
    cases hd
  induction h with
  | nil => exact not_mem_nil
  | @plain d rest hd _ ih =>
    apply not_mem_cons_of_ne_of_not_mem _ ih
    rintro rfl
    rcases hd with hd | hd | hd
    · rw [hunreserved] at hd
      cases hd
    · rw [hdelim] at hd
      cases hd
    · exact hextra hd
  | percent hhigh hlow _ ih =>
    apply not_mem_cons_of_ne_of_not_mem hpercent
    apply not_mem_cons_of_ne_of_not_mem (hhex _ hhigh)
    exact not_mem_cons_of_ne_of_not_mem (hhex _ hlow) ih

theorem Encoded.of_plain :
    (∀ c ∈ text, isUnreserved c = true ∨ isSubDelim c = true ∨ c ∈ extra) → Encoded extra text := by
  induction text with
  | nil => exact fun _ => .nil
  | cons c text ih =>
    intro h
    obtain ⟨hc, hrest⟩ := forall_mem_cons.1 h
    exact .plain hc (ih hrest)

theorem not_mem_of_isDigit (hdigits : ∀ d ∈ text, d.isDigit = true) (hc : c.isDigit = false) :
    c ∉ text := by
  intro hmem
  have := hdigits c hmem
  rw [hc] at this
  cases this

variable {uri : HttpUri}

theorem Host.Valid.not_mem {host : Host} (h : host.Valid) (hc : c = '/' ∨ c = '@') :
    c ∉ host.text := by
  cases host with
  | literal address =>
    have haddress : c ∉ address := Encoded.not_mem h (by rcases hc with rfl | rfl <;> decide)
    intro hmem
    rcases mem_cons.1 hmem with rfl | hmem
    · rcases hc with hc | hc <;> cases hc
    · rcases mem_append.1 hmem with hmem | hmem
      · exact haddress hmem
      · rw [mem_singleton] at hmem
        rcases hc with rfl | rfl <;> cases hmem
  | named name => exact Encoded.not_mem h (by rcases hc with rfl | rfl <;> decide)

namespace HttpUri.Valid

variable (h : uri.Valid)

include h

theorem not_mem_hostPort (hc : c = '/' ∨ c = '@') : c ∉ uri.hostPort := by
  rw [HttpUri.hostPort, mem_append, not_or]
  refine ⟨h.host.not_mem hc, ?_⟩
  cases hport : uri.port with
  | none => exact not_mem_nil
  | some digits =>
    apply not_mem_cons_of_ne_of_not_mem
    · rcases hc with rfl | rfl <;> decide
    · exact not_mem_of_isDigit (h.port digits hport) (by rcases hc with rfl | rfl <;> decide)

theorem slash_not_mem_authority : '/' ∉ uri.authority := by
  rw [HttpUri.authority, mem_append, not_or]
  refine ⟨?_, h.not_mem_hostPort (.inl rfl)⟩
  cases hinfo : uri.userInfo with
  | none => exact not_mem_nil
  | some info =>
    rw [elim_some, mem_append, not_or]
    exact ⟨(h.userInfo info hinfo).not_mem (by decide), by decide⟩

theorem authorityTarget_authority (defaultPort : UInt16) :
    authorityTarget uri.authority defaultPort = authorityTarget uri.hostPort defaultPort := by
  have hhost := h.not_mem_hostPort (.inr rfl)
  rw [HttpUri.authority]
  cases uri.userInfo with
  | none => rw [elim_none, nil_append]
  | some info =>
    simp only [authorityTarget, elim_some, append_assoc, singleton_append,
      rsplitOnce_append hhost, rsplitOnce_eq_none hhost]

theorem portNumber_of_parseU16 {digits : Text} {port : UInt16} (hport : uri.port = some digits)
    (hparse : parseU16 digits = some port) : port = uri.portNumber := by
  have hdigits := h.port digits hport
  cases digits with
  | nil => cases hparse
  | cons d rest =>
    have hplus : d ≠ '+' := by
      rintro rfl
      cases hdigits '+' mem_cons_self
    have hall : (d :: rest).all Char.isDigit = true := all_eq_true.2 hdigits
    have hunsigned : parseU16 (d :: rest) =
        ((Direct.digits (d :: rest)).filter fun n => n ≤ 65535).map UInt16.ofNat := by
      rw [parseU16]
      · exact if_neg (cons_ne_nil _ _)
      · exact fun _ heq => hplus (List.cons.inj heq).1
    rw [hunsigned, Direct.digits, if_pos hall, map_eq_some_iff] at hparse
    obtain ⟨n, hn, rfl⟩ := hparse
    obtain ⟨hn, -⟩ := filter_eq_some_iff.1 hn
    rw [HttpUri.portNumber, hport, ← some.inj hn]

/-- The authority names the target. -/
theorem target_of_authorityTarget {target : Target}
    (htarget : authorityTarget uri.authority 80 = some target) : target = uri.target := by
  rw [h.authorityTarget_authority, authorityTarget,
    rsplitOnce_eq_none (h.not_mem_hostPort (.inr rfl))] at htarget
  cases hhost : uri.host with
  | literal address =>
    have hstart : uri.hostPort.head? = some '[' := by
      rw [HttpUri.hostPort, hhost]
      rfl
    rw [if_pos hstart] at htarget
    rw [HttpUri.target, hhost]
    exact (some.inj htarget).symm
  | named name =>
    have hname : Encoded [] name := by
      have := h.host
      rwa [hhost] at this
    have hcolon : ':' ∉ name := hname.not_mem (by decide)
    have hstart : uri.hostPort.head? ≠ some '[' := by
      intro hhead
      rw [HttpUri.hostPort, hhost, Host.text] at hhead
      cases name with
      | nil =>
        cases hport : uri.port with
        | none =>
          rw [hport] at hhead
          cases hhead
        | some digits =>
          rw [hport] at hhead
          cases some.inj hhead
      | cons c name =>
        obtain rfl : c = '[' := some.inj hhead
        exact hname.not_mem (by decide) mem_cons_self
    have hdomain : ∀ port, domainTarget name port =
        match parseIpv4 name with
        | some address => .ip ⟨address, port⟩
        | none => .domain ((name.rdropWhile fun c => c == '.').map Char.toLower) port := by
      intro port
      rw [domainTarget]
      cases parseIpv4 name with
      | some address => rfl
      | none =>
        rw [if_neg (by simpa using hcolon)]
        rfl
    rw [if_neg hstart] at htarget
    rw [HttpUri.target, hhost]
    dsimp only
    cases hport : uri.port with
    | none =>
      have hhostPort : uri.hostPort = name := by
        rw [HttpUri.hostPort, hhost, hport]
        exact append_nil name
      have hnumber : uri.portNumber = 80 := by
        rw [HttpUri.portNumber, hport]
      rw [hhostPort, rsplitOnce_eq_none hcolon] at htarget
      dsimp only at htarget
      split_ifs at htarget
      rw [hnumber, ← hdomain]
      exact (some.inj htarget).symm
    | some digits =>
      have hhostPort : uri.hostPort = name ++ ':' :: digits := by
        rw [HttpUri.hostPort, hhost, hport]
        rfl
      have hdigits : ':' ∉ digits := not_mem_of_isDigit (h.port digits hport) (by decide)
      rw [hhostPort, rsplitOnce_append hdigits] at htarget
      dsimp only at htarget
      cases hparse : parseU16 digits with
      | none =>
        rw [hparse] at htarget
        cases htarget
      | some port =>
        rw [hparse] at htarget
        dsimp only at htarget
        split_ifs at htarget
        rw [← h.portNumber_of_parseU16 hport hparse, ← hdomain]
        exact (some.inj htarget).symm

end HttpUri.Valid

end Characters

/-! ## The split of the URI -/

section Split

variable {uri : HttpUri}

theorem bne_of_not_mem {c : Char} {text : Text} (h : c ∉ text) : ∀ d ∈ text, (d != c) = true := by
  intro d hd
  rw [bne_iff_ne]
  rintro rfl
  exact h hd

theorem splitUri_of_slash {authority : Text} (h : '/' ∉ authority) (behind : Text) :
    splitUri (authority ++ '/' :: behind) = (authority, '/' :: behind) := by
  have hall := bne_of_not_mem h
  rw [splitUri, takeWhile_append_of_pos hall, dropWhile_append_of_pos hall]
  simp

theorem splitUri_of_not_mem {authority : Text} (h : '/' ∉ authority) :
    splitUri authority = (authority, ['/']) := by
  have hall := bne_of_not_mem h
  rw [splitUri, takeWhile_eq_self_iff.2 hall, dropWhile_eq_nil_iff.2 hall, if_pos rfl]

theorem splitUri_text (h : uri.Valid) (hslash : ¬ (uri.path = [] ∧ uri.query.isSome = true)) :
    splitUri (uri.authority ++ (uri.path ++ uri.queryText)) = (uri.authority, uri.originForm) := by
  have hauthority := h.slash_not_mem_authority
  rcases h.path with hempty | ⟨rest, hpath⟩
  · have hnone : uri.query = none := by
      rw [← not_isSome_iff_eq_none]
      exact fun hsome => hslash ⟨hempty, hsome⟩
    rw [HttpUri.originForm, HttpUri.queryText, hnone, hempty]
    simpa using splitUri_of_not_mem hauthority
  · rw [HttpUri.originForm, hpath]
    exact splitUri_of_slash hauthority _

theorem length_splitUri_lt (h : uri.Valid) (hempty : uri.path = []) {query : Text}
    (hquery : uri.query = some query) :
    (utf8Bytes (splitUri (uri.authority ++ (uri.path ++ uri.queryText))).2).length <
      (utf8Bytes uri.originForm).length := by
  have hrest : uri.authority ++ (uri.path ++ uri.queryText) = uri.authority ++ '?' :: query := by
    rw [hempty, HttpUri.queryText, hquery]
    rfl
  have horigin : uri.originForm = '/' :: '?' :: query := by
    rw [HttpUri.originForm, if_pos hempty, HttpUri.queryText, hquery]
    rfl
  have hall := bne_of_not_mem h.slash_not_mem_authority
  -- What begins with a slash is the end of the query.
  have hdrop : (uri.authority ++ '?' :: query).dropWhile (fun c => c != '/') =
      query.dropWhile fun c => c != '/' := by
    rw [dropWhile_append_of_pos hall]
    rfl
  have hquestion : (utf8Bytes ['/', '?']).length = 2 := by decide
  have hslash : (utf8Bytes ['/']).length = 1 := by decide
  have hsuffix : (utf8Bytes (query.dropWhile fun c => c != '/')).length ≤
      (utf8Bytes query).length := by
    conv_rhs => rw [← @takeWhile_append_dropWhile _ (fun c => c != '/') query]
    rw [Utf8.utf8Bytes_append, length_append]
    omega
  rw [hrest, horigin, splitUri, hdrop, show '/' :: '?' :: query = ['/', '?'] ++ query from rfl,
    Utf8.utf8Bytes_append, length_append]
  dsimp only
  split_ifs
  · omega
  · omega

end Split

/-! ## The request -/

section Request

variable {base64 : Text → Option Bytes} {buffer : Bytes} {request : HttpRequest} {used : ℕ}

theorem forwarded_of_done {head : Head} {rest : Text} (hhead : head.WrittenIn buffer)
    (huri : head.uri = "http://".toList ++ rest)
    (h : parseHttpRequest base64 buffer = .done request used) (hforward : request.tunnel = false) :
    authorityTarget (splitUri rest).1 80 = some request.target ∧
      request.upstreamHead = upstreamHead head.method
        (splitUri rest).2 head.version head.headers := by
  rw [hhead.parseHttpRequest, parseHttpHead, hhead.splitLines_text, Head.lines] at h
  dsimp only [headD_cons] at h
  rw [hhead.splitOn_line, Head.words] at h
  dsimp only [tail_cons] at h
  have hstrip : stripPrefix "http://".toList head.uri = some rest := by
    rw [huri, stripPrefix, if_pos (List.isPrefixOf_iff_prefix.2 (prefix_append _ _)),
      drop_left]
  by_cases hconnect : eqIgnoreAsciiCase head.method "CONNECT".toList = true
  · -- A tunnel is not forwarded.
    rw [if_pos hconnect] at h
    split at h
    · cases h
    · cases h
      cases hforward
  rw [if_neg hconnect, hstrip] at h
  dsimp only at h
  split at h
  · cases h
  next target htarget =>
    cases h
    exact ⟨htarget, rfl⟩

theorem isHopHeader_eq (line : Text) : isHopHeader line = isProxyOwn line := by
  rw [isHopHeader, isProxyOwn, hopHeaders]
  by_cases hcolon : ':' ∈ line
  · obtain ⟨before, after, rfl, hbefore⟩ := eq_append_cons_of_mem hcolon
    rw [splitOnce_append hbefore, takeWhile_append_of_pos (bne_of_not_mem hbefore)]
    simp
  · rw [splitOnce_eq_none hcolon, takeWhile_eq_self_iff.2 (bne_of_not_mem hcolon)]
    rfl

theorem upstreamHead_eq (head : Head) (uri : HttpUri) :
    upstreamHead head.method uri.originForm head.version head.headers =
      utf8Bytes (forwardedText head uri) := by
  rw [upstreamHead]
  simp only [isHopHeader_eq]
  rfl

/-- Each request that is accepted has a head, and it is forwarded as its URI says unless this has a
query and no path. -/
theorem forwards_iff (h : parseHttpRequest base64 buffer = .done request used)
    (hforward : request.tunnel = false) :
    (∃ head : Head, head.WrittenIn buffer) ∧
      ∀ (head : Head) (uri : HttpUri), head.WrittenIn buffer → uri.Valid → head.uri = uri.text →
        (Forwards head uri request ↔ ¬ (uri.path = [] ∧ uri.query.isSome = true)) := by
  refine ⟨exists_writtenIn h, ?_⟩
  intro head uri hhead hvalid huri
  obtain ⟨htarget, hupstream⟩ := forwarded_of_done hhead huri h hforward
  constructor
  · rintro hforwards ⟨hempty, hsome⟩
    obtain ⟨query, hquery⟩ := Option.isSome_iff_exists.1 hsome
    have hlt := length_splitUri_lt hvalid hempty hquery
    have heq := hforwards.upstreamHead
    rw [← upstreamHead_eq, hupstream] at heq
    have hlength := congrArg List.length heq
    simp only [upstreamHead, Utf8.utf8Bytes_append, List.length_append] at hlength
    omega
  · intro hslash
    rw [splitUri_text hvalid hslash] at htarget hupstream
    exact ⟨hvalid.target_of_authorityTarget htarget, hupstream.trans (upstreamHead_eq head uri)⟩

/-- The request of the test, to a port, with a query. -/
def portRequest : Bytes :=
  utf8Bytes ("GET http://1.2.3.4:8080/a?b HTTP/1.1\r\nHost: 1.2.3.4:8080\r\n".toList ++
    "Proxy-Connection: keep-alive\r\nAccept: */*\r\n\r\n".toList)

/-- Its head. -/
def portHead : Head :=
  { method := "GET".toList
    uri := "http://1.2.3.4:8080/a?b".toList
    version := "HTTP/1.1".toList
    more := []
    headers := ["Host: 1.2.3.4:8080".toList, "Proxy-Connection: keep-alive".toList,
      "Accept: */*".toList] }

/-- Its URI. -/
def portUri : HttpUri :=
  { userInfo := none
    host := .named "1.2.3.4".toList
    port := some "8080".toList
    path := "/a".toList
    query := some "b".toList }

theorem portUri_valid : portUri.Valid where
  userInfo := by
    rintro info ⟨⟩
  host := Encoded.of_plain (all_iff_forall_prop.1 (by decide))
  port := by
    rintro digits ⟨⟩
    exact all_iff_forall_prop.1 (by decide)
  path := .inr ⟨['a'], rfl⟩
  pathChars := Encoded.of_plain (all_iff_forall_prop.1 (by decide))
  query := by
    rintro query ⟨⟩
    exact Encoded.of_plain (all_iff_forall_prop.1 (by decide))

/-- The request of the test is forwarded as its URI says. -/
theorem forwards_iff_port :
    Forwards portHead portUri
      ⟨.ip ⟨(1, 2, 3, 4), 8080⟩, false, none,
        utf8Bytes ("GET /a?b HTTP/1.1\r\nHost: 1.2.3.4:8080\r\nAccept: */*\r\n".toList ++
          "Connection: close\r\n\r\n".toList)⟩ := by
  have hhead : portHead.WrittenIn portRequest := by constructor <;> decide +kernel
  have hdone : parseHttpRequest (fun _ => none) portRequest =
      .done ⟨.ip ⟨(1, 2, 3, 4), 8080⟩, false, none,
        utf8Bytes ("GET /a?b HTTP/1.1\r\nHost: 1.2.3.4:8080\r\nAccept: */*\r\n".toList ++
          "Connection: close\r\n\r\n".toList)⟩ 103 := by
    decide +kernel
  exact ((forwards_iff hdone rfl).2 portHead portUri hhead portUri_valid (by decide +kernel)).2
    (by decide)

/-- A request whose URI has a query and no path. -/
def queryRequest : Bytes := utf8Bytes "GET http://example.com?x=1 HTTP/1.1\r\n\r\n".toList

/-- Its head. -/
def queryHead : Head :=
  { method := "GET".toList
    uri := "http://example.com?x=1".toList
    version := "HTTP/1.1".toList
    more := []
    headers := [] }

/-- Its URI. -/
def queryUri : HttpUri :=
  { userInfo := none
    host := .named "example.com".toList
    port := none
    path := []
    query := some "x=1".toList }

theorem queryUri_valid : queryUri.Valid where
  userInfo := by
    rintro info ⟨⟩
  host := Encoded.of_plain (all_iff_forall_prop.1 (by decide))
  port := by
    rintro digits ⟨⟩
  path := .inl rfl
  pathChars := .nil
  query := by
    rintro query ⟨⟩
    exact Encoded.of_plain (all_iff_forall_prop.1 (by decide))

/-- The query becomes a part of the host, and is not forwarded. -/
theorem query_becomes_host :
    queryHead.WrittenIn queryRequest ∧ queryUri.Valid ∧ queryHead.uri = queryUri.text ∧
      parseHttpRequest (fun _ => none) queryRequest =
        .done ⟨.domain "example.com?x=1".toList 80, false, none,
          utf8Bytes "GET / HTTP/1.1\r\nConnection: close\r\n\r\n".toList⟩ 39 ∧
      ¬ Forwards queryHead queryUri
        ⟨.domain "example.com?x=1".toList 80, false, none,
          utf8Bytes "GET / HTTP/1.1\r\nConnection: close\r\n\r\n".toList⟩ := by
  refine ⟨by constructor <;> decide +kernel, queryUri_valid, by decide +kernel, by decide +kernel,
    ?_⟩
  intro hforwards
  exact absurd hforwards.target (by decide +kernel)

end Request

end GamePath.Engine.Socks
