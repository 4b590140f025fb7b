import GamePath.Engine.Tun2socks.Handshake

/-!
# How the proxy's answers are cut

`Handshake::receive` runs one stage a call, so the answers of a proxy that come together are heard
one call after another, and the last of them may not be heard at all. `feed` gives a handshake the
chunks of a stream, and `feed_method` says what comes of it: whether a later chunk begins behind the
answer to the method, and another one behind the answer to the login, is all that matters of the
cut.

Two ways of cutting one stream agree exactly when they agree on that, or the stream ends before it
makes a difference (`cuts_agree_iff`).
-/

namespace GamePath.Engine.Tun2socks

open List

open Direct (Text)
open Socks (SocketAddr)

namespace Handshake

/-- What a handshake has come to. -/
inductive Outcome where
  | waiting
  | failed (reason : String)
  | done (bound : IpAddr × UInt16) (behind : Bytes)
  deriving DecidableEq

/-- More bytes of the stream come behind a handshake that is done. -/
def Outcome.follow (outcome : Outcome) (more : Bytes) : Outcome :=
  match outcome with
  | .waiting => .waiting
  | .failed reason => .failed reason
  | .done bound behind => .done bound (behind ++ more)

/-- `receive` of chunk after chunk, up to the first error or `Done`: what is sent on the way, and
the outcome. The chunks that are not fed any more belong to the connection, as the leftover bytes
do. -/
def feed (h : Handshake) : List Bytes → Bytes × Outcome
  | [] => ([], .waiting)
  | chunk :: chunks =>
    match h.receive chunk with
    | .error reason => ([], .failed reason)
    | .ok (.wait, h) => feed h chunks
    | .ok (.send bytes, h) => (bytes ++ (feed h chunks).1, (feed h chunks).2)
    | .ok (.done bound leftover, _) => ([], .done bound (leftover ++ chunks.flatten))

/-- Where the last of the chunks begins. -/
def begins (chunks : List Bytes) : Nat := chunks.dropLast.flatten.length

variable {chunks : List Bytes}

theorem begins_cons {chunk : Bytes} (h : chunks ≠ []) :
    begins (chunk :: chunks) = chunk.length + begins chunks := by
  unfold begins
  rw [dropLast_cons_of_ne_nil h, flatten_cons, length_append]

/-! ## The reply -/

/-- What the stage `Reply` makes of its input. -/
def answered (rest : Bytes) : Outcome :=
  match rest with
  | answer :: code :: _ :: addressType :: rest =>
    if answer ≠ version then
      .failed ("the proxy is not SOCKS5 (it answered version " ++ toString answer.toNat ++ ")")
    else if code ≠ 0 then .failed (replyError code)
    else
      match addressLength addressType rest with
      | .error reason => .failed reason
      | .ok none => .waiting
      | .ok (some length) =>
        if rest.length < length + 2 then .waiting
        else .done
          (replyAddress addressType (rest.take length), replyPort ((rest.drop length).take 2))
          (rest.drop (length + 2))
  | _ => .waiting

theorem reply_answered (h : Handshake) :
    (answered h.input = .waiting ∧ h.reply = .ok (.wait, h)) ∨
    (∃ reason, answered h.input = .failed reason ∧ h.reply = .error reason) ∨
    ∃ bound leftover, answered h.input = .done bound leftover ∧
      h.reply = .ok (.done bound leftover, { h with input := [], stage := .done }) := by
  obtain ⟨stage, command, target, credentials, input⟩ := h
  match input with
  | [] => exact .inl ⟨rfl, rfl⟩
  | [_] => exact .inl ⟨rfl, rfl⟩
  | [_, _] => exact .inl ⟨rfl, rfl⟩
  | [_, _, _] => exact .inl ⟨rfl, rfl⟩
  | answer :: code :: reserved :: addressType :: rest =>
    simp only [reply, answered]
    by_cases hversion : answer ≠ version
    · rw [if_pos hversion, if_pos hversion]
      exact .inr (.inl ⟨_, rfl, rfl⟩)
    rw [if_neg hversion, if_neg hversion]
    by_cases hcode : code ≠ 0
    · rw [if_pos hcode, if_pos hcode]
      exact .inr (.inl ⟨_, rfl, rfl⟩)
    rw [if_neg hcode, if_neg hcode]
    cases addressLength addressType rest with
    | error reason => exact .inr (.inl ⟨_, rfl, rfl⟩)
    | ok length =>
      cases length with
      | none => exact .inl ⟨rfl, rfl⟩
      | some length =>
        dsimp only
        by_cases hshort : rest.length < length + 2
        · rw [if_pos hshort, if_pos hshort]
          exact .inl ⟨rfl, rfl⟩
        · rw [if_neg hshort, if_neg hshort]
          exact .inr (.inr ⟨_, _, rfl, rfl⟩)

theorem addressLength_append {addressType : UInt8} {rest more : Bytes}
    (h : addressLength addressType rest ≠ .ok none) :
    addressLength addressType (rest ++ more) = addressLength addressType rest := by
  unfold addressLength at h ⊢
  by_cases hname : addressType = 3
  · subst hname
    cases rest with
    | nil => exact absurd rfl h
    | cons length rest => rfl
  · rw [if_neg hname, if_neg hname]

theorem answered_append {rest : Bytes} (h : answered rest ≠ .waiting) (more : Bytes) :
    answered (rest ++ more) = (answered rest).follow more := by
  match rest with
  | [] => exact absurd rfl h
  | [_] => exact absurd rfl h
  | [_, _] => exact absurd rfl h
  | [_, _, _] => exact absurd rfl h
  | answer :: code :: reserved :: addressType :: rest =>
    simp only [answered, cons_append] at h ⊢
    by_cases hversion : answer ≠ version
    · rw [if_pos hversion, if_pos hversion]
      rfl
    rw [if_neg hversion] at h
    rw [if_neg hversion, if_neg hversion]
    by_cases hcode : code ≠ 0
    · rw [if_pos hcode, if_pos hcode]
      rfl
    rw [if_neg hcode] at h
    rw [if_neg hcode, if_neg hcode]
    have hlength : addressLength addressType rest ≠ .ok none := by
      intro hnone
      rw [hnone] at h
      exact h rfl
    rw [addressLength_append hlength]
    cases hlong : addressLength addressType rest with
    | error reason => rfl
    | ok length =>
      cases length with
      | none => exact absurd hlong hlength
      | some length =>
        rw [hlong] at h
        dsimp only at h ⊢
        by_cases hshort : rest.length < length + 2
        · rw [if_pos hshort] at h
          exact absurd rfl h
        have hshort' : ¬ (rest ++ more).length < length + 2 := by
          rw [length_append]
          omega
        rw [if_neg hshort, if_neg hshort']
        -- the address and the port are within what had come before
        rw [take_append_of_le_length (by omega), drop_append_of_le_length (by omega),
          take_append_of_le_length (by rw [length_drop]; omega),
          drop_append_of_le_length (by omega)]
        rfl

variable {h : Handshake}

theorem feed_reply (hstage : h.stage = .reply) (chunk : Bytes) (chunks : List Bytes) :
    feed h (chunk :: chunks) = ([], answered (h.input ++ (chunk :: chunks).flatten)) := by
  induction chunks generalizing h chunk with
  | nil =>
    have hreceive : h.receive chunk = { h with input := h.input ++ chunk }.reply := by
      simp only [receive, hstage]
    rw [feed, hreceive, flatten_singleton]
    rcases reply_answered { h with input := h.input ++ chunk } with
      ⟨houtcome, hreply⟩ | ⟨reason, houtcome, hreply⟩ | ⟨bound, leftover, houtcome, hreply⟩
    · rw [hreply, houtcome]
      rfl
    · rw [hreply, houtcome]
    · rw [hreply, houtcome]
      simp only [flatten_nil, append_nil]
  | cons next chunks ih =>
    have hreceive : h.receive chunk = { h with input := h.input ++ chunk }.reply := by
      simp only [receive, hstage]
    have hflatten : h.input ++ (chunk :: next :: chunks).flatten =
        h.input ++ chunk ++ (next :: chunks).flatten := by
      rw [flatten_cons, append_assoc]
    rw [feed, hreceive, hflatten]
    rcases reply_answered { h with input := h.input ++ chunk } with
      ⟨-, hreply⟩ | ⟨reason, houtcome, hreply⟩ | ⟨bound, leftover, houtcome, hreply⟩
    · rw [hreply]
      exact ih (h := { h with input := h.input ++ chunk }) hstage next
    · have hover : answered (h.input ++ chunk) = .failed reason := houtcome
      have hne : answered (h.input ++ chunk) ≠ .waiting := by
        rw [hover]
        exact Outcome.noConfusion
      rw [hreply, answered_append hne, hover]
      rfl
    have hover : answered (h.input ++ chunk) = .done bound leftover := houtcome
    have hne : answered (h.input ++ chunk) ≠ .waiting := by
      rw [hover]
      exact Outcome.noConfusion
    rw [hreply, answered_append hne, hover]
    rfl

/-! ## The login -/

/-- What the stages from `Auth` on make of their input, if chunks follow the answer to the login or
none do. -/
def authenticated (h : Handshake) (loginHeard : Bool) (input : Bytes) : Bytes × Outcome :=
  match input with
  | _ :: status :: rest =>
    if status ≠ 0 then ([], .failed "the SOCKS5 proxy rejected the username and password")
    else
      (requestBytes h.command h.target, if loginHeard then answered rest else .waiting)
  | _ => ([], .waiting)

theorem auth_short (hshort : h.input.length < 2) : h.auth = .ok (.wait, h) := by
  obtain ⟨stage, command, target, credentials, input⟩ := h
  match input with
  | [] => rfl
  | [_] => rfl
  | _ :: _ :: _ =>
    simp only [length_cons] at hshort
    omega

theorem authenticated_short {loginHeard : Bool} {input : Bytes} (hshort : input.length < 2) :
    authenticated h loginHeard input = ([], .waiting) := by
  match input with
  | [] => rfl
  | [_] => rfl
  | _ :: _ :: _ =>
    simp only [length_cons] at hshort
    omega

theorem exists_of_two_le {input : Bytes} (h : ¬ input.length < 2) :
    ∃ a b rest, input = a :: b :: rest := by
  match input with
  | [] => exact absurd (Nat.zero_lt_two) h
  | [_] => exact absurd (Nat.one_lt_two) h
  | a :: b :: rest => exact ⟨a, b, rest, rfl⟩

theorem begins_singleton (chunk : Bytes) : begins [chunk] = 0 := rfl

theorem feed_auth (hstage : h.stage = .auth) (hchunks : chunks ≠ []) :
    feed h chunks =
      authenticated h (decide (2 ≤ h.input.length + begins chunks ∧ 2 ≤ chunks.length))
        (h.input ++ chunks.flatten) := by
  induction chunks generalizing h with
  | nil => exact absurd rfl hchunks
  | cons chunk chunks ih =>
    have hreceive : h.receive chunk = { h with input := h.input ++ chunk }.auth := by
      simp only [receive, hstage]
    have hflatten : h.input ++ (chunk :: chunks).flatten =
        h.input ++ chunk ++ chunks.flatten := by
      rw [flatten_cons, append_assoc]
    have hlength : (h.input ++ chunk).length = h.input.length + chunk.length :=
      length_append
    rw [feed, hreceive, hflatten]
    by_cases hshort : (h.input ++ chunk).length < 2
    · -- the answer to the login is not whole yet
      rw [auth_short hshort]
      cases chunks with
      | nil =>
        rw [flatten_nil, append_nil, authenticated_short hshort]
        rfl
      | cons next chunks =>
        have hnext := ih (h := { h with input := h.input ++ chunk }) hstage
          (cons_ne_nil _ _)
        dsimp only at hnext ⊢
        rw [hnext, hlength, begins_cons (cons_ne_nil next chunks)]
        have hheard : (2 ≤ h.input.length + chunk.length + begins (next :: chunks) ∧
            2 ≤ (next :: chunks).length) ↔
            (2 ≤ h.input.length + (chunk.length + begins (next :: chunks)) ∧
              2 ≤ (chunk :: next :: chunks).length) := by
          cases chunks with
          | nil =>
            rw [begins_singleton]
            omega
          | cons third chunks =>
            simp only [length_cons]
            omega
        rw [decide_eq_decide.2 hheard]
        rfl
    · obtain ⟨v, status, rest, hinput⟩ := exists_of_two_le hshort
      rw [hinput]
      simp only [auth, cons_append, authenticated]
      by_cases hstatus : status ≠ 0
      · rw [if_pos hstatus, if_pos hstatus]
      rw [if_neg hstatus, if_neg hstatus]
      cases chunks with
      | nil => simp [request, feed]
      | cons next chunks =>
        have hheard : 2 ≤ h.input.length + begins (chunk :: next :: chunks) ∧
            2 ≤ (chunk :: next :: chunks).length := by
          rw [begins_cons (cons_ne_nil _ _)]
          simp only [length_cons]
          omega
        rw [decide_eq_true hheard]
        simp only [request]
        rw [feed_reply rfl]
        rfl

/-! ## The whole handshake -/

/-- What the stages from `Method` on make of their input, if chunks follow the answer to the method
and the one to the login or none do. -/
def admitted (h : Handshake) (methodHeard loginHeard : Bool) (input : Bytes) : Bytes × Outcome :=
  match { h with input := input }.method with
  | .error reason => ([], .failed reason)
  | .ok (.send sent, h) =>
    if methodHeard then
      let heard := if h.stage = .auth then authenticated h loginHeard h.input
        else ([], answered h.input)
      (sent ++ heard.1, heard.2)
    else (sent, .waiting)
  | .ok _ => ([], .waiting)

theorem method_short (hshort : h.input.length < 2) :
    h.method = .ok (.wait, h) := by
  obtain ⟨stage, command, target, credentials, input⟩ := h
  match input with
  | [] => rfl
  | [_] => rfl
  | _ :: _ :: _ =>
    simp only [length_cons] at hshort
    omega

theorem admitted_short {methodHeard loginHeard : Bool} {input : Bytes} (hshort : input.length < 2) :
    admitted h methodHeard loginHeard input = ([], .waiting) := by
  unfold admitted
  rw [method_short hshort]

theorem method_two (h : Handshake) (v m : UInt8) :
    (∃ reason, ∀ rest, { h with input := v :: m :: rest }.method = .error reason) ∨
    ∃ sent stage, (stage = .auth ∨ stage = .reply) ∧ ∀ rest,
      { h with input := v :: m :: rest }.method =
        .ok (.send sent, { h with input := rest, stage := stage }) := by
  by_cases hversion : v ≠ version
  · refine .inl ⟨"the proxy is not SOCKS5 (it answered version " ++ toString v.toNat ++ ")",
      fun rest => ?_⟩
    simp only [method, if_pos hversion]
  by_cases hnone : m = 0
  · refine .inr ⟨requestBytes h.command h.target, .reply, .inr rfl, fun rest => ?_⟩
    simp only [method, if_neg hversion, if_pos hnone]
    rfl
  by_cases hlogin : m = 2
  · cases hcredentials : h.credentials with
    | none =>
      refine .inl ⟨"the SOCKS5 proxy requires a username and password", fun rest => ?_⟩
      simp only [method, if_neg hversion, if_neg hnone, if_pos hlogin]
    | some credentials =>
      refine .inr ⟨login credentials.1 credentials.2, .auth, .inl rfl, fun rest => ?_⟩
      simp only [method, if_neg hversion, if_neg hnone, if_pos hlogin]
  by_cases hrefused : m = 0xff
  · refine .inl ⟨"the SOCKS5 proxy accepted none of the login methods offered", fun rest => ?_⟩
    simp only [method, if_neg hversion, if_neg hnone, if_neg hlogin, if_pos hrefused]
  · refine .inl ⟨"the SOCKS5 proxy asked for login method " ++ toString m.toNat ++
      ", which GamePath does not support", fun rest => ?_⟩
    simp only [method, if_neg hversion, if_neg hnone, if_neg hlogin, if_neg hrefused]

/-- What comes of a stream depends on its cut only by whether a chunk begins behind the answer to
the method, and one behind the answer to the login with another before it. -/
theorem feed_method (hstage : h.stage = .method) (hinput : h.input.length < 2)
    (chunks : List Bytes) :
    feed h chunks =
      admitted h (decide (2 ≤ h.input.length + begins chunks))
        (decide (4 ≤ h.input.length + begins chunks ∧
          2 ≤ h.input.length + begins chunks.dropLast))
        (h.input ++ chunks.flatten) := by
  induction chunks generalizing h with
  | nil =>
    rw [flatten_nil, append_nil, admitted_short hinput]
    rfl
  | cons chunk chunks ih =>
    have hreceive : h.receive chunk = { h with input := h.input ++ chunk }.method := by
      simp only [receive, hstage]
    have hflatten : h.input ++ (chunk :: chunks).flatten =
        h.input ++ chunk ++ chunks.flatten := by
      rw [flatten_cons, append_assoc]
    have hlength : (h.input ++ chunk).length = h.input.length + chunk.length :=
      length_append
    rw [feed, hreceive, hflatten]
    by_cases hshort : (h.input ++ chunk).length < 2
    · -- the answer to the method is not whole yet
      rw [method_short hshort]
      have hnext := ih (h := { h with input := h.input ++ chunk }) hstage hshort
      dsimp only at hnext ⊢
      rw [hnext, hlength]
      cases chunks with
      | nil =>
        rw [flatten_nil, append_nil, admitted_short hshort, admitted_short hshort]
      | cons next chunks =>
        rw [begins_cons (cons_ne_nil next chunks), ← Nat.add_assoc]
        have hheard : (4 ≤ h.input.length + chunk.length + begins (next :: chunks) ∧
            2 ≤ h.input.length + chunk.length + begins (next :: chunks).dropLast) ↔
            (4 ≤ h.input.length + chunk.length + begins (next :: chunks) ∧
              2 ≤ h.input.length + begins (chunk :: next :: chunks).dropLast) := by
          cases chunks with
          | nil =>
            rw [begins_singleton]
            omega
          | cons third chunks =>
            have hdrop : begins (chunk :: next :: third :: chunks).dropLast =
                chunk.length + begins (next :: third :: chunks).dropLast :=
              begins_cons (cons_ne_nil next _)
            omega
        rw [decide_eq_decide.2 hheard]
        rfl
    · obtain ⟨v, m, rest, htwo⟩ := exists_of_two_le hshort
      have hrest : rest.length + 2 = h.input.length + chunk.length := by
        rw [← hlength, htwo]
        rfl
      rw [htwo]
      unfold admitted
      rcases method_two h v m with ⟨reason, hmethod⟩ | ⟨sent, stage, hnext, hmethod⟩
      · rw [hmethod, cons_append, cons_append, hmethod]
      rw [hmethod, cons_append, cons_append, hmethod]
      cases chunks with
      | nil =>
        have hlast : ¬ 2 ≤ h.input.length + begins [chunk] := by
          rw [begins_singleton]
          omega
        simp [feed, hlast]
      | cons next chunks =>
        have hheard : 2 ≤ h.input.length + begins (chunk :: next :: chunks) := by
          rw [begins_cons (cons_ne_nil _ _)]
          omega
        simp only [decide_eq_true hheard, if_true]
        rcases hnext with rfl | rfl
        · rw [feed_auth rfl (cons_ne_nil _ _)]
          have hlogin : (2 ≤ rest.length + begins (next :: chunks) ∧
              2 ≤ (next :: chunks).length) ↔
              (4 ≤ h.input.length + begins (chunk :: next :: chunks) ∧
                2 ≤ h.input.length + begins (chunk :: next :: chunks).dropLast) := by
            have hbegins : begins (chunk :: next :: chunks) =
                chunk.length + begins (next :: chunks) := begins_cons (cons_ne_nil _ _)
            cases chunks with
            | nil =>
              have hdrop : begins [chunk, next].dropLast = 0 := rfl
              simp only [length_cons, length_nil]
              omega
            | cons third chunks =>
              have hdrop : begins (chunk :: next :: third :: chunks).dropLast =
                  chunk.length + begins (next :: third :: chunks).dropLast :=
                begins_cons (cons_ne_nil next _)
              simp only [length_cons]
              omega
          rw [decide_eq_decide.2 hlogin]
          rfl
        · rw [feed_reply rfl, if_neg (by decide)]

/-! ## Two ways of cutting one stream -/

/-- A chunk begins behind the answer to the method. -/
def MethodHeard (chunks : List Bytes) : Prop := 2 ≤ begins chunks

/-- A chunk begins behind the answer to the login, and the chunk before it behind the one to the
method. -/
def LoginHeard (chunks : List Bytes) : Prop := 4 ≤ begins chunks ∧ 2 ≤ begins chunks.dropLast

instance (chunks : List Bytes) : Decidable (MethodHeard chunks) :=
  inferInstanceAs (Decidable (_ ≤ _))

instance (chunks : List Bytes) : Decidable (LoginHeard chunks) :=
  inferInstanceAs (Decidable (_ ∧ _))

theorem LoginHeard.methodHeard (h : LoginHeard chunks) :
    MethodHeard chunks :=
  le_trans (by decide) h.1

/-- The bytes begin a reply that grants the request, and end before it does. -/
def Unfinished (rest : Bytes) : Prop :=
  match rest with
  | answer :: code :: _ :: addressType :: address =>
    answer = version ∧ code = 0 ∧
      ((addressType = 1 ∧ address.length < 6) ∨ (addressType = 4 ∧ address.length < 18) ∨
        (addressType = 3 ∧ ∀ length ∈ address.head?, address.length < length.toNat + 3))
  | _ => True

/-- The answers in `bytes` leave it open which of the stages a cut lets the handshake reach, or two
cuts let it reach the same one. -/
def Alike (credentials : Option (Text × Text)) (bytes : Bytes) (chunks chunks' : List Bytes) :
    Prop :=
  match bytes with
  | answer :: method :: rest =>
    answer = version →
      (method = 0 → Unfinished rest ∨ (MethodHeard chunks ↔ MethodHeard chunks')) ∧
      (method = 2 → credentials.isSome = true → rest.length < 2 ∨
        (MethodHeard chunks ↔ MethodHeard chunks') ∧
          (rest[1]? = some 0 → Unfinished (rest.drop 2) ∨
            (LoginHeard chunks ↔ LoginHeard chunks')))
  | _ => True

theorem answered_eq_waiting_iff (rest : Bytes) : answered rest = .waiting ↔ Unfinished rest := by
  match rest with
  | [] => exact ⟨fun _ => trivial, fun _ => rfl⟩
  | [_] => exact ⟨fun _ => trivial, fun _ => rfl⟩
  | [_, _] => exact ⟨fun _ => trivial, fun _ => rfl⟩
  | [_, _, _] => exact ⟨fun _ => trivial, fun _ => rfl⟩
  | answer :: code :: reserved :: addressType :: address =>
    simp only [answered, Unfinished]
    by_cases hversion : answer = version
    swap
    · simp [hversion]
    by_cases hcode : code = 0
    swap
    · simp [hversion, hcode]
    simp only [hversion, hcode, true_and]
    by_cases hv4 : addressType = 1
    · subst hv4
      simp only [addressLength, if_true]
      by_cases hshort : address.length < 4 + 2
      · simp [hshort]
      · simp [hshort]
    by_cases hv6 : addressType = 4
    · subst hv6
      simp only [addressLength, if_true]
      by_cases hshort : address.length < 16 + 2
      · simp [hshort]
      · simp [hshort]
    by_cases hname : addressType = 3
    · subst hname
      cases address with
      | nil => simp [addressLength]
      | cons length address =>
        by_cases hshort : address.length + 1 < 1 + length.toNat + 2
        · have hshort' : address.length < length.toNat + 2 := by omega
          simp [addressLength, hshort, hshort']
        · have hshort' : length.toNat + 2 ≤ address.length := by omega
          simp [addressLength, hshort, hshort']
    · simp [addressLength, hv4, hv6, hname]

theorem requestBytes_ne_nil (command : Command) (target : SocketAddr) :
    requestBytes command target ≠ [] :=
  fun h => cons_ne_nil _ _ h

theorem authenticated_eq_iff {loginHeard loginHeard' : Bool} {rest : Bytes}
    (hlong : ¬ rest.length < 2) :
    authenticated h loginHeard rest = authenticated h loginHeard' rest ↔
      (rest[1]? = some 0 → Unfinished (rest.drop 2) ∨ loginHeard = loginHeard') := by
  obtain ⟨v, status, rest, rfl⟩ := exists_of_two_le hlong
  rw [← answered_eq_waiting_iff]
  simp only [authenticated, getElem?_cons_succ, getElem?_cons_zero, Option.some.injEq,
    drop_succ_cons, drop_zero]
  by_cases hstatus : status = 0
  · simp only [hstatus, ne_eq, not_true_eq_false, if_false, Prod.mk.injEq, true_and, forall_const]
    cases loginHeard with
    | false =>
      cases loginHeard' with
      | false => simp
      | true => simp [eq_comm]
    | true =>
      cases loginHeard' with
      | false => simp
      | true => simp
  · simp [hstatus]

theorem authenticated_ne {loginHeard : Bool} {rest : Bytes} (hlong : ¬ rest.length < 2) :
    authenticated h loginHeard rest ≠ ([], .waiting) := by
  obtain ⟨v, status, rest, rfl⟩ := exists_of_two_le hlong
  simp only [authenticated]
  by_cases hstatus : status ≠ 0
  · simp [hstatus]
  · rw [if_neg hstatus]
    exact fun h => requestBytes_ne_nil _ _ (Prod.mk.inj h).1

theorem authenticated_of_login {said : Bytes} {heard : Bytes × Outcome}
    (h : (said ++ heard.1, heard.2) = (said, Outcome.waiting)) : heard = ([], .waiting) := by
  obtain ⟨hsaid, houtcome⟩ := Prod.mk.inj h
  exact Prod.ext (append_right_eq_self.1 hsaid) houtcome

theorem admitted_none (methodHeard loginHeard : Bool) (rest : Bytes) :
    admitted h methodHeard loginHeard (version :: 0 :: rest) =
      (requestBytes h.command h.target, if methodHeard then answered rest else .waiting) := by
  unfold admitted
  cases methodHeard with
  | false => rfl
  | true => rfl

theorem admitted_login {credentials : Text × Text} (hcredentials : h.credentials = some credentials)
    (methodHeard loginHeard : Bool) (rest : Bytes) :
    admitted h methodHeard loginHeard (version :: 2 :: rest) =
      if methodHeard then
        (login credentials.1 credentials.2 ++ (authenticated h loginHeard rest).1,
          (authenticated h loginHeard rest).2)
      else (login credentials.1 credentials.2, .waiting) := by
  unfold admitted
  have htwo : (2 : UInt8) ≠ 0 := by decide
  simp only [method, hcredentials, ne_eq, not_true_eq_false, if_false, if_true, if_neg htwo]
  rfl

/-- Two ways of cutting the proxy's answers give the same bytes to send and the same outcome exactly
when they are alike for the stream. -/
theorem cuts_agree_iff (command : Command) (target : SocketAddr)
    (credentials : Option (Text × Text)) (chunks chunks' : List Bytes)
    (hcut : chunks.flatten = chunks'.flatten) :
    feed (start command target credentials).1 chunks =
        feed (start command target credentials).1 chunks' ↔
      Alike credentials chunks.flatten chunks chunks' := by
  have hfeed : ∀ chunks, feed (start command target credentials).1 chunks =
      admitted (start command target credentials).1 (decide (MethodHeard chunks))
        (decide (LoginHeard chunks)) chunks.flatten := by
    intro chunks
    have h := feed_method (h := (start command target credentials).1) rfl Nat.zero_lt_two chunks
    simp only [start, List.length_nil, Nat.zero_add, List.nil_append] at h
    exact h
  rw [hfeed, hfeed, ← hcut]
  generalize chunks.flatten = bytes
  by_cases hshort : bytes.length < 2
  · rw [admitted_short hshort, admitted_short hshort]
    match bytes with
    | [] => simp [Alike]
    | [_] => simp [Alike]
    | _ :: _ :: _ =>
      simp only [List.length_cons] at hshort
      omega
  obtain ⟨v, m, rest, rfl⟩ := exists_of_two_le hshort
  by_cases hversion : v = version
  swap
  · simp [Alike, admitted, method, hversion]
  by_cases hnone : m = 0
  · rw [hversion, hnone, admitted_none, admitted_none]
    have htwo : (0 : UInt8) ≠ 2 := by decide
    simp only [Alike, forall_const, Prod.mk.injEq, true_and, htwo, false_implies, and_true]
    rw [← answered_eq_waiting_iff]
    by_cases hheard : MethodHeard chunks
    · by_cases hheard' : MethodHeard chunks'
      · simp [hheard, hheard']
      · simp [hheard, hheard']
    · by_cases hheard' : MethodHeard chunks'
      · simp [hheard, hheard', eq_comm]
      · simp [hheard, hheard']
  by_cases hlogin : m = 2
  · cases hcredentials : credentials with
    | none => simp [Alike, admitted, method, start, hversion, hlogin]
    | some credentials =>
      have hzero : (2 : UInt8) ≠ 0 := by decide
      rw [hversion, hlogin, admitted_login rfl, admitted_login rfl]
      simp only [Alike, forall_const, Option.isSome_some, hzero, false_implies, true_and]
      by_cases hrest : rest.length < 2
      · rw [authenticated_short hrest, authenticated_short hrest]
        simp [hrest]
      simp only [hrest, false_or]
      by_cases hheard : MethodHeard chunks
      · by_cases hheard' : MethodHeard chunks'
        · rw [decide_eq_true hheard, decide_eq_true hheard', if_pos rfl, if_pos rfl, Prod.mk.injEq,
            List.append_cancel_left_eq, ← Prod.ext_iff, authenticated_eq_iff hrest,
            decide_eq_decide]
          simp only [hheard, hheard', true_and]
        · rw [decide_eq_true hheard, decide_eq_false hheard', if_pos rfl]
          refine iff_of_false (fun h => ?_) fun h => hheard' (h.1.1 hheard)
          exact authenticated_ne hrest (authenticated_of_login h)
      by_cases hheard' : MethodHeard chunks'
      · rw [decide_eq_false hheard, decide_eq_true hheard', if_pos rfl]
        refine iff_of_false (fun h => ?_) fun h => hheard (h.1.2 hheard')
        exact authenticated_ne hrest (authenticated_of_login h.symm)
      · have hlogin : ¬ LoginHeard chunks := fun h => hheard h.methodHeard
        have hlogin' : ¬ LoginHeard chunks' := fun h => hheard' h.methodHeard
        simp only [hheard, hheard', hlogin, hlogin', or_true, implies_true, and_self]
  · by_cases hrefused : m = 0xff
    · simp [Alike, admitted, method, hversion, hrefused]
    · simp [Alike, admitted, method, hversion, hnone, hlogin, hrefused]

/-- A reply that comes with the method answer is heard if a chunk follows, for two ways of cutting
it off. -/
theorem cuts_agree_iff_granted :
    let login : Text × Text := (['g'], ['p'])
    let granted : Bytes := [5, 0, 0, 1, 10, 0, 0, 1, 0x1f, 0x90]
    feed (start .connect ⟨(93, 184, 216, 34), 443⟩ (some login)).1 [[5, 0], granted] =
      feed (start .connect ⟨(93, 184, 216, 34), 443⟩ (some login)).1
        [[5], [0, 5], granted.drop 1] := by
  apply (cuts_agree_iff .connect ⟨(93, 184, 216, 34), 443⟩ (some (['g'], ['p']))
    [[5, 0], [5, 0, 0, 1, 10, 0, 0, 1, 0x1f, 0x90]]
    [[5], [0, 5], [0, 0, 1, 10, 0, 0, 1, 0x1f, 0x90]] rfl).2
  refine fun _ => ⟨fun _ => .inr ⟨fun _ => ?_, fun _ => ?_⟩, nofun⟩
  · decide
  · decide

/-- The method answer and the reply in one chunk leave the handshake waiting; in two chunks they
complete it. -/
theorem early_reply_is_not_heard :
    let h := (start .connect ⟨(93, 184, 216, 34), 443⟩ none).1
    let answers : Bytes := [5, 0, 5, 0, 0, 1, 10, 0, 0, 1, 0x1f, 0x90]
    feed h [answers] = (requestBytes .connect ⟨(93, 184, 216, 34), 443⟩, .waiting) ∧
      feed h [answers.take 2, answers.drop 2] =
        (requestBytes .connect ⟨(93, 184, 216, 34), 443⟩, .done (.v4 (10, 0, 0, 1), 8080) []) := by
  decide

end Handshake

end GamePath.Engine.Tun2socks
