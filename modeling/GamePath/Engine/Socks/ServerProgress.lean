import GamePath.Engine.Socks.Server

/-!
# The loop of `advance` ends

Each phase of a connection decides for itself whether it made progress. A handshake phase that did
has moved the connection on to a phase of a lower rank, and a relaying one has read bytes that the
client had sent. The one exception is the first byte of a client that speaks neither SOCKS5 nor
HTTP: the connection is given up, but its phase and its input stay as they are and progress is
reported, so the loop goes round for ever. `advance_loop_halts_iff` says that this is the only one.
-/

namespace GamePath.Engine.Socks

open Lib Phase Server
open Direct (Text)

/-- The byte begins neither a SOCKS5 greeting nor an HTTP method. -/
def UnknownProtocol (first : UInt8) : Prop :=
  first ≠ socksVersion ∧ ¬ ((97 ≤ first ∧ first ≤ 122) ∨ (65 ≤ first ∧ first ≤ 90))

instance (first : UInt8) : Decidable (UnknownProtocol first) := inferInstanceAs (Decidable (_ ∧ _))

/-- The connection waits for its first byte to be told apart, and has one of no known protocol. -/
def Connection.Unrecognised (c : Connection) : Prop :=
  c.phase = .sniff ∧ ∃ first rest, c.input = first :: rest ∧ UnknownProtocol first

/-- The connection of a token is unrecognised. -/
def Unrecognised {ω : Type} (token : Token) (s : Server ω) : Prop :=
  ∃ c, s.connections.get? token = some c ∧ c.Unrecognised

/-- A client has sent finitely many bytes so far, and reading takes from them. Sending to a flow
does not add to them. -/
structure FiniteInput {ω : Type} (W : World ω) (unread : ω → Token → Nat) : Prop where
  read_data : ∀ w token room bytes w', W.read w token room = (.data bytes, w') →
    unread w' token + bytes.length ≤ unread w token
  read_wouldBlock : ∀ w token room w', W.read w token room = (.wouldBlock, w') →
    unread w' token ≤ unread w token
  read_failed : ∀ w token room w', W.read w token room = (.failed, w') →
    unread w' token ≤ unread w token
  tcpSend : ∀ w flow bytes token, unread (W.tcpSend w flow bytes).2 token ≤ unread w token
  tcpShutdown : ∀ w flow token, unread (W.tcpShutdown w flow) token ≤ unread w token

/-! ## The phases of a handshake -/

/-- How many transitions a phase of the handshake is from its end. -/
def Phase.rank : Phase → Nat
  | .sniff => 4
  | .greeting => 3
  | .userPass => 2
  | .request => 1
  | .httpHead => 1
  | _ => 0

theorem Phase.rank_le (phase : Phase) : phase.rank ≤ 4 := by
  cases phase <;> simp [rank]

namespace Connection

variable {ω : Type} {c : Connection} {w : ω} {W : World ω} {credentials : Option (Text × Text)}
  {token : Token}

theorem fail_phase (W : World ω) (c : Connection) (code : Reply) (w : ω) :
    (c.fail W code w).1.phase = .closing := rfl

theorem sniff_rank (hphase : c.phase = .sniff) (hknown : ¬ c.Unrecognised)
    (hprogress : c.sniff.1 = true) : c.sniff.2.phase.rank < 4 := by
  cases hinput : c.input with
  | nil => simp [sniff, hinput] at hprogress
  | cons first rest =>
    by_cases hsocks : first = socksVersion
    · simp [sniff, hinput, hsocks, rank]
    · by_cases hletter : (97 ≤ first ∧ first ≤ 122) ∨ (65 ≤ first ∧ first ≤ 90)
      · simp [sniff, hinput, hsocks, hletter, rank]
      · exact absurd ⟨hphase, first, rest, hinput, hsocks, hletter⟩ hknown

theorem greet_rank (hprogress : (c.greet credentials).1 = true) :
    (c.greet credentials).2.phase.rank < 3 := by
  cases hparse : parseGreeting c.input with
  | incomplete | invalid => simp [greet, hparse] at hprogress
  | done methods used =>
    simp only [greet, hparse]
    split
    · split <;> simp [rank]
    · simp [rank]

theorem greet_not_relaying (hprogress : (c.greet credentials).1 = true) (flow : FlowId) :
    (c.greet credentials).2.phase ≠ .relaying flow := by
  cases hparse : parseGreeting c.input with
  | incomplete | invalid => simp [greet, hparse] at hprogress
  | done methods used =>
    simp only [greet, hparse]
    split
    · split <;> simp
    · simp

theorem login_not_relaying (hprogress : (c.login credentials).1 = true) (flow : FlowId) :
    (c.login credentials).2.phase ≠ .relaying flow := by
  cases hparse : parseUserPass c.input with
  | incomplete | invalid => simp [login, hparse] at hprogress
  | done given used =>
    simp only [login, hparse]
    split <;> simp

theorem login_rank (hprogress : (c.login credentials).1 = true) :
    (c.login credentials).2.phase.rank < 2 := by
  cases hparse : parseUserPass c.input with
  | incomplete | invalid => simp [login, hparse] at hprogress
  | done given used =>
    simp only [login, hparse]
    split <;> simp [rank]

theorem takeRequest_next (hprogress : (c.takeRequest W w).progressed = true)
    (hnone : (c.takeRequest W w).next = none) :
    (c.takeRequest W w).connection.phase = .closing := by
  cases hparse : parseRequest c.input with
  | incomplete => simp [takeRequest, hparse] at hprogress
  | invalid reason => simp [takeRequest, hparse, fail_phase]
  | done request used =>
    simp only [takeRequest, hparse] at hnone ⊢
    split at hnone
    · cases hnone
    · split at hnone
      · cases hnone
      · next hconnect hassociate => simp [hconnect, hassociate, fail_phase]

theorem takeHttpHead_next (hprogress : (c.takeHttpHead W credentials w).progressed = true)
    (hnone : (c.takeHttpHead W credentials w).next = none) :
    (c.takeHttpHead W credentials w).connection.phase = .closing := by
  cases hparse : parseHttpRequest W.base64 c.input with
  | incomplete => simp [takeHttpHead, hparse] at hprogress
  | invalid reason => simp [takeHttpHead, hparse, fail_phase]
  | done request used =>
    simp only [takeHttpHead, hparse] at hnone ⊢
    split at hnone
    · cases hnone
    · next hauthorised => simp [hauthorised]

/-- Without a request, progress in the handshake leads to a phase of a lower rank. -/
theorem step_rank (hknown : ¬ c.Unrecognised) (hrelay : ∀ flow, c.phase ≠ .relaying flow)
    (hprogress : (c.step W credentials token w).progressed = true)
    (hnone : (c.step W credentials token w).next = none) :
    (∀ flow, (c.step W credentials token w).connection.phase ≠ .relaying flow) ∧
      (c.step W credentials token w).connection.phase.rank < c.phase.rank := by
  cases hphase : c.phase with
  | sniff =>
    simp only [step, hphase] at hprogress hnone ⊢
    have hrank := sniff_rank hphase hknown hprogress
    refine ⟨?_, hrank⟩
    intro flow hflow
    cases hinput : c.input with
    | nil => simp [sniff, hinput] at hprogress
    | cons first rest =>
      simp only [sniff, hinput] at hflow
      split at hflow
      · cases hflow
      · split at hflow
        · cases hflow
        · exact hrelay flow hflow
  | greeting =>
    simp only [step, hphase] at hprogress hnone ⊢
    exact ⟨greet_not_relaying hprogress, greet_rank hprogress⟩
  | userPass =>
    simp only [step, hphase] at hprogress hnone ⊢
    exact ⟨login_not_relaying hprogress, login_rank hprogress⟩
  | request =>
    simp only [step, hphase] at hprogress hnone ⊢
    rw [takeRequest_next hprogress hnone]
    exact ⟨nofun, by simp [rank]⟩
  | httpHead =>
    simp only [step, hphase] at hprogress hnone ⊢
    rw [takeHttpHead_next hprogress hnone]
    exact ⟨nofun, by simp [rank]⟩
  | relaying flow => exact absurd hphase (hrelay flow)
  | udpControl | resolving | connecting | closing => simp [step, hphase] at hprogress

theorem relay_next (W : World ω) (token : Token) (flow : FlowId) (c : Connection) (w : ω) :
    (c.relay W token flow w).next = none := by
  simp only [relay, readMore]
  split
  · split <;> rfl
  · rfl

theorem rank_of_next (hnext : (c.step W credentials token w).next ≠ none) :
    c.phase = .request ∨ c.phase = .httpHead := by
  cases hphase : c.phase with
  | request => exact .inl rfl
  | httpHead => exact .inr rfl
  | relaying flow =>
    simp only [step, hphase] at hnext
    exact absurd (relay_next W token flow c w) hnext
  | sniff | greeting | userPass | udpControl | resolving | connecting | closing =>
    simp [step, hphase] at hnext

/-! ## Relaying -/

variable {unread : ω → Token → Nat}

/-- What a read takes from the client it adds to the input. -/
theorem readClientFrom_unread (token : Token) (hfinite : FiniteInput W unread) (limit : Nat) :
    ∀ (fuel : Nat) (c : Connection) (w : ω),
      unread (readClientFrom W token limit fuel c w).2.2 token +
          (readClientFrom W token limit fuel c w).2.1.input.length ≤
        unread w token + c.input.length := by
  intro fuel
  induction fuel with
  | zero => exact fun c w => Nat.le_refl _
  | succ fuel ih =>
    intro c w
    rw [readClientFrom]
    split
    · split
      next w' hread =>
        have hle := hfinite.read_data _ _ _ _ _ hread
        have := ih { c with clientDone := true } w'
        dsimp only at this
        omega
      next bytes w' _ hread =>
        have hle := hfinite.read_data _ _ _ _ _ hread
        have hrest := ih { c with input := c.input ++ bytes } w'
        rw [show ({ c with input := c.input ++ bytes } : Connection).input.length =
          c.input.length + bytes.length from List.length_append] at hrest
        omega
      next w' hread =>
        have hle := hfinite.read_wouldBlock _ _ _ _ hread
        have := ih { c with readable := false } w'
        dsimp only at this
        omega
      next w' hread =>
        have hle := hfinite.read_failed _ _ _ _ hread
        show unread w' token + c.input.length ≤ unread w token + c.input.length
        omega
    · exact Nat.le_refl _

theorem readClientFrom_phase (W : World ω) (token : Token) (limit : Nat) :
    ∀ (fuel : Nat) (c : Connection) (w : ω),
    (readClientFrom W token limit fuel c w).2.1.phase = c.phase := by
  intro fuel
  induction fuel with
  | zero => exact fun c w => rfl
  | succ fuel ih =>
    intro c w
    rw [readClientFrom]
    split
    · split
      · rw [ih]
      · rw [ih]
      · rw [ih]
      · rfl
    · rfl

theorem sendInput_facts (hfinite : FiniteInput W unread) (token : Token) (flow : FlowId)
    (c : Connection) (w : ω) :
    (c.sendInput W flow w).1.phase = c.phase ∧
      unread (c.sendInput W flow w).2 token ≤ unread w token := by
  simp only [sendInput]
  split
  · exact ⟨rfl, Nat.le_refl _⟩
  · exact ⟨rfl, hfinite.tcpSend w flow c.input token⟩

theorem passEnd_facts (hfinite : FiniteInput W unread) (token : Token) (flow : FlowId)
    (c : Connection) (w : ω) :
    (c.passEnd W flow w).1.phase = c.phase ∧
      unread (c.passEnd W flow w).2 token ≤ unread w token := by
  simp only [passEnd]
  split
  · exact ⟨rfl, hfinite.tcpShutdown w flow token⟩
  · exact ⟨rfl, Nat.le_refl _⟩

theorem readMore_progress (hfinite : FiniteInput W unread)
    (hprogress : (c.readMore W token w).progressed = true) :
    (c.readMore W token w).connection.phase = c.phase ∧
      unread (c.readMore W token w).world token < unread w token := by
  have hunread := readClientFrom_unread token hfinite readChunk (readChunk - c.input.length) c w
  have hphase := readClientFrom_phase W token readChunk (readChunk - c.input.length) c w
  simp only [readMore, readClient] at hprogress ⊢
  split at hprogress
  next hmore =>
    rw [if_pos hmore]
    have hempty : c.input.length = 0 := by
      simp only [Bool.and_eq_true, List.isEmpty_iff] at hmore
      rw [hmore.1.1]
      rfl
    split at hprogress
    · cases hprogress
    next c' w' hread =>
      rw [hread] at hunread hphase
      have hgot : c'.input.length ≠ 0 := by
        simpa using hprogress
      refine ⟨hphase, ?_⟩
      dsimp only at hunread ⊢
      omega
  · cases hprogress

theorem relay_progress (hfinite : FiniteInput W unread) {flow : FlowId}
    (hprogress : (c.relay W token flow w).progressed = true) :
    (c.relay W token flow w).connection.phase = c.phase ∧
      unread (c.relay W token flow w).world token < unread w token := by
  obtain ⟨hsend, hsendUnread⟩ := sendInput_facts hfinite token flow c w
  obtain ⟨hend, hendUnread⟩ :=
    passEnd_facts hfinite token flow (c.sendInput W flow w).1 (c.sendInput W flow w).2
  obtain ⟨hread, hreadUnread⟩ := readMore_progress hfinite hprogress
  exact ⟨hread.trans (hend.trans hsend),
    Nat.lt_of_lt_of_le hreadUnread (Nat.le_trans hendUnread hsendUnread)⟩

end Connection

/-! ## The loop -/

namespace Server

variable {ω : Type} {W : World ω} {s : Server ω} {token : Token} {c : Connection}

@[simp] theorem put_get? (s : Server ω) (token : Token) (c : Connection) :
    (s.put token c).connections.get? token = some c :=
  KeyedMap.get?_insert_self s.connections token c

/-- The connection exists and is in a phase that waits for something outside. -/
def Parked (token : Token) (s : Server ω) : Prop :=
  ∃ c, s.connections.get? token = some c ∧ c.phase ≠ .sniff ∧ c.phase.rank = 0 ∧
    ∀ flow, c.phase ≠ .relaying flow

theorem parked_failConnection (W : World ω) (s : Server ω) (token : Token) (c : Connection)
    (code : Reply) : Parked token (s.failConnection W token c code) := by
  refine ⟨(c.fail W code s.world).1, put_get? _ _ _, ?_, ?_, ?_⟩
  · simp [Connection.fail_phase]
  · simp [Connection.fail_phase, rank]
  · simp [Connection.fail_phase]

theorem parked_openFlow (hget : s.connections.get? token = some c) (address : SocketAddr)
    (kind : ReplyKind) : Parked token (s.openFlow W token address kind) := by
  simp only [openFlow, hget]
  split
  · exact parked_failConnection W s token c .notAllowed
  · split
    · exact ⟨_, put_get? _ _ _, by simp, by simp [rank], by simp⟩
    · exact parked_failConnection W _ token c .generalFailure

theorem parked_beginConnect (hget : s.connections.get? token = some c) (target : Target)
    (kind : ReplyKind) : Parked token (s.beginConnect W token target kind) := by
  simp only [beginConnect, hget]
  cases target with
  | ipv6 => exact parked_failConnection W s token c .addressTypeNotSupported
  | ip address => exact parked_openFlow hget address kind
  | domain name port =>
    dsimp only
    split
    · refine parked_openFlow (c := c) ?_ _ kind
      exact hget
    · exact ⟨_, put_get? _ _ _, by simp, by simp [rank], by simp⟩
    · exact parked_failConnection W _ token c .hostUnreachable

theorem parked_associate (hget : s.connections.get? token = some c) (target : Target) :
    Parked token (s.associate W token target) := by
  simp only [associate, hget]
  split
  · exact parked_failConnection W s token c .generalFailure
  · split
    · exact parked_failConnection W _ token c .generalFailure
    · exact ⟨_, put_get? _ _ _, by simp, by simp [rank], by simp⟩

/-- What is left of the loop: transitions of the handshake, or bytes that the client sent. -/
def loopMeasure (unread : ω → Token → Nat) (token : Token) (s : Server ω) : Nat :=
  match s.connections.get? token with
  | none => 0
  | some c =>
    match c.phase with
    | .relaying _ => unread s.world token
    | phase => phase.rank

variable {unread : ω → Token → Nat}

theorem loopMeasure_of_parked (h : Parked token s) :
    loopMeasure unread token s = 0 ∧ ¬ Unrecognised token s := by
  obtain ⟨c, hget, hsniff, hrank, hrelay⟩ := h
  constructor
  · simp only [loopMeasure, hget]
    exact hrank
  · rintro ⟨c', hget', hphase, -⟩
    obtain rfl : c = c' := Option.some.inj (hget.symm.trans hget')
    exact hsniff hphase

theorem step_eq_of_none (hget : s.connections.get? token = some c)
    (hnone : (c.step W s.credentials token s.world).next = none) :
    s.step W token = ((c.step W s.credentials token s.world).progressed,
      { s with world := (c.step W s.credentials token s.world).world }.put token
        (c.step W s.credentials token s.world).connection) := by
  simp only [step, hget, hnone]

theorem parked_step (hget : s.connections.get? token = some c)
    (hnext : (c.step W s.credentials token s.world).next ≠ none) :
    Parked token (s.step W token).2 := by
  simp only [step, hget]
  cases hcase : (c.step W s.credentials token s.world).next with
  | none => exact absurd hcase hnext
  | some next =>
    cases next with
    | connect target kind => exact parked_beginConnect (put_get? _ _ _) target kind
    | associate target => exact parked_associate (put_get? _ _ _) target

/-- A transition of the handshake that is followed by nothing else lowers the rank. -/
theorem loopMeasure_of_rank (hget : s.connections.get? token = some c)
    (hnone : (c.step W s.credentials token s.world).next = none)
    (hrelay : ∀ flow, (c.step W s.credentials token s.world).connection.phase ≠ .relaying flow)
    (hrank : (c.step W s.credentials token s.world).connection.phase.rank < c.phase.rank) :
    ¬ Unrecognised token (s.step W token).2 ∧
      loopMeasure unread token (s.step W token).2 < loopMeasure unread token s := by
  have hbefore : loopMeasure unread token s = c.phase.rank := by
    simp only [loopMeasure, hget]
    split
    next flow hphase =>
      rw [hphase] at hrank
      simp [rank] at hrank
    · rfl
  rw [step_eq_of_none hget hnone, hbefore]
  constructor
  · rintro ⟨c', hget', hphase, -⟩
    rw [put_get?] at hget'
    rw [Option.some.inj hget', hphase, show sniff.rank = 4 from rfl] at hrank
    have hhigh := rank_le c.phase
    omega
  · simp only [loopMeasure, put_get?]
    exact hrank

/-- Every step that makes progress takes from the measure, unless the client's protocol is unknown.
-/
theorem loopMeasure_step (hfinite : FiniteInput W unread) (hknown : ¬ Unrecognised token s)
    (hprogress : (s.step W token).1 = true) :
    ¬ Unrecognised token (s.step W token).2 ∧
      loopMeasure unread token (s.step W token).2 < loopMeasure unread token s := by
  cases hget : s.connections.get? token with
  | none => simp [step, hget] at hprogress
  | some c =>
    have hstepped : (c.step W s.credentials token s.world).progressed = true := by
      simpa [step, hget] using hprogress
    have hc : ¬ c.Unrecognised := fun h => hknown ⟨c, hget, h⟩
    by_cases hnext : (c.step W s.credentials token s.world).next = none
    · by_cases hrelaying : ∃ flow, c.phase = .relaying flow
      · obtain ⟨flow, hphase⟩ := hrelaying
        have hstep : c.step W s.credentials token s.world = c.relay W token flow s.world := by
          simp [Connection.step, hphase]
        rw [hstep] at hstepped
        obtain ⟨hsame, hless⟩ := Connection.relay_progress hfinite hstepped
        rw [hphase] at hsame
        rw [step_eq_of_none hget hnext, hstep]
        constructor
        · rintro ⟨c', hget', hsniff, -⟩
          rw [put_get?] at hget'
          rw [← Option.some.inj hget', hsame] at hsniff
          cases hsniff
        · simp only [loopMeasure, put_get?, hsame, hget, hphase]
          exact hless
      · -- A phase of the handshake: the next one has a lower rank.
        have hlower := Connection.step_rank hc (fun flow h => hrelaying ⟨flow, h⟩) hstepped hnext
        exact loopMeasure_of_rank hget hnext hlower.1 hlower.2
    · -- A request was taken, and the connection waits for something outside.
      obtain ⟨hmeasure, hnot⟩ :=
        @loopMeasure_of_parked _ _ _ unread (parked_step hget hnext)
      have hrank := Connection.rank_of_next hnext
      refine ⟨hnot, ?_⟩
      rw [hmeasure]
      simp only [loopMeasure, hget]
      rcases hrank with hphase | hphase <;> simp [hphase, rank]

theorem unrecognised_step (h : Unrecognised token s) :
    (s.step W token).1 = true ∧ Unrecognised token (s.step W token).2 := by
  obtain ⟨c, hget, hphase, first, rest, hinput, hsocks, hletter⟩ := h
  have hsniff : c.sniff = (true, { c with finished := true }) := by
    simp only [Connection.sniff, hinput, if_neg hsocks, if_neg hletter]
  have hstep : c.step W s.credentials token s.world =
      ⟨true, none, { c with finished := true }, s.world⟩ := by
    simp [Connection.step, hphase, hsniff]
  rw [step_eq_of_none hget (by rw [hstep]), hstep]
  refine ⟨rfl, { c with finished := true }, put_get? _ _ _, hphase, first, rest, hinput,
    hsocks, hletter⟩

/-- The loop of `advance` ends from every state of the server, whatever its clients have sent,
unless the connection waits for its first byte and has one of no known protocol. -/
theorem advance_loop_halts_iff (W : World ω) (unread : ω → Token → Nat)
    (hfinite : FiniteInput W unread) (s : Server ω) (token : Token) :
    (∃ fuel t, stepUntilIdle W token fuel s = some t) ↔ ¬ Unrecognised token s := by
  constructor
  · rintro ⟨fuel, t, hhalts⟩ hunknown
    have hnone : stepUntilIdle W token fuel s = none :=
      untilIdle_eq_none (fun s h => unrecognised_step h) fuel s hunknown
    rw [hnone] at hhalts
    cases hhalts
  · intro hknown
    exact exists_untilIdle_of_measure (m := loopMeasure unread token)
      (I := fun s => ¬ Unrecognised token s)
      (fun s h hprogress => loopMeasure_step hfinite h hprogress) s hknown

end Server

/-! ## A client that speaks SOCKS4 -/

/-- One client and what it has sent so far; flows cannot be opened. -/
def oneClient : World Bytes where
  tcpConnect sent _ := (.error [], sent)
  tcpState sent _ := (.closed, sent)
  tcpSend sent _ _ := (0, sent)
  tcpRecv sent _ _ := ([], sent)
  tcpSendIdle sent _ := (true, sent)
  tcpShutdown sent _ := sent
  tcpRelease sent _ := sent
  udpOpen sent := (.error [], sent)
  udpSend sent _ _ _ := (false, sent)
  udpRecv sent _ := ([], sent)
  udpRelease sent _ := sent
  drive sent := sent
  now sent := (0, sent)
  random sent := (0, sent)
  hashOrder sent := (0, sent)
  read sent _ room :=
    if sent.isEmpty then (.wouldBlock, sent) else (.data (sent.take room), sent.drop room)
  write sent _ bytes := (.written bytes.length, sent)
  shutdownWrite sent _ := sent
  recvFrom sent := ([], sent)
  sendTo sent _ _ := (true, sent)
  base64 _ := none

theorem oneClient_finite : FiniteInput oneClient fun sent _ => sent.length where
  read_data sent token room bytes sent' h := by
    simp only [oneClient] at h
    split at h
    · cases h
    · obtain ⟨hbytes, rfl⟩ := Prod.mk.inj h
      rw [← ReadAnswer.data.inj hbytes, List.length_drop, List.length_take]
      omega
  read_wouldBlock sent token room sent' h := by
    simp only [oneClient] at h
    split at h
    · cases h
      exact Nat.le_refl _
    · cases h
  read_failed sent token room sent' h := by
    simp only [oneClient] at h
    split at h <;> cases h
  tcpSend sent _ _ _ := Nat.le_refl _
  tcpShutdown sent _ _ := Nat.le_refl _

/-- A server to which a client on the local network has connected and sent some bytes. -/
def serverWith (sent : Bytes) : Server Bytes :=
  (new sent 1080 [] none).accept oneClient ⟨(192, 168, 1, 40), 50000⟩ ⟨(192, 168, 1, 2), 1080⟩ true

/-- A SOCKS5 client gets as far as its request. -/
theorem advance_loop_halts_socks5 :
    ∃ fuel t, stepUntilIdle oneClient 16 fuel ((serverWith [5, 1, 0]).readAhead oneClient 16).2 =
      some t :=
  (advance_loop_halts_iff oneClient _ oneClient_finite _ 16).2 (by
    rintro ⟨c, hget, -, first, rest, hinput, hunknown⟩
    have hfirst : (((serverWith [5, 1, 0]).readAhead oneClient 16).2.connections.get? 16).map
        (fun c => c.input.head?) = some (some 5) := by
      decide +kernel
    rw [hget, Option.map_some, hinput] at hfirst
    obtain rfl : first = 5 := by simpa using hfirst
    exact hunknown.1 rfl)

/-- A SOCKS4 client, whose first byte is 4, keeps the loop of `advance` going for ever. -/
theorem socks4_client_spins :
    ¬ ∃ fuel t, (serverWith [4, 1, 0, 80]).advance oneClient fuel 16 = some t := by
  rintro ⟨fuel, t, hhalts⟩
  have hread : ((serverWith [4, 1, 0, 80]).readAhead oneClient 16).1 = true := by decide +kernel
  have hget : (((serverWith [4, 1, 0, 80]).readAhead oneClient 16).2.connections.get? 16).map
      (fun c => (c.phase, c.input)) = some (.sniff, [4, 1, 0, 80]) := by
    decide +kernel
  obtain ⟨c, hc, hparts⟩ := Option.map_eq_some_iff.1 hget
  have hunknown : Unrecognised 16 ((serverWith [4, 1, 0, 80]).readAhead oneClient 16).2 :=
    ⟨c, hc, congrArg Prod.fst hparts, 4, [1, 0, 80], congrArg Prod.snd hparts, by decide⟩
  have hpair : (serverWith [4, 1, 0, 80]).readAhead oneClient 16 =
      (true, ((serverWith [4, 1, 0, 80]).readAhead oneClient 16).2) := Prod.ext hread rfl
  rw [advance, hpair] at hhalts
  dsimp only at hhalts
  have hnone : stepUntilIdle oneClient 16 fuel
      ((serverWith [4, 1, 0, 80]).readAhead oneClient 16).2 = none :=
    untilIdle_eq_none (fun s h => unrecognised_step h) fuel _ hunknown
  rw [hnone] at hhalts
  cases hhalts

end GamePath.Engine.Socks
