import GamePath.Engine.Socks.Handshakes
import GamePath.Engine.Socks.ServerProgress

/-!
# What a client sends arrives in pieces (`advance`)

A connection reads a piece of what its client sends and makes the transitions that it allows, and
what it says is written in between. `Reads` is this, for any pieces, up to the request of a
connection. It follows the machine of the handshake, which is steady, so the pieces matter only
where a head is longer than its limit (`reads_agree_iff`).
-/

namespace GamePath.Engine.Socks

open Lib List Option
open Direct (Text)
open Dns (utf8Bytes)

variable {ω : Type}

/-! ## Reading in pieces -/

section Reads

namespace Connection

/-- A connection as it is accepted. -/
def fresh (client localAddress : SocketAddr) (deadline : Instant) : Connection where
  client := client
  localAddress := localAddress
  phase := .sniff
  protocol := .socks
  input := []
  output := []
  readable := true
  writable := true
  clientDone := false
  upstreamShut := false
  clientShut := false
  deadline := some deadline
  counted := false
  finished := false

/-- What is seen of the handshake, with what was written so far. -/
def hand (written : Bytes) (c : Connection) : Hand := ⟨c.phase, c.protocol, written ++ c.output⟩

/-- The handshake goes on. -/
def Handshaking (c : Connection) : Prop := c.finished = false ∧ 0 < c.phase.rank

instance (c : Connection) : Decidable c.Handshaking := inferInstanceAs (Decidable (_ ∧ _))

/-- A piece arrives. The stream may have more, and it may be at its end. -/
def arrives (piece : Bytes) (readable clientDone : Bool) (c : Connection) : Connection :=
  { c with input := c.input ++ piece, readable := readable, clientDone := clientDone }

/-- Some of the output is written. -/
def writes (count : ℕ) (c : Connection) : Connection := { c with output := c.output.drop count }

/-- The loop of `advance` on the connection, up to a request: the last transition of it. -/
def settle (W : World ω) (credentials : Option (Text × Text)) (token : Token) :
    ℕ → Connection → ω → Option (Stepped ω)
  | 0, _, _ => none
  | fuel + 1, c, w =>
    let stepped := c.step W credentials token w
    if stepped.progressed && stepped.next.isNone then
      settle W credentials token fuel stepped.connection stepped.world
    else some stepped

/-- What the loop has come to: a handshake that goes on, or its ending. -/
def Stepped.came (written : Bytes) (stepped : Stepped ω) : Hand ⊕ Ending :=
  match stepped.next with
  | some next => .inr (.asks next (stepped.connection.hand written))
  | none =>
    if stepped.connection.Handshaking then .inl (stepped.connection.hand written)
    else .inr (.ended stepped.connection.finished (stepped.connection.hand written))

/-- A connection gets what is to come in some pieces, each with the loop of `advance` behind it,
until nothing is to come or the handshake has an ending. Of what is to come, the rest is left with
what the connection has. -/
inductive Reads (W : World ω) (credentials : Option (Text × Text)) (token : Token) :
    Connection → Bytes → Bytes → Hand ⊕ Ending → Bytes → Prop where
  | waits {c : Connection} {written : Bytes} : Reads W credentials token c written []
    (.inl (c.hand written)) c.input
  | writes {c : Connection} {written coming left : Bytes} {x : Hand ⊕ Ending} (count : ℕ) :
      Reads W credentials token (c.writes count) (written ++ c.output.take count) coming x left →
      Reads W credentials token c written coming x left
  | piece {c : Connection} {written piece coming left : Bytes} {x : Hand ⊕ Ending} {hand : Hand}
      {readable clientDone : Bool} {fuel : ℕ} {w : ω} {stepped : Stepped ω} :
      c.input.length + piece.length ≤ inputLimit →
      settle W credentials token fuel (c.arrives piece readable clientDone) w = some stepped →
      stepped.came written = .inl hand →
      Reads W credentials token stepped.connection written coming x left →
      Reads W credentials token c written (piece ++ coming) x left
  | ends {c : Connection} {written piece coming : Bytes} {ending : Ending}
      {readable clientDone : Bool} {fuel : ℕ} {w : ω} {stepped : Stepped ω} :
      c.input.length + piece.length ≤ inputLimit →
      settle W credentials token fuel (c.arrives piece readable clientDone) w = some stepped →
      stepped.came written = .inr ending →
      Reads W credentials token c written (piece ++ coming) (.inr ending)
        (stepped.connection.input ++ coming)
  | spins {c : Connection} {written piece coming : Bytes} {readable clientDone : Bool} {w : ω} :
      c.input.length + piece.length ≤ inputLimit →
      (∀ fuel, settle W credentials token fuel (c.arrives piece readable clientDone) w = none) →
      Reads W credentials token c written (piece ++ coming) (.inr .spins)
        (c.input ++ piece ++ coming)

end Connection

end Reads

/-! ## The reads of the server -/

section Server

variable {W : World ω} {token : Token} {c : Connection}

theorem Connection.readClientFrom_arrives (limit : ℕ) :
    ∀ (fuel : ℕ) (c : Connection) (w : ω), ∃ piece readable clientDone,
      (readClientFrom W token limit fuel c w).2.1 = c.arrives piece readable clientDone ∧
        ((∀ w room bytes w', W.read w token room = (.data bytes, w') → bytes.length ≤ room) →
          c.input.length ≤ limit → c.input.length + piece.length ≤ limit) := by
  intro fuel
  have hnothing : ∀ c : Connection, c = c.arrives [] c.readable c.clientDone := fun c => by
    rw [arrives, append_nil]
  induction fuel with
  | zero => exact fun c w => ⟨[], c.readable, c.clientDone, hnothing c, fun _ => id⟩
  | succ fuel ih =>
    intro c w
    rw [readClientFrom]
    split
    · split
      next w' _ =>
        obtain ⟨piece, readable, clientDone, heq, hroom⟩ := ih { c with clientDone := true } w'
        exact ⟨piece, readable, clientDone, heq, hroom⟩
      next bytes w' _ hread =>
        obtain ⟨piece, readable, clientDone, heq, hroom⟩ :=
          ih { c with input := c.input ++ bytes } w'
        refine ⟨bytes ++ piece, readable, clientDone, ?_, fun hlaw hle => ?_⟩
        · rw [heq, arrives, arrives, append_assoc]
        · have hbytes := hlaw _ _ _ _ hread
          have hrest := hroom hlaw
          rw [length_append] at hrest ⊢
          omega
      next w' _ =>
        obtain ⟨piece, readable, clientDone, heq, hroom⟩ := ih { c with readable := false } w'
        exact ⟨piece, readable, clientDone, heq, hroom⟩
      · exact ⟨[], c.readable, c.clientDone, hnothing c, fun _ => id⟩
    · exact ⟨[], c.readable, c.clientDone, hnothing c, fun _ => id⟩

theorem Server.stepUntilIdle_of_settle {fuel : ℕ} {s : Server ω} {stepped : Connection.Stepped ω}
    (hget : s.connections.get? token = some c)
    (hsettle : c.settle W s.credentials token fuel s.world = some stepped)
    (hnext : stepped.next = none) :
    ∃ s', s.stepUntilIdle W token fuel = some s' ∧
      s'.connections.get? token = some stepped.connection ∧
      s'.world = stepped.world := by
  induction fuel generalizing s c with
  | zero => cases hsettle
  | succ fuel ih =>
    rw [Connection.settle] at hsettle
    split at hsettle
    next hgoes =>
      rw [Bool.and_eq_true, isNone_iff_eq_none] at hgoes
      have hstep := step_eq_of_none hget hgoes.2
      rw [hgoes.1] at hstep
      obtain ⟨s', hidle, hrest⟩ := ih (put_get? { s with world := _ } token _) hsettle
      refine ⟨s', ?_, hrest⟩
      rw [stepUntilIdle, untilIdle, hstep]
      exact hidle
    next hstays =>
      cases hsettle
      have hstep := step_eq_of_none hget hnext
      rw [hnext, isNone_none, Bool.and_true, Bool.not_eq_true] at hstays
      rw [hstays] at hstep
      refine ⟨(s.step W token).2, ?_, ?_⟩
      · rw [stepUntilIdle, untilIdle, hstep]
      · rw [hstep]
        exact ⟨put_get? _ _ _, rfl⟩

end Server

/-! ## The machine is followed -/

section Following

namespace Connection

variable {W : World ω} {credentials : Option (Text × Text)} {token : Token} {c : Connection} {w : ω}
  {written : Bytes}

/-- A transition is a turn of the machine. -/
def Follows (written : Bytes) (c : Connection) : Option (Turn Hand Ending) → Stepped ω → Prop
  | none, stepped => stepped.progressed = false ∧ stepped.next = none ∧ stepped.connection = c
  | some (.on hand used), stepped =>
    stepped.progressed = true ∧ stepped.next = none ∧ stepped.connection.hand written = hand ∧
      stepped.connection.input = c.input.drop used ∧ stepped.connection.Handshaking
  | some (.ends (.asks next hand) used), stepped =>
    stepped.next = some next ∧ stepped.connection.hand written = hand ∧
      stepped.connection.input = c.input.drop used
  | some (.ends (.ended finished hand) used), stepped =>
    stepped.progressed = !finished ∧ stepped.next = none ∧ stepped.connection.hand written = hand ∧
      stepped.connection.input = c.input.drop used ∧ stepped.connection.finished = finished ∧
      (finished = false → stepped.connection.phase = .closing)
  | some (.ends .spins used), stepped =>
    stepped.progressed = true ∧ stepped.next = none ∧ stepped.connection.Unrecognised ∧ used = 0

@[simp] theorem hand_phase : (c.hand written).phase = c.phase := rfl

theorem hand_fail (code : Reply) :
    (c.fail W code w).1.hand written = (c.hand written).fail code := by
  cases hprotocol : c.protocol <;> simp [hand, fail, send, Hand.fail, hprotocol]

theorem fail_input (code : Reply) : (c.fail W code w).1.input = c.input := by
  cases hprotocol : c.protocol <;> simp [fail, send, hprotocol]

theorem fail_finished (code : Reply) : (c.fail W code w).1.finished = c.finished := by
  cases hprotocol : c.protocol <;> simp [fail, send, hprotocol]

/-- Each transition of a handshake is the turn of the machine. -/
theorem step_follows (h : c.Handshaking) :
    Follows written c (handshake W.base64 credentials (c.hand written) c.input)
      (c.step W credentials token w) := by
  obtain ⟨hopen, hrank⟩ := h
  cases hphase : c.phase with
  | sniff =>
    simp only [step, handshake, hand, hphase]
    cases hinput : c.input with
    | nil => simp [sniff, Hand.sniff, hinput, Follows]
    | cons first rest =>
      by_cases hsocks : first = socksVersion
      · simp [sniff, Hand.sniff, hinput, hsocks, Follows, hand, Handshaking, hopen, Phase.rank]
      by_cases hletter : IsLetter first
      · have hcode : (97 ≤ first ∧ first ≤ 122) ∨ (65 ≤ first ∧ first ≤ 90) := hletter
        simp [sniff, Hand.sniff, hinput, hsocks, hletter, hcode, Follows, hand, Handshaking, hopen,
          Phase.rank]
      · have hcode : ¬ ((97 ≤ first ∧ first ≤ 122) ∨ (65 ≤ first ∧ first ≤ 90)) := hletter
        simp only [sniff, Hand.sniff, hinput, if_neg hsocks, if_neg hletter, if_neg hcode]
        exact ⟨rfl, rfl, ⟨hphase, first, rest, rfl, hsocks, hcode⟩, rfl⟩
  | greeting =>
    simp only [step, handshake, hand, hphase]
    cases hparse : parseGreeting c.input with
    | incomplete => simp [greet, hparse, onParse, Follows]
    | invalid reason => simp [greet, hparse, onParse, Follows, hand, hphase]
    | done methods used =>
      simp only [greet, hparse, onParse, Hand.greeted]
      generalize (if credentials.isSome || !methods.contains methodNone then
          if methods.contains methodUserPass then some methodUserPass else none
        else some methodNone) = method
      cases method with
      | none => simp [Follows, hand, send, hopen]
      | some method =>
        by_cases hlogin : method = methodUserPass
        · simp [hlogin, Follows, hand, send, Handshaking, hopen, Phase.rank]
        · simp [hlogin, Follows, hand, send, Handshaking, hopen, Phase.rank]
  | userPass =>
    simp only [step, handshake, hand, hphase]
    cases hparse : parseUserPass c.input with
    | incomplete => simp [login, hparse, onParse, Follows]
    | invalid reason => simp [login, hparse, onParse, Follows, hand, hphase]
    | done given used =>
      simp only [login, hparse, onParse, Hand.loggedIn]
      split
      · simp [Follows, hand, send, Handshaking, hopen, Phase.rank]
      · simp [Follows, hand, send, hopen]
  | request =>
    simp only [step, handshake, hand_phase, hphase]
    cases hparse : parseRequest c.input with
    | incomplete => simp [takeRequest, hparse, onParse, Follows]
    | invalid reason =>
      simp only [takeRequest, hparse, onParse]
      exact ⟨rfl, rfl, hand_fail _, fail_input _, (fail_finished _).trans hopen, fun _ => rfl⟩
    | done request used =>
      simp only [takeRequest, hparse, onParse, Hand.requested]
      split
      · exact ⟨rfl, rfl, rfl⟩
      · split
        · exact ⟨rfl, rfl, rfl⟩
        · exact ⟨rfl, rfl, hand_fail _, fail_input _, (fail_finished _).trans hopen, fun _ => rfl⟩
  | httpHead =>
    simp only [step, handshake, hand_phase, hphase]
    cases hparse : parseHttpRequest W.base64 c.input with
    | incomplete => simp [takeHttpHead, hparse, onParse, Follows]
    | invalid reason =>
      simp only [takeHttpHead, hparse, onParse]
      exact ⟨rfl, rfl, hand_fail _, fail_input _, (fail_finished _).trans hopen, fun _ => rfl⟩
    | done request used =>
      simp only [takeHttpHead, hparse, onParse, Hand.headRead]
      split
      · exact ⟨rfl, rfl, rfl⟩
      · simp [Follows, hand, send, hopen]
  | resolving | connecting | relaying | udpControl | closing =>
    rw [hphase] at hrank; exact absurd hrank (Nat.lt_irrefl 0)

theorem settle_unrecognised (h : c.Unrecognised) (fuel : ℕ) :
    settle W credentials token fuel c w = none := by
  induction fuel generalizing c with
  | zero => rfl
  | succ fuel ih =>
    obtain ⟨hphase, first, rest, hinput, hsocks, hletter⟩ := h
    have hstep : c.step W credentials token w = ⟨true, none, { c with finished := true }, w⟩ := by
      simp only [step, hphase, sniff, hinput, if_neg hsocks, if_neg hletter]
    rw [settle, hstep]
    exact ih ⟨hphase, first, rest, hinput, hsocks, hletter⟩

theorem exists_settle : ∀ (n : ℕ) (c : Connection) (w : ω), c.phase.rank ≤ n → ¬ c.Unrecognised →
    (∀ flow, c.phase ≠ .relaying flow) → ∃ fuel stepped,
      settle W credentials token fuel c w = some stepped := by
  intro n
  induction n with
  | zero =>
    intro c w hn hknown hrelay
    refine ⟨1, c.step W credentials token w, ?_⟩
    apply if_neg
    intro hgoes
    rw [Bool.and_eq_true, isNone_iff_eq_none] at hgoes
    have := (step_rank hknown hrelay hgoes.1 hgoes.2).2
    omega
  | succ n ih =>
    intro c w hn hknown hrelay
    by_cases hgoes : (c.step W credentials token w).progressed = true ∧
        (c.step W credentials token w).next = none
    · obtain ⟨hrelay', hrank⟩ := step_rank hknown hrelay hgoes.1 hgoes.2
      -- No connection comes back to the first byte.
      have hknown' : ¬ (c.step W credentials token w).connection.Unrecognised := by
        rintro ⟨hphase, -⟩
        have := c.phase.rank_le
        rw [hphase, Phase.rank] at hrank
        omega
      obtain ⟨fuel, stepped, hsettle⟩ := ih _ (c.step W credentials token w).world
        (by omega) hknown' hrelay'
      refine ⟨fuel + 1, stepped, ?_⟩
      rw [settle, hgoes.1, hgoes.2]
      exact hsettle
    · refine ⟨1, c.step W credentials token w, ?_⟩
      apply if_neg
      rwa [Bool.and_eq_true, isNone_iff_eq_none]

variable {stepped : Stepped ω}

theorem settle_closing {fuel : ℕ} (h : c.phase = .closing)
    (hsettle : settle W credentials token fuel c w = some stepped) :
    stepped.connection = c ∧ stepped.next = none := by
  have hstep : c.step W credentials token w = ⟨false, none, c, w⟩ := by
    rw [step, h]
  cases fuel with
  | zero => cases hsettle
  | succ fuel =>
    rw [settle, hstep] at hsettle
    cases hsettle
    exact ⟨rfl, rfl⟩

/-- The loop is a run of the machine. -/
theorem runs_of_settle (written : Bytes) {fuel : ℕ} (h : c.Handshaking)
    (hsettle : settle W credentials token fuel c w = some stepped) :
    Runs (handshake W.base64 credentials) (c.hand written) c.input (stepped.came written)
      stepped.connection.input := by
  induction fuel generalizing c w with
  | zero => cases hsettle
  | succ fuel ih =>
    have hfollows := @step_follows _ W credentials token c w written h
    rw [settle] at hsettle
    cases hturn : handshake W.base64 credentials (c.hand written) c.input with
    | none =>
      rw [hturn] at hfollows
      obtain ⟨hprogressed, hnext, hsame⟩ := hfollows
      rw [hprogressed] at hsettle
      cases hsettle
      rw [Stepped.came, hnext, hsame]
      rw [if_pos h]
      exact .waits hturn
    | some turn =>
      rw [hturn] at hfollows
      cases turn with
      | on hand used =>
        obtain ⟨hprogressed, hnext, hhand, hinput, hgoes⟩ := hfollows
        rw [hprogressed, hnext] at hsettle
        have hrest := ih hgoes hsettle
        rw [hhand, hinput] at hrest
        exact .on hturn hrest
      | ends ending used =>
        cases ending with
        | asks next hand =>
          obtain ⟨hnext, hhand, hinput⟩ := hfollows
          rw [hnext, isNone_some, Bool.and_false] at hsettle
          cases hsettle
          rw [Stepped.came, hnext, hinput]
          rw [hhand]
          exact .ends hturn
        | ended finished hand =>
          obtain ⟨hprogressed, hnext, hhand, hinput, hfinished, hclosing⟩ := hfollows
          have hcame : stepped.connection = (c.step W credentials token w).connection ∧
              stepped.next = none := by
            cases finished with
            | true =>
              rw [hprogressed] at hsettle
              cases hsettle
              exact ⟨rfl, hnext⟩
            | false =>
              rw [hprogressed, hnext] at hsettle
              exact settle_closing (hclosing rfl) hsettle
          have hover : ¬ (c.step W credentials token w).connection.Handshaking := by
            rintro ⟨hopen, hrank⟩
            rw [hclosing (hfinished.symm.trans hopen)] at hrank
            exact absurd hrank (Nat.lt_irrefl 0)
          rw [Stepped.came, hcame.2, hcame.1]
          rw [if_neg hover, hfinished, hhand, hinput]
          exact .ends hturn
        | spins =>
          obtain ⟨hprogressed, hnext, hunknown, -⟩ := hfollows
          rw [hprogressed, hnext] at hsettle
          rw [settle_unrecognised hunknown] at hsettle
          cases hsettle

theorem handshaking_of_came {hand : Hand} (h : stepped.came written = .inl hand) :
    stepped.connection.Handshaking ∧ hand = stepped.connection.hand written := by
  rw [Stepped.came] at h
  split at h
  · cases h
  · split at h
    · next hgoes => exact ⟨hgoes, (Sum.inl.inj h).symm⟩
    · cases h

theorem Handshaking.arrives (h : c.Handshaking) {piece : Bytes} {readable clientDone : Bool} :
    (c.arrives piece readable clientDone).Handshaking := h

theorem Handshaking.not_relaying (h : c.Handshaking) (flow : FlowId) :
    c.phase ≠ .relaying flow := by
  intro hphase
  have hrank := h.2
  rw [hphase] at hrank
  exact absurd hrank (Nat.lt_irrefl 0)

theorem feeds_of_reads {coming left : Bytes} {x : Hand ⊕ Ending}
    (hreads : Reads W credentials token c written coming x left) :
    c.Handshaking →
      Feeds (handshake W.base64 credentials) inputLimit (c.hand written) c.input coming x left := by
  induction hreads with
  | waits => exact fun _ => .waits
  | @writes c written coming left x count _ ih =>
    intro h
    have hhand : (c.writes count).hand (written ++ c.output.take count) = c.hand written := by
      simp [hand, Connection.writes]
    rw [← hhand]
    exact ih h
  | @piece c written piece coming left x hand readable clientDone fuel w stepped hroom hsettle
      hcame _ ih =>
    intro h
    obtain ⟨hgoes, rfl⟩ := handshaking_of_came hcame
    have hruns := runs_of_settle written h.arrives hsettle
    rw [hcame] at hruns
    exact .piece hroom hruns (ih hgoes)
  | @ends c written piece coming ending readable clientDone fuel w stepped hroom hsettle hcame =>
    intro h
    have hruns := runs_of_settle written h.arrives hsettle
    rw [hcame] at hruns
    exact .ends hroom hruns
  | @spins c written piece coming readable clientDone w hroom hnever =>
    intro h
    have hunknown : (c.arrives piece readable clientDone).Unrecognised := by
      by_contra hknown
      obtain ⟨fuel, stepped, hsettle⟩ := exists_settle _ _ w
        (Nat.le_refl _) hknown h.arrives.not_relaying
      rw [hnever fuel] at hsettle
      cases hsettle
    obtain ⟨hphase, first, rest, hinput, hsocks, hletter⟩ := hunknown
    have hturn : handshake W.base64 credentials (c.hand written) (c.input ++ piece) =
        some (.ends .spins 0) := by
      change c.input ++ piece = first :: rest at hinput
      rw [handshake, hand_phase, show c.phase = .sniff from hphase, hinput]
      rw [Hand.sniff, if_neg hsocks]
      exact if_neg hletter
    exact .ends hroom (.ends hturn)

end Connection

end Following

/-! ## Heads that are longer than the limit -/

section LongHeads

/-- Where a request with this head asks to go. -/
def Head.target (head : Head) : Option Target :=
  if eqIgnoreAsciiCase head.method "CONNECT".toList then authorityTarget head.uri 443
  else (stripPrefix "http://".toList head.uri).bind fun rest => authorityTarget (splitUri rest).1 80

/-- What the connection can keep of the bytes begins with a request head that names a target. With
its empty line it is longer than the limit. -/
def LongHead (bytes : Bytes) : Prop :=
  (∃ first rest, bytes = first :: rest ∧ IsLetter first) ∧
    ∃ head : Head, head.WrittenIn (bytes.take inputLimit) ∧ head.target.isSome = true ∧
      maxHttpHead + 1 < (utf8Bytes head.text).length + 4

variable {base64 : Text → Option Bytes} {bytes : Bytes}

theorem Head.WrittenIn.done_iff {head : Head} {buffer : Bytes} (h : head.WrittenIn buffer)
    (base64 : Text → Option Bytes) :
    (∃ request, Socks.parseHttpRequest base64 buffer =
      .done request ((utf8Bytes head.text).length + 4)) ↔
      head.target.isSome = true := by
  rw [h.parseHttpRequest, parseHttpHead, h.splitLines_text, Head.lines]
  dsimp only [headD_cons]
  rw [h.splitOn_line, Head.words, Head.target]
  dsimp only
  split_ifs with hconnect
  · cases authorityTarget head.uri 443 <;> simp
  cases stripPrefix "http://".toList head.uri with
  | none => simp
  | some rest =>
    rw [bind_some]
    dsimp only
    cases authorityTarget (splitUri rest).1 80 <;> simp

theorem fits_of_not_longHead (h : ¬ LongHead bytes) {hand : Hand} (hphase : hand.phase = .sniff) :
    Fits base64 hand bytes := by
  rintro (hhead | ⟨-, hfirst⟩) request used hdone
  · rw [hphase] at hhead
    cases hhead
  obtain ⟨head, hhead⟩ := exists_writtenIn hdone
  obtain ⟨position, hposition, rfl⟩ := headEnd_of_done hdone
  rw [hhead.headEnd] at hposition
  cases hposition
  by_contra hlong
  exact h ⟨hfirst, head, hhead, (hhead.done_iff base64).1 ⟨request, hdone⟩, by omega⟩

namespace Connection

variable {W : World ω} {credentials : Option (Text × Text)} {token : Token}

/-- One piece of a request whose ending is known by the machine. -/
theorem exists_reads [Inhabited ω] {c : Connection} {written piece : Bytes} (h : c.Handshaking)
    (hinput : c.input = []) (hroom : piece.length ≤ inputLimit) {first : UInt8} {rest : Bytes}
    (hpiece : piece = first :: rest) (hfirst : IsLetter first) {ending : Ending}
    (hruns : ∀ x left, Runs (handshake W.base64 credentials) (c.hand written) piece x left →
      x = .inr ending)
    (coming : Bytes) : ∃ left, Reads W credentials token c written (piece ++ coming)
      (.inr ending) left := by
  have hknown : ¬ (c.arrives piece true false).Unrecognised := by
    rintro ⟨-, first', rest', hinput', -, hletter⟩
    change c.input ++ piece = _ at hinput'
    rw [hinput, nil_append, hpiece] at hinput'
    cases hinput'
    exact hletter hfirst
  obtain ⟨fuel, stepped, hsettle⟩ :=
    @exists_settle _ W credentials token _ (c.arrives piece true false) default
      (Nat.le_refl _) hknown
      h.arrives.not_relaying
  have hcame := runs_of_settle written h.arrives hsettle
  change Runs _ _ (c.input ++ piece) _ _ at hcame
  rw [hinput, nil_append] at hcame
  exact ⟨_, .ends (by rw [hinput]; simpa using hroom) hsettle (hruns _ _ hcame)⟩

theorem runs_head {hand : Hand} {input left : Bytes} {x : Hand ⊕ Ending} {first : UInt8}
    {rest : Bytes}
    {ending : Ending} {used : ℕ} (hphase : hand.phase = .sniff) (hinput : input = first :: rest)
    (hfirst : IsLetter first)
    (hturn : handshake base64 credentials
      { hand with protocol := .http, phase := .httpHead } input = some (.ends ending used))
    (hruns : Runs (handshake base64 credentials) hand input x left) : x = .inr ending := by
  have hsocks : first ≠ socksVersion := by
    rintro rfl
    exact nomatch hfirst
  have hsniff : handshake base64 credentials hand input =
      some (.on { hand with protocol := .http, phase := .httpHead } 0) := by
    rw [handshake, hphase, hinput]
    rw [Hand.sniff, if_neg hsocks, if_pos hfirst]
  cases hruns with
  | waits hact | ends hact =>
    rw [hsniff] at hact
    cases hact
  | on hact hrest =>
    rw [hsniff] at hact
    cases hact
    rw [drop_zero] at hrest
    cases hrest with
    | waits hact | on hact =>
      rw [hturn] at hact
      cases hact
    | ends hact =>
      rw [hturn] at hact
      cases hact
      rfl

variable {client localAddress : SocketAddr} {deadline : Instant}

theorem handshaking_fresh : (fresh client localAddress deadline).Handshaking :=
    ⟨rfl, Nat.succ_pos 3⟩

variable [Inhabited ω]

theorem exists_reads_whole (h : LongHead bytes) :
    ∃ request used ending left,
      Hand.headRead credentials ⟨.httpHead, .http, []⟩ request used = .ends ending used ∧
        Reads W credentials token (fresh client localAddress deadline) [] bytes
          (.inr ending) left := by
  obtain ⟨⟨first, rest, hbytes, hfirst⟩, head, hhead, htarget, -⟩ := h
  obtain ⟨request, hdone⟩ := (hhead.done_iff W.base64).2 htarget
  obtain ⟨ending, hending⟩ : ∃ ending, Hand.headRead credentials ⟨.httpHead, .http, []⟩ request
      ((utf8Bytes head.text).length + 4) = .ends ending ((utf8Bytes head.text).length + 4) := by
    simp only [Hand.headRead]
    split_ifs <;> exact ⟨_, rfl⟩
  have hpiece : bytes.take inputLimit = first :: rest.take (inputLimit - 1) := by
    rw [hbytes]
    rfl
  have hturn : handshake W.base64 credentials ⟨.httpHead, .http, []⟩ (bytes.take inputLimit) =
      some (.ends ending ((utf8Bytes head.text).length + 4)) := by
    rw [handshake]
    rw [hdone]
    exact congrArg some hending
  obtain ⟨left, hreads⟩ :=
      @exists_reads _ W credentials token _ (fresh client localAddress deadline) []
    (bytes.take inputLimit) handshaking_fresh rfl (length_take_le _ _) _ _ hpiece hfirst ending
    (fun x left hruns => runs_head rfl hpiece hfirst hturn hruns) (bytes.drop inputLimit)
  rw [take_append_drop] at hreads
  exact ⟨request, _, ending, left, hending, hreads⟩

theorem exists_reads_cut (h : LongHead bytes) :
    ∃ left, Reads W credentials token (fresh client localAddress deadline) [] bytes
      (.inr (.ended false ⟨.closing, .http, httpFailure .commandNotSupported⟩)) left := by
  obtain ⟨⟨first, rest, hbytes, hfirst⟩, head, hhead, -, hlong⟩ := h
  have hend := hhead.headEnd
  have hroom := headEnd_le hend
  rw [length_take] at hroom
  have hlength : (bytes.take (maxHttpHead + 1)).length = maxHttpHead + 1 := by
    rw [length_take]
    omega
  have hnone : headEnd (bytes.take (maxHttpHead + 1)) = none := by
    rw [eq_none_iff_forall_ne_some]
    intro position hposition
    have hle := headEnd_le hposition
    obtain ⟨more, hmore⟩ : bytes.take (maxHttpHead + 1) <+: bytes.take inputLimit :=
      take_prefix_take_left (by decide)
    rw [← hmore, headEnd_append hposition] at hend
    cases hend
    omega
  have hpiece : bytes.take (maxHttpHead + 1) = first :: rest.take maxHttpHead := by
    rw [hbytes]
    rfl
  have hturn : handshake W.base64 credentials ⟨.httpHead, .http, []⟩
      (bytes.take (maxHttpHead + 1)) =
      some (.ends (.ended false ⟨.closing, .http, httpFailure .commandNotSupported⟩) 0) := by
    rw [handshake]
    rw [parseHttpRequest, hnone]
    rw [if_pos (by rw [hlength]; exact Nat.lt_succ_self _)]
    rfl
  obtain ⟨left, hreads⟩ := @exists_reads _ W credentials token _
    (fresh client localAddress deadline) []
    (bytes.take (maxHttpHead + 1)) handshaking_fresh rfl (by rw [hlength]; decide) _ _ hpiece
        hfirst _
    (fun x left hruns => runs_head rfl hpiece hfirst hturn hruns) (bytes.drop (maxHttpHead + 1))
  rw [take_append_drop] at hreads
  exact ⟨left, hreads⟩

/-- Two ways of cutting the bytes of a client come to the same, for every client but one that sends
a request whose head is longer than its limit and could be kept. -/
theorem reads_agree_iff (W : World ω) (credentials : Option (Text × Text)) (token : Token)
    (client localAddress : SocketAddr) (deadline : Instant) (bytes : Bytes) :
    (∀ x left x' left',
      Reads W credentials token (fresh client localAddress deadline) [] bytes x left →
      Reads W credentials token (fresh client localAddress deadline) [] bytes x' left' →
      x = x' ∧ left = left') ↔ ¬ LongHead bytes := by
  constructor
  · intro hsame hlong
    obtain ⟨request, used, ending, left, hending, hwhole⟩ :=
      @exists_reads_whole _ _ W credentials token client localAddress deadline _ hlong
    obtain ⟨left', hcut⟩ :=
      @exists_reads_cut _ _ W credentials token client localAddress deadline _ hlong
    obtain rfl := Sum.inr.inj (hsame _ _ _ _ hwhole hcut).1
    simp only [Hand.headRead] at hending
    split at hending
    · cases (Turn.ends.inj hending).1
    · have hsent := congrArg Hand.sent (Ending.ended.inj (Turn.ends.inj hending).1).2
      exact absurd hsent (by decide +kernel)
  · intro hshort x left x' left' hreads hreads'
    have hfeeds := feeds_of_reads hreads handshaking_fresh
    have hfeeds' := feeds_of_reads hreads' handshaking_fresh
    exact (handshake_steady W.base64 credentials).feeds_unique rfl (Nat.zero_le _)
      (fits_of_not_longHead hshort rfl) hfeeds hfeeds'

end Connection

/-- A request with a header of so many bytes. -/
def requestWith (n : ℕ) : Bytes :=
  utf8Bytes "GET http://a/ HTTP/1.1\r\n".toList ++ (List.replicate n 97 ++ [13, 10, 13, 10])

/-- Its head. -/
def headWith (n : ℕ) : Head :=
  { method := "GET".toList
    uri := "http://a/".toList
    version := "HTTP/1.1".toList
    more := []
    headers := [List.replicate n 'a'] }

theorem utf8Bytes_headWith (n : ℕ) :
    utf8Bytes (headWith n).text = utf8Bytes "GET http://a/ HTTP/1.1\r\n".toList ++
      List.replicate n 97 := by
  have hascii : ∀ c ∈ List.replicate n 'a', c.toNat < 128 := by
    intro c hc
    rw [eq_of_mem_replicate hc]
    decide
  have htext : (headWith n).text = "GET http://a/ HTTP/1.1\r\n".toList ++ List.replicate n 'a' := by
    rw [Head.text, Head.lines, headWith, intercalate_cons_cons, intercalate_singleton]
    rfl
  rw [htext, Utf8.utf8Bytes_append, Utf8.utf8Bytes_ascii hascii, map_replicate]
  rfl

theorem requestWith_return {n i : ℕ} (hi : i < 24 + n) (h : (requestWith n)[i]? = some 13) :
    i = 22 := by
  have hline : (utf8Bytes "GET http://a/ HTTP/1.1\r\n".toList).length = 24 := by decide +kernel
  rw [requestWith] at h
  by_cases hlow : i < 24
  · rw [getElem?_append_left (by rw [hline]; exact hlow)] at h
    have hall : ∀ i < 24, (utf8Bytes "GET http://a/ HTTP/1.1\r\n".toList)[i]? = some 13 →
        i = 22 := by
      decide +kernel
    exact hall i hlow h
  · rw [getElem?_append_right (by rw [hline]; omega), hline,
      getElem?_append_left (by rw [length_replicate]; omega),
      getElem?_replicate_of_lt (by omega)] at h
    cases h

theorem headWith_writtenIn {n : ℕ} (hn : 0 < n) : (headWith n).WrittenIn (requestWith n) where
  text := by
    rw [utf8Bytes_headWith, requestWith, append_assoc]
  first := by
    intro k hk ⟨behind, hbehind⟩
    have hline : (utf8Bytes "GET http://a/ HTTP/1.1\r\n".toList).length = 24 := by decide +kernel
    rw [utf8Bytes_headWith, length_append, length_replicate, hline] at hk
    have hat : ∀ j, (requestWith n)[k + j]? = ([13, 10, 13, 10] ++ behind)[j]? := by
      intro j
      rw [hbehind, getElem?_drop]
    -- The second carriage return of an empty line would be in the header.
    have hfirst := requestWith_return hk (hat 0)
    have hsecond := requestWith_return (by omega) (hat 2)
    omega
  words := show ∀ word ∈ ["GET".toList, "http://a/".toList, "HTTP/1.1".toList], ' ' ∉ word by decide
  lines := by
    intro line hline
    rcases mem_cons.1 hline with rfl | hline
    · change ¬ crlf <:+: "GET http://a/ HTTP/1.1".toList
      decide
    · obtain rfl := mem_singleton.1 hline
      intro hinfix
      have hmem : '\r' ∈ List.replicate n 'a' := hinfix.subset mem_cons_self
      cases eq_of_mem_replicate hmem

theorem requestWith_longHead {n : ℕ} (hlong : 16358 ≤ n) (hroom : n ≤ 65508) :
    LongHead (requestWith n) := by
  have hline : (utf8Bytes "GET http://a/ HTTP/1.1\r\n".toList).length = 24 := by decide +kernel
  have htarget : (headWith 0).target.isSome = true := by decide +kernel
  refine ⟨⟨71, _, rfl, by decide⟩, headWith n, ?_, htarget, ?_⟩
  · rw [take_of_length_le]
    · exact headWith_writtenIn (by omega)
    · rw [requestWith, length_append, length_append, length_replicate, hline, inputLimit]
      change 24 + (n + 4) ≤ _
      omega
  · rw [utf8Bytes_headWith, length_append, length_replicate, hline, maxHttpHead]
    omega

open Connection in
/-- A request with a header of 16384 bytes asks for a connection when it is read in one piece. Read
in two, it is refused. -/
theorem request_cut_in_two :
    (∃ next hand left, Reads oneClient none 16 (fresh unspecified unspecified 0) []
      (requestWith 16384)
      (.inr (.asks next hand)) left) ∧
    ∃ left, Reads oneClient none 16 (fresh unspecified unspecified 0) [] (requestWith 16384)
      (.inr (.ended false ⟨.closing, .http, httpFailure .commandNotSupported⟩)) left := by
  have hlong : LongHead (requestWith 16384) := requestWith_longHead (by decide) (by decide)
  refine ⟨?_, exists_reads_cut hlong⟩
  obtain ⟨request, used, ending, left, hending, hreads⟩ :=
    @exists_reads_whole _ _ oneClient none 16 unspecified unspecified 0 _ hlong
  rw [Hand.headRead] at hending
  dsimp only [Option.all_none] at hending
  cases hending
  exact ⟨_, _, left, hreads⟩

end LongHeads

end GamePath.Engine.Socks
