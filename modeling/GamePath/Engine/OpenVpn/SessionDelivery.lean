import GamePath.Engine.OpenVpn.DataDelivery
import GamePath.Engine.OpenVpn.SessionTurns

/-!
# What becomes of the packets a session opens

A call of `receive_inner` collects the inner packets of a burst in a variable of its own, and an
error on the way leaves with them. It is a packet that cannot be absorbed, or a read of the link
that fails, after a packet that opened (`Spills`); nothing else loses one (`delivery_exact`).
-/

namespace GamePath.Engine.OpenVpn.Session

open Lib Lib.Action List DataChannel Run
open Dns (utf8Bytes)
open Option (map_eq_some_iff some.inj)

variable {W T : Type} (o : Outside W T)

/-! ## Opening a packet -/

theorem openWith_fst (crypto : PacketCrypto) (keyId : UInt8) (packet : Bytes)
    (channels : List DataChannel) :
    (openWith crypto keyId packet channels).map Prod.fst =
      match channels.find? fun channel => channel.keyId = keyId with
      | none => some (.ok none)
      | some channel => (channel.openPacket crypto packet).map Prod.fst := by
  induction channels with
  | nil => rfl
  | cons channel rest ih =>
    by_cases hkey : channel.keyId = keyId
    · rw [openWith, if_pos hkey, Option.map_map,
        find?_cons_of_pos (by exact decide_eq_true hkey)]
      rfl
    · rw [openWith, if_neg hkey, Option.map_map,
        find?_cons_of_neg (by simpa using hkey), ← ih]
      rfl

/-- A data packet that the channel of its key id cannot open. -/
def Unopenable (s : Session W T) (packet : Bytes) : Prop :=
  ∃ channel, s.channelFor packet = some channel ∧
    ∀ opened, unwrap o.packetCrypto channel packet ≠ some (.ok opened)

theorem openData_fst (packet : Bytes) (s : Session W T) :
    ((openData o packet).on s).map Prod.fst =
      match s.channelFor packet with
      | none => some (.ok none)
      | some channel => (channel.openPacket o.packetCrypto packet).map Prod.fst := by
  refine Eq.trans ?_ (openWith_fst o.packetCrypto (packet.headD 0 &&& 0x07) packet s.channels)
  exact Option.map_map ..

variable {packet : Bytes}

theorem openPacket_of_unwrap {crypto : PacketCrypto} {channel : DataChannel}
    {opened : UInt32 × Bytes} (h : unwrap crypto channel packet = some (.ok opened)) :
    ∃ inner after, channel.openPacket crypto packet = some (.ok inner, after) := by
  unfold openPacket
  rw [h]
  dsimp only
  split
  · exact ⟨_, _, rfl⟩
  · split <;> exact ⟨_, _, rfl⟩

theorem openPacket_of_not_unwrap {crypto : PacketCrypto} {channel : DataChannel}
    (h : ∀ opened, unwrap crypto channel packet ≠ some (.ok opened)) :
    ∀ inner after, channel.openPacket crypto packet ≠ some (.ok inner, after) := by
  intro inner after hopen
  unfold openPacket at hopen
  cases hunwrap : unwrap crypto channel packet with
  | none =>
    rw [hunwrap] at hopen
    cases hopen
  | some result =>
    rw [hunwrap] at hopen
    cases result with
    | error reason => cases (Prod.mk.inj (some.inj hopen)).1
    | ok opened => exact h opened hunwrap

/-- A packet that the link hands over and that ends the call: an empty one, a data packet that does
not open, or a control packet that cannot be read, is refused by TLS or says that the session is
over. -/
def Refused (s : Session W T) (packet : Bytes) : Prop :=
  match opcodeOf packet with
  | none => True
  | some opcode =>
    if isData opcode then Unopenable o s packet
    else ∀ s', (stepControl o packet >>= fun _ => flush o).on s ≠ some (.ok (), s')

/-- A packet that is not refused is absorbed, and what it opened is handed on. -/
theorem absorb_spec (s : Session W T) (packet : Bytes) :
    (¬ Refused o s packet ∧ ∃ s', (absorb o packet).on s = some (.ok (s.opens o packet), s')) ∨
      (Refused o s packet ∧ s.opens o packet = none ∧
        ∀ inner s', (absorb o packet).on s ≠ some (.ok inner, s')) := by
  unfold absorb Refused opens
  cases hopcode : opcodeOf packet with
  | none =>
    refine .inr ⟨trivial, rfl, fun inner s' hon => ?_⟩
    cases (Prod.mk.inj (some.inj hon)).1
  | some opcode =>
    dsimp only
    by_cases hdata : isData opcode = true
    · rw [if_pos hdata, if_pos hdata, if_pos hdata]
      have hfst := openData_fst o packet s
      cases hchannel : s.channelFor packet with
      | none =>
        rw [hchannel] at hfst
        obtain ⟨⟨result, s'⟩, hon, hresult⟩ := map_eq_some_iff.1 hfst
        have hresult : result = .ok none := hresult
        refine .inl ⟨?_, s', hon.trans (by rw [hresult]; rfl)⟩
        rintro ⟨channel, hsome, -⟩
        exact absurd (hchannel.symm.trans hsome) (Option.some_ne_none _).symm
      | some channel =>
        rw [hchannel] at hfst
        by_cases hopens : ∃ opened,
            unwrap o.packetCrypto channel packet = some (.ok opened)
        · obtain ⟨opened, hunwrap⟩ := hopens
          obtain ⟨inner, after, hopen⟩ := openPacket_of_unwrap hunwrap
          dsimp only at hfst
          rw [hopen] at hfst
          obtain ⟨⟨result, s'⟩, hon, hresult⟩ := map_eq_some_iff.1 hfst
          have hresult : result = .ok inner := hresult
          refine .inl ⟨?_, s', ?_⟩
          · rintro ⟨other, hother, hnot⟩
            cases hchannel.symm.trans hother
            exact hnot opened hunwrap
          · rw [hon, hresult, Option.bind_some, hopen]
        · have hnot := openPacket_of_not_unwrap fun opened hunwrap =>
            hopens ⟨opened, hunwrap⟩
          refine .inr ⟨⟨channel, hchannel, fun opened hunwrap => hopens ⟨opened, hunwrap⟩⟩,
            ?_, ?_⟩
          · rw [Option.bind_some]
            split
            next inner after hopen => exact absurd hopen (hnot _ _)
            · rfl
          · intro inner s' hon
            rw [hon] at hfst
            obtain ⟨⟨result, after⟩, hopen, hresult⟩ := map_eq_some_iff.1 hfst.symm
            have hresult : result = .ok inner := hresult
            exact hnot inner after (by rw [hopen, hresult])
    · rw [if_neg hdata, if_neg hdata, if_neg hdata]
      have hstep : Session.step o packet = stepControl o packet := by
        unfold Session.step
        rw [hopcode]
        exact if_neg hdata
      rw [hstep]
      -- The control packet is handled and the answer flushed, and `none` is returned.
      have hassoc : (do stepControl o packet; flush o; pure none : Action (Session W T)
          (Option Bytes)) =
          ((stepControl o packet >>= fun _ => flush o) >>= fun _ => pure none) :=
        (bind_assoc ..).symm
      rw [hassoc]
      by_cases hdone : ∃ s', (stepControl o packet >>= fun _ => flush o).on s = some (.ok (), s')
      · obtain ⟨s', hon⟩ := hdone
        exact .inl ⟨fun hall => hall s' hon, s', on_bind_ok hon _⟩
      · refine .inr ⟨fun s' hon => hdone ⟨s', hon⟩, rfl, fun inner s' hon => ?_⟩
        obtain ⟨_, after, hfirst, -⟩ := of_on_bind_ok hon
        exact hdone ⟨after, hfirst⟩

/-! ## One turn -/

/-- What is there at a place: nothing waits in the session, no channel is up before the settings
are, and a call that still waits for a packet has collected none. -/
def Place.Fits (s : Session W T) : Place → Prop
  | .opening | .settingUp _ => s.PushedFirst
  | .stepping _ _ => s.PushedFirst ∧ s.pushed = none
  | .waiting _ packets | .absorbing _ packets _ => packets = []
  | .idle | .draining _ | .absorbingMore _ _ | .gone => True

/-- What holds of a session and its thread between two turns. -/
structure Sound (m : Machine W T) : Prop where
  inbound : m.session.inbound = []
  fits : m.place.Fits m.session

/-- A turn on which a call ends with an error and with packets that it has collected: the link
cannot be read, or what it handed over is refused. -/
def Spills (m : Machine W T) : Prop :=
  match m.place with
  | .draining packets =>
    packets ≠ [] ∧ ∀ arrived, (o.receive m.session.world drainTimeout).1 ≠ .ok arrived
  | .absorbingMore packets packet => packets ≠ [] ∧ Refused o m.session packet
  | .opening | .settingUp _ | .stepping _ _ | .idle | .waiting _ _ | .absorbing _ _ _ | .gone =>
      False

/-- What a turn does with the packets that were opened: they are returned or still collected, or,
where it spills, they are gone. -/
structure Accounted (m m' : Machine W T) (answer : Answer) : Prop where
  kept : ¬ Spills o m →
    answer.returned ++ m'.place.collected = m.place.collected ++ answer.opened.toList
  spilt : Spills o m → answer.opened = none ∧ answer.returned ++ m'.place.collected = [] ∧
    m.place.collected ≠ []

theorem PushedFirst.opens {s : Session W T} (h : s.PushedFirst) (hnone : s.pushed = none)
    (packet : Bytes) : s.opens o packet = none := by
  unfold Session.opens channelFor
  rw [h hnone]
  split
  · rfl
  · split <;> rfl

variable {s s' : Session W T} {started : Instant}

theorem setupTail_ok {next : Next} (hon : (setupTail o started).on s = some (.ok next, s')) :
    next = (.settingUp started, none) := by
  obtain ⟨_, _, -, hon⟩ := of_on_bind_ok hon
  obtain ⟨_, _, -, hon⟩ := of_on_bind_ok hon
  obtain ⟨_, _, -, hon⟩ := of_on_bind_ok hon
  obtain ⟨_, _, -, hon⟩ := of_on_bind_ok hon
  obtain ⟨_, _, -, hon⟩ := of_on_bind_ok hon
  exact (Except.ok.inj (Prod.mk.inj (some.inj hon)).1).symm

theorem setupTurn_ok {next : Next} (hon : (setupTurn o started).on s = some (.ok next, s')) :
    next = (.idle, some []) ∨ next = (.settingUp started, none) ∨
      ∃ packet, next = (.stepping started packet, none) ∧ s'.pushed = none := by
  obtain ⟨clock, s₁, hclock, hon⟩ := of_on_bind_ok hon
  cases hclock
  obtain ⟨s₂, s₃, hget, hon⟩ := of_on_bind_ok hon
  obtain ⟨h₂, rfl⟩ := Prod.mk.inj (some.inj hget)
  cases h₂
  split at hon
  · cases (Prod.mk.inj (some.inj hon)).1
  split at hon
  · obtain ⟨hnext, -⟩ := Prod.mk.inj (some.inj hon)
    exact .inl (Except.ok.inj hnext).symm
  next hpushed =>
    obtain ⟨arrived, s₄, harrived, hon⟩ := of_on_bind_ok hon
    obtain ⟨-, rfl⟩ := Prod.mk.inj (some.inj harrived)
    split at hon
    · exact .inr (.inl (setupTail_ok o hon))
    next packet =>
      obtain ⟨_, s₅, hclock, hon⟩ := of_on_bind_ok hon
      cases hclock
      obtain ⟨_, s₆, hupdate, hon⟩ := of_on_bind_ok hon
      cases hupdate
      obtain ⟨hnext, rfl⟩ := Prod.mk.inj (some.inj hon)
      refine .inr (.inr ⟨packet, (Except.ok.inj hnext).symm, ?_⟩)
      exact Option.not_isSome_iff_eq_none.1 hpushed

theorem waitTurn_ok {deadline : Instant} {packets : List Bytes} {next : Next}
    (hon : (waitTurn o deadline packets).on s = some (.ok next, s')) :
    next = (.idle, some packets) ∨ packets = [] ∧ next = (.waiting deadline packets, none) ∨
      ∃ packet, next = (.absorbing deadline packets packet, none) := by
  obtain ⟨_, _, -, hon⟩ := of_on_bind_ok hon
  obtain ⟨_, _, -, hon⟩ := of_on_bind_ok hon
  obtain ⟨_, _, -, hon⟩ := of_on_bind_ok hon
  obtain ⟨_, _, -, hon⟩ := of_on_bind_ok hon
  obtain ⟨clock, s₁, -, hon⟩ := of_on_bind_ok hon
  split at hon
  · exact .inl (Except.ok.inj (Prod.mk.inj (some.inj hon)).1).symm
  obtain ⟨arrived, s₂, -, hon⟩ := of_on_bind_ok hon
  split at hon
  · split at hon
    next hnil =>
      exact .inr (.inl ⟨hnil, (Except.ok.inj (Prod.mk.inj (some.inj hon)).1).symm⟩)
    · exact .inl (Except.ok.inj (Prod.mk.inj (some.inj hon)).1).symm
  next packet =>
    exact .inr (.inr ⟨packet, (Except.ok.inj (Prod.mk.inj (some.inj hon)).1).symm⟩)

theorem step_setup {result : Except String Unit} (hfirst : s.PushedFirst) (hnone : s.pushed = none)
    (hon : (Session.step o packet).on s = some (result, s')) : Calm s s' := by
  unfold Session.step at hon
  split at hon
  · exact within_throw calm _ s result s' hon
  split at hon
  · -- Data finds no channel.
    have hopen : (openData o packet).on s = some (.ok none, { s with channels := [] }) := by
      show (openWith o.packetCrypto _ packet s.channels).map _ = _
      rw [hfirst hnone]
      rfl
    rw [on_bind_ok hopen] at hon
    cases hon
    exact ⟨append_nil _, fun _ _ => rfl⟩
  · exact calm_stepControl o packet s result s' hon

theorem calm_stepping {result : Except String Next} (hfirst : s.PushedFirst)
    (hnone : s.pushed = none)
    (hon : (turn o (.stepping started packet) .proceed).on s = some (result, s')) : Calm s s' := by
  obtain ⟨_, after, hstep, htail⟩ :=
    of_on_bind steady (fun _ => steady_setupTail o started) hon
  exact calm.trans (step_setup o hfirst hnone hstep) htail.toCalm

theorem calm_absorbTurn (deadline : Instant) (packets : List Bytes) (packet : Bytes) :
    Within Calm (absorbTurn o deadline packets packet) := by
  refine Within.bind calm (calm_absorb o packet) fun inner => ?_
  split <;> exact within_pure calm _

theorem calm_absorbMoreTurn (packets : List Bytes) (packet : Bytes) :
    Within Calm (absorbMoreTurn o packets packet) :=
  Within.bind calm (calm_absorb o packet) fun _ => within_pure calm _

variable {request : Request}

theorem turn_calm {place : Place} {result : Except String Next} (hinbound : s.inbound = [])
    (hfits : place.Fits s) (hon : (turn o place request).on s = some (result, s')) : Calm s s' := by
  cases place with
  | opening =>
    refine Within.bind calm (Steady.within (steady_openSession o)) (fun _ => ?_) s result s' hon
    exact within_pure calm _
  | settingUp started => exact (steady_setupTurn o started s result s' hon).toCalm
  | stepping started packet => exact calm_stepping o hfits.1 hfits.2 hon
  | idle =>
    cases request with
    | proceed => exact within_pure calm _ s result s' hon
    | sendInner packet urgency =>
      refine Within.bind calm (Steady.within (steady_sendInner o packet urgency))
        (fun _ => ?_) s result s' hon
      exact within_pure calm _
    | receiveInner timeout =>
      cases hon
      exact ⟨hinbound.symm, id⟩
  | waiting deadline packets => exact (steady_waitTurn o deadline packets s result s' hon).toCalm
  | absorbing deadline packets packet =>
    exact calm_absorbTurn o deadline packets packet s result s' hon
  | draining packets => exact (steady_drainTurn o packets s result s' hon).toCalm
  | absorbingMore packets packet => exact calm_absorbMoreTurn o packets packet s result s' hon
  | gone => exact within_pure calm _ s result s' hon

/-- What waits for a packet has collected none, before the turn and after. -/
theorem turn_fits {place place' : Place} {packets : Option (List Bytes)} (hinbound : s.inbound = [])
    (hfits : place.Fits s) (hon : (turn o place request).on s = some (.ok (place', packets), s')) :
    place'.Fits s' := by
  have hcalm := turn_calm o hinbound hfits hon
  cases place with
  | opening =>
    obtain ⟨_, _, -, hon⟩ := of_on_bind_ok hon
    cases hon
    exact hcalm.pushed hfits
  | settingUp started =>
    rcases setupTurn_ok o hon with hnext | hnext | ⟨packet, hnext, hnone⟩
    · cases hnext
      trivial
    · cases hnext
      exact hcalm.pushed hfits
    · cases hnext
      exact ⟨hcalm.pushed hfits, hnone⟩
  | stepping started packet =>
    obtain ⟨_, _, -, hon⟩ := of_on_bind_ok hon
    cases setupTail_ok o hon
    exact hcalm.pushed hfits.1
  | idle =>
    cases request with
    | proceed =>
      cases hon
      trivial
    | sendInner packet urgency =>
      obtain ⟨_, _, -, hon⟩ := of_on_bind_ok hon
      cases hon
      trivial
    | receiveInner timeout =>
      cases hon
      exact hinbound
  | waiting deadline packets =>
    rcases waitTurn_ok o hon with hnext | ⟨hnil, hnext⟩ | ⟨packet, hnext⟩
    · cases hnext
      trivial
    · cases hnext
      exact hnil
    · cases hnext
      exact hfits
  | absorbing deadline packets packet =>
    obtain ⟨inner, _, -, hon⟩ := of_on_bind_ok hon
    cases inner with
    | some inner =>
      cases hon
      trivial
    | none =>
      cases hon
      exact hfits
  | draining packets =>
    obtain ⟨arrived, _, -, hon⟩ := of_on_bind_ok hon
    cases arrived with
    | none | some =>
      cases hon
      trivial
  | absorbingMore packets packet =>
    obtain ⟨_, _, -, hon⟩ := of_on_bind_ok hon
    cases hon
    trivial
  | gone =>
    cases hon
    trivial

theorem fits_failed (s : Session W T) (place : Place) : place.failed.Fits s := by
  cases place <;> trivial

variable {m : Machine W T}

theorem sound_step (h : Sound m) (request : Request) :
    Sound (m.step o request).1 := by
  unfold Machine.step
  cases hturn : (turn o m.place request).on m.session with
  | none => exact ⟨h.inbound, trivial⟩
  | some r =>
    obtain ⟨result, s'⟩ := r
    have hcalm := turn_calm o h.inbound h.fits hturn
    cases result with
    | error reason => exact ⟨hcalm.inbound.trans h.inbound, fits_failed s' m.place⟩
    | ok next => exact ⟨hcalm.inbound.trans h.inbound, turn_fits o h.inbound h.fits hturn⟩

/-- A turn that goes on or returns hands over what was collected and what it opened. -/
theorem turn_ok {place place' : Place} {packets : Option (List Bytes)} (hinbound : s.inbound = [])
    (hfits : place.Fits s) (hon : (turn o place request).on s = some (.ok (place', packets), s')) :
    packets.getD [] ++ place'.collected =
        place.collected ++ (place.packet.bind (s.opens o)).toList ∧
      ¬ Spills o ⟨s, place⟩ := by
  cases place with
  | opening =>
    obtain ⟨_, _, -, hon⟩ := of_on_bind_ok hon
    cases hon
    exact ⟨rfl, id⟩
  | settingUp started =>
    rcases setupTurn_ok o hon with hnext | hnext | ⟨packet, hnext, -⟩
    all_goals
      cases hnext
      exact ⟨rfl, id⟩
  | stepping started packet =>
    obtain ⟨_, _, -, hon⟩ := of_on_bind_ok hon
    cases setupTail_ok o hon
    have hopens : s.opens o packet = none := hfits.1.opens o hfits.2 packet
    refine ⟨?_, id⟩
    show [] = (s.opens o packet).toList
    rw [hopens]
    rfl
  | idle =>
    cases request with
    | proceed =>
      cases hon
      exact ⟨rfl, id⟩
    | sendInner packet urgency =>
      obtain ⟨_, _, -, hon⟩ := of_on_bind_ok hon
      cases hon
      exact ⟨rfl, id⟩
    | receiveInner timeout =>
      cases hon
      exact ⟨hinbound, id⟩
  | waiting deadline collected =>
    have hnil : collected = [] := hfits
    subst hnil
    rcases waitTurn_ok o hon with hnext | ⟨-, hnext⟩ | ⟨packet, hnext⟩
    all_goals
      cases hnext
      exact ⟨rfl, id⟩
  | absorbing deadline collected packet =>
    obtain ⟨inner, after, habsorb, hon⟩ := of_on_bind_ok hon
    have hopens : s.opens o packet = inner := by
      rcases absorb_spec o s packet with ⟨-, s'', heq⟩ | ⟨-, -, hnot⟩
      · exact Except.ok.inj (Prod.mk.inj (some.inj (heq.symm.trans habsorb))).1
      · exact absurd habsorb (hnot inner after)
    refine ⟨?_, id⟩
    show _ = collected ++ (s.opens o packet).toList
    rw [hopens]
    cases inner with
    | some inner =>
      cases hon
      rfl
    | none =>
      cases hon
      exact (append_nil _).symm
  | draining collected =>
    obtain ⟨arrived, after, hreceive, hon⟩ := of_on_bind_ok hon
    have harrived : (o.receive s.world drainTimeout).1 = .ok arrived :=
      (Prod.mk.inj (some.inj hreceive)).1
    refine ⟨?_, fun hspills => hspills.2 arrived harrived⟩
    cases arrived with
    | none =>
      cases hon
      rfl
    | some packet =>
      cases hon
      exact (append_nil _).symm
  | absorbingMore collected packet =>
    obtain ⟨inner, after, habsorb, hon⟩ := of_on_bind_ok hon
    cases Except.ok.inj (Prod.mk.inj (some.inj hon)).1
    rcases absorb_spec o s packet with ⟨hnot, s'', heq⟩ | ⟨-, -, hnot⟩
    · refine ⟨?_, fun hspills => hnot hspills.2⟩
      have hopens : s.opens o packet = inner :=
        Except.ok.inj (Prod.mk.inj (some.inj (heq.symm.trans habsorb))).1
      show collected ++ inner.toList = collected ++ (s.opens o packet).toList
      rw [hopens]
    · exact absurd habsorb (hnot inner after)
  | gone =>
    cases hon
    exact ⟨rfl, id⟩

theorem turn_not_ok {s : Session W T} {place : Place} (hfits : place.Fits s)
    (hnot : ∀ next s', (turn o place request).on s ≠ some (.ok next, s')) :
    place.packet.bind (s.opens o) = none ∧ (¬ Spills o ⟨s, place⟩ → place.collected = []) := by
  cases place with
  | opening | settingUp | idle | gone => exact ⟨rfl, fun _ => rfl⟩
  | stepping started packet => exact ⟨hfits.1.opens o hfits.2 packet, fun _ => rfl⟩
  | waiting deadline collected => exact ⟨rfl, fun _ => hfits⟩
  | absorbing deadline collected packet =>
    rcases absorb_spec o s packet with ⟨-, s', heq⟩ | ⟨-, hopens, -⟩
    · -- What is absorbed leads to a next place.
      cases hinner : s.opens o packet with
      | none =>
        rw [hinner] at heq
        exact absurd (on_bind_ok heq _) (hnot (.waiting deadline collected, none) s')
      | some inner =>
        rw [hinner] at heq
        exact absurd (on_bind_ok heq _) (hnot (.draining (collected ++ [inner]), none) s')
    · exact ⟨hopens, fun _ => hfits⟩
  | draining collected =>
    refine ⟨rfl, fun hspills => by_contra fun hne => hspills ⟨hne, fun arrived harrived => ?_⟩⟩
    have hreceive : (calling fun w => o.receive w drainTimeout :
        Action (Session W T) (Option Bytes)).on s =
          some (.ok arrived, { s with world := (o.receive s.world drainTimeout).2 }) := by
      show some ((o.receive s.world drainTimeout).1, _) = _
      rw [harrived]
    cases arrived with
    | none => exact hnot (.idle, some collected) _ (on_bind_ok hreceive _)
    | some packet => exact hnot (.absorbingMore collected packet, none) _ (on_bind_ok hreceive _)
  | absorbingMore collected packet =>
    rcases absorb_spec o s packet with ⟨-, s', heq⟩ | ⟨hrefused, hopens, -⟩
    · exact absurd (on_bind_ok heq _) (hnot _ s')
    · exact ⟨hopens, fun hspills => by_contra fun hne => hspills ⟨hne, hrefused⟩⟩

theorem collected_failed (place : Place) : place.failed.collected = [] := by
  cases place <;> rfl

theorem Spills.collected (h : Spills o m) : m.place.collected ≠ [] := by
  obtain ⟨s, place⟩ := m
  cases place with
  | draining | absorbingMore => exact h.1
  | opening | settingUp | stepping | idle | waiting | absorbing | gone => exact h.elim

theorem accounted_step (h : Sound m) (request : Request) :
    Accounted o m (m.step o request).1 (m.step o request).2 := by
  have not_ok := @turn_not_ok W T o request m.session m.place
  unfold Machine.step
  cases hturn : (turn o m.place request).on m.session with
  | none =>
    obtain ⟨hopened, hkept⟩ := not_ok h.fits fun next s' hon => by
      rw [hturn] at hon
      cases hon
    refine ⟨fun hspills => ?_, fun hspills => ⟨hopened, rfl, Spills.collected o hspills⟩⟩
    rw [hkept hspills, hopened]
    rfl
  | some r =>
    obtain ⟨result, s'⟩ := r
    cases result with
    | error reason =>
      obtain ⟨hopened, hkept⟩ := not_ok h.fits fun next s' hon => by
        rw [hturn] at hon
        cases (Prod.mk.inj (some.inj hon)).1
      have hfailed : m.place.failed.collected = [] := collected_failed m.place
      refine ⟨fun hspills => ?_, fun hspills =>
        ⟨hopened, hfailed, Spills.collected o hspills⟩⟩
      rw [hfailed, hkept hspills, hopened]
      rfl
    | ok next =>
      obtain ⟨place', packets⟩ := next
      obtain ⟨hhanded, hspills⟩ := turn_ok o h.inbound h.fits hturn
      refine ⟨fun _ => ?_, fun hspills' => absurd hspills' hspills⟩
      rw [← hhanded]
      cases packets with
      | none | some => rfl

/-! ## Runs -/

/-- The inner packets of a run that were returned, and those the call under way has collected. -/
def handedIn (c : Config (Machine W T) Request Answer) : List Bytes :=
  returnedIn c.log ++ c.state.place.collected

theorem openedIn_append (log : List (Request × Answer)) (e : Request × Answer) :
    openedIn (log ++ [e]) = openedIn log ++ e.2.opened.toList := by
  simp [openedIn]

theorem returnedIn_append (log : List (Request × Answer)) (e : Request × Answer) :
    returnedIn (log ++ [e]) = returnedIn log ++ e.2.returned := by
  simp [returnedIn]

section Runs

variable {c : Config (Machine W T) Request Answer}

theorem handedIn_advance (h : Sound c.state) (request : Request) (hspills : ¬ Spills o c.state) :
    handedIn (advance (Machine.step o) c request) =
      handedIn c ++ (c.state.step o request).2.opened.toList := by
  have hkept := (accounted_step o h request).kept hspills
  unfold handedIn
  rw [advance_log, returnedIn_append, append_assoc, append_assoc]
  exact congrArg _ hkept

theorem handedIn_advance_of_spills (h : Sound c.state) (request : Request)
    (hspills : Spills o c.state) :
    handedIn (advance (Machine.step o) c request) = returnedIn c.log := by
  obtain ⟨-, hnil, -⟩ := (accounted_step o h request).spilt hspills
  unfold handedIn
  rw [advance_log, returnedIn_append, append_assoc]
  exact (congrArg _ hnil).trans (append_nil _)

theorem short_advance (h : Sound c.state) (request : Request)
    (hshort : (handedIn c).length < (openedIn c.log).length) :
    (handedIn (advance (Machine.step o) c request)).length <
      (openedIn (advance (Machine.step o) c request).log).length := by
  have hopened : (openedIn (advance (Machine.step o) c request).log).length =
      (openedIn c.log).length + (c.state.step o request).2.opened.toList.length := by
    rw [advance_log, openedIn_append, length_append]
  by_cases hspills : Spills o c.state
  · rw [handedIn_advance_of_spills o h request hspills]
    have hless : (returnedIn c.log).length ≤ (handedIn c).length := by
      unfold handedIn
      rw [length_append]
      exact Nat.le_add_right _ _
    omega
  · rw [handedIn_advance o h request hspills, length_append]
    omega

theorem short_of_spills (h : Sound c.state) (request : Request) (hspills : Spills o c.state)
    (heq : openedIn c.log = handedIn c) :
    (handedIn (advance (Machine.step o) c request)).length <
      (openedIn (advance (Machine.step o) c request).log).length := by
  have hpos := length_pos_iff.2 (Spills.collected o hspills)
  rw [handedIn_advance_of_spills o h request hspills, advance_log, openedIn_append, heq]
  unfold handedIn
  rw [length_append, length_append]
  omega

theorem short_execFrom (requests : List Request) (h : Sound c.state)
    (hshort : (handedIn c).length < (openedIn c.log).length) :
    (handedIn (execFrom (Machine.step o) c requests)).length <
      (openedIn (execFrom (Machine.step o) c requests).log).length := by
  induction requests generalizing c with
  | nil => exact hshort
  | cons request rest ih => exact ih (sound_step o h request) (short_advance o h request hshort)

theorem handedIn_execFrom_iff (requests : List Request) (h : Sound c.state)
    (heq : openedIn c.log = handedIn c) :
    openedIn (execFrom (Machine.step o) c requests).log =
        handedIn (execFrom (Machine.step o) c requests) ↔
      Meets (Machine.step o) (fun c _ => ¬ Spills o c.state) c requests := by
  induction requests generalizing c with
  | nil => exact iff_of_true heq trivial
  | cons request rest ih =>
    by_cases hspills : Spills o c.state
    · refine iff_of_false (fun hnone => ?_) fun hmeets => hmeets.1 hspills
      have hshort := short_execFrom o rest (sound_step o h request)
        (short_of_spills o h request hspills heq)
      have hsame := congrArg List.length hnone
      rw [execFrom_cons] at hsame
      omega
    · refine (ih (sound_step o h request) ?_).trans ⟨fun hmeets => ⟨hspills, hmeets⟩, And.right⟩
      rw [handedIn_advance o h request hspills, ← heq, advance_log, openedIn_append]

end Runs

/-- A session from its dialling on, whatever the link hands over and whatever its caller asks for:
every inner packet that was opened has been returned by one call of `receive_inner`, in the order of
the arrivals, or is in the hands of the call under way, exactly when no turn of the run spills. -/
theorem delivery_exact (config : OpenVpnConfig) (credentials : Credentials) (protocol : Protocol)
    (sessionId : SessionId) (keySource : KeySource) (now : Instant) (world : W)
    (requests : List Request) :
    let m : Machine W T := .connected config credentials protocol sessionId keySource now world
    let c := m.run o requests
    openedIn c.log = returnedIn c.log ++ c.state.place.collected ↔
      Meets (Machine.step o) (fun c _ => ¬ Spills o c.state) ⟨m, []⟩ requests := by
  intro m c
  have hsound : Sound m := ⟨rfl, fun _ => rfl⟩
  exact @handedIn_execFrom_iff W T o ⟨m, []⟩ requests hsound rfl

/-! ## A burst with a bad packet in it -/

/-- A link that hands over the packets of a list and takes whatever it is given, clocks that stand
still, and a TLS connection that is up at once and carries its bytes as they are. -/
def scripted : Outside (List Bytes) Bytes where
  crypto := ⟨fun digest _ _ => List.replicate digest.outputLen 0, fun _ _ => id⟩
  packetCrypto := zeroKeyCrypto
  now := fun w => (⟨0, 0⟩, w)
  randomKeySource := fun w => (⟨.replicate 48 0, .replicate 32 0, .replicate 32 0⟩, w)
  randomIv := fun w => (.replicate 16 0, w)
  send := fun w _ _ => (.ok (), w)
  flushOutbound := fun w => (.ok (), w)
  receive := fun w _ => (.ok w.head?, w.tail)
  peerAddr := fun _ => none
  newTls := fun w => (.ok [], w)
  readTls := fun tls bytes => (.ok bytes.length, tls ++ bytes)
  processNewPackets := fun tls => (.ok (), tls)
  readToEnd := fun tls => (tls, [])
  isHandshaking := fun _ => false
  writeAll := fun tls _ => (.ok (), tls)
  writeTls := fun tls => (.ok [], tls)

/-- A configuration without a control channel key. -/
def plainConfig : OpenVpnConfig where
  remotes := [⟨"vpn.example".toList, 1194, .udp⟩]
  remotes_ne_nil := cons_ne_nil _ _
  controlAuth := .none
  dataCiphers := [.aes128Gcm]
  fallbackCipher := .aes128Gcm
  digest := .sha256
  wantsCredentials := false
  tunMtu := 1500

/-- A control packet under the first key id, with neither wrapping nor acknowledgements. -/
def controlPacket (opcode : UInt8) (packetId : UInt8) (payload : Bytes) : Bytes :=
  (opcode <<< 3) :: List.replicate 8 7 ++ [0, 0, 0, 0, packetId] ++ payload

/-- What the server sends to bring a session up: its reset, then its key material and its settings.
-/
def serverSide : List Bytes :=
  [controlPacket pControlHardResetServerV2 0 [],
    controlPacket pControlV1 1 ([0, 0, 0, 0, 2] ++ List.replicate 64 0 ++ [0, 0] ++
      utf8Bytes "PUSH_REPLY,ifconfig 10.8.0.2,cipher AES-128-GCM\x00".toList)]

/-- A data packet that opens. -/
def goodPacket : Bytes :=
  [0x30, 0, 0, 0, 1, 0xf0, 0xc3, 0x4d, 0x1c, 0x76, 0x9e, 0xca, 0xc3, 0x1e, 0x11, 0xd0, 0xee,
    0x78, 0xc9, 0x52, 0x2a, 0xf7, 0x94]

/-- A session that is dialled to that server. -/
def dialled (arrivals : List Bytes) : Machine (List Bytes) Bytes :=
  .connected plainConfig ⟨none, none⟩ .udp ⟨List.replicate 8 1, rfl⟩
    ⟨.replicate 48 0, .replicate 32 0, .replicate 32 0⟩ 0 arrivals

/-- One turn after the other, with one call to receive after the setup. -/
def oneCall (setup rest : Nat) : List Request :=
  List.replicate setup .proceed ++ [.receiveInner (millis 50)] ++ List.replicate rest .proceed

/-- A packet that opens is followed by one that is cut short: it has been opened, and the only call
there was has ended with an error. -/
theorem burst_is_lost :
    let c := (dialled (serverSide ++ [goodPacket, [0x30, 0, 0]])).run scripted (oneCall 6 4)
    c.state.place = .idle ∧ openedIn c.log = [[0x45, 0]] ∧ returnedIn c.log = [] := by
  decide +kernel

end GamePath.Engine.OpenVpn.Session
