import GamePath.Engine.OpenVpn.ControlReader
import GamePath.Engine.OpenVpn.Session

/-!
# What the functions of a session leave alone

Everything a session does besides receiving a control packet is `Steady`: the reader of the control
channel and the inner packets that wait stay what they are, and no data channel comes up before the
server has pushed its settings. A control packet that starts a new generation changes the reader and
is `Calm` still.
-/

namespace GamePath.Engine.OpenVpn.Session

open Lib Lib.Action Within
open Direct (Text)

variable {W T α : Type}

/-- The data channels come up with the settings. -/
def PushedFirst (s : Session W T) : Prop := s.pushed = none → s.channels = []

/-- The inner packets that wait stay, and channels come up with the settings. -/
structure Calm (s s' : Session W T) : Prop where
  inbound : s'.inbound = s.inbound
  pushed : s.PushedFirst → s'.PushedFirst

/-- The reader of the control channel stays too. -/
structure Steady (s s' : Session W T) : Prop extends Calm s s' where
  reader : s'.control.reader = s.control.reader

theorem calm : Composes (Calm (W := W) (T := T)) where
  refl := fun _ => ⟨rfl, id⟩
  trans := fun h h' => ⟨h'.inbound.trans h.inbound, h'.pushed ∘ h.pushed⟩

theorem steady : Composes (Steady (W := W) (T := T)) where
  refl := fun _ => ⟨⟨rfl, id⟩, rfl⟩
  trans := fun h h' => ⟨calm.trans h.toCalm h'.toCalm, h'.reader.trans h.reader⟩

theorem Steady.within {m : Action (Session W T) α} (h : Within Steady m) : Within Calm m :=
  h.imp fun _ _ hsteady => hsteady.toCalm

/-! ## What a session acts on -/

theorem steady_update {f : Session W T → Session W T} (h : ∀ s, Steady s (f s)) :
    Within Steady (update f) :=
  within_ofTotal h

theorem steady_calling (f : W → Except String α × W) :
    Within Steady (calling f : Action (Session W T) α) :=
  within_ofTotal fun _ => ⟨⟨rfl, id⟩, rfl⟩

theorem steady_reading (f : W → α × W) : Within Steady (reading f : Action (Session W T) α) :=
  steady_calling _

theorem steady_onControl {f : ControlChannel → ControlChannel} (h : ∀ c, (f c).reader = c.reader) :
    Within Steady (onControl f : Action (Session W T) Unit) :=
  within_ofTotal fun s => ⟨⟨rfl, id⟩, h s.control⟩

/-- A TLS call changes the TLS connection only. -/
theorem steady_onTls (f : T → Option (Except String α × T)) :
    Within Steady (onTls f : Action (Session W T) α) := by
  intro s result s' hon
  rw [onTls, Action.on_ofPartly] at hon
  cases htls : s.tls with
  | none =>
    rw [htls] at hon
    cases hon
  | some tls =>
    rw [htls] at hon
    obtain ⟨r, -, hr⟩ := Option.map_eq_some_iff.1 hon
    cases hr
    exact ⟨⟨rfl, id⟩, rfl⟩

/-- Sealing advances the newest channel only. -/
theorem steady_onNewest (f : DataChannel → Except String Bytes × DataChannel) :
    Within Steady (onNewest f : Action (Session W T) Bytes) := by
  refine within_ofTotal fun s => ?_
  cases hlast : s.channels.getLast? with
  | none => exact steady.refl s
  | some channel =>
    refine ⟨⟨rfl, fun hfirst hnone => ?_⟩, rfl⟩
    -- Without settings there is no channel to call.
    rw [hfirst hnone] at hlast
    cases hlast

variable (o : Outside W T)

/-! ## Data -/

theorem steady_sendInner (packet : Bytes) (urgency : Urgency) :
    Within Steady (sendInnerWithUrgency o packet urgency) := by
  refine bind steady (steady_reading _) fun iv => ?_
  refine bind steady (steady_onNewest _) fun sealed => ?_
  refine bind steady (steady_reading _) fun clock => ?_
  exact bind steady (steady_update fun _ => ⟨⟨rfl, id⟩, rfl⟩) fun _ => steady_calling _

theorem steady_keepalive : Within Steady (keepalive o) := by
  refine bind steady (within_get steady) fun s => ?_
  split
  · exact within_pure steady ()
  refine bind steady (steady_reading _) fun clock => ?_
  split
  · exact within_pure steady ()
  · refine bind steady (steady_reading _) fun iv => ?_
    refine bind steady (steady_onNewest _) fun ping => ?_
    refine bind steady (steady_reading _) fun clock => ?_
    exact bind steady (steady_update fun _ => ⟨⟨rfl, id⟩, rfl⟩) fun _ => steady_calling _

theorem openWith_nil (crypto : PacketCrypto) (keyId : UInt8) (packet : Bytes) :
    openWith crypto keyId packet [] = some (.ok none, []) := rfl

/-- Opening a data packet changes the channels only, and brings up none. -/
theorem steady_openData (packet : Bytes) : Within Steady (openData o packet) := by
  intro s result s' hon
  obtain ⟨r, hopen, hr⟩ := Option.map_eq_some_iff.1 hon
  cases hr
  refine ⟨⟨rfl, fun hfirst hnone => ?_⟩, rfl⟩
  rw [hfirst hnone] at hopen
  rw [← Option.some.inj hopen]

/-! ## TLS -/

/-- A channel is added once the settings are there. -/
theorem steady_installKeys : Within Steady (installKeys (W := W) (T := T)) := by
  refine within_ofTotal fun s => ?_
  cases hmaterial : s.material with
  | none => exact steady.refl s
  | some material =>
    cases hpushed : s.pushed with
    | none => exact steady.refl s
    | some pushed =>
      dsimp only
      split
      · exact steady.refl s
      · split
        · exact steady.refl s
        · refine ⟨⟨rfl, fun _ hnone => ?_⟩, rfl⟩
          exact absurd hnone (Option.some_ne_none pushed)

/-- The settings come first, then the keys. -/
theorem steady_acceptPush (options : Text) :
    Within Steady (acceptPush (W := W) (T := T) options) := by
  refine bind steady (within_get steady) fun s => ?_
  split
  · exact within_pure steady ()
  split
  · exact within_throw steady _
  · split
    · exact within_throw steady _
    · refine bind steady (steady_update fun s => ?_) fun _ => steady_installKeys
      exact ⟨⟨rfl, fun _ hnone => absurd hnone (Option.some_ne_none _)⟩, rfl⟩

theorem steady_handleMessage (message : Text) :
    Within Steady (handleMessage (W := W) (T := T) message) := by
  unfold handleMessage
  split
  · exact steady_acceptPush _
  · split
    · exact within_throw steady _
    · exact within_pure steady ()

/-- Texts are read until none is whole. -/
theorem steady_readTexts (turns : Nat) : Within Steady (readTexts (W := W) (T := T) turns) := by
  induction turns with
  | zero => exact within_pure steady ()
  | succ turns ih =>
    refine bind steady (within_get steady) fun s => ?_
    split
    · exact within_pure steady ()
    · refine bind steady (steady_update fun _ => ⟨⟨rfl, id⟩, rfl⟩) fun _ => ?_
      exact bind steady (steady_handleMessage _) fun _ => ih

theorem steady_takeServerMaterial (optionsLen : Nat) :
    Within Steady (takeServerMaterial o optionsLen) := by
  refine within_ofTotal fun s => ?_
  dsimp only
  split <;> exact ⟨⟨rfl, id⟩, rfl⟩

theorem steady_readControlMessages : Within Steady (readControlMessages o) := by
  refine bind steady (within_get steady) fun s => ?_
  dsimp only
  split
  · exact steady_readTexts _
  split
  · exact within_pure steady ()
  split
  · exact within_throw steady _
  · split
    · exact within_pure steady ()
    · refine bind steady (steady_takeServerMaterial o _) fun _ => ?_
      exact bind steady steady_installKeys fun _ => steady_readTexts _

theorem steady_sendKeyMaterial : Within Steady (sendKeyMaterial o) := by
  refine bind steady (within_get steady) fun s => ?_
  refine bind steady (steady_onTls _) fun _ => ?_
  exact steady_update fun _ => ⟨⟨rfl, id⟩, rfl⟩

theorem steady_takeMessages (received : Bytes) : Within Steady (takeMessages o received) := by
  unfold takeMessages
  split
  · exact within_pure steady ()
  · refine bind steady (steady_update fun _ => ⟨⟨rfl, id⟩, rfl⟩) fun _ => ?_
    exact steady_readControlMessages o

theorem steady_finishHandshake (handshaking : Bool) :
    Within Steady (finishHandshake o handshaking) := by
  refine bind steady (within_get steady) fun s => ?_
  split
  · exact steady_sendKeyMaterial o
  · exact within_pure steady ()

/-- A payload of the control channel goes to TLS, which may finish its handshake. -/
theorem steady_feedTls (payload : Bytes) : Within Steady (feedTls o payload) := by
  refine bind steady (within_get steady) fun s => ?_
  split
  · exact within_pure steady ()
  · refine bind steady (steady_onTls _) fun _ => ?_
    refine bind steady (steady_onTls _) fun received => ?_
    refine bind steady (steady_onTls _) fun handshaking => ?_
    refine bind steady (steady_takeMessages o received) fun _ => ?_
    exact steady_finishHandshake o handshaking

theorem steady_beginTls : Within Steady (beginTls o) := by
  refine bind steady (within_get steady) fun s => ?_
  split
  · exact within_pure steady ()
  · refine bind steady (steady_calling _) fun connection => ?_
    exact steady_update fun _ => ⟨⟨rfl, id⟩, rfl⟩

theorem steady_flushTls : Within Steady (flushTls o) := by
  refine bind steady (within_get steady) fun s => ?_
  split
  · exact within_pure steady ()
  · refine bind steady (steady_onTls _) fun outbound => ?_
    refine bind steady (steady_reading _) fun clock => ?_
    exact steady_onControl fun c => ControlChannel.reader_sendTls c clock outbound

/-- Queued packets are sent without a look at what was received. -/
theorem steady_sendOutgoing (turns : Nat) : Within Steady (sendOutgoing o turns) := by
  induction turns with
  | zero => exact within_pure steady ()
  | succ turns ih =>
    refine bind steady (within_get steady) fun s => ?_
    split
    · exact within_pure steady ()
    · refine bind steady (steady_onControl fun _ => rfl) fun _ => ?_
      exact bind steady (steady_calling _) fun _ => ih

theorem steady_flush : Within Steady (flush o) := by
  refine bind steady (steady_flushTls o) fun _ => ?_
  refine bind steady (within_get steady) fun s => ?_
  exact bind steady (steady_sendOutgoing o _) fun _ => steady_calling _

/-! ## Setup -/

theorem steady_requestPush : Within Steady (requestPush o) := by
  refine bind steady (within_get steady) fun s => ?_
  split
  · exact within_pure steady ()
  · refine bind steady (steady_reading _) fun clock => ?_
    split
    · exact within_pure steady ()
    · refine bind steady (steady_update fun _ => ⟨⟨rfl, id⟩, rfl⟩) fun _ => ?_
      exact steady_onTls _

theorem steady_checkSilence : Within Steady (checkSilence o) := by
  refine bind steady (within_get steady) fun s => ?_
  refine bind steady (steady_reading _) fun clock => ?_
  split
  · exact within_pure steady ()
  · split <;> exact within_throw steady _

theorem steady_resendStale (now : Instant) : Within Steady
    (onControl (W := W) (T := T) fun control => control.resendStale now) :=
  steady_onControl fun _ => rfl

theorem steady_openSession : Within Steady (openSession o) := by
  refine bind steady (steady_reading _) fun clock => ?_
  refine bind steady (steady_onControl fun c => ControlChannel.reader_send c clock _ _) fun _ => ?_
  exact bind steady (steady_flush o) fun _ => within_pure steady _

/-! ## Control packets -/

/-- A new generation has a reader of its own. -/
theorem calm_renegotiate (keyId : UInt8) : Within Calm (renegotiate o keyId) := by
  refine bind calm (within_get calm) fun s => ?_
  split
  · exact within_pure calm ()
  · refine bind calm (Steady.within (steady_reading _)) fun clock => ?_
    refine bind calm (within_ofTotal fun _ => ⟨rfl, id⟩) fun _ => ?_
    refine bind calm (Steady.within (steady_reading _)) fun keySource => ?_
    refine bind calm (within_ofTotal fun _ => ⟨rfl, id⟩) fun _ => ?_
    exact Steady.within (steady_beginTls o)

theorem calm_followUp (received : Received) : Within Calm (followUp o received) := by
  cases received with
  | nothing => exact within_pure calm ()
  | serverReset => exact Steady.within (steady_beginTls o)
  | softReset keyId => exact calm_renegotiate o keyId
  | payload bytes => exact Steady.within (steady_feedTls o bytes)

/-- A control packet adds no inner packet. -/
theorem calm_stepControl (packet : Bytes) : Within Calm (stepControl o packet) := by
  refine bind calm (Steady.within (steady_reading _)) fun clock => ?_
  refine bind calm (within_ofTotal fun _ => ⟨rfl, id⟩) fun received => ?_
  exact calm_followUp o received

end GamePath.Engine.OpenVpn.Session
