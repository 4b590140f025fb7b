import GamePath.Engine.CaptureClassifier

/-!
# What is addressed to the local network stays there

A destination that means something else at the far end of the tunnel is not to be tunnelled. The
first look at a packet checks this for every way of being selected (`classify_routed`). The second
look at a held SYN repeats the check for a proxy's own sockets only, so that a rule which is learned
while the SYN waits sends it into the tunnel whatever its destination is. `local_stays_local_iff`
says when that happens, for every packet and every change of the table in between.
-/

namespace GamePath.Engine.SplitCapture

open Lib
open Direct (isFakeIp isGloballyRoutableIpv4)

/-- The destination can be reached from the far end, or is a redirected lookup's, or is a proxy's to
answer. -/
def MeantForTunnel (registry : Registry) (call : Routed) : Prop :=
  isGloballyRoutableIpv4 call.fields.destination = true ∨ call.redirect.isSome = true ∨
    (registry.fakeIpNode.isSome = true ∧ isFakeIp call.fields.destination = true)

instance (registry : Registry) (call : Routed) : Decidable (MeantForTunnel registry call) :=
  inferInstanceAs (Decidable (_ ∨ _ ∨ _))

/-- A whole SYN that nothing selects when it is captured. -/
structure HeldSyn (registry : Registry) (table : SelectorTable) (sockets : Sockets) (bytes : Bytes)
    (fields : Ipv4Fields) : Prop where
  whole : isLaterFragment bytes = false ∧ isFirstFragment bytes = false
  readable : ipv4Fields bytes = some fields
  syn : isTcpSyn bytes = true
  not_lookup : fields.destinationPort ≠ 53
  unmatched : table.lookup fields = none
  not_direct : registry.isDirect fields.destination = false
  not_exit : sockets.exitSocket = false
  not_fake : registry.isFake fields.destination = false
  unowned : sockets.tcpSocketProcess = none

/-! ## The first look -/

section FirstLook

variable {registry : Registry} {table : SelectorTable} {sockets : Sockets} {bytes : Bytes}
  {fields : Ipv4Fields} {firstFragment direct remoteDns : Bool} {redirect : Option Octets}
  {choice : Choice} {call : Routed}

theorem conclude_routed {ff : Bool}
    (h : conclude registry sockets fields firstFragment direct remoteDns redirect choice =
      .routed call ff) : MeantForTunnel registry call := by
  simp only [conclude] at h
  split at h
  next hselected =>
    cases h
    simp only [Bool.and_eq_true, Bool.or_eq_true] at hselected
    obtain ⟨⟨-, hdestination⟩, -⟩ := hselected
    rcases hdestination with (hfake | hredirect) | hroutable
    · refine .inr (.inr ?_)
      simpa [Registry.isFake] using hfake
    · exact .inr (.inl hredirect)
    · exact .inl hroutable
  · cases h

variable {fields' : Ipv4Fields}

theorem conclude_ne_pending :
    conclude registry sockets fields firstFragment direct remoteDns redirect choice ≠
      .pending fields' := by
  simp only [conclude]
  split <;> simp

theorem decideSyn_routed {ff : Bool}
    (h : decideSyn registry sockets bytes fields firstFragment direct remoteDns redirect choice =
      .routed call ff) : MeantForTunnel registry call := by
  simp only [decideSyn] at h
  split at h
  · split at h
    · exact conclude_routed h
    · cases h
  · exact conclude_routed h

theorem classify_routed {ff : Bool} (h : classify registry table sockets bytes = .routed call ff) :
    MeantForTunnel registry call := by
  simp only [classify] at h
  split at h
  · cases h
  · split at h
    · cases h
    · split at h
      · cases h
      · exact decideSyn_routed h

theorem protocol_of_isTcpSyn (hsyn : isTcpSyn bytes = true)
    (hfields : ipv4Fields bytes = some fields) :
    fields.protocol = 6 := by
  have hprotocol : bytes.getD 9 0 = 6 := by
    simp only [isTcpSyn] at hsyn
    split at hsyn
    · cases hsyn
    next h =>
      push Not at h
      exact h.2.2
  simp only [ipv4Fields] at hfields
  split at hfields
  · cases hfields
  · split at hfields
    · cases hfields
    · cases hfields
      exact hprotocol

/-- When the owner of a SYN's socket is looked for and not found. -/
theorem decideSyn_pending_iff :
    decideSyn registry sockets bytes fields firstFragment direct remoteDns redirect choice =
        .pending fields' ↔
      fields' = fields ∧ choice.selected = false ∧ direct = false ∧ fields.isLookup = false ∧
        sockets.isExit fields = false ∧ firstFragment = false ∧ isTcpSyn bytes = true ∧
        sockets.tcpSocketProcess = none := by
  constructor
  · intro h
    simp only [decideSyn] at h
    split at h
    next hguard =>
      split at h
      · exact absurd h conclude_ne_pending
      next hnone =>
        cases h
        simp only [Bool.and_eq_true, Bool.not_eq_true'] at hguard
        obtain ⟨⟨⟨⟨⟨hselected, hdirect⟩, hlookup⟩, hexit⟩, hfirst⟩, hsyn⟩ := hguard
        exact ⟨rfl, hselected, hdirect, hlookup, hexit, hfirst, hsyn, hnone⟩
    · exact absurd h conclude_ne_pending
  · rintro ⟨rfl, hselected, hdirect, hlookup, hexit, hfirst, hsyn, hnone⟩
    simp [decideSyn, hselected, hdirect, hlookup, hexit, hfirst, hsyn, hnone]

theorem claimFake_selected :
    (claimFake registry fields (claimRedirect redirect choice)).selected = false ↔
      choice.selected = false ∧ redirect = none ∧ registry.isFake fields.destination = false := by
  cases hfake : registry.isFake fields.destination with
  | true => simp [claimFake, hfake]
  | false =>
    cases redirect with
    | none | some => simp [claimFake, claimRedirect, hfake]

/-- When the rest of the decision holds a packet back. -/
theorem classifyRest_pending_iff :
    classifyRest registry sockets bytes fields firstFragment direct remoteDns choice =
        .pending fields' ↔
      fields' = fields ∧ (choice.selected = false ∧ redirectOf remoteDns fields = none ∧
        registry.isFake fields.destination = false) ∧ direct = false ∧ fields.isLookup = false ∧
        sockets.isExit fields = false ∧ firstFragment = false ∧ isTcpSyn bytes = true ∧
        sockets.tcpSocketProcess = none := by
  simp only [classifyRest]
  rw [decideSyn_pending_iff, claimFake_selected]

theorem claimLookup_of_not_lookup (hlookup : fields.isLookup = false) :
    claimLookup registry sockets fields choice = (choice, false) := by
  simp [claimLookup, hlookup]

theorem claimDatagram_of_tcp (hprotocol : fields.protocol = 6) :
    claimDatagram registry sockets fields direct choice = choice := by
  simp [claimDatagram, hprotocol]

theorem fromTable_selected : (fromTable table fields).selected = false ↔
    table.lookup fields = none := by
  cases hlookup : table.lookup fields with
  | none | some => simp [fromTable, hlookup]

/-- The SYNs that are held are those that nothing selects. -/
theorem classify_pending_iff :
    classify registry table sockets bytes = .pending fields ↔
      HeldSyn registry table sockets bytes fields := by
  constructor
  · intro h
    simp only [classify] at h
    split at h
    · cases h
    next hlater =>
      split at h
      · cases h
      next fields' hfields =>
        split at h
        · cases h
        obtain ⟨rfl, ⟨hselected, -, hfake⟩, hdirect, hlookup, hexit, hfirst, hsyn, hnone⟩ :=
          classifyRest_pending_iff.1 h
        have hprotocol := protocol_of_isTcpSyn hsyn hfields
        rw [claimLookup_of_not_lookup hlookup, claimDatagram_of_tcp hprotocol, hlookup] at hselected
        refine ⟨⟨by simpa using hlater, hfirst⟩, hfields, hsyn, ?_, fromTable_selected.1 hselected,
          by simpa [hlookup] using hdirect, ?_, hfake, hnone⟩
        · simpa [Ipv4Fields.isLookup, hprotocol] using hlookup
        · simpa [Sockets.isExit, hprotocol] using hexit
  · intro h
    have hprotocol := protocol_of_isTcpSyn h.syn h.readable
    have hlookup : fields.isLookup = false := by
      simp [Ipv4Fields.isLookup, hprotocol, h.not_lookup]
    have hexit : sockets.isExit fields = false := by
      simp [Sockets.isExit, h.not_exit]
    have hselected := fromTable_selected.2 h.unmatched
    simp only [classify, h.whole.1, Bool.false_eq_true, if_false, h.readable, hlookup,
      Bool.false_and]
    rw [claimLookup_of_not_lookup hlookup, claimDatagram_of_tcp hprotocol]
    refine classifyRest_pending_iff.2 ⟨rfl, ⟨hselected, ?_, h.not_fake⟩, ?_, hlookup, hexit,
      h.whole.2, h.syn, h.unowned⟩
    · simp [redirectOf]
    · simp [h.not_direct]

end FirstLook

/-! ## Both looks -/

/-- The second look sends a held SYN into the tunnel: the session runs, the table of that moment
selects it and it is no proxy's own socket. -/
def SelectedLater (look : SecondLook) (fields : Ipv4Fields) : Prop :=
  look.queued = true ∧ look.stop = false ∧
    ∃ found, look.table.lookup fields = some found ∧
      isProxyUpstream look.proxyOwns found.node fields = false

theorem decidePending_isSome_iff {registry : Registry} {look : SecondLook} {fields : Ipv4Fields} :
    (∃ call, (if look.queued then decidePending registry look fields else none) = some call) ↔
      SelectedLater look fields := by
  constructor
  · rintro ⟨call, h⟩
    split at h
    next hqueued =>
      simp only [decidePending] at h
      split at h
      · cases h
      next hstop =>
        split at h
        · cases h
        next found hfound =>
          split at h
          · cases h
          · next hproxy => exact ⟨hqueued, by simpa using hstop, found,
              hfound, by simpa using hproxy⟩
    · cases h
  · rintro ⟨hqueued, hstop, found, hfound, hproxy⟩
    refine ⟨⟨fields, found.processId, found.node, registry.killSwitch, none⟩, ?_⟩
    simp [hqueued, decidePending, hstop, hfound, hproxy]

theorem decidePending_fields {registry : Registry} {look : SecondLook} {fields : Ipv4Fields}
    {call : Routed}
    (h : (if look.queued then decidePending registry look fields else none) = some call) :
    call.fields = fields ∧ call.redirect = none := by
  simp only [decidePending] at h
  split at h
  · split at h
    · cases h
    split at h
    · cases h
    · split at h
      · cases h
      · cases h
        exact ⟨rfl, rfl⟩
  · cases h

/-- For every packet, every table and rule set at its capture, every answer of the socket tables and
every table at the second look: what is handed over is meant for the tunnel, unless the packet is a
held SYN to a destination the far end cannot reach that the second look selects. -/
theorem local_stays_local_iff (registry : Registry) (table : SelectorTable) (sockets : Sockets)
    (bytes : Bytes) (look : SecondLook) :
    (∀ call, handedOver registry table sockets bytes look = some call →
      MeantForTunnel registry call) ↔
      ¬ ∃ fields, HeldSyn registry table sockets bytes fields ∧ SelectedLater look fields ∧
        isGloballyRoutableIpv4 fields.destination = false := by
  constructor
  · rintro hmeant ⟨fields, hheld, hlater, hlocal⟩
    obtain ⟨call, hcall⟩ := decidePending_isSome_iff.2 hlater
    have hhanded : handedOver registry table sockets bytes look = some call := by
      simp only [handedOver, classify_pending_iff.2 hheld]
      exact hcall
    obtain ⟨hfields, hredirect⟩ := decidePending_fields hcall
    have hcallMeant := hmeant call hhanded
    simp only [MeantForTunnel, hfields, hredirect] at hcallMeant
    rcases hcallMeant with hroutable | hsome | hfake
    · rw [hlocal] at hroutable
      cases hroutable
    · cases hsome
    · have hnot := hheld.not_fake
      simp [Registry.isFake, hfake.1, hfake.2] at hnot
  · intro hnone call hhanded
    simp only [handedOver] at hhanded
    split at hhanded
    next call' ff hclassify =>
      cases hhanded
      exact classify_routed hclassify
    next fields hclassify =>
      -- A held SYN: its destination is routable, or the second look would be the exception.
      obtain ⟨hfields, -⟩ := decidePending_fields hhanded
      refine .inl ?_
      rw [hfields]
      by_contra hlocal
      exact hnone ⟨fields, classify_pending_iff.1 hclassify,
        decidePending_isSome_iff.1 ⟨call, hhanded⟩, by simpa using hlocal⟩
    · cases hhanded

/-! ## A connection to the local network -/

/-- A SYN from port 5000 to port 445 of an address. -/
def synTo (destination : Octets) : Bytes :=
  [0x45, 0, 0, 40, 0, 1, 0x40, 0, 64, 6, 0, 0, 192, 168, 1, 20, destination.1, destination.2.1,
    destination.2.2.1, destination.2.2.2] ++
    [0x13, 0x88, 0x01, 0xbd, 0, 0, 0, 0, 0, 0, 0, 0, 0x50, 0x02, 0xff, 0xff, 0, 0, 0, 0]

/-- A session with the kill switch on and no rules of its own. -/
def plainRegistry : Registry :=
  ⟨[], [], ⟨KeyedMap.empty, []⟩, [], [], ⟨[], ∅, ∅, 0⟩, [], 0, none, true⟩

/-- Nobody is known to own the socket. -/
def unknownSockets : Sockets :=
  ⟨false, none, none, none, false, fun _ => false, false, false, true, false, false, false, false⟩

/-- The socket observer has published the application's flow in the meantime. -/
def observedLook : SecondLook :=
  ⟨true, false, ⟨[], KeyedMap.empty.insert (6, 5000, some 445) ⟨none, some 77, 0⟩, 1⟩,
    fun _ => false⟩

/-- The SYN of an application's connection to a file server on the local network is held, and sent
into the tunnel when the observer has seen its socket. -/
theorem held_syn_to_the_local_network_is_tunnelled :
    ¬ ∀ call, handedOver plainRegistry ⟨[], KeyedMap.empty, 0⟩ unknownSockets
      (synTo (192, 168, 1, 10))
      observedLook = some call → MeantForTunnel plainRegistry call := by
  intro h
  have hmeant := h ⟨⟨(192, 168, 1, 20), (192, 168, 1, 10), 6, 5000, 445⟩, some 77, 0, true, none⟩
    (by decide +kernel)
  exact absurd hmeant (by decide +kernel)

end GamePath.Engine.SplitCapture
