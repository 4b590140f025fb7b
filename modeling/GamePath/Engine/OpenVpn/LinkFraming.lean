import GamePath.Engine.OpenVpn.Link

/-!
# Framing of the TCP link under back-pressure

Whatever the stream accepts of each write and whatever is shed between the writes, the bytes on the
wire are whole frames in the order they were queued, followed by the part of the head that is
written. `Framed` is the invariant; each operation keeps it and only adds to the packets the wire
has begun, which gives `tcp_link_framing` for every run.
-/

namespace GamePath.Engine.OpenVpn

open Lib List Option Outbound

/-! ## Frames -/

/-- Bytes of a list of frames, `total` of the tests. -/
def total (frames : List Outbound) : Nat := (frames.map fun frame => frame.bytes.length).sum

/-- The frames one after another on the wire. -/
def onWire (frames : List Outbound) : Bytes := frames.flatMap bytes

/-- A frame that is never shed. -/
def Outbound.isReliable (frame : Outbound) : Bool := frame.urgency = .reliable

/-- The bytes of a frame are a packet after its length. -/
def Outbound.LengthPrefixed (frame : Outbound) : Prop :=
  ∃ packet : Bytes, packet.length < 2 ^ 16 ∧
    frame.bytes = BigEndian.toBytes 2 packet.length ++ packet

@[simp] theorem total_nil : total [] = 0 := rfl

@[simp] theorem total_cons (frame : Outbound) (frames : List Outbound) :
    total (frame :: frames) = frame.bytes.length + total frames := by
  simp [total]

@[simp] theorem total_append (frames frames' : List Outbound) :
    total (frames ++ frames') = total frames + total frames' := by
  simp [total]

@[simp] theorem onWire_append (frames frames' : List Outbound) :
    onWire (frames ++ frames') = onWire frames ++ onWire frames' := by
  simp [onWire]

@[simp] theorem onWire_singleton (frame : Outbound) : onWire [frame] = frame.bytes := by
  simp [onWire]

theorem Outbound.LengthPrefixed.length_pos {frame : Outbound} (h : frame.LengthPrefixed) :
    0 < frame.bytes.length := by
  obtain ⟨packet, -, hbytes⟩ := h
  rw [hbytes, length_append, BigEndian.length_toBytes]
  omega

theorem lengthPrefixed_frame {packet : Bytes} (h : packet.length < 2 ^ 16) (queued : Instant)
    (urgency : Urgency) : (frame packet queued urgency).LengthPrefixed :=
  ⟨packet, h, rfl⟩

/-- The subtraction of the source does not underflow. -/
theorem subUsize_of_le {a b : Nat} (h : b ≤ a) : subUsize a b = some (a - b) := by
  simp [subUsize, h]

/-! ## Shedding -/

/-- The loop sheds real-time packets only, keeps the order of the others, and takes the bytes of
what it sheds from the total, which covers them. -/
theorem shedFrom_spec (now : Instant) (frames : List Outbound) :
    ∀ (queuedBytes : Nat) (dropped : Nat × Nat), total frames ≤ queuedBytes →
      ∃ s, shedFrom now frames queuedBytes dropped = some s ∧
        s.outbound.Sublist frames ∧
        s.outbound.filter isReliable = frames.filter isReliable ∧
        s.queuedBytes + total frames = queuedBytes + total s.outbound := by
  induction frames with
  | nil =>
    intro queuedBytes dropped _
    exact ⟨_, rfl, List.Sublist.refl _, rfl, rfl⟩
  | cons frame rest ih =>
    intro queuedBytes dropped hcovered
    rw [total_cons] at hcovered
    simp only [shedFrom]
    split
    · rename_i hshed
      rw [subUsize_of_le (by omega)]
      obtain ⟨s, hs, hsub, hreliable, hcount⟩ :=
        ih (queuedBytes - frame.bytes.length) _ (by omega)
      refine ⟨s, hs, hsub.cons frame, ?_, ?_⟩
      · -- The packet that is shed is not a reliable one.
        rw [hreliable]
        simp [isReliable, hshed.1]
      · rw [total_cons]
        omega
    obtain ⟨s, hs, hsub, hreliable, hcount⟩ := ih queuedBytes dropped (by omega)
    rw [hs]
    refine ⟨_, rfl, hsub.cons_cons frame, ?_, ?_⟩
    · simp only [filter_cons, hreliable]
    · simp only [total_cons]
      omega

namespace Link

/-! ## The invariant -/

/-- The part of the head that is on the wire. -/
def begunBytes (link : Link) : Bytes :=
  match link.outbound with
  | [] => []
  | front :: _ => front.bytes.take link.written

/-- The frames of which the stream has accepted a byte: those it took whole, and the head when part
of it is written. -/
def begun (link : Link) : List Outbound :=
  link.accepted.frames ++ link.outbound.take link.firstSheddable

/-- Less than the whole head is written, and nothing when the queue is empty. -/
def PartlyWritten (link : Link) : Prop :=
  match link.outbound with
  | [] => link.written = 0
  | front :: _ => link.written < front.bytes.length

/-- The link's account of the frames that were put on its queue. -/
structure Framed (enqueued : List Outbound) (link : Link) : Prop where
  prefixed : ∀ frame ∈ enqueued, frame.LengthPrefixed
  counted : link.queuedBytes + link.written = total link.outbound
  partlyWritten : link.PartlyWritten
  onTheWire : link.accepted.bytes = onWire link.accepted.frames ++ link.begunBytes
  inOrder : (link.accepted.frames ++ link.outbound).Sublist enqueued
  reliable : (link.accepted.frames ++ link.outbound).filter isReliable =
    enqueued.filter isReliable

/-- An operation has left the link framed and everything the wire had begun still on it. -/
structure Continues (enqueued : List Outbound) (link link' : Link) : Prop where
  framed : link'.Framed enqueued
  begun : link.begun <+: link'.begun

variable {link : Link}

theorem Continues.refl {enqueued : List Outbound} (h : link.Framed enqueued) :
    Continues enqueued link link :=
  ⟨h, prefix_refl _⟩

/-- Calls are followed one after another. -/
theorem Continues.trans {enqueued enqueued' : List Outbound} {link link' link'' : Link}
    (h : Continues enqueued link link') (h' : Continues enqueued' link' link'') :
    Continues enqueued' link link'' :=
  ⟨h'.framed, h.begun.trans h'.begun⟩

/-- A new link has sent nothing and owes nothing. -/
theorem framed_connect : connect.Framed [] where
  prefixed := by simp
  counted := rfl
  partlyWritten := rfl
  onTheWire := rfl
  inOrder := List.Sublist.refl _
  reliable := rfl

/-! ## What a link at rest looks like -/

theorem partlyWritten_of_not_begun (hwritten : link.written = 0)
    (hlong : ∀ frame ∈ link.outbound, 0 < frame.bytes.length) : link.PartlyWritten := by
  unfold PartlyWritten
  cases hqueue : link.outbound with
  | nil => exact hwritten
  | cons front rest =>
    rw [hqueue] at hlong
    simpa [hwritten] using hlong front mem_cons_self

theorem begunBytes_of_not_begun (hwritten : link.written = 0) :
    link.begunBytes = [] := by
  unfold begunBytes
  cases link.outbound with
  | nil => rfl
  | cons front rest => simp [hwritten]

theorem begun_of_not_begun (hwritten : link.written = 0) :
    link.begun = link.accepted.frames := by
  simp [begun, firstSheddable, hwritten]

/-- A frame counts as begun from its first byte on. -/
theorem begun_of_head {front : Outbound} {rest : List Outbound}
    (hwritten : 0 < link.written) (hqueue : link.outbound = front :: rest) :
    link.begun = link.accepted.frames ++ [front] := by
  simp [begun, firstSheddable, hwritten, hqueue]

theorem begun_prefix_head {front : Outbound} {rest : List Outbound}
    (hqueue : link.outbound = front :: rest) :
    link.begun <+: link.accepted.frames ++ [front] := by
  by_cases hwritten : 0 < link.written
  · rw [begun_of_head hwritten hqueue]
  · rw [begun_of_not_begun (by omega)]
    exact prefix_append _ _

/-- Only the front of the queue is partly written. -/
theorem PartlyWritten.exists_head (h : link.PartlyWritten) (hwritten : 0 < link.written) :
    ∃ front rest, link.outbound = front :: rest ∧ link.written < front.bytes.length := by
  unfold PartlyWritten at h
  cases hqueue : link.outbound with
  | nil =>
    rw [hqueue] at h
    omega
  | cons front rest =>
    rw [hqueue] at h
    exact ⟨front, rest, rfl, h⟩

section Operations

variable {enqueued : List Outbound} {link : Link}

section

variable (h : link.Framed enqueued)
include h

theorem Framed.prefixed_of_mem {frame : Outbound}
    (hmem : frame ∈ link.outbound) : frame.LengthPrefixed :=
  h.prefixed frame (h.inOrder.subset (mem_append_right _ hmem))

theorem Framed.length_pos :
    ∀ frame ∈ link.outbound, 0 < frame.bytes.length :=
  fun _ hmem => (h.prefixed_of_mem hmem).length_pos

theorem Framed.total_sheddable_le :
    total (link.outbound.drop link.firstSheddable) ≤ link.queuedBytes := by
  have hcounted := h.counted
  by_cases hwritten : 0 < link.written
  · -- The head is spared; less than its length is written.
    obtain ⟨front, rest, hqueue, hless⟩ := h.partlyWritten.exists_head hwritten
    rw [hqueue, total_cons] at hcounted
    simp only [firstSheddable, hwritten, hqueue, if_true, drop_succ_cons, drop_zero]
    omega
  · simp only [firstSheddable, hwritten, if_false, drop_zero]
    omega

/-- A change of the queue behind the packet that is partly written keeps what is on the wire. -/
theorem Framed.requeue {enqueued' : List Outbound} {link' : Link}
    (haccepted : link'.accepted = link.accepted) (hwritten : link'.written = link.written)
    (hspared : link'.outbound.take link.firstSheddable = link.outbound.take link.firstSheddable)
    (hprefixed : ∀ frame ∈ enqueued', frame.LengthPrefixed)
    (hcounted : link'.queuedBytes + link'.written = total link'.outbound)
    (hinOrder : (link'.accepted.frames ++ link'.outbound).Sublist enqueued')
    (hreliable : (link'.accepted.frames ++ link'.outbound).filter isReliable =
      enqueued'.filter isReliable) :
    Continues enqueued' link link' := by
  have hwire := h.onTheWire
  by_cases hpos : 0 < link.written
  · obtain ⟨front, rest, hhead, hless⟩ := h.partlyWritten.exists_head hpos
    obtain ⟨rest', hhead'⟩ : ∃ rest', link'.outbound = front :: rest' := by
      cases hqueue : link'.outbound with
      | nil => simp [firstSheddable, hpos, hhead, hqueue] at hspared
      | cons front' rest' =>
        simp only [firstSheddable, hpos, hhead, hqueue, if_true, take_succ_cons,
          take_zero, List.cons.injEq, and_true] at hspared
        exact ⟨rest', by rw [hspared]⟩
    refine ⟨⟨hprefixed, hcounted, ?_, ?_, hinOrder, hreliable⟩, ?_⟩
    · simpa only [PartlyWritten, hhead', hwritten] using hless
    · simpa only [begunBytes, hhead, hhead', haccepted, hwritten] using hwire
    · rw [begun_of_head hpos hhead, begun_of_head (hwritten ▸ hpos) hhead', haccepted]
  · have hzero : link.written = 0 := by omega
    have hzero' : link'.written = 0 := hwritten.trans hzero
    refine ⟨⟨hprefixed, hcounted, ?_, ?_, hinOrder, hreliable⟩, ?_⟩
    · apply partlyWritten_of_not_begun hzero'
      intro frame hmem
      exact (hprefixed frame (hinOrder.subset (mem_append_right _ hmem))).length_pos
    · rw [begunBytes_of_not_begun hzero', haccepted, hwire, begunBytes_of_not_begun hzero]
    · rw [begun_of_not_begun hzero, begun_of_not_begun hzero', haccepted]

/-- Shedding drops whole frames, and none that has begun. -/
theorem Framed.shed_continues (now : Instant) :
    ∃ link', link.shed now = some link' ∧ Continues enqueued link link' := by
  obtain ⟨s, hs, hsub, hreliable, hcount⟩ :=
    shedFrom_spec now _ link.queuedBytes (0, 0) h.total_sheddable_le
  have hcounted := h.counted
  have hsplit := take_append_drop link.firstSheddable link.outbound
  refine ⟨_, by rw [shed, hs, map_some], ?_⟩
  apply h.requeue
  · rfl
  · rfl
    -- Nothing is taken from what was kept behind the spared head.
  · by_cases hpos : 0 < link.written
    · obtain ⟨front, rest, hhead, -⟩ := h.partlyWritten.exists_head hpos
      simp [firstSheddable, hpos, hhead]
    · simp [firstSheddable, hpos]
  · exact h.prefixed
  · rw [← hsplit, total_append] at hcounted
    simp only [total_append]
    omega
  · apply List.Sublist.trans _ h.inOrder
    apply (List.Sublist.refl _).append
    conv_rhs => rw [← hsplit]
    exact (List.Sublist.refl _).append hsub
  · rw [← h.reliable]
    conv_rhs => rw [← hsplit]
    simp only [filter_append, hreliable]

theorem Framed.shedOverBudget_continues (now : Instant) :
    ∃ link', link.shedOverBudget now = some link' ∧ Continues enqueued link link' := by
  unfold shedOverBudget
  split
  · exact h.shed_continues now
  · exact ⟨link, rfl, Continues.refl h⟩

theorem Framed.pushBack_continues {frame : Outbound} (hframe : frame.LengthPrefixed) :
    Continues (enqueued ++ [frame]) link (link.pushBack frame) := by
  have hcounted := h.counted
  have hreliable := h.reliable
  apply h.requeue
  · rfl
  · rfl
  · by_cases hpos : 0 < link.written
    · obtain ⟨front, rest, hhead, -⟩ := h.partlyWritten.exists_head hpos
      simp [pushBack, firstSheddable, hpos, hhead]
    · simp [firstSheddable, hpos]
  · intro f hmem
    rcases mem_append.mp hmem with hmem | hmem
    · exact h.prefixed f hmem
    · rwa [mem_singleton.mp hmem]
  · simp only [pushBack, total_append, total_cons, total_nil]
    omega
  · simp only [pushBack, ← append_assoc]
    exact h.inOrder.append (List.Sublist.refl _)
  · simp only [pushBack, ← append_assoc]
    rw [filter_append, hreliable, filter_append]

theorem Framed.enqueue_continues (packet : Bytes) (urgency : Urgency) (queued now : Instant) :
    ∃ link' result, link.enqueue packet urgency queued now = some (link', result) ∧
      Continues (enqueued ++ (Call.enqueue packet urgency queued now).framed) link link' := by
  unfold enqueue
  by_cases hfits : packet.length < 2 ^ 16
  · have hpush := h.pushBack_continues (lengthPrefixed_frame hfits queued urgency)
    obtain ⟨link', hshed, hcontinues⟩ := hpush.framed.shedOverBudget_continues now
    have hdone := hpush.trans hcontinues
    simp only [hfits, if_true, hshed, map_some, Call.framed]
    split <;> exact ⟨link', _, rfl, hdone⟩
  · simp only [hfits, if_false, Call.framed, append_nil]
    exact ⟨link, _, rfl, Continues.refl h⟩

/-! ## Writing -/

/-- A write moves the front on, or finishes it. -/
theorem Framed.wrote_continues {front : Outbound} {rest : List Outbound}
    (hhead : link.outbound = front :: rest) {count : Nat} (hpos : 0 < count)
    (hle : count ≤ (link.offered front).length) :
    ∃ link', link.wrote front rest count = some link' ∧ Continues enqueued link link' := by
  have hcounted := h.counted
  have hpartly := h.partlyWritten
  have hwire := h.onTheWire
  have hinOrder := h.inOrder
  have hreliable := h.reliable
  have hbegun := begun_prefix_head hhead
  simp only [begunBytes, hhead] at hwire
  rw [hhead, total_cons] at hcounted
  rw [offered, length_drop] at hle
  -- The bytes written so far and those accepted now are one prefix of the head.
  have htaken : front.bytes.take link.written ++ (link.offered front).take count =
      front.bytes.take (link.written + count) := by
    rw [offered, ← take_add]
  unfold wrote
  rw [subUsize_of_le (by omega)]
  by_cases hcomplete : link.written + count = front.bytes.length
  · simp only [hcomplete, if_true]
    refine ⟨_, rfl, ⟨h.prefixed, ?_, ?_, ?_, ?_, ?_⟩, ?_⟩
    · simp only
      omega
    · apply partlyWritten_of_not_begun rfl
      intro frame hmem
      apply h.length_pos
      rw [hhead]
      exact mem_cons_of_mem _ hmem
    · rw [begunBytes_of_not_begun rfl, append_nil, onWire_append, onWire_singleton, hwire,
        append_assoc, htaken, hcomplete, take_length]
    · rw [hhead] at hinOrder
      simpa only [append_assoc, singleton_append] using hinOrder
    · rw [hhead] at hreliable
      simpa only [append_assoc, singleton_append] using hreliable
    · simpa [begun, firstSheddable] using hbegun
  · simp only [hcomplete, if_false]
    refine ⟨_, rfl, ⟨h.prefixed, ?_, ?_, ?_, hinOrder, hreliable⟩, ?_⟩
    · simp only [hhead, total_cons]
      omega
    · simp only [PartlyWritten, hhead]
      omega
    · simp only [begunBytes, hhead]
      rw [hwire, append_assoc, htaken]
    · have hbegan : 0 < link.written + count := by omega
      simpa only [begun, firstSheddable, hhead, gt_iff_lt, hbegan, if_true, take_succ_cons,
        take_zero] using hbegun

omit h in
theorem Framed.writeQueued_continues (answers : List Answer) :
    ∀ {link : Link}, link.Framed enqueued →
      ∃ link' result, writeQueued answers link = some (link', result) ∧
        Continues enqueued link link' := by
  induction answers with
  | nil =>
    intro link h
    exact ⟨link, _, rfl, Continues.refl h⟩
  | cons answer answers ih =>
    intro link h
    cases hhead : link.outbound with
    | nil =>
      simp only [writeQueued, hhead]
      exact ⟨link, _, rfl, Continues.refl h⟩
    | cons front rest =>
      simp only [writeQueued, hhead]
      cases answer with
      | ok count =>
        simp only
        split
        · exact ⟨link, _, rfl, Continues.refl h⟩
        · obtain ⟨link₁, hwrote, hfirst⟩ :=
            h.wrote_continues hhead (Nat.pos_of_ne_zero ‹_›) (Nat.min_le_right count _)
          obtain ⟨link₂, result, hrest, hcontinues⟩ := ih hfirst.framed
          refine ⟨link₂, result, ?_, hfirst.trans hcontinues⟩
          rw [hwrote, bind_some, hrest]
      | wouldBlock | timedOut | failed => exact ⟨link, _, rfl, Continues.refl h⟩
      | interrupted => exact ih h

theorem Framed.writeOut_continues (env : Flush) :
    ∃ link' result, link.writeOut env = some (link', result) ∧ Continues enqueued link link' := by
  unfold writeOut
  split
  · exact ⟨link, _, rfl, Continues.refl h⟩
  · exact ⟨link, _, rfl, Continues.refl h⟩
  · obtain ⟨link', result, hwritten, hcontinues⟩ := Framed.writeQueued_continues env.answers h
    rw [hwritten, map_some]
    split
    all_goals exact ⟨link', _, rfl, hcontinues⟩

theorem Framed.flushOutbound_continues (env : Flush) :
    ∃ link' result, link.flushOutbound env = some (link', result) ∧
      Continues enqueued link link' := by
  unfold flushOutbound
  split
  · exact ⟨link, _, rfl, Continues.refl h⟩
  · obtain ⟨link₁, hshed, hfirst⟩ := h.shed_continues env.now
    obtain ⟨link₂, result, hwritten, hcontinues⟩ := hfirst.framed.writeOut_continues env
    refine ⟨link₂, result, ?_, hfirst.trans hcontinues⟩
    rw [hshed, bind_some, hwritten]

theorem Framed.send_continues (packet : Bytes) (urgency : Urgency) (queued now : Instant)
    (env : Flush) :
    ∃ link' result, link.send packet urgency queued now env = some (link', result) ∧
      Continues (enqueued ++ (Call.send packet urgency queued now env).framed) link link' := by
  obtain ⟨link₁, result, henqueue, hfirst⟩ := h.enqueue_continues packet urgency queued now
  unfold send
  rw [henqueue]
  cases result with
  | error message => exact ⟨link₁, _, rfl, hfirst⟩
  | ok _ =>
    obtain ⟨link₂, result, hflush, hcontinues⟩ := hfirst.framed.flushOutbound_continues env
    exact ⟨link₂, result, hflush, hfirst.trans hcontinues⟩

/-! ## Runs -/

theorem Framed.step_continues (call : Call) :
    ∃ link', link.step call = some link' ∧ Continues (enqueued ++ call.framed) link link' := by
  cases call with
  | enqueue packet urgency queued now =>
    obtain ⟨link', result, hcall, hcontinues⟩ := h.enqueue_continues packet urgency queued now
    exact ⟨link', by rw [step, hcall, map_some], hcontinues⟩
  | flushOutbound env =>
    obtain ⟨link', result, hcall, hcontinues⟩ := h.flushOutbound_continues env
    refine ⟨link', by rw [step, hcall, map_some], ?_⟩
    simpa only [Call.framed, append_nil] using hcontinues
  | send packet urgency queued now env =>
    obtain ⟨link', result, hcall, hcontinues⟩ := h.send_continues packet urgency queued now env
    exact ⟨link', by rw [step, hcall, map_some], hcontinues⟩
  | takeDrops =>
    refine ⟨_, rfl, ?_⟩
    simp only [Call.framed, append_nil]
    exact ⟨⟨h.prefixed, h.counted, h.partlyWritten, h.onTheWire, h.inOrder, h.reliable⟩,
      prefix_refl _⟩

end

/-- The invariant over a run of calls. -/
theorem Framed.run_continues (calls : List Call) :
    ∀ {enqueued : List Outbound} {link : Link}, link.Framed enqueued →
      ∃ link', link.run calls = some link' ∧
        Continues (enqueued ++ calls.flatMap Call.framed) link link' := by
  induction calls with
  | nil =>
    intro enqueued link h
    refine ⟨link, rfl, ?_⟩
    simpa only [flatMap_nil, append_nil] using Continues.refl h
  | cons call calls ih =>
    intro enqueued link h
    obtain ⟨link₁, hstep, hfirst⟩ := h.step_continues call
    obtain ⟨link₂, hrun, hcontinues⟩ := ih hfirst.framed
    refine ⟨link₂, by rw [run, hstep, bind_some, hrun], ?_⟩
    rw [flatMap_cons, ← append_assoc]
    exact hfirst.trans hcontinues

end Operations

/-- However a run of a connected link goes, no subtraction underflows, the link is framed after it
with the packets the run queued, and the packets the wire had begun at any earlier point are still
the first ones it has begun: none of them left the queue except by being written whole. -/
theorem tcp_link_framing (before after : List Call) :
    ∃ link link', connect.run before = some link ∧ link.run after = some link' ∧
      link.Framed (before.flatMap Call.framed) ∧
      link'.Framed ((before ++ after).flatMap Call.framed) ∧
      link.begun <+: link'.begun := by
  obtain ⟨link, hbefore, hfirst⟩ := Framed.run_continues before framed_connect
  obtain ⟨link', hafter, hcontinues⟩ := Framed.run_continues after hfirst.framed
  refine ⟨link, link', hbefore, hafter, hfirst.framed, ?_, hcontinues.begun⟩
  simpa only [List.flatMap_append, List.nil_append] using hcontinues.framed

-- One byte of the first packet is accepted, then both are stale: only the second may go.
example :
    (connect.run
      [.enqueue [7, 8] .realtime 0 0, .enqueue [9] .realtime 0 0,
        .flushOutbound ⟨0, .ok (), [.ok 1, .wouldBlock], .ok ()⟩,
        .flushOutbound ⟨millis 51, .ok (), [.ok 2, .interrupted, .ok 9], .ok ()⟩]).map
      (fun link => (link.accepted.bytes, link.queuedBytes, link.dropped)) =
    some ([0, 2, 7, 8], 0, (1, 0)) := by decide

end Link

end GamePath.Engine.OpenVpn
