import FramedSerial.Proofs.Frame.WireForm
import FramedSerial.Proofs.Link.Completions
import Mathlib.Data.List.TakeDrop

/-!
# Sending more than there is room for

An idle link has room for one byte more than its queue holds, because the first byte
goes to the device at once; a busy link has room for as many bytes as the queue is
short of being full.  Of the bytes of a frame, or of raw data, the first ones are
accepted as long as there is room and all others are dropped.  Nothing makes room in
between, so what is cut off is always the end, and a frame gets through whole exactly
if there was room for all of it.

The queue of the default sizes is shorter than the longest frame of the largest
payload.  Whether a frame fits depends on how many of its bytes are reserved.
-/

namespace FramedSerial

namespace Link

variable {sizes : Sizes}

/-- How many bytes a link accepts before it drops one. -/
def room (link : Link sizes) : Nat :=
  if link.busy then sizes.outbox - link.pendingOutbound else sizes.outbox + 1

theorem room_outlet (link : Link sizes) : link.outlet.room sizes.outbox = link.room := by
  rw [Outlet.room, length_waiting]
  rfl

section

variable {link : Link sizes}

/-- The bytes accepted in the course of sending are those for which there was room. -/
theorem Quiet.admitted_submits (quiet : link.Quiet) (data : Bytes) :
    (link.callsCourse (data.map .submit)).flatMap Moment.admitted =
      data.take link.room := by
  have keeps : link.Keeps link.outgoing := ⟨quiet.resting, rfl⟩
  have conserved := (keeps.followAll (data.map .submit)).2.2
  have submitted := congrArg Outlet.bytes (quiet.sendRaw data).2
  rw [Outlet.bytes_submitAll quiet.emptyWhenIdle, room_outlet] at submitted
  exact List.append_cancel_left (conserved.symm.trans submitted)

/-- A byte for which there is room takes it up, and nothing is noted. -/
theorem Quiet.submit_of_room (quiet : link.Quiet) (positive : 0 < link.room)
    (byte : UInt8) :
    (link.follow (.submit byte)).room + 1 = link.room ∧
      (link.follow (.submit byte)).journal = link.journal := by
  rw [← room_outlet] at positive
  obtain ⟨_, oneLess, _⟩ := Outlet.submit_of_room quiet.emptyWhenIdle positive byte
  constructor
  · rw [← room_outlet, ← room_outlet, (quiet.submit byte).2]
    exact oneLess
  · rw [(quiet.submit_onlySends positive byte).sender]
    rfl

/-- A byte for which there is no room is noted, and makes none. -/
theorem Quiet.submit_of_full (quiet : link.Quiet) (full : link.room = 0) (byte : UInt8) :
    (link.follow (.submit byte)).room = 0 ∧
      (link.follow (.submit byte)).journal = link.journal.push (.outboundFull byte) := by
  constructor
  · rw [← room_outlet] at full
    rw [← room_outlet, (quiet.submit byte).2]
    exact (Outlet.submit_of_full full byte).2.1
  · unfold room at full
    split at full
    · next busy =>
        have bounded : link.pendingOutbound ≤ sizes.outbox := ByteQueue.length_le_capacity _
        rw [follow_submit_of_full busy (by omega) byte]
    · cases full

/-- The bytes that are dropped are noted, one by one and no others. -/
theorem Quiet.journal_sendRaw (quiet : link.Quiet) (data : Bytes) :
    (link.sendRaw data).journal.toList =
      link.journal.toList ++ (data.drop link.room).map .outboundFull := by
  induction data generalizing link with
  | nil =>
      rw [List.drop_nil, List.map_nil, List.append_nil]
      rfl
  | cons byte rest induction =>
      have later := induction (quiet.submit byte).1
      refine Eq.trans later ?_
      rcases Nat.eq_zero_or_pos link.room with full | positive
      · obtain ⟨stillFull, noted⟩ := quiet.submit_of_full full byte
        rw [stillFull, noted, full]
        simp
      · obtain ⟨oneLess, sameJournal⟩ := quiet.submit_of_room positive byte
        rw [sameJournal, ← oneLess, List.drop_succ_cons]

end

/-- What becomes of the bytes that an operation puts on the wire. -/
structure SendsWhatFits (link : Link sizes) (operation : Operation) (wire : Bytes) :
    Prop where
  accepted : link.accepted operation = wire.take link.room
  /-- All others are dropped, and noted in order. -/
  dropped : (link.operate operation).journal.toList =
    link.journal.toList ++ (wire.drop link.room).map .outboundFull
  counted : (link.operate operation).statistics.outboundBytesDropped.toNat =
    min (link.statistics.outboundBytesDropped.toNat + (wire.length - link.room))
      Counter.ceiling
  drains : (link.operate operation).Drains
  received : (link.operate operation).drain.2.device.record.toList =
    link.device.record.toList ++ link.transmitter.queue.toList ++ wire.take link.room
  whole : (link.operate operation).drain.2.device.record.toList =
      link.device.record.toList ++ link.transmitter.queue.toList ++ wire ↔
    wire.length ≤ link.room

section

variable {link : Link sizes}

/-- Whoever submits bytes to the outlet of a quiet link, and notes what is dropped, sends
what fits. -/
theorem Quiet.sendsWhatFits (quiet : link.Quiet) {operation : Operation} {wire : Bytes}
    (submits : operation.calls = wire.map .submit)
    (later : (link.operate operation).Quiet)
    (submitted : (link.operate operation).outlet =
      link.outlet.submitAll sizes.outbox wire)
    (noted : (link.operate operation).journal = (link.sendRaw wire).journal) :
    link.SendsWhatFits operation wire := by
  have bytes : (link.operate operation).outlet.bytes =
      link.outlet.bytes ++ wire.take link.room := by
    rw [submitted, Outlet.bytes_submitAll quiet.emptyWhenIdle, room_outlet]
  have counted : (link.operate operation).outlet.bytesDropped.toNat =
      min (link.outlet.bytesDropped.toNat + (wire.length - link.room)) Counter.ceiling := by
    rw [submitted, Outlet.bytesDropped_submitAll quiet.emptyWhenIdle, room_outlet]
  obtain ⟨_, _, drained, _⟩ := later.drain
  have received : (link.operate operation).drain.2.device.record.toList =
      link.device.record.toList ++ link.transmitter.queue.toList ++ wire.take link.room :=
    (congrArg Outlet.taken drained).trans bytes
  constructor
  case accepted =>
    rw [accepted, moments, submits]
    exact quiet.admitted_submits wire
  case dropped =>
    rw [noted]
    exact quiet.journal_sendRaw wire
  case counted => exact counted
  case drains => exact later.drains
  case received => exact received
  case whole =>
    rw [received, List.append_cancel_left_eq, List.take_eq_self_iff]

theorem Quiet.sendRaw_sendsWhatFits (quiet : link.Quiet) (data : Bytes) :
    link.SendsWhatFits (.sendRaw data) data := by
  obtain ⟨later, submitted⟩ := quiet.sendRaw data
  exact quiet.sendsWhatFits rfl later submitted rfl

theorem Quiet.send_sendsWhatFits (quiet : link.Quiet) (payload : Bytes) :
    link.SendsWhatFits (.send payload) (Frame.encode payload) := by
  obtain ⟨later, submitted⟩ := quiet.send payload
  exact quiet.sendsWhatFits rfl later submitted rfl

end

/-- Whatever has become of a link with a passive device: of raw data, and of the frame of
a payload, the first bytes are accepted, as many as there is room for, and the others
are dropped, noted and counted.  Once the link is drained the device has received what
waited before and then the accepted bytes, and these are all exactly if there was room
for all. -/
theorem sends_what_fits {settings : Settings} {link : Link sizes}
    (reachable : Reachable .passive settings link) :
    (∀ data, link.SendsWhatFits (.sendRaw data) data) ∧
      ∀ payload, link.SendsWhatFits (.send payload) (Frame.encode payload) :=
  ⟨reachable.quiet.sendRaw_sendsWhatFits, reachable.quiet.send_sendsWhatFits⟩

/-- There is room for one byte behind the two that wait, and the second of two further
ones is dropped like the one before. -/
theorem wrappedLink_sends_what_fits :
    Reachable .passive {} wrappedLink ∧ wrappedLink.room = 1 ∧
      wrappedLink.accepted (.sendRaw [8, 9]) = [8] ∧
      (wrappedLink.sendRaw [8, 9]).statistics.outboundBytesDropped.toNat = 2 ∧
      (wrappedLink.sendRaw [8, 9]).drain.2.device.record.toList =
        [1, 2, 3, 4, 6, 7, 8] ∧
      (wrappedLink.send [0x31]).drain.2.device.record.toList =
        [1, 2, 3, 4, 6, 7, Frame.flag] := by
  obtain ⟨raw, framed⟩ := sends_what_fits wrappedLink_reachable
  have record : wrappedLink.device.record.toList = [1, 2, 3, 4] :=
    congrArg Outlet.taken outlet_wrappedLink
  have waiting : wrappedLink.transmitter.queue.toList = [6, 7] :=
    congrArg Outlet.waiting outlet_wrappedLink
  have droppedBefore : wrappedLink.statistics.outboundBytesDropped =
      Counter.zero.increment :=
    congrArg Outlet.bytesDropped outlet_wrappedLink
  have room : wrappedLink.room = 1 := by
    rw [← room_outlet, outlet_wrappedLink]
    rfl
  obtain ⟨accepted, _, counted, _, received, _⟩ := raw [8, 9]
  have cut := (framed [0x31]).received
  simp only [operate] at counted received cut
  refine ⟨wrappedLink_reachable, room, ?_, ?_, ?_, ?_⟩
  · rw [accepted, room]
    rfl
  · rw [counted, room, droppedBefore]
    rfl
  · rw [received, record, waiting, room]
    rfl
  · rw [cut, record, waiting, room]
    rfl

/-- A frame arrives whole, and nothing is counted as dropped, exactly if there is room. -/
theorem Quiet.send_whole_iff {link : Link sizes} (quiet : link.Quiet) (payload : Bytes) :
    ((link.send payload).drain.2.device.record.toList =
          link.device.record.toList ++ link.transmitter.queue.toList ++
            Frame.encode payload ∧
        (link.send payload).drain.2.statistics.outboundBytesDropped =
          link.statistics.outboundBytesDropped) ↔
      (Frame.encode payload).length ≤ link.room := by
  have whole := (quiet.send_sendsWhatFits payload).whole
  constructor
  · rintro ⟨received, _⟩
    exact whole.mp received
  · intro fits
    refine ⟨whole.mpr fits, ?_⟩
    obtain ⟨later, submitted⟩ := quiet.send payload
    obtain ⟨_, _, drained, _⟩ := later.drain
    have sameDropped := congrArg Outlet.bytesDropped drained
    rw [← room_outlet] at fits
    refine sameDropped.trans ?_
    rw [Outlet.drained, submitted]
    exact (Outlet.submitAll_of_room quiet.emptyWhenIdle fits).2

section

variable {link : Link {}}

theorem room_of_idle (idle : link.busy = false) : link.room = 256 := by
  rw [room, if_neg (by simp [idle])]

/-- A link of the default sizes puts the first 256 bytes of a frame on the wire.  That is
the whole frame exactly if the bytes of its payload and the reserved bytes of its payload
and checksum are not more than 252 together. -/
theorem default_queue_holds_frame_iff {settings : Settings}
    (reachable : Reachable .passive settings link) (idle : link.busy = false)
    (payload : Bytes) :
    (link.send payload).Drains ∧
      (link.send payload).drain.2.device.record.toList =
        link.device.record.toList ++ (Frame.encode payload).take 256 ∧
      ((link.send payload).drain.2.device.record.toList =
            link.device.record.toList ++ Frame.encode payload ∧
          (link.send payload).drain.2.statistics.outboundBytesDropped =
            link.statistics.outboundBytesDropped ↔
        payload.length + (payload ++ Frame.trailer payload).countP Frame.reserved ≤
          252) := by
  have quiet := reachable.quiet
  have noneWaits : link.transmitter.queue.toList = [] := quiet.resting.emptyWhenIdle idle
  have sent := quiet.send_sendsWhatFits payload
  have received := sent.received
  have whole := quiet.send_whole_iff payload
  rw [noneWaits, List.append_nil, room_of_idle idle] at received whole
  refine ⟨sent.drains, received, whole.trans ?_⟩
  rw [Frame.length_encode]
  omega

/-- A link of the default sizes that has been brought up. -/
def defaultLink : Link {} :=
  (new .passive {}).bringUp

theorem defaultLink_reachable : Reachable .passive {} defaultLink :=
  Reachable.new.operate .bringUp

/-- A payload of nothing but flags. -/
def flags (count : Nat) : Bytes :=
  List.replicate count Frame.flag

/-- A frame of 126 flags takes all that there is room for. -/
theorem defaultLink_holds_flags :
    Reachable .passive {} defaultLink ∧ defaultLink.busy = false ∧
      (Frame.encode (flags 126)).length = 256 ∧
      (defaultLink.send (flags 126)).drain.2.device.record.toList =
        Frame.encode (flags 126) := by
  have idle : defaultLink.busy = false := rfl
  have nothingSent : defaultLink.device.record.toList = [] := rfl
  have length : (Frame.encode (flags 126)).length = 256 := by decide +kernel
  have fits := length.le
  rw [Frame.length_encode] at fits
  obtain ⟨_, _, whole⟩ :=
    default_queue_holds_frame_iff defaultLink_reachable idle (flags 126)
  have received := (whole.mpr (by omega)).1
  rw [nothingSent, List.nil_append] at received
  exact ⟨defaultLink_reachable, idle, length, received⟩

/-- The largest payload, made of flags alone, has a frame of 400 bytes, and the last 144
of them are lost. -/
theorem flags_outgrow_default_queue :
    Reachable .passive {} defaultLink ∧ defaultLink.busy = false ∧
      (flags 198).length = Frame.largestPayload ∧
      (defaultLink.send (flags 198)).drain.2.device.record.toList ≠
        defaultLink.device.record.toList ++ Frame.encode (flags 198) ∧
      defaultLink.statistics.outboundBytesDropped.toNat = 0 ∧
      (defaultLink.send (flags 198)).statistics.outboundBytesDropped.toNat = 144 := by
  have idle : defaultLink.busy = false := rfl
  have quiet := defaultLink_reachable.quiet
  have noneWaits : defaultLink.transmitter.queue.toList = [] :=
    quiet.resting.emptyWhenIdle idle
  have noneDropped : defaultLink.statistics.outboundBytesDropped.toNat = 0 := rfl
  have length : (Frame.encode (flags 198)).length = 400 := by decide +kernel
  obtain ⟨_, _, counted, _, _, whole⟩ := quiet.send_sendsWhatFits (flags 198)
  simp only [operate] at counted whole
  rw [noneWaits, List.append_nil, room_of_idle idle, length] at whole
  rw [room_of_idle idle, length, noneDropped] at counted
  refine ⟨defaultLink_reachable, idle, by decide +kernel, ?_, noneDropped, counted⟩
  intro received
  have fits := whole.mp received
  omega

end

end Link

end FramedSerial
