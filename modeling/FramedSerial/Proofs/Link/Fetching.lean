import FramedSerial.Proofs.Frame.Payloads
import FramedSerial.Proofs.Link.Halves

/-!
# Fetching frames with room for all of them

A read past faulty frames returns zero if no frame is found, and also if there is
no room for the one that is.  A buffer that is only a trailer shorter than the
longest frame has room for every payload, so there zero means that nothing is
left in the queue, and reading until zero returns all that was in it.

A link that has handed over the payloads of what it has read goes on doing so,
however the bytes that arrive are split up.
-/

namespace FramedSerial

namespace Deframer

variable {capacity : Nat} {wanted : Event → Bool}

theorem Barren.payloads_eq_nil {deframer : Deframer capacity} {bytes : Bytes}
    (barren : Barren Event.isFrame deframer bytes) : deframer.payloads bytes = [] := by
  apply List.filterMap_eq_nil_iff.mpr
  intro event member
  obtain ⟨outcome, brought, same⟩ := List.mem_filterMap.mp member
  cases event with
  | frame payload =>
      have impossible := barren (.frame payload) (same ▸ brought)
      cases impossible
  | dropped fault => rfl

/-- The bytes up to the first frame bring its payload and no other. -/
theorem Finds.payloads {deframer : Deframer capacity} {pending consumed left : Bytes}
    {event? : Option Event}
    (finds : Finds Event.isFrame deframer pending event? consumed left) :
    deframer.payloads consumed = (event?.bind Event.payload?).toList := by
  cases finds with
  | nothing barren => exact barren.payloads_eq_nil
  | @event front left byte event barren brought _ =>
      rw [payloads_append, barren.payloads_eq_nil]
      have one : (deframer.after front).events [byte] = [event] := by
        rw [Deframer.events, outcomes_cons, brought]
        rfl
      rw [Deframer.payloads, one]
      cases event with
      | frame payload => rfl
      | dropped fault => rfl

theorem Finds.isWanted {deframer : Deframer capacity} {pending consumed left : Bytes}
    {event : Event} (finds : Finds wanted deframer pending (some event) consumed left) :
    wanted event = true := by
  cases finds with
  | event _ _ isWanted => exact isWanted

theorem Finds.length_payload_le {read pending consumed left payload : Bytes}
    (finds : Finds wanted ((new : Deframer capacity).after read) pending
      (some (.frame payload)) consumed left) :
    payload.length + Frame.trailerLength ≤ capacity := by
  cases finds with
  | event _ brought _ =>
      rw [← after_append] at brought
      exact Deframer.length_payload_le brought

end Deframer

namespace Link

variable {sizes : Sizes}

/-- Of the bytes that arrive as many are taken in as there is room for. -/
theorem Inbox.foldl_accept {capacity : Nat} (inbox : Inbox capacity) (bytes : Bytes) :
    (bytes.foldl accept inbox).queue.toList =
        inbox.queue.toList ++ bytes.take (capacity - inbox.queue.length) ∧
      (bytes.foldl accept inbox).bytesDropped.toNat =
        min (inbox.bytesDropped.toNat + (bytes.length - (capacity - inbox.queue.length)))
          Counter.ceiling := by
  induction bytes generalizing inbox with
  | nil =>
      constructor
      · rw [List.take_nil, List.append_nil]
        rfl
      · rw [List.length_nil, Nat.zero_sub, Nat.add_zero]
        exact (Nat.min_eq_left (Counter.toNat_le_ceiling _)).symm
  | cons byte rest induction =>
      rw [List.foldl_cons]
      obtain ⟨contents, dropped⟩ := induction (inbox.accept byte)
      rw [contents, dropped]
      rcases Nat.lt_or_eq_of_le inbox.queue.length_le_capacity with room | full
      · obtain ⟨longer, accepted, contentsHere⟩ := accept_of_room room byte
        have length := congrArg List.length contentsHere
        rw [List.length_append, ByteQueue.length_toList, ByteQueue.length_toList,
          List.length_singleton] at length
        have oneLess : capacity - inbox.queue.length = capacity - longer.length + 1 := by
          omega
        rw [accepted, contentsHere, oneLess, List.take_succ_cons, List.length_cons]
        constructor
        · rw [List.append_assoc, List.singleton_append]
        · rw [Nat.add_sub_add_right]
      · rw [accept_of_full full]
        have noRoom : capacity - inbox.queue.length = 0 := by omega
        rw [noRoom, Counter.toNat_increment, List.length_cons]
        constructor
        · rfl
        · rw [Counter.capped_add, Nat.sub_zero, Nat.sub_zero, Nat.add_right_comm,
            Nat.add_assoc]

theorem length_handed (buffer : Bytes) (event? : Option Deframer.Event) :
    (handed buffer event?).2.length = buffer.length := by
  rcases event? with _ | ⟨payload⟩ | fault
  · rfl
  · unfold handed
    dsimp only
    split
    · rw [List.length_append, List.length_drop]
      omega
    · rfl
  · rfl

/-- A link that nobody is reading, with a deframer that has read some stream from
its beginning, and at which no frame has been without room. -/
structure Roomy (link : Link sizes) : Prop where
  unclaimed : link.receiver.claimed = false
  deframer : ∃ read, link.receiver.deframer = Deframer.new.after read
  framesWithoutRoom : link.receiver.framesWithoutRoom = .zero

/-- Some front of the queue has been read, and these are its payloads. -/
def Yields (link later : Link sizes) (left : Bytes) (payloads : List Bytes) : Prop :=
  ∃ consumed, consumed ++ left = link.inbox.queue.toList ∧
    link.HasRead later consumed left ∧
    link.receiver.deframer.payloads consumed = payloads

theorem Yields.pending {link later : Link sizes} {left : Bytes} {payloads : List Bytes}
    (yields : link.Yields later left payloads) : later.inbox.queue.toList = left := by
  obtain ⟨_, _, hasRead, _⟩ := yields
  exact hasRead.pending

theorem Yields.noneDropped {link later : Link sizes} {left : Bytes}
    {payloads : List Bytes} (yields : link.Yields later left payloads) :
    later.inbox.bytesDropped = link.inbox.bytesDropped := by
  obtain ⟨_, _, hasRead, _⟩ := yields
  exact hasRead.noneDropped

theorem Yields.trans {link between later : Link sizes} {middle left : Bytes}
    {front back : List Bytes} (first : link.Yields between middle front)
    (second : between.Yields later left back) :
    link.Yields later left (front ++ back) := by
  obtain ⟨consumed, split, hasRead, payloads⟩ := first
  obtain ⟨consumedLater, splitLater, hasReadLater, payloadsLater⟩ := second
  rw [hasRead.pending] at splitLater
  rw [hasRead.deframer] at payloadsLater
  refine ⟨consumed ++ consumedLater, ?_, hasRead.trans hasReadLater, ?_⟩
  · rw [List.append_assoc, splitLater, split]
  · rw [Deframer.payloads_append, payloads, payloadsLater]

section

variable {link later : Link sizes} {buffer : Bytes}

theorem Roomy.of_receiver (roomy : link.Roomy) (same : later.receiver = link.receiver) :
    later.Roomy := by
  obtain ⟨unclaimed, deframer, framesWithoutRoom⟩ := roomy
  rw [← same] at unclaimed deframer framesWithoutRoom
  exact ⟨unclaimed, deframer, framesWithoutRoom⟩

theorem Roomy.length_payload_le (roomy : link.Roomy)
    (room : sizes.frame ≤ buffer.length + Frame.trailerLength)
    {wanted : Deframer.Event → Bool} {pending consumed left payload : Bytes}
    (finds : Deframer.Finds wanted link.receiver.deframer pending
      (some (.frame payload)) consumed left) :
    payload.length ≤ buffer.length := by
  obtain ⟨read, deframer⟩ := roomy.deframer
  rw [deframer] at finds
  have bounded := finds.length_payload_le
  omega

theorem Roomy.tryReceive (roomy : link.Roomy)
    (room : sizes.frame ≤ buffer.length + Frame.trailerLength) :
    (link.tryReceive buffer).2.2.Roomy ∧
      (link.tryReceive buffer).2.1.length = buffer.length := by
  obtain ⟨event?, consumed, queue, journal, finds, result⟩ :=
    tryReceive_finds roomy.unclaimed buffer
  obtain ⟨read, deframer⟩ := roomy.deframer
  have advanced : link.receiver.deframer.after consumed =
      Deframer.new.after (read ++ consumed) := by
    rw [deframer, Deframer.after_append]
  rw [result]
  refine ⟨?_, length_handed buffer event?⟩
  rcases event? with _ | ⟨payload⟩ | ⟨_ | _⟩
  · exact ⟨rfl, ⟨_, advanced⟩, roomy.framesWithoutRoom⟩
  · simp only [counted, if_pos (roomy.length_payload_le room finds)]
    exact ⟨rfl, ⟨_, advanced⟩, roomy.framesWithoutRoom⟩
  · exact ⟨rfl, ⟨_, advanced⟩, roomy.framesWithoutRoom⟩
  · exact ⟨rfl, ⟨_, advanced⟩, roomy.framesWithoutRoom⟩

theorem Roomy.receive (roomy : link.Roomy)
    (room : sizes.frame ≤ buffer.length + Frame.trailerLength) :
    (link.receive buffer).2.2.Roomy := by
  have kept : (link.receive buffer).2.2.Roomy ∧
      sizes.frame ≤ (link.receive buffer).2.1.length + Frame.trailerLength := by
    apply receive_preserves fun later filled =>
      later.Roomy ∧ sizes.frame ≤ filled.length + Frame.trailerLength
    · intro later filled sofar
      obtain ⟨keptLater, length⟩ := sofar.1.tryReceive sofar.2
      exact ⟨keptLater, length.symm ▸ sofar.2⟩
    · exact ⟨roomy, room⟩
  exact kept.1

/-- Where there is room, zero means that nothing is left in the queue. -/
theorem Roomy.receive_yields (roomy : link.Roomy)
    (room : sizes.frame ≤ buffer.length + Frame.trailerLength) {length : Nat}
    {filled : Bytes} (received : link.receive buffer = (length, filled, later)) :
    ∃ left, link.Yields later left (if length = 0 then [] else [filled.take length]) ∧
      (length = 0 → left = []) := by
  obtain ⟨reading, isLength, event?, consumed, left, finds, hasRead, result⟩ :=
    receive_reads roomy.unclaimed buffer
  have payloads := finds.payloads
  rw [received] at isLength hasRead result
  dsimp only at isLength hasRead result
  subst isLength
  rcases event? with _ | ⟨payload⟩ | fault
  · cases result
    obtain rfl := finds.left_eq_nil
    exact ⟨[], ⟨consumed, finds.split, hasRead, payloads⟩, fun _ => rfl⟩
  · rw [handed, if_pos (roomy.length_payload_le room finds)] at result
    cases result
    have notZero := (List.length_pos_iff.mpr finds.payload_ne_nil).ne'
    refine ⟨left, ⟨consumed, finds.split, hasRead, ?_⟩, fun zero => absurd zero notZero⟩
    rw [Reading.length, if_neg notZero, List.take_left]
    exact payloads
  · have impossible := finds.isWanted
    cases impossible

/-- Reading until nothing is found returns every payload in the queue. -/
theorem Roomy.receiveAll {capacity : Nat} (roomy : link.Roomy)
    (room : sizes.frame ≤ capacity + Frame.trailerLength) :
    (link.receiveAll capacity).2.Roomy ∧
      link.Yields (link.receiveAll capacity).2 [] (link.receiveAll capacity).1 := by
  have roomInBuffer : sizes.frame ≤
      (List.replicate capacity (0 : UInt8)).length + Frame.trailerLength := by
    rw [List.length_replicate]
    exact room
  induction link using receiveAll.induct capacity with
  | case1 link filled later received =>
      have kept := roomy.receive roomInBuffer
      obtain ⟨left, yields, nothingLeft⟩ := roomy.receive_yields roomInBuffer received
      rw [received] at kept
      rw [receiveAll_of_none received]
      obtain rfl := nothingLeft rfl
      exact ⟨kept, yields⟩
  | case2 link length filled later received frames last rest induction =>
      have kept := roomy.receive roomInBuffer
      obtain ⟨left, yields, _⟩ := roomy.receive_yields roomInBuffer received
      rw [received] at kept
      rw [receiveAll_of_frame received]
      obtain ⟨keptLast, yieldsLast⟩ := induction kept
      exact ⟨keptLast, yields.trans yieldsLast⟩

end

/-- Of the bytes that have arrived a link has read some front and handed over the
payloads of that. -/
def HandedOver (link : Link sizes) (arrived : Bytes) (delivered : List Bytes) : Prop :=
  ∃ events, link.Unframed arrived events ∧
    events.filterMap Deframer.Event.payload? = delivered

namespace HandedOver

variable {link later : Link sizes} {arrived : Bytes} {delivered : List Bytes}

/-- What has not been handed over is still to come out of the queue. -/
theorem split (handedOver : link.HandedOver arrived delivered) :
    delivered ++ link.receiver.deframer.payloads link.inbox.queue.toList =
      (Deframer.new : Deframer sizes.frame).payloads arrived := by
  obtain ⟨events, unframed, isDelivered⟩ := handedOver
  rw [Deframer.payloads, Deframer.payloads, ← unframed.split, List.filterMap_append,
    isDelivered]

theorem all (handedOver : link.HandedOver arrived delivered)
    (empty : link.inbox.queue.toList = []) :
    delivered = (Deframer.new : Deframer sizes.frame).payloads arrived := by
  rw [← handedOver.split, empty]
  exact (List.append_nil _).symm

theorem of_same (handedOver : link.HandedOver arrived delivered)
    (sameInbox : later.inbox = link.inbox) (sameReceiver : later.receiver = link.receiver) :
    later.HandedOver arrived delivered := by
  obtain ⟨events, ⟨read, isArrived, deframer, isRead⟩, isDelivered⟩ := handedOver
  rw [← sameInbox] at isArrived
  rw [← sameReceiver] at deframer
  exact ⟨events, ⟨read, isArrived, deframer, isRead⟩, isDelivered⟩

theorem yields (handedOver : link.HandedOver arrived delivered) {left : Bytes}
    {payloads : List Bytes} (yields : link.Yields later left payloads) :
    later.HandedOver arrived (delivered ++ payloads) := by
  obtain ⟨events, unframed, isDelivered⟩ := handedOver
  obtain ⟨consumed, split, hasRead, isYielded⟩ := yields
  refine ⟨_, unframed.advance split hasRead, ?_⟩
  rw [List.filterMap_append, isDelivered, ← isYielded]
  rfl

theorem arrive (handedOver : link.HandedOver arrived delivered) {bytes : Bytes}
    (undropped : (link.followAll (bytes.map .arrive)).inbox.bytesDropped.toNat = 0) :
    (link.followAll (bytes.map .arrive)).HandedOver (arrived ++ bytes) delivered := by
  obtain ⟨events, unframed, isDelivered⟩ := handedOver
  exact ⟨events, unframed.arrive undropped, isDelivered⟩

end HandedOver

end Link

end FramedSerial
