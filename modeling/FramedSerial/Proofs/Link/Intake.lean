import FramedSerial.Proofs.Link.Operations
import FramedSerial.Proofs.Link.Reads
import FramedSerial.Proofs.QueueRefinement

/-!
# Reading what has arrived

Bytes arrive at any time, are dropped when the queue is full, and leave the queue
by reads of frames and by raw reads.  An intake is a link with three records
beside it: the bytes that it took in, those that have left the queue, and those
of them that were read for frames.  The records are kept by looking at the queue
from outside.

However arrivals and reads follow each other, the bytes taken in are those that
have left and those that wait, in this order, and every read of a frame is the
reading of the deframed bytes by a new deframer, taken up where it was left.
-/

namespace FramedSerial

namespace Link

variable {sizes : Sizes}

theorem Inbox.accept_of_room {capacity : Nat} {inbox : Inbox capacity}
    (room : inbox.queue.length < capacity) (byte : UInt8) :
    ∃ longer, inbox.accept byte = { inbox with queue := longer } ∧
      longer.toList = inbox.queue.toList ++ [byte] := by
  obtain ⟨longer, accepted, contents⟩ := ByteQueue.push_of_room room byte
  refine ⟨longer, ?_, contents⟩
  rw [Inbox.accept, accepted]

theorem Inbox.accept_of_full {capacity : Nat} {inbox : Inbox capacity}
    (full : inbox.queue.length = capacity) (byte : UInt8) :
    inbox.accept byte = { inbox with bytesDropped := inbox.bytesDropped.increment } := by
  rw [Inbox.accept, ByteQueue.push_of_full full byte]

theorem follow_arrive (link : Link sizes) (byte : UInt8) :
    link.follow (.arrive byte) = { link with inbox := link.inbox.accept byte } := by
  rw [follow, perform_cons]
  exact perform_nil _

theorem length_toList_inbox (link : Link sizes) :
    link.inbox.queue.toList.length = link.pendingInbound :=
  ByteQueue.length_toList _

/-- A byte that arrives is taken in exactly if there is room for it. -/
theorem toList_follow_arrive (link : Link sizes) (byte : UInt8) :
    (link.follow (.arrive byte)).inbox.queue.toList =
      if link.pendingInbound < sizes.inbox then link.inbox.queue.toList ++ [byte]
      else link.inbox.queue.toList := by
  rw [follow_arrive]
  by_cases room : link.pendingInbound < sizes.inbox
  · obtain ⟨longer, accepted, contents⟩ := Inbox.accept_of_room room byte
    rw [if_pos room, accepted, ← contents]
  · have bounded : link.pendingInbound ≤ sizes.inbox := ByteQueue.length_le_capacity _
    have full : link.pendingInbound = sizes.inbox := by omega
    rw [if_neg room, Inbox.accept_of_full full byte]

inductive Inbound where
  | arrive (byte : UInt8)
  | tryReceive (buffer : Bytes)
  | receive (buffer : Bytes)
  | receiveRaw (buffer : Bytes)
deriving DecidableEq, Repr

def Inbound.operation : Inbound → Operation
  | .arrive byte => .follow (.arrive byte)
  | .tryReceive buffer => .tryReceive buffer
  | .receive buffer => .receive buffer
  | .receiveRaw buffer => .receiveRaw buffer

structure Intake (sizes : Sizes) where
  link : Link sizes
  /-- The bytes that lengthened the queue when they arrived. -/
  accepted : Bytes := []
  /-- The bytes by which reads have shortened the queue. -/
  consumed : Bytes := []
  /-- Those of the consumed bytes that were read for frames. -/
  deframed : Bytes := []

/-- The byte that has come between two states of a link, if the queue tells so. -/
def gained (before later : Link sizes) (byte : UInt8) : Bytes :=
  if before.pendingInbound < later.pendingInbound then [byte] else []

/-- The bytes that have left the queue between two states of a link. -/
def gone (before later : Link sizes) : Bytes :=
  before.inbox.queue.toList.take (before.pendingInbound - later.pendingInbound)

namespace Intake

def enter (intake : Intake sizes) (inbound : Inbound) : Intake sizes :=
  let later := intake.link.operate inbound.operation
  match inbound with
  | .arrive byte =>
      { intake with
        link := later
        accepted := intake.accepted ++ gained intake.link later byte }
  | .tryReceive _ | .receive _ =>
      { intake with
        link := later
        consumed := intake.consumed ++ gone intake.link later
        deframed := intake.deframed ++ gone intake.link later }
  | .receiveRaw _ =>
      { intake with
        link := later
        consumed := intake.consumed ++ gone intake.link later }

def enterAll (intake : Intake sizes) (inbounds : List Inbound) : Intake sizes :=
  inbounds.foldl enter intake

/-- The deframer that has read nothing but the deframed bytes. -/
def reader (intake : Intake sizes) : Deframer sizes.frame :=
  Deframer.new.after intake.deframed

structure Agrees (intake : Intake sizes) : Prop where
  order : intake.consumed ++ intake.link.inbox.queue.toList = intake.accepted
  deframer : intake.link.receiver.deframer = intake.reader
  unclaimed : intake.link.receiver.claimed = false

/-- If some bytes of the queue are used up and the others are left, then the
bytes used up are gone. -/
theorem gone_eq {before later : Link sizes} {consumed left : Bytes}
    (split : consumed ++ left = before.inbox.queue.toList)
    (pending : later.inbox.queue.toList = left) : gone before later = consumed := by
  have lengthBefore : before.pendingInbound = consumed.length + left.length := by
    rw [← length_toList_inbox, ← split, List.length_append]
  have lengthLater : later.pendingInbound = left.length := by
    rw [← length_toList_inbox, pending]
  have difference : before.pendingInbound - later.pendingInbound = consumed.length := by
    omega
  rw [gone, difference, ← split, List.take_left]

theorem Agrees.arrive {intake : Intake sizes} (agrees : intake.Agrees) (byte : UInt8) :
    (intake.enter (.arrive byte)).Agrees := by
  have arrived := intake.link.toList_follow_arrive byte
  have length := intake.link.length_toList_inbox
  have lengthLater := (intake.link.follow (.arrive byte)).length_toList_inbox
  have followed := intake.link.follow_arrive byte
  constructor
  · have order : intake.consumed ++
        (intake.link.follow (.arrive byte)).inbox.queue.toList =
        intake.accepted ++ gained intake.link (intake.link.follow (.arrive byte)) byte := by
      rw [arrived] at lengthLater
      rw [arrived, gained, ← agrees.order]
      split
      · next room =>
          rw [if_pos room, List.length_append, List.length_singleton] at lengthLater
          rw [if_pos (by omega), List.append_assoc]
      · next noRoom =>
          rw [if_neg noRoom] at lengthLater
          rw [if_neg (by omega), List.append_nil]
    exact order
  · have same : (intake.link.follow (.arrive byte)).receiver = intake.link.receiver := by
      rw [followed]
    exact (congrArg Receiver.deframer same).trans agrees.deframer
  · have same : (intake.link.follow (.arrive byte)).receiver = intake.link.receiver := by
      rw [followed]
    exact (congrArg Receiver.claimed same).trans agrees.unclaimed

theorem Agrees.read {intake : Intake sizes} (agrees : intake.Agrees) {later : Link sizes}
    {wanted : Deframer.Event → Bool} {buffer filled : Bytes} {reading : Reading}
    (reads : Reads wanted intake.link later buffer filled reading) :
    Agrees { intake with
      link := later
      consumed := intake.consumed ++ gone intake.link later
      deframed := intake.deframed ++ gone intake.link later } := by
  obtain ⟨event?, consumed, left, finds, hasRead, _⟩ := reads
  rw [gone_eq finds.split hasRead.pending]
  constructor
  · rw [List.append_assoc, hasRead.pending, finds.split]
    exact agrees.order
  · rw [hasRead.deframer, agrees.deframer, reader, reader, Deframer.after_append]
  · exact hasRead.released

theorem Agrees.receiveRaw {intake : Intake sizes} (agrees : intake.Agrees)
    (buffer : Bytes) : (intake.enter (.receiveRaw buffer)).Agrees := by
  obtain ⟨_, _, left⟩ := intake.link.inbox.queue.popInto_eq buffer
  have pending : (intake.link.receiveRaw buffer).2.2.inbox.queue.toList = _ := left
  have isGone := gone_eq (List.take_append_drop _ intake.link.inbox.queue.toList) pending
  constructor
  · have order : intake.consumed ++ gone intake.link (intake.link.receiveRaw buffer).2.2 ++
        (intake.link.receiveRaw buffer).2.2.inbox.queue.toList = intake.accepted := by
      rw [isGone, pending, List.append_assoc, List.take_append_drop]
      exact agrees.order
    exact order
  · exact agrees.deframer
  · exact agrees.unclaimed

theorem Agrees.enter {intake : Intake sizes} (agrees : intake.Agrees) (inbound : Inbound) :
    (intake.enter inbound).Agrees := by
  cases inbound with
  | arrive byte => exact agrees.arrive byte
  | tryReceive buffer => exact agrees.read (tryReceive_reads agrees.unclaimed buffer)
  | receive buffer =>
      obtain ⟨reading, _, reads⟩ := receive_reads agrees.unclaimed buffer
      exact agrees.read reads
  | receiveRaw buffer => exact agrees.receiveRaw buffer

theorem agrees_enterAll (behaviour : Behaviour) (settings : Settings)
    (inbounds : List Inbound) :
    (enterAll { link := (new behaviour settings : Link sizes) } inbounds).Agrees := by
  have start : Agrees { link := (new behaviour settings : Link sizes) } := by
    constructor
    · exact ByteQueue.toList_empty
    · rfl
    · rfl
  generalize { link := (new behaviour settings : Link sizes) : Intake sizes } = intake at start ⊢
  induction inbounds generalizing intake with
  | nil => exact start
  | cons inbound inbounds induction => exact induction _ (start.enter inbound)

/-- What the receiving side of a link does next, told by the records alone. -/
structure Faithful (intake : Intake sizes) : Prop where
  order : intake.accepted = intake.consumed ++ intake.link.inbox.queue.toList
  deframer : intake.link.receiver.deframer = intake.reader
  arrive : ∀ byte, (intake.link.follow (.arrive byte)).inbox.queue.toList =
    if intake.link.pendingInbound < sizes.inbox then
      intake.link.inbox.queue.toList ++ [byte]
    else intake.link.inbox.queue.toList
  /-- A single read goes up to the first event of all. -/
  tryReceive : ∀ buffer, ∃ event? consumed left,
    Deframer.Finds Deframer.Event.isAny intake.reader intake.link.inbox.queue.toList
      event? consumed left ∧
    (intake.link.tryReceive buffer).2.2.inbox.queue.toList = left ∧
    ((intake.link.tryReceive buffer).1, (intake.link.tryReceive buffer).2.1) =
      handed buffer event?
  noEmptyFrame : ∀ buffer, (intake.link.tryReceive buffer).1 ≠ .frame 0
  /-- A read past faulty frames goes up to the first frame, and zero tells that
  there is none or no room for it. -/
  receive : ∀ buffer, ∃ event? consumed left,
    Deframer.Finds Deframer.Event.isFrame intake.reader intake.link.inbox.queue.toList
      event? consumed left ∧
    (intake.link.receive buffer).2.2.inbox.queue.toList = left ∧
    (intake.link.receive buffer).1 = (handed buffer event?).1.length ∧
    (intake.link.receive buffer).2.1 = (handed buffer event?).2 ∧
    ((intake.link.receive buffer).1 = 0 ↔
      ∀ payload, event? = some (.frame payload) → buffer.length < payload.length)
  receiveRaw : ∀ buffer,
    let count := min buffer.length intake.link.pendingInbound
    (intake.link.receiveRaw buffer).1 = count ∧
      (intake.link.receiveRaw buffer).2.1 =
        intake.link.inbox.queue.toList.take count ++ buffer.drop count ∧
      (intake.link.receiveRaw buffer).2.2.inbox.queue.toList =
        intake.link.inbox.queue.toList.drop count

/-- From a new link on, however bytes arrive and are read: the bytes taken in are
those consumed and those that wait, and each read is a search for the next event
in the waiting bytes by a deframer that has read the deframed bytes and nothing
else. -/
theorem reads_accepted_stream (behaviour : Behaviour) (settings : Settings)
    (inbounds : List Inbound) :
    (enterAll { link := (new behaviour settings : Link sizes) } inbounds).Faithful := by
  have agrees : Agrees (enterAll { link := (new behaviour settings : Link sizes) } inbounds) :=
    agrees_enterAll behaviour settings inbounds
  constructor
  case order => exact agrees.order.symm
  case deframer => exact agrees.deframer
  case arrive => exact toList_follow_arrive _
  case tryReceive =>
    intro buffer
    obtain ⟨event?, consumed, left, finds, hasRead, result⟩ :=
      tryReceive_reads agrees.unclaimed buffer
    rw [agrees.deframer] at finds
    exact ⟨event?, consumed, left, finds, hasRead.pending, result⟩
  case noEmptyFrame =>
    intro buffer isEmpty
    obtain ⟨event?, consumed, left, finds, hasRead, result⟩ :=
      tryReceive_reads agrees.unclaimed buffer
    rw [isEmpty] at result
    have zero : (handed buffer event?).1.length = 0 := by
      rw [← result]
      rfl
    have noRoom := (length_handed_eq_zero_iff finds buffer).mp zero
    rcases event? with _ | ⟨payload⟩ | fault
    · cases result
    · have tooLong := noRoom payload rfl
      simp only [handed, if_neg (Nat.not_le.mpr tooLong)] at result
      cases result
    · cases result
  case receive =>
    intro buffer
    obtain ⟨reading, length, event?, consumed, left, finds, hasRead, result⟩ :=
      receive_reads agrees.unclaimed buffer
    have sameReading : reading = (handed buffer event?).1 := congrArg Prod.fst result
    have zero_iff := length_handed_eq_zero_iff finds buffer
    rw [agrees.deframer] at finds
    rw [sameReading] at length
    refine ⟨event?, consumed, left, finds, hasRead.pending, length, ?_, ?_⟩
    · exact congrArg Prod.snd result
    · rw [length]
      exact zero_iff
  case receiveRaw =>
    intro buffer
    dsimp only
    rw [← length_toList_inbox]
    exact ByteQueue.popInto_eq _ buffer

end Intake

end Link

end FramedSerial
