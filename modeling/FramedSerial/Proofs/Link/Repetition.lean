import FramedSerial.Proofs.Link.Handover
import FramedSerial.Proofs.Link.Reads
import FramedSerial.Proofs.QueueRefinement

/-!
# Doing the same with another past

Two queues with the same contents answer alike, wherever in their rings these
contents stand and whatever else their slots hold.

One part of a link repeats another one if it is in the same state, except that its
queue is to be read as contents alone and that its counts have those of a past put
to them.  What is done to both has the same result, and afterwards the one still
repeats the other.
-/

namespace FramedSerial

namespace ByteQueue

variable {capacity : Nat} {first second : ByteQueue capacity}

theorem length_eq_of_toList_eq (same : first.toList = second.toList) :
    first.length = second.length := by
  rw [← length_toList, same, length_toList]

theorem push_of_toList_eq (same : first.toList = second.toList) (byte : UInt8) :
    (first.push byte = .error byte ∧ second.push byte = .error byte) ∨
      ∃ longer longerSecond, first.push byte = .ok longer ∧
        second.push byte = .ok longerSecond ∧ longer.toList = longerSecond.toList := by
  have length := length_eq_of_toList_eq same
  rcases Nat.lt_or_eq_of_le first.length_le_capacity with room | full
  · obtain ⟨longer, accepted, contents⟩ := push_of_room room byte
    obtain ⟨longerSecond, acceptedSecond, contentsSecond⟩ :=
      push_of_room (length ▸ room) byte
    refine .inr ⟨longer, longerSecond, accepted, acceptedSecond, ?_⟩
    rw [contents, contentsSecond, same]
  · exact .inl ⟨push_of_full full byte, push_of_full (length ▸ full) byte⟩

theorem pop?_of_toList_eq (same : first.toList = second.toList) :
    (first.pop? = none ∧ second.pop? = none) ∨
      ∃ byte shorter shorterSecond, first.pop? = some (byte, shorter) ∧
        second.pop? = some (byte, shorterSecond) ∧
          shorter.toList = shorterSecond.toList := by
  cases popped : first.pop? with
  | none =>
      have isEmpty := first.pop?_eq_none_iff_toList.mp popped
      have isEmptySecond := second.pop?_eq_none_iff_toList.mpr (same ▸ isEmpty)
      exact .inl ⟨rfl, isEmptySecond⟩
  | some outcome =>
      obtain ⟨byte, shorter⟩ := outcome
      have contents := toList_of_pop? popped
      cases poppedSecond : second.pop? with
      | none =>
          have isEmpty := second.pop?_eq_none_iff_toList.mp poppedSecond
          rw [← same, contents] at isEmpty
          cases isEmpty
      | some outcomeSecond =>
          obtain ⟨byteSecond, shorterSecond⟩ := outcomeSecond
          have contentsSecond := toList_of_pop? poppedSecond
          rw [← same, contents, List.cons.injEq] at contentsSecond
          obtain ⟨rfl, left⟩ := contentsSecond
          exact .inr ⟨byte, shorter, shorterSecond, rfl, rfl, left⟩

end ByteQueue

namespace Link

/-- What comes next out of a queue depends on its contents alone. -/
theorem nextEvent_of_toList_eq {capacity frameCapacity : Nat}
    {first second : ByteQueue capacity} (same : first.toList = second.toList)
    (deframer : Deframer frameCapacity) :
    (nextEvent first deframer).1 = (nextEvent second deframer).1 ∧
      (nextEvent first deframer).2.1.toList = (nextEvent second deframer).2.1.toList ∧
      (nextEvent first deframer).2.2 = (nextEvent second deframer).2.2 := by
  induction first, deframer using nextEvent.induct generalizing second with
  | case1 first deframer popped =>
      rcases ByteQueue.pop?_of_toList_eq same with ⟨_, poppedSecond⟩ |
        ⟨byte, shorter, shorterSecond, poppedFirst, _, _⟩
      · rw [nextEvent_of_empty popped, nextEvent_of_empty poppedSecond]
        exact ⟨rfl, same, rfl⟩
      · cases popped.symm.trans poppedFirst
  | case2 first deframer byte rest popped event later pushed =>
      rcases ByteQueue.pop?_of_toList_eq same with ⟨poppedFirst, _⟩ |
        ⟨byte, shorter, shorterSecond, poppedFirst, poppedSecond, left⟩
      · cases popped.symm.trans poppedFirst
      · cases popped.symm.trans poppedFirst
        rw [nextEvent_of_event popped pushed, nextEvent_of_event poppedSecond pushed]
        exact ⟨rfl, left, rfl⟩
  | case3 first deframer byte rest popped later pushed induction =>
      rcases ByteQueue.pop?_of_toList_eq same with ⟨poppedFirst, _⟩ |
        ⟨byte, shorter, shorterSecond, poppedFirst, poppedSecond, left⟩
      · cases popped.symm.trans poppedFirst
      · cases popped.symm.trans poppedFirst
        rw [nextEvent_of_silence popped pushed, nextEvent_of_silence poppedSecond pushed]
        exact induction left

namespace Transmitter

variable {capacity : Nat} {past fresh later : Transmitter capacity}

structure Repeats (past fresh later : Transmitter capacity) : Prop where
  busy : later.busy = fresh.busy
  writing : later.writing = fresh.writing
  completionNoted : later.completionNoted = fresh.completionNoted
  queue : later.queue.toList = fresh.queue.toList
  framesSent : later.framesSent = past.framesSent.add fresh.framesSent
  bytesDropped : later.bytesDropped = past.bytesDropped.add fresh.bytesDropped

theorem Repeats.submit (repeats : Repeats past fresh later) (byte : UInt8) :
    (later.submit byte).1 = (fresh.submit byte).1 ∧
      Repeats past (fresh.submit byte).2 (later.submit byte).2 := by
  cases busy : fresh.busy with
  | false =>
      have idle : later.busy = false := repeats.busy.trans busy
      rw [submit_of_idle busy, submit_of_idle idle]
      exact ⟨rfl, { repeats with busy := rfl, writing := rfl }⟩
  | true =>
      have busyLater : later.busy = true := repeats.busy.trans busy
      rw [Transmitter.submit, Transmitter.submit, if_pos busy, if_pos busyLater]
      rcases ByteQueue.push_of_toList_eq repeats.queue byte with ⟨rejected, rejectedFresh⟩ |
        ⟨longer, longerFresh, accepted, acceptedFresh, contents⟩
      · rw [rejected, rejectedFresh]
        have bytesDropped := Counter.increment_eq_add repeats.bytesDropped
        exact ⟨rfl, { repeats with bytesDropped := bytesDropped }⟩
      · rw [accepted, acceptedFresh]
        exact ⟨rfl, { repeats with queue := contents }⟩

theorem Repeats.next (repeats : Repeats past fresh later) :
    later.next.1 = fresh.next.1 ∧ Repeats past fresh.next.2 later.next.2 := by
  rw [Transmitter.next, Transmitter.next]
  rcases ByteQueue.pop?_of_toList_eq repeats.queue with ⟨popped, poppedFresh⟩ |
    ⟨byte, shorter, shorterFresh, popped, poppedFresh, contents⟩
  · rw [popped, poppedFresh]
    exact ⟨rfl, { repeats with busy := rfl, writing := rfl }⟩
  · rw [popped, poppedFresh]
    exact ⟨rfl, { repeats with writing := rfl, queue := contents }⟩

theorem Repeats.complete (repeats : Repeats past fresh later) :
    later.complete.1 = fresh.complete.1 ∧
      Repeats past fresh.complete.2 later.complete.2 := by
  cases writing : fresh.writing with
  | false =>
      have notWriting : later.writing = false := repeats.writing.trans writing
      rw [complete_of_not_writing writing, complete_of_not_writing notWriting]
      exact repeats.next
  | true =>
      have writingLater : later.writing = true := repeats.writing.trans writing
      rw [complete_of_writing writing, complete_of_writing writingLater]
      exact ⟨rfl, { repeats with completionNoted := rfl }⟩

theorem Repeats.written (repeats : Repeats past fresh later) :
    later.written.1 = fresh.written.1 ∧ Repeats past fresh.written.2 later.written.2 := by
  cases noted : fresh.completionNoted with
  | false =>
      have notNoted : later.completionNoted = false := repeats.completionNoted.trans noted
      rw [written_of_not_noted noted, written_of_not_noted notNoted]
      exact ⟨rfl, { repeats with writing := rfl }⟩
  | true =>
      have notedLater : later.completionNoted = true := repeats.completionNoted.trans noted
      have cleared : Repeats past { fresh with completionNoted := false }
          { later with completionNoted := false } :=
        { repeats with completionNoted := rfl }
      rw [written_of_noted noted, written_of_noted notedLater]
      exact cleared.next

theorem Repeats.countFrame (repeats : Repeats past fresh later) :
    Repeats past fresh.countFrame later.countFrame := by
  exact { repeats with framesSent := Counter.increment_eq_add repeats.framesSent }

theorem Repeats.clear (repeats : Repeats past fresh later) :
    Repeats past fresh.clear later.clear := by
  have queue : later.clear.queue.toList = fresh.clear.queue.toList :=
    (ByteQueue.toList_clear _).trans (ByteQueue.toList_clear _).symm
  exact { repeats with busy := rfl, writing := rfl, completionNoted := rfl, queue := queue }

/-- A cleared transmitter repeats one that has only just been made. -/
theorem repeats_clear (past : Transmitter capacity) :
    Repeats past.clear ({} : Transmitter capacity).clear past.clear where
  busy := rfl
  writing := rfl
  completionNoted := rfl
  queue := (ByteQueue.toList_clear _).trans (ByteQueue.toList_clear _).symm
  framesSent := (Counter.add_zero past.framesSent).symm
  bytesDropped := (Counter.add_zero past.bytesDropped).symm

end Transmitter

namespace Inbox

variable {capacity : Nat} {past fresh later : Inbox capacity}

structure Repeats (past fresh later : Inbox capacity) : Prop where
  queue : later.queue.toList = fresh.queue.toList
  bytesDropped : later.bytesDropped = past.bytesDropped.add fresh.bytesDropped

theorem Repeats.accept (repeats : Repeats past fresh later) (byte : UInt8) :
    Repeats past (fresh.accept byte) (later.accept byte) := by
  rw [Inbox.accept, Inbox.accept]
  rcases ByteQueue.push_of_toList_eq repeats.queue byte with ⟨rejected, rejectedFresh⟩ |
    ⟨longer, longerFresh, accepted, acceptedFresh, contents⟩
  · rw [rejected, rejectedFresh]
    exact ⟨repeats.queue, Counter.increment_eq_add repeats.bytesDropped⟩
  · rw [accepted, acceptedFresh]
    exact ⟨contents, repeats.bytesDropped⟩

theorem Repeats.clear (repeats : Repeats past fresh later) :
    Repeats past fresh.clear later.clear :=
  ⟨(ByteQueue.toList_clear _).trans (ByteQueue.toList_clear _).symm, repeats.bytesDropped⟩

theorem repeats_clear (past : Inbox capacity) :
    Repeats past.clear ({} : Inbox capacity).clear past.clear :=
  ⟨(ByteQueue.toList_clear _).trans (ByteQueue.toList_clear _).symm,
    (Counter.add_zero past.bytesDropped).symm⟩

end Inbox

namespace Receiver

variable {capacity : Nat} {past fresh later : Receiver capacity}

structure Repeats (past fresh later : Receiver capacity) : Prop where
  deframer : later.deframer = fresh.deframer
  claimed : later.claimed = fresh.claimed
  framesReceived : later.framesReceived = past.framesReceived.add fresh.framesReceived
  badChecksums : later.badChecksums = past.badChecksums.add fresh.badChecksums
  framesTooLong : later.framesTooLong = past.framesTooLong.add fresh.framesTooLong
  framesWithoutRoom :
    later.framesWithoutRoom = past.framesWithoutRoom.add fresh.framesWithoutRoom

theorem Repeats.countFrame (repeats : Repeats past fresh later) :
    Repeats past fresh.countFrame later.countFrame := by
  exact { repeats with framesReceived := Counter.increment_eq_add repeats.framesReceived }

theorem Repeats.countNoRoom (repeats : Repeats past fresh later) :
    Repeats past fresh.countNoRoom later.countNoRoom := by
  exact { repeats with framesWithoutRoom := Counter.increment_eq_add repeats.framesWithoutRoom }

theorem Repeats.countFault (repeats : Repeats past fresh later) (fault : Frame.Fault) :
    Repeats past (fresh.countFault fault) (later.countFault fault) := by
  cases fault with
  | badChecksum computed received =>
      exact { repeats with badChecksums := Counter.increment_eq_add repeats.badChecksums }
  | tooLong limit =>
      exact { repeats with framesTooLong := Counter.increment_eq_add repeats.framesTooLong }

theorem Repeats.clear (repeats : Repeats past fresh later) :
    Repeats past fresh.clear later.clear :=
  { repeats with deframer := rfl }

theorem repeats_clear {past : Receiver capacity} (unclaimed : past.claimed = false) :
    Repeats past.clear ({} : Receiver capacity).clear past.clear where
  deframer := rfl
  claimed := unclaimed
  framesReceived := (Counter.add_zero past.framesReceived).symm
  badChecksums := (Counter.add_zero past.badChecksums).symm
  framesTooLong := (Counter.add_zero past.framesTooLong).symm
  framesWithoutRoom := (Counter.add_zero past.framesWithoutRoom).symm

end Receiver

end Link

end FramedSerial
