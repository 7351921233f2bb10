import FramedSerial.Link.Transmitter
import FramedSerial.Proofs.QueueContents

/-!
# What the sending half can do

One lemma for each indivisible step of a transmitter.  Each lists what a result
of the step tells: the flags before it, the contents of the queue, and the
transmitter that is left.  No later proof looks into the step itself.
-/

namespace FramedSerial

namespace Link

namespace Transmitter

variable {capacity : Nat}

theorem cases_of_submit {transmitter later : Transmitter capacity} {byte : UInt8}
    {admission : Admission} (result : transmitter.submit byte = (admission, later)) :
    (admission = .write ∧ transmitter.busy = false ∧
        later = { transmitter with busy := true, writing := true }) ∨
      (admission = .queued ∧ transmitter.busy = true ∧ ∃ longer,
        longer.toList = transmitter.queue.toList ++ [byte] ∧
          later = { transmitter with queue := longer }) ∨
      (admission = .dropped ∧ transmitter.busy = true ∧
        later = { transmitter with
          bytesDropped := transmitter.bytesDropped.increment }) := by
  unfold submit at result
  cases busy : transmitter.busy with
  | false =>
      simp only [busy, Bool.false_eq_true, if_false] at result
      cases result
      exact .inl ⟨rfl, rfl, rfl⟩
  | true =>
      cases pushed : transmitter.queue.push byte with
      | ok longer =>
          simp only [busy, pushed, if_true] at result
          cases result
          exact .inr (.inl ⟨rfl, rfl, longer, ByteQueue.toList_of_push pushed, rfl⟩)
      | error rejected =>
          simp only [busy, pushed, if_true] at result
          cases result
          exact .inr (.inr ⟨rfl, rfl, rfl⟩)

theorem submit_of_idle {transmitter : Transmitter capacity}
    (idle : transmitter.busy = false) (byte : UInt8) :
    transmitter.submit byte =
      (.write, { transmitter with busy := true, writing := true }) := by
  simp [submit, idle]

theorem submit_of_room {transmitter : Transmitter capacity}
    (busy : transmitter.busy = true) (room : transmitter.queue.length < capacity)
    (byte : UInt8) :
    ∃ longer, transmitter.submit byte = (.queued, { transmitter with queue := longer }) ∧
      longer.toList = transmitter.queue.toList ++ [byte] := by
  obtain ⟨longer, accepted, contents⟩ := ByteQueue.push_of_room room byte
  refine ⟨longer, ?_, contents⟩
  rw [submit, if_pos busy, accepted]

theorem submit_of_full {transmitter : Transmitter capacity}
    (busy : transmitter.busy = true) (full : transmitter.queue.length = capacity)
    (byte : UInt8) :
    transmitter.submit byte = (.dropped, { transmitter with
      bytesDropped := transmitter.bytesDropped.increment }) := by
  rw [submit, if_pos busy, ByteQueue.push_of_full full byte]

theorem cases_of_next {transmitter later : Transmitter capacity} {next : Option UInt8}
    (result : transmitter.next = (next, later)) :
    (next = none ∧ transmitter.queue.toList = [] ∧
        later = { transmitter with busy := false, writing := false }) ∨
      ∃ byte shorter, next = some byte ∧
        transmitter.queue.toList = byte :: shorter.toList ∧
          later = { transmitter with writing := true, queue := shorter } := by
  unfold Transmitter.next at result
  cases popped : transmitter.queue.pop? with
  | none =>
      simp only [popped] at result
      cases result
      exact .inl ⟨rfl, (ByteQueue.pop?_eq_none_iff_toList _).mp popped, rfl⟩
  | some outcome =>
      obtain ⟨byte, shorter⟩ := outcome
      simp only [popped] at result
      cases result
      exact .inr ⟨byte, shorter, rfl, ByteQueue.toList_of_pop? popped, rfl⟩

/-- A completion that comes while a byte is being handed over is only noted. -/
theorem complete_of_writing {transmitter : Transmitter capacity}
    (writing : transmitter.writing = true) :
    transmitter.complete = (none, { transmitter with completionNoted := true }) := by
  simp [complete, writing]

theorem complete_of_not_writing {transmitter : Transmitter capacity}
    (notWriting : transmitter.writing = false) :
    transmitter.complete = transmitter.next := by
  simp [complete, notWriting]

/-- A noted completion is made up for when the byte has been handed over. -/
theorem written_of_noted {transmitter : Transmitter capacity}
    (noted : transmitter.completionNoted = true) :
    transmitter.written = { transmitter with completionNoted := false }.next := by
  simp [written, noted]

theorem written_of_not_noted {transmitter : Transmitter capacity}
    (notNoted : transmitter.completionNoted = false) :
    transmitter.written = (none, { transmitter with writing := false }) := by
  simp [written, notNoted]

end Transmitter

end Link

end FramedSerial
