import FramedSerial.ByteQueue
import FramedSerial.Counter
import FramedSerial.Frame.Deframer

/-!
# Received bytes

Bytes that the device reports wait in a queue until a frame is asked for.  There
is no pressure back to the sender: a byte that finds the queue full is dropped
and counted.
-/

namespace FramedSerial

namespace Link

structure Inbox (capacity : Nat) where
  queue : ByteQueue capacity := .empty
  bytesDropped : Counter := .zero
deriving DecidableEq

namespace Inbox

variable {capacity : Nat}

def accept (inbox : Inbox capacity) (byte : UInt8) : Inbox capacity :=
  match inbox.queue.push byte with
  | .ok queue => { inbox with queue := queue }
  | .error _ => { inbox with bytesDropped := inbox.bytesDropped.increment }

/-- Forgets the queue.  The counter stays. -/
def clear (inbox : Inbox capacity) : Inbox capacity :=
  { inbox with queue := inbox.queue.clear }

end Inbox

/-- Moves bytes from a queue into a deframer, up to the first that brings
something to an end. -/
def nextEvent {capacity frameCapacity : Nat} (queue : ByteQueue capacity)
    (deframer : Deframer frameCapacity) :
    Option Deframer.Event × ByteQueue capacity × Deframer frameCapacity :=
  match _popped : queue.pop? with
  | none => (none, queue, deframer)
  | some (byte, rest) =>
      match deframer.push byte with
      | (some event, later) => (some event, rest, later)
      | (none, later) => nextEvent rest later
termination_by queue.length
decreasing_by
  have shorter := ByteQueue.length_of_pop? _popped
  omega

section

variable {capacity frameCapacity : Nat} {queue rest : ByteQueue capacity}
  {deframer later : Deframer frameCapacity} {byte : UInt8} {event : Deframer.Event}

theorem nextEvent_of_empty (popped : queue.pop? = none) :
    nextEvent queue deframer = (none, queue, deframer) := by
  rw [nextEvent]
  split <;> simp_all

theorem nextEvent_of_event (popped : queue.pop? = some (byte, rest))
    (pushed : deframer.push byte = (some event, later)) :
    nextEvent queue deframer = (some event, rest, later) := by
  rw [nextEvent]
  split <;> simp_all

theorem nextEvent_of_silence (popped : queue.pop? = some (byte, rest))
    (pushed : deframer.push byte = (none, later)) :
    nextEvent queue deframer = nextEvent rest later := by
  rw [nextEvent]
  split <;> simp_all

/-- An event uses up at least one byte. -/
theorem length_of_nextEvent
    (found : nextEvent queue deframer = (some event, rest, later)) :
    rest.length < queue.length := by
  induction queue, deframer using nextEvent.induct with
  | case1 queue deframer popped =>
      rw [nextEvent_of_empty popped] at found
      simp at found
  | case2 queue deframer byte shorter popped event' later' pushed =>
      rw [nextEvent_of_event popped pushed] at found
      have decrease := ByteQueue.length_of_pop? popped
      simp only [Prod.mk.injEq] at found
      rw [← found.2.1]
      omega
  | case3 queue deframer byte shorter popped later' pushed induction =>
      rw [nextEvent_of_silence popped pushed] at found
      have decrease := ByteQueue.length_of_pop? popped
      have below := induction found
      omega

end

end Link

end FramedSerial
