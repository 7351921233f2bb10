import FramedSerial.ByteQueue
import FramedSerial.Counter

/-!
# The sending half of a link

At most one byte is with the device at any time.  The first byte of a burst goes
to the device directly, later ones wait in the queue, and each completion fetches
the next.  A completion that is reported while a byte is still being handed over
is only noted; whoever hands the byte over goes on with the next one afterwards.

Each function here is one indivisible step; none of them calls the device.  A
byte in its result is a byte that the caller must now hand to the device.
-/

namespace FramedSerial

namespace Link

structure Transmitter (capacity : Nat) where
  /-- Whether a burst is being sent. -/
  busy : Bool := false
  /-- Whether a byte is being handed to the device. -/
  writing : Bool := false
  /-- Whether a completion was reported while a byte was being handed over. -/
  completionNoted : Bool := false
  queue : ByteQueue capacity := .empty
  framesSent : Counter := .zero
  bytesDropped : Counter := .zero
deriving DecidableEq

/-- What becomes of a submitted byte. -/
inductive Admission where
  /-- The caller hands it to the device. -/
  | write
  | queued
  | dropped
deriving DecidableEq, Repr

namespace Transmitter

variable {capacity : Nat}

def submit (transmitter : Transmitter capacity) (byte : UInt8) :
    Admission × Transmitter capacity :=
  if transmitter.busy then
    match transmitter.queue.push byte with
    | .ok queue => (.queued, { transmitter with queue := queue })
    | .error _ =>
        (.dropped, { transmitter with bytesDropped := transmitter.bytesDropped.increment })
  else (.write, { transmitter with busy := true, writing := true })

/-- Goes on with the oldest byte of the queue, or ends the burst. -/
def next (transmitter : Transmitter capacity) : Option UInt8 × Transmitter capacity :=
  match transmitter.queue.pop? with
  | some (byte, queue) => (some byte, { transmitter with writing := true, queue := queue })
  | none => (none, { transmitter with busy := false, writing := false })

def complete (transmitter : Transmitter capacity) : Option UInt8 × Transmitter capacity :=
  if transmitter.writing then (none, { transmitter with completionNoted := true })
  else transmitter.next

/-- Ends the handing over of a byte. -/
def written (transmitter : Transmitter capacity) : Option UInt8 × Transmitter capacity :=
  if transmitter.completionNoted then { transmitter with completionNoted := false }.next
  else (none, { transmitter with writing := false })

/-- Ends the burst and forgets the queue.  The counters stay. -/
def clear (transmitter : Transmitter capacity) : Transmitter capacity :=
  { transmitter with
    busy := false
    writing := false
    completionNoted := false
    queue := transmitter.queue.clear }

def countFrame (transmitter : Transmitter capacity) : Transmitter capacity :=
  { transmitter with framesSent := transmitter.framesSent.increment }

/-- Going on takes the byte that it returns out of the queue, and no other. -/
theorem length_next (transmitter : Transmitter capacity) :
    transmitter.next.1.toList.length + transmitter.next.2.queue.length =
      transmitter.queue.length := by
  unfold next
  split
  · next byte queue popped =>
      have shorter := ByteQueue.length_of_pop? popped
      simp only [Option.toList_some, List.length_singleton]
      omega
  · simp

theorem length_complete (transmitter : Transmitter capacity) :
    transmitter.complete.1.toList.length + transmitter.complete.2.queue.length =
      transmitter.queue.length := by
  unfold complete
  split
  · simp
  · exact transmitter.length_next

theorem length_written (transmitter : Transmitter capacity) :
    transmitter.written.1.toList.length + transmitter.written.2.queue.length =
      transmitter.queue.length := by
  unfold written
  split
  · exact length_next { transmitter with completionNoted := false }
  · simp

/-- A submitted byte lengthens the queue by one at most, and not at all if the
caller has to hand it to the device. -/
theorem length_submit (transmitter : Transmitter capacity) (byte : UInt8) :
    (transmitter.submit byte).2.queue.length =
      transmitter.queue.length + if (transmitter.submit byte).1 = .queued then 1 else 0 := by
  unfold submit
  split
  · split
    · next queue accepted => simpa using ByteQueue.length_of_push accepted
    · simp
  · simp

end Transmitter

end Link

end FramedSerial
