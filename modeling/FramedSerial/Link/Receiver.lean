import FramedSerial.Counter
import FramedSerial.Frame.Deframer

/-!
# The frame reader of a link

The deframer and its counters belong to whoever is reading a frame.  While a
read is going on the receiver is claimed, and another read that starts in the
meantime finds nothing.
-/

namespace FramedSerial

namespace Link

structure Receiver (capacity : Nat) where
  deframer : Deframer capacity := .new
  framesReceived : Counter := .zero
  badChecksums : Counter := .zero
  framesTooLong : Counter := .zero
  framesWithoutRoom : Counter := .zero
  /-- Whether a read is going on. -/
  claimed : Bool := false
deriving DecidableEq, Repr

namespace Receiver

variable {capacity : Nat}

/-- Counts a frame handed to the caller. -/
def countFrame (receiver : Receiver capacity) : Receiver capacity :=
  { receiver with framesReceived := receiver.framesReceived.increment }

/-- Counts a faulty frame, by its fault. -/
def countFault (receiver : Receiver capacity) : Frame.Fault → Receiver capacity
  | .badChecksum _ _ => { receiver with badChecksums := receiver.badChecksums.increment }
  | .tooLong _ => { receiver with framesTooLong := receiver.framesTooLong.increment }

/-- Counts a frame for which the caller's buffer had no room. -/
def countNoRoom (receiver : Receiver capacity) : Receiver capacity :=
  { receiver with framesWithoutRoom := receiver.framesWithoutRoom.increment }

/-- Forgets the stream so far.  The counters stay. -/
def clear (receiver : Receiver capacity) : Receiver capacity :=
  { receiver with deframer := receiver.deframer.reset }

end Receiver

end Link

end FramedSerial
