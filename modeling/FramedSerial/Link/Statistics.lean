import FramedSerial.Counter
import FramedSerial.Json.Object

/-!
# Link statistics

What a link has sent, received and lost.  A caller who asks for a frame is not
told apart "nothing has come" and "something came and was dropped"; only these
counters do.
-/

namespace FramedSerial

namespace Link

structure Statistics where
  framesSent : Counter := .zero
  framesReceived : Counter := .zero
  badChecksums : Counter := .zero
  framesTooLong : Counter := .zero
  framesWithoutRoom : Counter := .zero
  inboundBytesDropped : Counter := .zero
  outboundBytesDropped : Counter := .zero
deriving DecidableEq, Repr

namespace Statistics

/-- All received frames that were lost, for whatever reason. -/
def framesDropped (statistics : Statistics) : Counter :=
  (statistics.badChecksums.add statistics.framesTooLong).add statistics.framesWithoutRoom

/-- The counts under the names by which they are reported, in that order. -/
def members (statistics : Statistics) : List (String × Nat) :=
  [("frames_sent", statistics.framesSent.toNat),
   ("frames_received", statistics.framesReceived.toNat),
   ("crc_errors", statistics.badChecksums.toNat),
   ("oversize_frames", statistics.framesTooLong.toNat),
   ("buffer_too_small", statistics.framesWithoutRoom.toNat),
   ("rx_dropped", statistics.inboundBytesDropped.toNat),
   ("tx_dropped", statistics.outboundBytesDropped.toNat)]

def render (statistics : Statistics) : String :=
  Json.renderObject statistics.members

end Statistics

end Link

end FramedSerial
