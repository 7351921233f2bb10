import FramedSerial.Hexadecimal

/-!
# Reasons to drop a frame

Neither reason is fatal to a receiver: it waits for the next flag and goes on.
-/

namespace FramedSerial

namespace Frame

inductive Fault where
  /-- The checksum of the payload is not the one that followed it. -/
  | badChecksum (computed received : UInt16)
  /-- The frame does not fit into a receiver that holds `capacity` bytes. -/
  | tooLong (capacity : Nat)
deriving DecidableEq, Repr

def Fault.message : Fault → String
  | .badChecksum computed received =>
      let computedText := Hexadecimal.word computed
      let receivedText := Hexadecimal.word received
      s!"Frame CRC mismatch (expected {computedText}, received {receivedText})"
  | .tooLong capacity => s!"Frame exceeds accumulation buffer ({capacity} bytes)"

end Frame

end FramedSerial
