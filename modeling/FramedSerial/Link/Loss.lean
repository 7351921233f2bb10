import FramedSerial.Frame.Fault

/-!
# Losing a received frame

A frame that has come in may still be lost, because it is faulty or because the
caller's buffer has no room for it.
-/

namespace FramedSerial

namespace Link

inductive Loss where
  | faulty (fault : Frame.Fault)
  /-- The payload has `length` bytes and the buffer only `capacity`. -/
  | noRoom (length capacity : Nat)
deriving DecidableEq, Repr

def Loss.message : Loss → String
  | .faulty fault => "Frame dropped: " ++ fault.message
  | .noRoom length capacity =>
      s!"Receive buffer too small ({length} bytes frame, {capacity} bytes buffer)"

end Link

end FramedSerial
