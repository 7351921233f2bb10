import FramedSerial.Frame.Encoding

/-!
# Sizes of a link

A link is built for fixed sizes: how many bytes its two queues hold, and how
long a frame may be, trailer included.
-/

namespace FramedSerial

namespace Link

structure Sizes where
  inbox : Nat := 511
  outbox : Nat := 255
  frame : Nat := Frame.largestFrame
deriving DecidableEq, Repr

end Link

end FramedSerial
