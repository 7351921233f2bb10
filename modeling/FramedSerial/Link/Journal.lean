import FramedSerial.Frame.Fault

/-!
# The journal of a link

A link notes what an operator may want to know.  Each entry has a level and one
line of text.
-/

namespace FramedSerial

namespace Link

inductive Level where
  | debug
  | info
  | warn
deriving DecidableEq, Repr

def Level.label : Level → String
  | .debug => "DEBUG"
  | .info => "INFO"
  | .warn => "WARN"

inductive Entry where
  | broughtUp
  | shutDown
  | resetRequested (settleSpins : UInt32)
  | frameReceived (length : Nat)
  | frameFaulty (fault : Frame.Fault)
  | frameWithoutRoom (length capacity : Nat)
  | outboundFull (byte : UInt8)
deriving DecidableEq, Repr

namespace Entry

def level : Entry → Level
  | .broughtUp | .shutDown | .frameReceived _ => .debug
  | .resetRequested _ => .info
  | .frameFaulty _ | .frameWithoutRoom _ _ | .outboundFull _ => .warn

def text : Entry → String
  | .broughtUp => "brt: link initialized"
  | .shutDown => "brt: link deinitialized"
  | .resetRequested settleSpins =>
      let spins := settleSpins.toNat
      s!"brt: device reset requested (settle {spins} spins)"
  | .frameReceived length => s!"brt: frame received ({length} bytes)"
  | .frameFaulty fault => "brt: " ++ fault.message
  | .frameWithoutRoom length capacity =>
      s!"brt: {length} bytes frame lost, receive buffer is {capacity} bytes"
  | .outboundFull byte =>
      "brt: outbound queue full, byte " ++ Hexadecimal.byte byte ++ " dropped"

/-- The whole line: level and text. -/
def line (entry : Entry) : String :=
  entry.level.label ++ " " ++ entry.text

end Entry

end Link

end FramedSerial
