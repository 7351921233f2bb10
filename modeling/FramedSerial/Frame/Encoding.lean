import FramedSerial.Checksum

/-!
# The form of a frame on the line

A frame is a payload and its checksum between two flags.  Inside a frame the
two reserved bytes, the flag and the escape, never stand for themselves: each is
sent as an escape followed by the byte with one bit turned.  So a flag on the
line always is the border of a frame.
-/

namespace FramedSerial

namespace Frame

/-- The byte that stands before and after every frame. -/
def flag : UInt8 := 0x7E

/-- The byte that announces an escaped byte. -/
def escape : UInt8 := 0x7D

/-- The bit that is turned in an escaped byte. -/
def escapeMask : UInt8 := 0x20

/-- The number of checksum bytes behind the payload. -/
def trailerLength : Nat := 2

/-- The longest frame that a receiver has to hold by default: payload and
trailer, without flags and escapes. -/
def largestFrame : Nat := 200

def largestPayload : Nat := largestFrame - trailerLength

/-- The bytes that may not appear as they are inside a frame. -/
def reserved (byte : UInt8) : Bool :=
  byte == flag || byte == escape

def stuffByte (byte : UInt8) : Bytes :=
  if reserved byte then [escape, byte ^^^ escapeMask] else [byte]

def stuff (data : Bytes) : Bytes :=
  data.flatMap stuffByte

/-- The two checksum bytes that follow a payload. -/
def trailer (payload : Bytes) : Bytes :=
  Checksum.littleEndian (Checksum.ofBytes payload)

def encode (payload : Bytes) : Bytes :=
  flag :: stuff (payload ++ trailer payload) ++ [flag]

/-- The length of the longest frame that a payload of the given length can have:
every byte and both checksum bytes are escaped. -/
def maxEncodedLength (payloadLength : Nat) : Nat :=
  2 + 2 * (payloadLength + trailerLength)

@[simp] theorem stuff_nil : stuff [] = [] := rfl

@[simp] theorem stuff_cons (byte : UInt8) (data : Bytes) :
    stuff (byte :: data) = stuffByte byte ++ stuff data := rfl

@[simp] theorem stuff_append (front back : Bytes) :
    stuff (front ++ back) = stuff front ++ stuff back :=
  List.flatMap_append

end Frame

end FramedSerial
