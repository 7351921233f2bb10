import FramedSerial.Bytes

/-!
# The frame checksum

A frame is protected by the 16-bit cyclic checksum whose polynomial is `0x1021`,
taken with the lowest bit first (`0x8408`).  The register starts with all bits
set and the checksum is its complement; the two bytes of the checksum travel
low byte first.

`absorbBits` is the definition of one step: the byte is added to the low half
of the register, which is then shifted down bit by bit.  `absorb` is the step
that runs: eight shifts of each byte are looked up in `remainders`.
-/

namespace FramedSerial

/-- A checksum under way: the register after the bytes absorbed so far. -/
structure Checksum where
  register : UInt16
deriving DecidableEq, Repr

namespace Checksum

/-- The register before the first byte. -/
def start : UInt16 := 0xFFFF

/-- The polynomial, lowest bit first. -/
def polynomial : UInt16 := 0x8408

/-- The register that is left after a message and its own checksum. -/
def residue : UInt16 := 0xF0B8

/-- Moves the register down by one bit; a set bit that falls out is replaced by
the polynomial. -/
def shift (register : UInt16) : UInt16 :=
  if register &&& 1 = 1 then (register >>> 1) ^^^ polynomial else register >>> 1

def shifts : Nat → UInt16 → UInt16
  | 0, register => register
  | count + 1, register => shifts count (shift register)

/-- One byte, bit by bit. -/
def absorbBits (register : UInt16) (byte : UInt8) : UInt16 :=
  shifts 8 (register ^^^ byte.toUInt16)

/-- Eight shifts of every byte. -/
def remainders : Vector UInt16 256 :=
  Vector.ofFn fun index => shifts 8 (UInt16.ofNat index.val)

/-- One byte at once: the remainder of the low half of the sum, and the high
half moved down. -/
def absorb (register : UInt16) (byte : UInt8) : UInt16 :=
  have inTable : (register.toUInt8 ^^^ byte).toNat < 256 := UInt8.toNat_lt _
  remainders[(register.toUInt8 ^^^ byte).toNat] ^^^ (register >>> 8)

def new : Checksum := ⟨start⟩

instance : Inhabited Checksum := ⟨new⟩

def update (checksum : Checksum) (byte : UInt8) : Checksum :=
  ⟨absorb checksum.register byte⟩

def extend (checksum : Checksum) (data : Bytes) : Checksum :=
  data.foldl update checksum

def value (checksum : Checksum) : UInt16 :=
  ~~~checksum.register

/-- A word as two bytes, the low one first. -/
def littleEndian (word : UInt16) : Bytes :=
  [word.toUInt8, (word >>> 8).toUInt8]

/-- The word that a run of bytes stands for, the low one first. -/
def ofLittleEndian (data : Bytes) : UInt16 :=
  data.foldr (fun byte high => (high <<< 8) ||| byte.toUInt16) 0

/-- The checksum as it follows the message on the line. -/
def trailer (checksum : Checksum) : Bytes :=
  littleEndian checksum.value

def ofBytes (data : Bytes) : UInt16 :=
  (new.extend data).value

@[simp] theorem extend_nil (checksum : Checksum) : checksum.extend [] = checksum := rfl

@[simp] theorem extend_cons (checksum : Checksum) (byte : UInt8) (data : Bytes) :
    checksum.extend (byte :: data) = (checksum.update byte).extend data := rfl

/-- A message may be absorbed in parts. -/
theorem extend_append (checksum : Checksum) (front back : Bytes) :
    checksum.extend (front ++ back) = (checksum.extend front).extend back :=
  List.foldl_append

example : ofBytes [0x31, 0x32, 0x33, 0x34, 0x35, 0x36, 0x37, 0x38, 0x39] = 0x906E := by
  decide +kernel

end Checksum

end FramedSerial
