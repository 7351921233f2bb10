/-!
# Hexadecimal literals

Bytes and words appear in messages as lowercase hexadecimal literals of fixed
width, `0x` in front.
-/

namespace FramedSerial

namespace Hexadecimal

/-- The lowercase digit that stands for a value below sixteen. -/
def digit (value : Nat) : Char :=
  if value < 10 then Char.ofNat ('0'.toNat + value)
  else Char.ofNat ('a'.toNat + (value - 10))

/-- The last `width` hexadecimal digits of a number, the highest one first. -/
def digits : (width : Nat) → Nat → List Char
  | 0, _ => []
  | width + 1, value => digits width (value / 16) ++ [digit (value % 16)]

def byte (value : UInt8) : String :=
  "0x" ++ String.ofList (digits 2 value.toNat)

def word (value : UInt16) : String :=
  "0x" ++ String.ofList (digits 4 value.toNat)

example : byte 0x7E = "0x7e" := by decide
example : word 0x0D92 = "0x0d92" := by decide

end Hexadecimal

end FramedSerial
