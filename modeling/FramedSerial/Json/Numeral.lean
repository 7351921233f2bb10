import FramedSerial.Json.Reading

/-!
# Numbers in JSON text

A number is read as its digits.  Before it is taken for a number at all it must
have a magnitude that a floating-point number of 64 bits can hold; for this
question only as many of its digits count as fit into a word of 64 bits.
-/

namespace FramedSerial

namespace Json

structure Numeral where
  negative : Bool
  /-- The digits before the point, at least one. -/
  whole : Bytes
  /-- The digits behind the point, at least one if there is a point. -/
  fraction : Option Bytes
  /-- The power of ten behind the digits. -/
  exponent : Option Int
deriving DecidableEq, Repr

def isDigit (byte : UInt8) : Bool :=
  0x30 ≤ byte && byte ≤ 0x39

def startsNumeral (first : UInt8) : Bool :=
  first == 0x2D || isDigit first

def decimalValue (digits : Bytes) : Nat :=
  digits.foldl (fun value digit => value * 10 + (digit.toNat - 0x30)) 0

theorem length_dropDigits_lt (first : UInt8) (rest : Bytes) :
    (rest.dropWhile isDigit).length < (first :: rest).length :=
  Nat.lt_succ_of_le (List.dropWhile_sublist isDigit).length_le

/-- Reads a run of digits, at least one.  `atEnd` is the fault of a text that
ends instead. -/
def readDigits (atEnd : Fault) : (text : Bytes) → Except Fault (Taken Bytes text.length)
  | [] => .error atEnd
  | first :: rest =>
      if isDigit first then
        .ok ⟨first :: rest.takeWhile isDigit, rest.dropWhile isDigit,
          length_dropDigits_lt first rest⟩
      else .error .malformed

/-- Reads the digits before the point.  A zero in front of other digits is
refused. -/
def readWhole (atEnd : Fault) (text : Bytes) : Except Fault (Taken Bytes text.length) := do
  let digits ← readDigits atEnd text
  match digits.value with
  | 0x30 :: _ :: _ => .error .malformed
  | _ => pure digits

/-- Reads a point and digits, if there is a point. -/
def readFraction (atEnd : Fault) :
    (text : Bytes) → Except Fault (Taken (Option Bytes) (text.length + 1))
  | 0x2E :: rest =>
      (readDigits atEnd rest).map fun digits => (digits.map some).weaken.weaken
  | text => .ok (.nothing none text)

/-- Reads a sign, if there is one: whether it is a minus. -/
def readSign : (text : Bytes) → Taken Bool (text.length + 1)
  | 0x2B :: rest => (Taken.single false 0x2B rest).weaken
  | 0x2D :: rest => (Taken.single true 0x2D rest).weaken
  | text => .nothing false text

def readExponent (atEnd : Fault) :
    (text : Bytes) → Except Fault (Taken (Option Int) (text.length + 1))
  | [] => .ok (.nothing none [])
  | first :: rest =>
      if first = 0x65 ∨ first = 0x45 then
        let sign := readSign rest
        (readDigits atEnd sign.rest).map fun digits =>
          let power : Int := decimalValue digits.value
          let signed := if sign.value then -power else power
          (sign.andThen (digits.map fun _ => some signed).weaken).weaken
      else .ok (.nothing none (first :: rest))

def readUnsigned (atEnd : Fault) (negative : Bool) (text : Bytes) :
    Except Fault (Taken Numeral text.length) := do
  let whole ← readWhole atEnd text
  let fraction ← readFraction atEnd whole.rest
  let exponent ← readExponent atEnd fraction.rest
  let numeral := ⟨negative, whole.value, fraction.value, exponent.value⟩
  pure (whole.andThen (fraction.andThen (exponent.map fun _ => numeral)))

def readLiteral (atEnd : Fault) : (text : Bytes) → Except Fault (Taken Numeral text.length)
  | 0x2D :: rest => (readUnsigned atEnd true rest).map Taken.weaken
  | text => readUnsigned atEnd false text

namespace Numeral

/-- The largest significand that is kept. -/
def significandLimit : Nat := Nat.pow 2 64 - 1

/-- Appends digits to a significand as long as it stays within the limit.  Returns
the significand and the number of digits left over. -/
def appendDigits (significand : Nat) : Bytes → Nat × Nat
  | [] => (significand, 0)
  | digit :: rest =>
      let longer := significand * 10 + (digit.toNat - 0x30)
      if longer ≤ significandLimit then appendDigits longer rest
      else (significand, rest.length + 1)

/-- The significand of a number, and its power of ten.  Digits before the point
that are left over raise the power; digits behind the point lower it unless they
are left over. -/
def scientific (numeral : Numeral) : Nat × Int :=
  let fraction := numeral.fraction.getD []
  let (whole, wholeLeft) := appendDigits 0 numeral.whole
  let (significand, fractionLeft) := appendDigits whole fraction
  (significand,
    numeral.exponent.getD 0 + wholeLeft - (fraction.length - fractionLeft : Nat))

/-- The nearest number of 53 bits and a power of two, ties to the even one. -/
def roundToDouble (value : Nat) : Nat :=
  if value < Nat.pow 2 53 then value
  else
    let unit := Nat.pow 2 (value.log2 - 52)
    let quotient := value / unit
    let twice := 2 * (value % unit)
    let roundsUp := unit < twice ∨ (unit = twice ∧ quotient % 2 = 1)
    (if roundsUp then quotient + 1 else quotient) * unit

/-- Halfway between the largest finite floating-point number of 64 bits and the
next power of two: from here on, rounding gives no finite number. -/
def overflowThreshold : Nat := Nat.pow 2 1024 - Nat.pow 2 970

/-- The largest power of ten that a floating-point number of 64 bits can hold. -/
def largestPower : Int := 308

/-- Whether the magnitude of a number is too large: significand and power of ten
are rounded, multiplied, and rounded again. -/
def overflows (numeral : Numeral) : Bool :=
  let (significand, power) := numeral.scientific
  significand != 0 && 0 ≤ power &&
    (largestPower < power ||
      overflowThreshold ≤ roundToDouble significand * roundToDouble (Nat.pow 10 power.toNat))

/-- The number as a word of 32 bits, if it is one: written without sign, point and
exponent, and not too large. -/
def word? (numeral : Numeral) : Option UInt32 :=
  let value := decimalValue numeral.whole
  if !numeral.negative && numeral.fraction.isNone && numeral.exponent.isNone &&
      value < Nat.pow 2 32 then some (UInt32.ofNat value)
  else none

end Numeral

def readNumeral (text : Bytes) : Except Fault (Taken Numeral text.length) := do
  let taken ← readLiteral .truncated text
  if taken.value.overflows then .error .malformed else pure taken

/-- Skips a number of whatever magnitude.  A number that breaks off is malformed
even at the end of the text. -/
def skipNumeral (text : Bytes) : Except Fault (Taken Unit text.length) :=
  (readLiteral .malformed text).map fun taken => taken.map fun _ => ()

end Json

end FramedSerial
