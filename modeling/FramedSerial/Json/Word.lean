import FramedSerial.Json.Numeral
import FramedSerial.Json.Quoted

/-!
# Words in JSON text

Where a word of 32 bits is asked for, a value of another shape is a misfit, but
only if it is sound as far as it is looked at: a keyword, a string or a number is
read to its end first, a bracket is not opened.
-/

namespace FramedSerial

namespace Json

/-- The fault of a value that has the wrong shape, the first byte of which is
given. -/
def misfit (first : UInt8) (rest : Bytes) : Fault :=
  let faultOf {α : Type} {bound : Nat} : Except Fault (Taken α bound) → Fault
    | .error fault => fault
    | .ok _ => .misfit
  if first = quote then faultOf (readQuoted rest)
  else if startsNumeral first then faultOf (readNumeral (first :: rest))
  else if (Bracket.opened? first).isSome then .misfit
  else
    match keywordTail? first with
    | some tail => faultOf (readExactly tail rest)
    | none => .malformed

/-- Reads a number that is a word of 32 bits. -/
def readWord (text : Bytes) : Except Fault (Taken UInt32 text.length) := do
  let next ← readNext text
  if startsNumeral next.value then
    let numeral ← readNumeral (next.value :: next.rest)
    match numeral.value.word? with
    | some word => pure (next.andThen (numeral.map fun _ => word))
    | none => .error .misfit
  else .error (misfit next.value next.rest)

end Json

end FramedSerial
