import FramedSerial.Json.Numeral
import FramedSerial.Json.Quoted

/-!
# Skipping values in JSON text

A value that nobody asked for is only checked for its form.  It may be nested to
any depth: the brackets that are open are kept in a list, the innermost first.
-/

namespace FramedSerial

namespace Json

/-- Reads the colon behind the name of a member. -/
def readColon (text : Bytes) : Except Fault (Taken Unit text.length) := do
  let next ← readNext text
  if next.value = colon then pure (next.map fun _ => ()) else .error .malformed

/-- Skips the name of a member and its colon. -/
def skipName (text : Bytes) : Except Fault (Taken Unit text.length) := do
  let next ← readNext text
  if next.value = quote then
    let name ← skipQuoted next.rest
    let mark ← readColon name.rest
    pure (next.andThen (name.weaken.andThen mark.weaken))
  else .error .malformed

/-- Skips a value that has no brackets, the first byte of which is given. -/
def skipScalar (first : UInt8) (rest : Bytes) : Except Fault (Taken Unit (rest.length + 1)) :=
  if first = quote then (skipQuoted rest).map Taken.weaken
  else if startsNumeral first then skipNumeral (first :: rest)
  else
    match keywordTail? first with
    | some tail => readExactly tail rest
    | none => .error .malformed

/-- Where in a nested value the reader stands. -/
inductive Place where
  /-- Before a value. -/
  | value
  /-- Behind a bracket that has just been opened. -/
  | opened
  /-- Behind a value. -/
  | behind
deriving DecidableEq, Repr

/-- How many places may still be passed through before the next byte is read. -/
def Place.rank : Place → Nat
  | .opened => 1
  | _ => 0

/-- Skips from a place to the end of the outermost of the brackets that are open
there. -/
def skipFrom {bound : Nat} (place : Place) (enclosing : List Bracket) (text : Bytes)
    (within : text.length < bound) : Except Fault (Taken Unit bound) :=
  match place, enclosing with
  | .value, enclosing => do
      let next ← readNext text
      match Bracket.opened? next.value with
      | some bracket =>
          skipFrom .opened (bracket :: enclosing) next.rest
            (Nat.lt_trans next.shorter within)
      | none =>
          let scalar ← skipScalar next.value next.rest
          skipFrom .behind enclosing scalar.rest
            (Nat.lt_of_lt_of_le scalar.shorter
              (Nat.le_of_lt (Nat.lt_of_le_of_lt next.shorter within)))
  | .behind, [] => .ok ⟨(), text, within⟩
  | .behind, bracket :: outer => do
      let next ← readNext text
      if next.value = bracket.closing then
        skipFrom .behind outer next.rest (Nat.lt_trans next.shorter within)
      else if next.value = comma then
        match bracket with
        | .square =>
            skipFrom .value (.square :: outer) next.rest (Nat.lt_trans next.shorter within)
        | .curly =>
            let name ← skipName next.rest
            skipFrom .value (.curly :: outer) name.rest
              (Nat.lt_trans name.shorter (Nat.lt_trans next.shorter within))
      else .error .malformed
  | .opened, [] => .ok ⟨(), text, within⟩
  | .opened, bracket :: outer => do
      let next ← readNext text
      if next.value = bracket.closing then
        skipFrom .behind outer next.rest (Nat.lt_trans next.shorter within)
      else
        match bracket with
        | .square => skipFrom .value (.square :: outer) text within
        | .curly =>
            let name ← skipName text
            skipFrom .value (.curly :: outer) name.rest (Nat.lt_trans name.shorter within)
termination_by (text.length, place.rank)
decreasing_by
  · exact .left _ _ next.shorter
  · exact .left _ _ (Nat.lt_of_lt_of_le scalar.shorter next.shorter)
  · exact .left _ _ next.shorter
  · exact .left _ _ next.shorter
  · exact .left _ _ (Nat.lt_trans name.shorter next.shorter)
  · exact .left _ _ next.shorter
  · exact .right _ (Nat.zero_lt_one)
  · exact .left _ _ name.shorter

/-- Skips a value. -/
def skipValue (text : Bytes) : Except Fault (Taken Unit (text.length + 1)) :=
  skipFrom .value [] text (length_lt_succ text)

end Json

end FramedSerial
