import FramedSerial.Json.Reading

/-!
# Strings in JSON text

The opening quote has been read already.  `readQuoted` returns the bytes that a
string stands for; `skipQuoted` only looks for its end, and does not ask whether
escaped surrogates come in pairs.
-/

namespace FramedSerial

namespace Json

/-- The value of a hexadecimal digit in either case. -/
def hexValue? (byte : UInt8) : Option Nat :=
  let code := byte.toNat
  if 0x30 ≤ code ∧ code ≤ 0x39 then some (code - 0x30)
  else if 0x41 ≤ code ∧ code ≤ 0x46 then some (code - 0x41 + 10)
  else if 0x61 ≤ code ∧ code ≤ 0x66 then some (code - 0x61 + 10)
  else none

theorem length_lt_four_behind {first second third fourth : UInt8} (rest : Bytes) :
    rest.length < (first :: second :: third :: fourth :: rest).length := by
  simp only [List.length_cons]
  omega

/-- Reads four hexadecimal digits.  A text that is too short is truncated, even
if one of its bytes is no digit. -/
def readCodeUnit : (text : Bytes) → Except Fault (Taken Nat text.length)
  | first :: second :: third :: fourth :: rest =>
      match hexValue? first, hexValue? second, hexValue? third, hexValue? fourth with
      | some first, some second, some third, some fourth =>
          .ok ⟨((first * 16 + second) * 16 + third) * 16 + fourth, rest,
            length_lt_four_behind rest⟩
      | _, _, _, _ => .error .malformed
  | _ => .error .truncated

/-- What an escape stands for. -/
inductive Escaped where
  | byte (byte : UInt8)
  | unit (unit : Nat)

/-- The bytes that escapes of one letter stand for. -/
def shortEscape? (letter : UInt8) : Option UInt8 :=
  if letter = quote ∨ letter = backslash ∨ letter = 0x2F then some letter
  else if letter = 0x62 then some 0x08
  else if letter = 0x66 then some 0x0C
  else if letter = 0x6E then some 0x0A
  else if letter = 0x72 then some 0x0D
  else if letter = 0x74 then some 0x09
  else none

/-- Reads an escape, whose backslash has been read. -/
def readEscaped : (text : Bytes) → Except Fault (Taken Escaped text.length)
  | [] => .error .truncated
  | letter :: rest =>
      if letter = 0x75 then
        (readCodeUnit rest).map fun taken => (taken.map .unit).weaken
      else
        match shortEscape? letter with
        | some byte => .ok (.single (.byte byte) letter rest)
        | none => .error .malformed

def skipQuoted (text : Bytes) : Except Fault (Taken Unit text.length) :=
  match text with
  | [] => .error .truncated
  | first :: rest =>
      if first = quote then .ok (.single () first rest)
      else if first = backslash then do
        let escaped ← readEscaped rest
        let tail ← skipQuoted escaped.rest
        pure (escaped.weaken.andThen tail.weaken)
      else if first < 0x20 then .error .malformed
      else do
        let tail ← skipQuoted rest
        pure tail.weaken
termination_by text.length
decreasing_by
  · exact Nat.lt_succ_of_lt escaped.shorter
  · exact Nat.lt_succ_self _

/-- Reads the second half of a surrogate pair, with its backslash. -/
def readTrailingUnit (text : Bytes) : Except Fault (Taken Nat (text.length + 1)) := do
  let opened ← readExactly [backslash, 0x75] text
  let trailing ← readCodeUnit opened.rest
  if 0xDC00 ≤ trailing.value ∧ trailing.value ≤ 0xDFFF then
    pure (opened.andThen trailing.weaken)
  else .error .malformed

/-- Reads the rest of the character that begins with a unit of UTF-16: a leading
surrogate must be followed by a trailing one, and that one cannot stand alone. -/
def readCharacter (unit : Nat) (text : Bytes) :
    Except Fault (Taken Bytes (text.length + 1)) :=
  if 0xDC00 ≤ unit ∧ unit ≤ 0xDFFF then .error .malformed
  else if 0xD800 ≤ unit ∧ unit ≤ 0xDBFF then do
    let trailing ← readTrailingUnit text
    let code := 0x10000 + (unit - 0xD800) * 0x400 + (trailing.value - 0xDC00)
    pure (trailing.map fun _ => String.utf8EncodeChar (Char.ofNat code))
  else .ok (.nothing (String.utf8EncodeChar (Char.ofNat unit)) text)

/-- Reads an escape to the end of the character that it belongs to. -/
def readEscapedCharacter (text : Bytes) : Except Fault (Taken Bytes text.length) := do
  let escaped ← readEscaped text
  match escaped.value with
  | .byte byte => pure (escaped.map fun _ => [byte])
  | .unit unit =>
      let character ← readCharacter unit escaped.rest
      pure (escaped.andThen character)

def readQuoted (text : Bytes) : Except Fault (Taken Bytes text.length) :=
  match text with
  | [] => .error .truncated
  | first :: rest =>
      if first = quote then .ok (.single [] first rest)
      else if first = backslash then do
        let character ← readEscapedCharacter rest
        let tail ← readQuoted character.rest
        pure (character.weaken.andThen (tail.map (character.value ++ ·)).weaken)
      else if first < 0x20 then .error .malformed
      else do
        let tail ← readQuoted rest
        pure (tail.map (first :: ·)).weaken
termination_by text.length
decreasing_by
  · exact Nat.lt_succ_of_lt character.shorter
  · exact Nat.lt_succ_self _

end Json

end FramedSerial
