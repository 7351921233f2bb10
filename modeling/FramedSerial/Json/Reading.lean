import FramedSerial.Bytes

/-!
# Reading JSON text

A text is read byte by byte from the left, and the first fault that is met is the
one reported.  What has been read from the front of a text comes with what is
left of it, and with the proof that less is left than there was.

Letters and marks are compared by their ASCII codes.  A byte of a longer
character is never one of them, so the text need not be cut into characters.
-/

namespace FramedSerial

namespace Json

/-- Why a text cannot be read. -/
inductive Fault where
  /-- The text ends too early. -/
  | truncated
  /-- The text is no JSON text. -/
  | malformed
  /-- The text holds a value of another shape than the one asked for. -/
  | misfit
deriving DecidableEq, Repr

/-- A value read from a text, and fewer than `bound` bytes that are left. -/
structure Taken (α : Type) (bound : Nat) where
  value : α
  rest : Bytes
  shorter : rest.length < bound

theorem length_lt_succ (text : Bytes) : text.length < text.length + 1 :=
  Nat.lt_succ_self text.length

namespace Taken

variable {α β : Type} {bound : Nat}

def map (function : α → β) (taken : Taken α bound) : Taken β bound :=
  ⟨function taken.value, taken.rest, taken.shorter⟩

/-- A value for which nothing was read. -/
def nothing (value : α) (text : Bytes) : Taken α (text.length + 1) :=
  ⟨value, text, length_lt_succ text⟩

/-- A value for which one byte was read. -/
def single (value : α) (first : UInt8) (rest : Bytes) : Taken α (first :: rest).length :=
  ⟨value, rest, length_lt_succ rest⟩

/-- A reading counts as one that may have read nothing. -/
def weaken (taken : Taken α bound) : Taken α (bound + 1) :=
  ⟨taken.value, taken.rest, Nat.lt_succ_of_lt taken.shorter⟩

/-- A reading of what another one has left. -/
def andThen (before : Taken β bound) (taken : Taken α (before.rest.length + 1)) :
    Taken α bound :=
  ⟨taken.value, taken.rest, Nat.lt_of_lt_of_le taken.shorter before.shorter⟩

end Taken

def quote : UInt8 := 0x22

def comma : UInt8 := 0x2C

def colon : UInt8 := 0x3A

def backslash : UInt8 := 0x5C

inductive Bracket where
  | square
  | curly
deriving DecidableEq, Repr

def Bracket.opening : Bracket → UInt8
  | .square => 0x5B
  | .curly => 0x7B

def Bracket.closing : Bracket → UInt8
  | .square => 0x5D
  | .curly => 0x7D

/-- The bracket that a value begins with, if it begins with one. -/
def Bracket.opened? (first : UInt8) : Option Bracket :=
  if first = Bracket.square.opening then some .square
  else if first = Bracket.curly.opening then some .curly
  else none

/-- Space, tab, line feed and carriage return. -/
def isBlank (byte : UInt8) : Bool :=
  byte == 0x20 || byte == 0x09 || byte == 0x0A || byte == 0x0D

def dropBlanks (text : Bytes) : Bytes :=
  text.dropWhile isBlank

theorem length_of_dropBlanks {text rest : Bytes} {next : UInt8}
    (blanks : dropBlanks text = next :: rest) : rest.length < text.length := by
  have kept := (List.dropWhile_sublist isBlank (l := text)).length_le
  rw [← dropBlanks, blanks] at kept
  exact kept

/-- Reads the next byte that is not blank. -/
def readNext (text : Bytes) : Except Fault (Taken UInt8 text.length) :=
  match blanks : dropBlanks text with
  | [] => .error .truncated
  | next :: rest => .ok ⟨next, rest, length_of_dropBlanks blanks⟩

/-- Reads the given bytes and nothing else. -/
def readExactly (expected text : Bytes) : Except Fault (Taken Unit (text.length + 1)) :=
  match expected, text with
  | [], text => .ok (.nothing () text)
  | _ :: _, [] => .error .truncated
  | byte :: expected, found :: rest =>
      if found = byte then (readExactly expected rest).map Taken.weaken
      else .error .malformed

/-- What has to follow the first letter of `null`, `true` or `false`. -/
def keywordTail? (first : UInt8) : Option Bytes :=
  if first = 0x6E then some [0x75, 0x6C, 0x6C]
  else if first = 0x74 then some [0x72, 0x75, 0x65]
  else if first = 0x66 then some [0x61, 0x6C, 0x73, 0x65]
  else none

end Json

end FramedSerial
