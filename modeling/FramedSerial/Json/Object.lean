/-!
# Writing objects of numbers

The only values that are written are flat objects whose members are natural
numbers: no blanks, members in the given order, names that need no escapes.
-/

namespace FramedSerial

namespace Json

def renderMember (member : String × Nat) : String :=
  "\"" ++ member.1 ++ "\":" ++ toString member.2

/-- An object without blanks, its members in the given order. -/
def renderObject (members : List (String × Nat)) : String :=
  "\x7b" ++ ",".intercalate (members.map renderMember) ++ "\x7d"

end Json

end FramedSerial
