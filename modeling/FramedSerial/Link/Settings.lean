import FramedSerial.Json.Object
import FramedSerial.Json.Skipping
import FramedSerial.Json.Word

/-!
# Settings of a link

Settings are kept as JSON text: an object with the member
`reset_settle_spins` and perhaps others that are skipped, or an array that holds
nothing but the value of that member.
-/

namespace FramedSerial

namespace Link

structure Settings where
  /-- How many idle turns a link waits before it asks its device to reset. -/
  settleSpins : UInt32 := 1000000
deriving DecidableEq, Repr

namespace Settings

open Json (Bracket Fault Taken)

/-- The name under which the settling time is written. -/
def settleSpinsName : String := "reset_settle_spins"

/-- The settings as an object without blanks. -/
def render (settings : Settings) : String :=
  Json.renderObject [(settleSpinsName, settings.settleSpins.toNat)]

/-- Reads the array form, behind its opening bracket.  An array without elements
is a misfit; more than one element is more than the form of the array allows. -/
def readArray (text : Bytes) : Except Fault (Taken Settings text.length) := do
  let next ← Json.readNext text
  if next.value = Bracket.square.closing then .error .misfit
  else
    let spins ← Json.readWord text
    let close ← Json.readNext spins.rest
    if close.value = Bracket.square.closing then
      pure (spins.andThen (close.map fun _ => ⟨spins.value⟩).weaken)
    else .error .malformed

/-- Reads the value of a member.  Returns what is then known of the settling time. -/
def readMemberValue (known : Bool) (found : Option UInt32) (text : Bytes) :
    Except Fault (Taken (Option UInt32) (text.length + 1)) :=
  if known then (Json.readWord text).map fun word => (word.map some).weaken
  else (Json.skipValue text).map fun skipped => skipped.map fun _ => found

/-- Reads the members of the object form, behind the quote of the first name.  A
second settling time is refused as soon as its name has been read. -/
def readMembers (found : Option UInt32) (text : Bytes) :
    Except Fault (Taken Settings text.length) := do
  let name ← Json.readQuoted text
  let known := name.value == settleSpinsName.toUTF8.toList
  if known && found.isSome then .error .misfit
  else
    let colon ← Json.readColon name.rest
    let value ← readMemberValue known found colon.rest
    let member := name.andThen (colon.andThen value).weaken
    let next ← Json.readNext member.rest
    if next.value = Bracket.curly.closing then
      match member.value with
      | some spins => pure (member.andThen (next.map fun _ => ⟨spins⟩).weaken)
      | none => .error .misfit
    else if next.value = Json.comma then
      let quote ← Json.readNext next.rest
      if quote.value = Json.quote then
        let front := member.andThen (next.andThen quote.weaken).weaken
        let members ← readMembers member.value front.rest
        pure (front.andThen members.weaken)
      else .error .malformed
    else .error .malformed
termination_by text.length
decreasing_by exact front.shorter

/-- Reads the object form, behind its opening bracket. -/
def readObject (text : Bytes) : Except Fault (Taken Settings text.length) := do
  let next ← Json.readNext text
  if next.value = Bracket.curly.closing then .error .misfit
  else if next.value = Json.quote then
    let members ← readMembers none next.rest
    pure (next.andThen members.weaken)
  else .error .malformed

/-- Reads settings from the front of a text. -/
def readValue (text : Bytes) : Except Fault (Taken Settings text.length) := do
  let next ← Json.readNext text
  if next.value = Bracket.square.opening then
    let array ← readArray next.rest
    pure (next.andThen array.weaken)
  else if next.value = Bracket.curly.opening then
    let object ← readObject next.rest
    pure (next.andThen object.weaken)
  else .error (Json.misfit next.value next.rest)

/-- Reads settings from a text that holds nothing else. -/
def parse (text : String) : Except Fault Settings := do
  let settings ← readValue text.toUTF8.toList
  if (Json.dropBlanks settings.rest).isEmpty then pure settings.value
  else .error .malformed

end Settings

end Link

end FramedSerial
