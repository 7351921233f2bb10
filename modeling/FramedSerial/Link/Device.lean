import FramedSerial.Bytes

/-!
# The device at the end of a link

A device takes one byte at a time and keeps a record of them.  A passive device
does nothing else.  A scripted device also calls its link back while it takes a
byte: it may report bytes as received, submit bytes, and report completions, all
decided by the number of bytes that it took before.
-/

namespace FramedSerial

namespace Link

/-- What a device, an interrupt or a task may tell a link at any moment. -/
inductive Call where
  /-- A byte is to be sent. -/
  | submit (byte : UInt8)
  /-- The device has sent the byte that it was given. -/
  | complete
  /-- The device has received a byte. -/
  | arrive (byte : UInt8)
deriving DecidableEq, Repr

/-- How a device calls back.  Bytes taken are numbered from zero. -/
structure Script where
  /-- Whether each byte taken is reported as received. -/
  echoes : Bool := false
  /-- Bytes submitted while the byte of the given number is taken. -/
  injections : List (Nat × Bytes) := []
  /-- How many completions are reported while a byte is taken; the list is gone
  through again and again. -/
  completions : List Nat := []
deriving DecidableEq, Repr

namespace Script

/-- The bytes submitted while the byte of the given number is taken. -/
def injected (script : Script) (index : Nat) : Bytes :=
  (script.injections.filter fun entry => entry.1 == index).flatMap (·.2)

/-- The number of bytes submitted from the byte of the given number on. -/
def injectionsFrom (script : Script) (index : Nat) : Nat :=
  ((script.injections.filter fun entry => index ≤ entry.1).flatMap (·.2)).length

/-- The number of completions reported while the byte of the given number is
taken. -/
def completionsAt (script : Script) (index : Nat) : Nat :=
  script.completions.getD (index % script.completions.length) 0

/-- The calls made while `byte`, of the given number, is taken. -/
def reactions (script : Script) (index : Nat) (byte : UInt8) : List Call :=
  (if script.echoes then [.arrive byte] else []) ++
    (script.injected index).map .submit ++
    List.replicate (script.completionsAt index) .complete

/-- The bytes still to be submitted are those submitted now and those submitted
later. -/
theorem injectionsFrom_eq (script : Script) (index : Nat) :
    script.injectionsFrom index =
      (script.injected index).length + script.injectionsFrom (index + 1) := by
  simp only [injectionsFrom, injected]
  induction script.injections with
  | nil => rfl
  | cons entry entries induction =>
      simp only [List.filter_cons, beq_iff_eq, decide_eq_true_eq]
      grind

end Script

/-- Whether a device calls its link back. -/
inductive Behaviour where
  /-- Only records; switched on and off with its link. -/
  | passive
  /-- Calls back as the script lays down, and takes no notice of being switched
  on or off. -/
  | scripted (script : Script)
deriving DecidableEq, Repr

def Behaviour.script : Behaviour → Script
  | .passive => {}
  | .scripted script => script

structure Device where
  behaviour : Behaviour := .passive
  /-- The bytes taken since the record was last collected. -/
  record : Array UInt8 := #[]
  /-- The number of bytes ever taken. -/
  taken : Nat := 0
  powered : Bool := false
  /-- How often the device has been asked to reset; the count wraps. -/
  resetCount : UInt32 := 0
deriving DecidableEq, Repr

namespace Device

def powerUp (device : Device) : Device :=
  match device.behaviour with
  | .passive => { device with powered := true }
  | .scripted _ => device

def powerDown (device : Device) : Device :=
  match device.behaviour with
  | .passive => { device with powered := false }
  | .scripted _ => device

def reset (device : Device) : Device :=
  { device with resetCount := device.resetCount + 1 }

/-- The number of resets that is reported. -/
def resets (device : Device) : Nat :=
  device.resetCount.toNat

def take (device : Device) (byte : UInt8) : Device :=
  { device with record := device.record.push byte, taken := device.taken + 1 }

/-- The calls that the device makes while it takes its next byte. -/
def reactions (device : Device) (byte : UInt8) : List Call :=
  device.behaviour.script.reactions device.taken byte

/-- The number of bytes that the device will still submit. -/
def injectionsLeft (device : Device) : Nat :=
  device.behaviour.script.injectionsFrom device.taken

/-- Hands the record out and starts a new one. -/
def collect (device : Device) : Bytes × Device :=
  (device.record.toList, { device with record := #[] })

end Device

end Link

end FramedSerial
