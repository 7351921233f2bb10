import FramedSerial.Frame.Encoding

/-!
# Frames written piece by piece

A frame need not be known as a whole when its first byte is sent.  An open frame
keeps only the checksum of what was pushed; each operation returns the bytes
that go on the line.

`Line` is a line on which at most one frame is open.  Whole frames may be sent
on it in between, and an open frame may be given up; neither leaves a trace in
the checksum of the other.
-/

namespace FramedSerial

namespace Frame

/-- A frame whose flag has been sent and whose end has not. -/
structure OpenFrame where
  checksum : Checksum
deriving DecidableEq, Repr

namespace OpenFrame

/-- Starts a frame: its first flag, and the frame. -/
def start : Bytes × OpenFrame :=
  ([flag], ⟨Checksum.new⟩)

def push (frame : OpenFrame) (byte : UInt8) : Bytes × OpenFrame :=
  (stuffByte byte, ⟨frame.checksum.update byte⟩)

def extend (frame : OpenFrame) : Bytes → Bytes × OpenFrame
  | [] => ([], frame)
  | byte :: rest =>
      let (sent, frame) := frame.push byte
      let (sentLater, frame) := extend frame rest
      (sent ++ sentLater, frame)

/-- Ends a frame: its checksum and its last flag. -/
def finish (frame : OpenFrame) : Bytes :=
  stuff frame.checksum.trailer ++ [flag]

end OpenFrame

inductive Action where
  | openFrame
  | push (byte : UInt8)
  | extend (data : Bytes)
  | finish
  | abandon
  | send (payload : Bytes)
deriving DecidableEq, Repr

/-- A line, with the frame that is open on it. -/
structure Line where
  current : Option OpenFrame := none
deriving DecidableEq, Repr

namespace Line

/-- Performs one action; returns the bytes that it puts on the line.  Starting a
frame gives up the one that was open, and where no frame is open there is
nothing to add to or to finish. -/
def perform (line : Line) : Action → Bytes × Line
  | .openFrame =>
      let (sent, frame) := OpenFrame.start
      (sent, ⟨some frame⟩)
  | .push byte =>
      match line.current with
      | none => ([], line)
      | some frame =>
          let (sent, frame) := frame.push byte
          (sent, ⟨some frame⟩)
  | .extend data =>
      match line.current with
      | none => ([], line)
      | some frame =>
          let (sent, frame) := frame.extend data
          (sent, ⟨some frame⟩)
  | .finish =>
      match line.current with
      | none => ([], line)
      | some frame => (frame.finish, ⟨none⟩)
  | .abandon => ([], ⟨none⟩)
  | .send payload => (encode payload, line)

end Line

end Frame

end FramedSerial
