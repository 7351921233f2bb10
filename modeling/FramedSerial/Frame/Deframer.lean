import FramedSerial.Frame.Encoding
import FramedSerial.Frame.Fault

/-!
# Recovering frames from a byte stream

A deframer reads a stream byte by byte and finds the frames in it.  It waits for
a flag, collects the bytes behind it without their escapes, and checks them when
the next flag comes.  A flag that ends one frame also begins the next, so frames
may share it.

A frame that outgrows the deframer is dropped at once, and the rest of it is
skipped up to the next flag: the tail of a long frame is never taken for a frame
of its own.
-/

namespace FramedSerial

/-- What a deframer does with the next byte. -/
inductive Phase where
  | awaitingFlag
  | accumulating
deriving DecidableEq, Repr

/-- A deframer for frames of at most `capacity` bytes, trailer included. -/
structure Deframer (capacity : Nat) where
  phase : Phase := .awaitingFlag
  /-- The bytes of the present frame, without escapes. -/
  held : Bytes := []
  /-- The last byte of the stream, as it came. -/
  previous : UInt8 := 0
  /-- Whether the next byte of the frame is an escaped one. -/
  escapePending : Bool := false
deriving DecidableEq, Repr

namespace Deframer

variable {capacity : Nat}

/-- What a byte may bring to an end. -/
inductive Event where
  | frame (payload : Bytes)
  | dropped (fault : Frame.Fault)
deriving DecidableEq, Repr

def new : Deframer capacity := {}

instance : Inhabited (Deframer capacity) := ⟨new⟩

def fill (deframer : Deframer capacity) : Nat :=
  deframer.held.length

/-- Back to waiting for a flag, with nothing remembered of the stream. -/
def reset (_deframer : Deframer capacity) : Deframer capacity := new

def restart (deframer : Deframer capacity) : Deframer capacity :=
  { deframer with phase := .accumulating, held := [], escapePending := false }

/-- Gives the present frame up and skips to the next flag. -/
def giveUp (deframer : Deframer capacity) : Deframer capacity :=
  { deframer with phase := .awaitingFlag, held := [], escapePending := false }

/-- Adds a byte to the present frame, undoing its escape. -/
def store (deframer : Deframer capacity) (byte : UInt8) : Deframer capacity :=
  let plain := if deframer.escapePending then byte ^^^ Frame.escapeMask else byte
  { deframer with held := deframer.held ++ [plain], escapePending := false }

/-- Splits a whole frame into payload and trailer and compares the checksums. -/
def verdict (frame : Bytes) : Event :=
  let payloadLength := frame.length - Frame.trailerLength
  let payload := frame.take payloadLength
  let computed := Checksum.ofBytes payload
  let received := Checksum.ofLittleEndian (frame.drop payloadLength)
  if computed = received then .frame payload
  else .dropped (.badChecksum computed received)

/-- Reads one byte of the stream.

A flag always begins a frame; it also ends the present one, if that is longer
than a trailer.  Any other byte that comes when the deframer is full ends the
frame as too long, an escape included. -/
def push (deframer : Deframer capacity) (byte : UInt8) :
    Option Event × Deframer capacity :=
  let repeated := deframer.previous == Frame.flag
  let deframer := { deframer with previous := byte }
  match deframer.phase with
  | .awaitingFlag =>
      if byte = Frame.flag then (none, deframer.restart) else (none, deframer)
  | .accumulating =>
      if byte = Frame.flag then
        if repeated || deframer.fill ≤ Frame.trailerLength then (none, deframer.restart)
        else (some (verdict deframer.held), deframer.restart)
      else if capacity ≤ deframer.fill then
        (some (.dropped (.tooLong capacity)), deframer.giveUp)
      else if byte = Frame.escape then (none, { deframer with escapePending := true })
      else (none, deframer.store byte)

/-- Reads a run of bytes: what each of them brought, and the deframer behind it. -/
def run (deframer : Deframer capacity) : Bytes → List (Option Event × Deframer capacity)
  | [] => []
  | byte :: rest =>
      let outcome := deframer.push byte
      outcome :: run outcome.2 rest

end Deframer

end FramedSerial
