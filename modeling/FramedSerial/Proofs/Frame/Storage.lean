import FramedSerial.Proofs.Frame.Streams

/-!
# A deframer in fixed slots

A deframer that may not ask for memory keeps the bytes of the present frame in
slots that are there from the start.  Beginning a new frame, giving one up and
resetting only set the fill back; what was stored stays in its slot until it is
written over.

`Stored` is a deframer in this form.  Its contents are the bytes up to the fill,
and with respect to them every byte of a stream brings the same and does the
same as it does to the deframer that holds them in a list.
-/

namespace FramedSerial

namespace Deframer

variable {capacity : Nat}

structure Stored (capacity : Nat) where
  phase : Phase := .awaitingFlag
  slots : Vector UInt8 capacity := Vector.replicate capacity 0
  /-- The number of slots that the present frame takes up. -/
  fill : Nat := 0
  fill_le_capacity : fill ≤ capacity := by exact Nat.zero_le _
  previous : UInt8 := 0
  escapePending : Bool := false

namespace Stored

def new : Stored capacity := {}

def see (stored : Stored capacity) (byte : UInt8) : Stored capacity :=
  { stored with previous := byte }

def mark (stored : Stored capacity) : Stored capacity :=
  { stored with escapePending := true }

/-- Sets the fill back and leaves the slots as they are. -/
def rewind (stored : Stored capacity) (phase : Phase) : Stored capacity :=
  { stored with
    phase := phase
    fill := 0
    fill_le_capacity := Nat.zero_le capacity
    escapePending := false }

def reset (stored : Stored capacity) : Stored capacity :=
  { stored.rewind .awaitingFlag with previous := 0 }

/-- Writes a byte into the first slot behind the fill, undoing its escape. -/
def store (stored : Stored capacity) (room : stored.fill < capacity) (byte : UInt8) :
    Stored capacity :=
  let plain := if stored.escapePending then byte ^^^ Frame.escapeMask else byte
  { stored with
    slots := stored.slots.set stored.fill plain room
    fill := stored.fill + 1
    fill_le_capacity := room
    escapePending := false }

/-- The bytes of the present frame. -/
def held (stored : Stored capacity) : Bytes :=
  stored.slots.toList.take stored.fill

def push (stored : Stored capacity) (byte : UInt8) : Option Event × Stored capacity :=
  let repeated := stored.previous == Frame.flag
  let stored := stored.see byte
  match stored.phase with
  | .awaitingFlag =>
      if byte = Frame.flag then (none, stored.rewind .accumulating) else (none, stored)
  | .accumulating =>
      if byte = Frame.flag then
        if repeated || stored.fill ≤ Frame.trailerLength then
          (none, stored.rewind .accumulating)
        else (some (verdict stored.held), stored.rewind .accumulating)
      else if full : capacity ≤ stored.fill then
        (some (.dropped (.tooLong capacity)), stored.rewind .awaitingFlag)
      else if byte = Frame.escape then (none, stored.mark)
      else (none, stored.store (Nat.lt_of_not_le full) byte)

/-- What the bytes of a stream bring, one by one. -/
def outcomes (stored : Stored capacity) : Bytes → List (Option Event)
  | [] => []
  | byte :: rest => (stored.push byte).1 :: (stored.push byte).2.outcomes rest

def after (stored : Stored capacity) (stream : Bytes) : Stored capacity :=
  stream.foldl (fun present byte => (present.push byte).2) stored

/-- The deframer that holds the same bytes in a list; what lies in the slots
behind the fill is forgotten. -/
def contents (stored : Stored capacity) : Deframer capacity where
  phase := stored.phase
  held := stored.held
  previous := stored.previous
  escapePending := stored.escapePending

@[simp] theorem phase_contents (stored : Stored capacity) :
    stored.contents.phase = stored.phase := rfl

@[simp] theorem held_contents (stored : Stored capacity) :
    stored.contents.held = stored.held := rfl

@[simp] theorem previous_contents (stored : Stored capacity) :
    stored.contents.previous = stored.previous := rfl

@[simp] theorem phase_see (stored : Stored capacity) (byte : UInt8) :
    (stored.see byte).phase = stored.phase := rfl

@[simp] theorem fill_see (stored : Stored capacity) (byte : UInt8) :
    (stored.see byte).fill = stored.fill := rfl

@[simp] theorem held_see (stored : Stored capacity) (byte : UInt8) :
    (stored.see byte).held = stored.held := rfl

@[simp] theorem contents_see (stored : Stored capacity) (byte : UInt8) :
    (stored.see byte).contents = { stored.contents with previous := byte } := rfl

@[simp] theorem contents_mark (stored : Stored capacity) :
    stored.mark.contents = { stored.contents with escapePending := true } := rfl

@[simp] theorem contents_rewind (stored : Stored capacity) (phase : Phase) :
    (stored.rewind phase).contents =
      { stored.contents with phase := phase, held := [], escapePending := false } := rfl

@[simp] theorem contents_new : (new : Stored capacity).contents = Deframer.new := rfl

@[simp] theorem contents_reset (stored : Stored capacity) :
    stored.reset.contents = stored.contents.reset := rfl

theorem length_held (stored : Stored capacity) : stored.held.length = stored.fill := by
  have bounded := stored.fill_le_capacity
  rw [held, List.length_take, Vector.length_toList]
  omega

@[simp] theorem fill_contents (stored : Stored capacity) :
    stored.contents.fill = stored.fill :=
  stored.length_held

theorem held_store (stored : Stored capacity) (room : stored.fill < capacity)
    (byte : UInt8) :
    (stored.store room byte).held =
      stored.held ++
        [if stored.escapePending then byte ^^^ Frame.escapeMask else byte] := by
  have inside : stored.fill < stored.slots.toList.length := by
    rw [Vector.length_toList]
    exact room
  simp only [held, store, Vector.toList_set]
  rw [List.take_succ_eq_append_getElem (by rwa [List.length_set]),
    List.take_set_of_le (Nat.le_refl _), List.getElem_set_self]

theorem contents_store (stored : Stored capacity) (room : stored.fill < capacity)
    (byte : UInt8) :
    (stored.store room byte).contents = stored.contents.store byte := by
  have held := stored.held_store room byte
  simp only [contents, Deframer.store, held]
  rfl

/-- One byte brings the same in both forms, and leaves the same contents. -/
theorem push_contents (stored : Stored capacity) (byte : UInt8) :
    stored.contents.push byte = ((stored.push byte).1, (stored.push byte).2.contents) := by
  -- The cases are the order of the tests: phase, flag, full, escape, other.
  have fill := stored.length_held
  unfold push Deframer.push
  cases phase : stored.phase with
  | awaitingFlag =>
      by_cases isFlag : byte = Frame.flag
      · simp [phase, isFlag, Deframer.restart]
      · simp [phase, isFlag]
  | accumulating =>
      by_cases isFlag : byte = Frame.flag
      · by_cases short : stored.previous = Frame.flag ∨ stored.fill ≤ Frame.trailerLength
        · simp [phase, isFlag, Deframer.fill, fill, short, Deframer.restart]
        · simp [phase, isFlag, Deframer.fill, fill, short, Deframer.restart]
      · by_cases full : capacity ≤ stored.fill
        · simp [phase, isFlag, Deframer.fill, fill, full, Deframer.giveUp]
        · by_cases isEscape : byte = Frame.escape
          · have different : Frame.escape ≠ Frame.flag := by decide
            simp [phase, Deframer.fill, fill, full, isEscape, different]
          · simp [phase, isFlag, Deframer.fill, fill, full, isEscape, contents_store]

theorem outcomes_contents (stored : Stored capacity) (stream : Bytes) :
    stored.outcomes stream = stored.contents.outcomes stream := by
  induction stream generalizing stored with
  | nil => rfl
  | cons byte rest induction =>
      rw [outcomes_cons, push_contents, outcomes, induction]

theorem after_contents (stored : Stored capacity) (stream : Bytes) :
    (stored.after stream).contents = stored.contents.after stream := by
  induction stream generalizing stored with
  | nil => rfl
  | cons byte rest induction =>
      rw [after_cons, push_contents]
      exact induction (stored.push byte).2

end Stored

end Deframer

end FramedSerial
