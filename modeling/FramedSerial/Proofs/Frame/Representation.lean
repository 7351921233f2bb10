import FramedSerial.Proofs.Frame.Confinement
import FramedSerial.Proofs.Frame.Payloads

/-!
# How the fields of a deframer belong together

Of the values that the fields of a deframer could have only some occur together.  While
it awaits a flag a deframer holds nothing, an escape is pending only where there is room
for the byte that it marks, and right behind a flag nothing has been held yet.  Every
byte and every reset preserve this.

Two things follow.  A deframer that addresses its slots by plain numbers, and would fail
on a slot that is not there or on a frame shorter than its trailer, never fails.  And
asking whether a flag is repeated makes no difference: behind a flag nothing is held, so
that the frame is too short anyway.
-/

namespace FramedSerial

namespace Deframer

variable {capacity : Nat}

structure Consistent (deframer : Deframer capacity) : Prop where
  fits : deframer.fill ≤ capacity
  awaiting : deframer.phase = .awaitingFlag →
    deframer.fill = 0 ∧ deframer.escapePending = false
  marked : deframer.escapePending = true →
    deframer.phase = .accumulating ∧ deframer.fill < capacity
  behindFlag : deframer.previous = Frame.flag →
    deframer.phase = .accumulating ∧ deframer.fill = 0 ∧ deframer.escapePending = false

theorem consistent_new : (new : Deframer capacity).Consistent where
  fits := Nat.zero_le capacity
  awaiting _ := ⟨rfl, rfl⟩
  marked pending := by cases pending
  behindFlag isFlag := by
    have different : (0 : UInt8) ≠ Frame.flag := by decide
    exact absurd isFlag different

theorem consistent_begun : (begun : Deframer capacity).Consistent where
  fits := Nat.zero_le capacity
  awaiting waits := by cases waits
  marked pending := by cases pending
  behindFlag _ := ⟨rfl, rfl, rfl⟩

section

variable {deframer : Deframer capacity} {byte : UInt8}

theorem consistent_giveUp (deframer : Deframer capacity)
    (different : deframer.previous ≠ Frame.flag) : deframer.giveUp.Consistent where
  fits := Nat.zero_le capacity
  awaiting _ := ⟨rfl, rfl⟩
  marked pending := by cases pending
  behindFlag isFlag := absurd isFlag different

theorem consistent_mark (deframer : Deframer capacity)
    (phase : deframer.phase = .accumulating) (room : deframer.fill < capacity)
    (different : deframer.previous ≠ Frame.flag) :
    Consistent ({ deframer with escapePending := true } : Deframer capacity) where
  fits := Nat.le_of_lt room
  awaiting waits := by cases phase.symm.trans waits
  marked _ := ⟨phase, room⟩
  behindFlag isFlag := absurd isFlag different

theorem consistent_store (deframer : Deframer capacity)
    (phase : deframer.phase = .accumulating) (room : deframer.fill < capacity)
    (different : deframer.previous ≠ Frame.flag) (byte : UInt8) :
    (deframer.store byte).Consistent where
  fits := by
    have longer : (deframer.store byte).fill = deframer.fill + 1 := List.length_append
    rw [longer]
    exact room
  awaiting waits := by cases phase.symm.trans waits
  marked pending := by cases pending
  behindFlag isFlag := absurd isFlag different

theorem Consistent.push (consistent : deframer.Consistent) (byte : UInt8) :
    (deframer.push byte).2.Consistent := by
  by_cases isFlag : byte = Frame.flag
  · rw [isFlag, push_flag_snd]
    exact consistent_begun
  · -- The cases are the order of the tests in `push`: phase, full, escape, other.
    unfold Deframer.push
    cases phase : deframer.phase with
    | awaitingFlag =>
        obtain ⟨nothingHeld, unmarked⟩ := consistent.awaiting phase
        simp only [if_neg isFlag]
        constructor
        · exact consistent.fits
        · exact fun _ => ⟨nothingHeld, unmarked⟩
        · exact fun pending => absurd (unmarked.symm.trans pending) Bool.false_ne_true
        · exact fun same => absurd same isFlag
    | accumulating =>
        let seen : Deframer capacity :=
          { deframer with phase := .accumulating, previous := byte }
        simp only [if_neg isFlag]
        split
        · exact seen.consistent_giveUp isFlag
        · next notFull =>
            have room : seen.fill < capacity := Nat.lt_of_not_le notFull
            split
            · exact seen.consistent_mark rfl room isFlag
            · exact seen.consistent_store rfl room isFlag byte

/-- Every payload leaves room for a trailer, and is not empty. -/
theorem Consistent.length_payload (consistent : deframer.Consistent) {payload : Bytes}
    (brought : (deframer.push byte).1 = some (.frame payload)) :
    1 ≤ payload.length ∧ payload.length + Frame.trailerLength ≤ capacity := by
  constructor
  · exact List.length_pos_iff.mpr (payload_ne_nil brought)
  · exact length_payload_le_of_fits consistent.fits brought

theorem Consistent.heed (consistent : deframer.Consistent) (signal : Signal) :
    (deframer.heed signal).Consistent := by
  cases signal with
  | push byte => exact consistent.push byte
  | reset => exact consistent_new

theorem Consistent.heedAll (consistent : deframer.Consistent) (history : List Signal) :
    (deframer.heedAll history).Consistent := by
  induction history generalizing deframer with
  | nil => exact consistent
  | cons signal history induction =>
      apply induction
      exact consistent.heed signal

end

/-- Reads a byte as `push` does, without asking whether the byte before it was a flag. -/
def pushOblivious (deframer : Deframer capacity) (byte : UInt8) :
    Option Event × Deframer capacity :=
  let deframer := { deframer with previous := byte }
  match deframer.phase with
  | .awaitingFlag =>
      if byte = Frame.flag then (none, deframer.restart) else (none, deframer)
  | .accumulating =>
      if byte = Frame.flag then
        if deframer.fill ≤ Frame.trailerLength then (none, deframer.restart)
        else (some (verdict deframer.held), deframer.restart)
      else if capacity ≤ deframer.fill then
        (some (.dropped (.tooLong capacity)), deframer.giveUp)
      else if byte = Frame.escape then (none, { deframer with escapePending := true })
      else (none, deframer.store byte)

def heedOblivious (deframer : Deframer capacity) : Signal → Deframer capacity
  | .push byte => (deframer.pushOblivious byte).2
  | .reset => deframer.reset

def heedAllOblivious (deframer : Deframer capacity) (history : List Signal) :
    Deframer capacity :=
  history.foldl heedOblivious deframer

section

variable {deframer : Deframer capacity}

theorem Consistent.pushOblivious_eq (consistent : deframer.Consistent) (byte : UInt8) :
    deframer.pushOblivious byte = deframer.push byte := by
  unfold pushOblivious Deframer.push
  by_cases repeated : deframer.previous = Frame.flag
  · obtain ⟨phase, nothingHeld, _⟩ := consistent.behindFlag repeated
    have short : deframer.held.length ≤ Frame.trailerLength := by
      unfold fill at nothingHeld
      omega
    simp [phase, fill, short]
  · cases phase : deframer.phase with
    | awaitingFlag => rfl
    | accumulating => simp [repeated]

theorem Consistent.heedOblivious_eq (consistent : deframer.Consistent) (signal : Signal) :
    deframer.heedOblivious signal = deframer.heed signal := by
  cases signal with
  | push byte => exact congrArg Prod.snd (consistent.pushOblivious_eq byte)
  | reset => rfl

theorem Consistent.heedAllOblivious_eq (consistent : deframer.Consistent)
    (history : List Signal) :
    deframer.heedAllOblivious history = deframer.heedAll history := by
  induction history generalizing deframer with
  | nil => rfl
  | cons signal history induction =>
      rw [heedAllOblivious, List.foldl_cons, consistent.heedOblivious_eq]
      exact induction (consistent.heed signal)

end

/-- A deframer that addresses its slots by plain numbers, which nothing in its type
bounds. -/
structure Addressed (capacity : Nat) where
  phase : Phase := .awaitingFlag
  slots : Vector UInt8 capacity := Vector.replicate capacity 0
  fill : Nat := 0
  previous : UInt8 := 0
  escapePending : Bool := false

namespace Addressed

def new : Addressed capacity := {}

def see (addressed : Addressed capacity) (byte : UInt8) : Addressed capacity :=
  { addressed with previous := byte }

def mark (addressed : Addressed capacity) : Addressed capacity :=
  { addressed with escapePending := true }

/-- Sets the fill back and leaves the slots as they are. -/
def rewind (addressed : Addressed capacity) (phase : Phase) : Addressed capacity :=
  { addressed with phase := phase, fill := 0, escapePending := false }

def reset (addressed : Addressed capacity) : Addressed capacity :=
  { addressed.rewind .awaitingFlag with previous := 0 }

/-- Writes a byte into the slot that the fill gives, undoing its escape.  Fails if there
is no such slot. -/
def store? (addressed : Addressed capacity) (byte : UInt8) : Option (Addressed capacity) :=
  let plain := if addressed.escapePending then byte ^^^ Frame.escapeMask else byte
  if room : addressed.fill < capacity then
    some { addressed with
      slots := addressed.slots.set addressed.fill plain room
      fill := addressed.fill + 1
      escapePending := false }
  else none

/-- The verdict on the bytes of the first slots, `length` of them.  Fails if there are
not so many, or if these are too few for a trailer. -/
def verdict? (addressed : Addressed capacity) (length : Nat) : Option Event :=
  if length ≤ capacity ∧ Frame.trailerLength ≤ length then
    some (verdict (addressed.slots.toList.take length))
  else none

def push? (addressed : Addressed capacity) (byte : UInt8) :
    Option (Option Event × Addressed capacity) :=
  let repeated := addressed.previous == Frame.flag
  let addressed := addressed.see byte
  match addressed.phase with
  | .awaitingFlag =>
      if byte = Frame.flag then some (none, addressed.rewind .accumulating)
      else some (none, addressed)
  | .accumulating =>
      if byte = Frame.flag then
        let length := addressed.fill
        let addressed := addressed.rewind .accumulating
        if repeated || length ≤ Frame.trailerLength then some (none, addressed)
        else do return (some (← addressed.verdict? length), addressed)
      else if capacity ≤ addressed.fill then
        some (some (.dropped (.tooLong capacity)), addressed.rewind .awaitingFlag)
      else if byte = Frame.escape then some (none, addressed.mark)
      else do return (none, ← addressed.store? byte)

def heed? (addressed : Addressed capacity) : Signal → Option (Addressed capacity)
  | .push byte => (addressed.push? byte).map Prod.snd
  | .reset => some addressed.reset

def heedAll? (addressed : Addressed capacity) (history : List Signal) :
    Option (Addressed capacity) :=
  history.foldlM heed? addressed

/-- The fields are those of a deframer that keeps its bytes in a list. -/
structure Shows (addressed : Addressed capacity) (deframer : Deframer capacity) : Prop where
  phase : addressed.phase = deframer.phase
  fill : addressed.fill = deframer.fill
  held : addressed.slots.toList.take addressed.fill = deframer.held
  previous : addressed.previous = deframer.previous
  escapePending : addressed.escapePending = deframer.escapePending

end Addressed

namespace Stored

/-- The same fields, without the bound of the fill. -/
def addressed (stored : Stored capacity) : Addressed capacity where
  phase := stored.phase
  slots := stored.slots
  fill := stored.fill
  previous := stored.previous
  escapePending := stored.escapePending

@[simp] theorem phase_addressed (stored : Stored capacity) :
    stored.addressed.phase = stored.phase := rfl

@[simp] theorem fill_addressed (stored : Stored capacity) :
    stored.addressed.fill = stored.fill := rfl

@[simp] theorem previous_addressed (stored : Stored capacity) :
    stored.addressed.previous = stored.previous := rfl

@[simp] theorem see_addressed (stored : Stored capacity) (byte : UInt8) :
    stored.addressed.see byte = (stored.see byte).addressed := rfl

@[simp] theorem mark_addressed (stored : Stored capacity) :
    stored.addressed.mark = stored.mark.addressed := rfl

@[simp] theorem rewind_addressed (stored : Stored capacity) (phase : Phase) :
    stored.addressed.rewind phase = (stored.rewind phase).addressed := rfl

theorem addressed_shows (stored : Stored capacity) :
    stored.addressed.Shows stored.contents where
  phase := rfl
  fill := stored.fill_contents.symm
  held := rfl
  previous := rfl
  escapePending := rfl

theorem verdict?_addressed (stored : Stored capacity) (phase : Phase)
    (longer : ¬stored.fill ≤ Frame.trailerLength) :
    (stored.rewind phase).addressed.verdict? stored.fill = some (verdict stored.held) := by
  have enough : Frame.trailerLength ≤ stored.fill := by omega
  rw [Addressed.verdict?, if_pos ⟨stored.fill_le_capacity, enough⟩]
  rfl

theorem store?_addressed (stored : Stored capacity) (room : stored.fill < capacity)
    (byte : UInt8) :
    stored.addressed.store? byte = some (stored.store room byte).addressed := by
  have inside : stored.addressed.fill < capacity := room
  rw [Addressed.store?, dif_pos inside]
  rfl

/-- On bounded slots nothing fails. -/
theorem push?_addressed (stored : Stored capacity) (byte : UInt8) :
    stored.addressed.push? byte =
      some ((stored.push byte).1, (stored.push byte).2.addressed) := by
  -- The cases are the order of the tests: phase, flag, full, escape, other.
  unfold Addressed.push? push
  cases phase : stored.phase with
  | awaitingFlag =>
      by_cases isFlag : byte = Frame.flag
      · simp [phase, isFlag]
      · simp [phase, isFlag]
  | accumulating =>
      by_cases isFlag : byte = Frame.flag
      · by_cases short : stored.previous = Frame.flag ∨ stored.fill ≤ Frame.trailerLength
        · simp [phase, isFlag, short]
        · have longer : ¬stored.fill ≤ Frame.trailerLength := fun le => short (.inr le)
          have judged :
              ((stored.see Frame.flag).rewind .accumulating).addressed.verdict? stored.fill =
                some (verdict stored.held) :=
            (stored.see Frame.flag).verdict?_addressed .accumulating longer
          rw [not_or] at short
          simp [phase, isFlag, short, judged]
      · by_cases full : capacity ≤ stored.fill
        · simp [phase, isFlag, full]
        · by_cases isEscape : byte = Frame.escape
          · have different : Frame.escape ≠ Frame.flag := by decide
            simp [phase, full, isEscape, different]
          · have room : stored.fill < capacity := Nat.lt_of_not_le full
            have written := (stored.see byte).store?_addressed room byte
            simp [phase, isFlag, full, isEscape, written]

theorem heed?_addressed (stored : Stored capacity) (signal : Signal) :
    stored.addressed.heed? signal = some (stored.heed signal).addressed := by
  cases signal with
  | push byte =>
      rw [Addressed.heed?, push?_addressed]
      rfl
  | reset => rfl

theorem heedAll?_addressed (stored : Stored capacity) (history : List Signal) :
    stored.addressed.heedAll? history = some (stored.heedAll history).addressed := by
  induction history generalizing stored with
  | nil => rfl
  | cons signal history induction =>
      rw [Addressed.heedAll?, List.foldlM_cons, heed?_addressed]
      exact induction (stored.heed signal)

end Stored

/-- Whatever a deframer has been through, its fields belong together; the deframer that
addresses its slots by numbers has come to the same fields without a failure, and
brings the same with every further byte; a payload has at least one byte and leaves room
for a trailer; and the deframer that does not ask for repeated flags is in the same
state, and brings the same with every further byte. -/
theorem fields_stay_consistent (capacity : Nat) (history : List Signal) :
    let deframer : Deframer capacity := new.heedAll history
    deframer.Consistent ∧
      (∃ addressed : Addressed capacity,
        Addressed.new.heedAll? history = some addressed ∧ addressed.Shows deframer ∧
          ∀ byte, (addressed.push? byte).map Prod.fst = some (deframer.push byte).1) ∧
      (∀ byte payload, (deframer.push byte).1 = some (.frame payload) →
        1 ≤ payload.length ∧ payload.length + Frame.trailerLength ≤ capacity) ∧
      new.heedAllOblivious history = deframer ∧
      ∀ byte, deframer.pushOblivious byte = deframer.push byte := by
  intro deframer
  have consistent : deframer.Consistent := consistent_new.heedAll history
  let stored : Stored capacity := Stored.new.heedAll history
  have contents : stored.contents = deframer := by
    rw [Stored.contents_heedAll, Stored.contents_new]
  refine ⟨consistent, ⟨stored.addressed, ?_, ?_, ?_⟩, ?_, ?_, ?_⟩
  · exact Stored.heedAll?_addressed Stored.new history
  · rw [← contents]
    exact stored.addressed_shows
  · intro byte
    rw [Stored.push?_addressed, ← contents, Stored.push_contents]
    rfl
  · intro byte payload brought
    exact consistent.length_payload brought
  · exact consistent_new.heedAllOblivious_eq history
  · exact consistent.pushOblivious_eq

end Deframer

end FramedSerial
