import FramedSerial.Frame.Encoding

/-!
# Undoing escapes

`unstuff` takes the escapes out of the inside of a frame, from left to right.
It is defined on every run of bytes and not only on what `stuff` returns: an
escape stores nothing and marks the byte behind it, repeated escapes mark it
once, and an escape at the end is dropped.

Besides `unstuff_stuff`, this module counts the bytes that a cut through a
stuffed run leaves: a cut in front of the end always loses a byte.
-/

namespace FramedSerial

namespace Frame

/-- A run of bytes without its escapes.  `marked` tells whether an escape stood
before the run. -/
def unstuffFrom : (marked : Bool) → Bytes → Bytes
  | _, [] => []
  | marked, byte :: rest =>
      if byte = escape then unstuffFrom true rest
      else (if marked then byte ^^^ escapeMask else byte) :: unstuffFrom false rest

def unstuff (data : Bytes) : Bytes :=
  unstuffFrom false data

/-- Whether the byte behind a run is a marked one. -/
def markedAfter (marked : Bool) (data : Bytes) : Bool :=
  data.foldl (fun _ byte => byte == escape) marked

@[simp] theorem unstuff_nil : unstuff [] = [] := rfl

theorem unstuffFrom_append (marked : Bool) (front back : Bytes) :
    unstuffFrom marked (front ++ back) =
      unstuffFrom marked front ++ unstuffFrom (markedAfter marked front) back := by
  induction front generalizing marked with
  | nil => rfl
  | cons byte front induction =>
      by_cases same : byte = escape
      · simp [unstuffFrom, markedAfter, same, induction]
      · have unmarked : (byte == escape) = false := by simpa using same
        simp [unstuffFrom, markedAfter, same, unmarked, induction]

theorem unstuff_concat (data : Bytes) (byte : UInt8) :
    unstuff (data ++ [byte]) =
      unstuff data ++
        if byte = escape then []
        else [if markedAfter false data then byte ^^^ escapeMask else byte] := by
  rw [unstuff, unstuffFrom_append]
  by_cases same : byte = escape
  · simp [unstuff, unstuffFrom, same]
  · simp [unstuff, unstuffFrom, same]

@[simp] theorem markedAfter_concat (marked : Bool) (data : Bytes) (byte : UInt8) :
    markedAfter marked (data ++ [byte]) = (byte == escape) := by
  simp [markedAfter]

theorem reserved_cases {byte : UInt8} (isReserved : reserved byte = true) :
    byte = flag ∨ byte = escape := by
  simpa [reserved] using isReserved

theorem plain_cases {byte : UInt8} (isPlain : ¬reserved byte = true) :
    byte ≠ flag ∧ byte ≠ escape := by
  simpa [reserved] using isPlain

theorem flag_not_mem_stuffByte (byte : UInt8) : flag ∉ stuffByte byte := by
  by_cases isReserved : reserved byte = true
  · rcases reserved_cases isReserved with rfl | rfl
    · decide
    · decide
  · have different := (plain_cases isReserved).1
    simpa [stuffByte, isReserved] using different.symm

theorem flag_not_mem_stuff (data : Bytes) : flag ∉ stuff data := by
  intro member
  obtain ⟨byte, _, inside⟩ := List.mem_flatMap.mp member
  exact flag_not_mem_stuffByte byte inside

/-- A byte that was stuffed is the first one to come out again. -/
theorem unstuff_stuffByte_append (byte : UInt8) (rest : Bytes) :
    unstuff (stuffByte byte ++ rest) = byte :: unstuff rest := by
  by_cases isReserved : reserved byte = true
  · rcases reserved_cases isReserved with rfl | rfl
    · rfl
    · rfl
  · have different := (plain_cases isReserved).2
    simp [stuffByte, isReserved, unstuff, unstuffFrom, different]

theorem unstuff_stuff_append (data rest : Bytes) :
    unstuff (stuff data ++ rest) = data ++ unstuff rest := by
  induction data with
  | nil => rfl
  | cons byte data induction =>
      rw [stuff_cons, List.append_assoc, unstuff_stuffByte_append, induction,
        List.cons_append]

theorem unstuff_stuff (data : Bytes) : unstuff (stuff data) = data := by
  simpa using unstuff_stuff_append data []

/-- Each reserved byte costs one more byte on the line. -/
theorem length_stuff (data : Bytes) :
    (stuff data).length = data.length + data.countP reserved := by
  induction data with
  | nil => rfl
  | cons byte data induction =>
      rw [stuff_cons, List.length_append, induction, List.length_cons, List.countP_cons,
        stuffByte]
      split
      · simp only [List.length_cons, List.length_nil]
        omega
      · simp only [List.length_singleton]
        omega

/-- At worst the payload and both checksum bytes are reserved throughout. -/
theorem length_encode_le (payload : Bytes) :
    (encode payload).length ≤ maxEncodedLength payload.length := by
  have form : (encode payload).length = (stuff (payload ++ trailer payload)).length + 2 := by
    rw [encode, List.length_append, List.length_cons, List.length_singleton]
  have body : (payload ++ trailer payload).length = payload.length + trailerLength :=
    List.length_append
  have reservedMost := @List.countP_le_length _ reserved (payload ++ trailer payload)
  rw [form, length_stuff, maxEncodedLength, ← body]
  omega

/-- Of a stuffed byte nothing comes out before it is complete. -/
private theorem unstuff_take_stuffByte {byte : UInt8} {count : Nat}
    (short : count < (stuffByte byte).length) :
    unstuff ((stuffByte byte).take count) = [] := by
  by_cases isReserved : reserved byte = true
  · have form : stuffByte byte = [escape, byte ^^^ escapeMask] := by
      simp [stuffByte, isReserved]
    rw [form] at short ⊢
    match count, short with
    | 0, _ => rfl
    | 1, _ => rfl
  · have form : stuffByte byte = [byte] := by
      simp [stuffByte, isReserved]
    rw [form] at short ⊢
    match count, short with
    | 0, _ => rfl

/-- A stuffed run that is cut short has lost at least one byte. -/
theorem length_unstuff_take_stuff {data : Bytes} {count : Nat}
    (short : count < (stuff data).length) :
    (unstuff ((stuff data).take count)).length < data.length := by
  induction data generalizing count with
  | nil => simp at short
  | cons byte data induction =>
      rw [stuff_cons, List.length_append] at short
      by_cases inFirst : count < (stuffByte byte).length
      · rw [stuff_cons, List.take_append_of_le_length (Nat.le_of_lt inFirst),
          unstuff_take_stuffByte inFirst]
        simp
      · have inLater : count - (stuffByte byte).length < (stuff data).length := by
          omega
        have fewer := induction inLater
        rw [stuff_cons, List.take_append, List.take_of_length_le (by omega),
          unstuff_stuffByte_append]
        simp only [List.length_cons]
        omega

end Frame

end FramedSerial
