/-!
# Byte strings

Everything on the line, in a queue or in a buffer is a list of bytes.  The two
operations here are those that a list library does not have under one name:
writing into the front of a buffer, and cutting data into pieces of bounded
size.
-/

namespace FramedSerial

abbrev Bytes := List UInt8

namespace Bytes

/-- The buffer with its front replaced by `data`; what lies behind the data is
left as it was. -/
def overwrite (buffer data : Bytes) : Bytes :=
  data ++ buffer.drop data.length

/-- Cuts `data` into pieces of `size` bytes; only the last one may be shorter. -/
def pieces (size : Nat) (positive : 0 < size) (data : Bytes) : List Bytes :=
  match data with
  | [] => []
  | first :: rest =>
      (first :: rest).take size :: pieces size positive ((first :: rest).drop size)
termination_by data.length
decreasing_by
  simp only [List.length_drop, List.length_cons]
  omega

/-- Nothing is lost or reordered by cutting. -/
theorem flatten_pieces (size : Nat) (positive : 0 < size) (data : Bytes) :
    (pieces size positive data).flatten = data := by
  induction data using pieces.induct size positive with
  | case1 => simp [pieces]
  | case2 first rest induction =>
      rw [pieces, List.flatten_cons, induction, List.take_append_drop]

theorem length_le_of_mem_pieces {size : Nat} {positive : 0 < size} {data piece : Bytes}
    (member : piece ∈ pieces size positive data) : piece.length ≤ size := by
  induction data using pieces.induct size positive with
  | case1 => simp [pieces] at member
  | case2 first rest induction =>
      rw [pieces] at member
      rcases List.mem_cons.mp member with rfl | later
      · exact List.length_take_le size _
      · exact induction later

end Bytes

end FramedSerial
