import FramedSerial.Proofs.Checksum.Period
import FramedSerial.Proofs.Checksum.Residue
import FramedSerial.Proofs.Frame.Enclosure

/-!
# Errors that a deframer detects

A frame whose stored bytes have been changed, but not their number, is still one
frame to a deframer.  It is reported at its closing flag if the wrong bits leave
something in the register: so it is for every burst of up to sixteen bits, for
every odd number of wrong bits, and for any two of them in a frame that is not too
long.
-/

namespace FramedSerial

namespace Frame

/-- The bytes of a frame before they are stuffed: the payload and its trailer. -/
def body (payload : Bytes) : Bytes :=
  payload ++ trailer payload

theorem length_body (payload : Bytes) :
    (body payload).length = payload.length + trailerLength :=
  List.length_append

theorem body_letter : body [0x41] = [0x41, 0xF5, 0xA3] := by
  decide +kernel

end Frame

namespace Deframer

variable {capacity : Nat} {payload received : Bytes}

/-- The deframer reads a changed body as one frame, and reports two different
checksums at its closing flag and nothing else. -/
def ReportedAtEnd (capacity : Nat) (received : Bytes) : Prop :=
  ∃ computed found, computed ≠ found ∧
    (new : Deframer capacity).outcomes (Frame.enclose (Frame.stuff received)) =
      List.replicate ((Frame.stuff received).length + 1) none ++
        [some (.dropped (.badChecksum computed found))]

/-- Wrong bits that leave something in the register are reported. -/
theorem reportedAtEnd_of_echoes (notEmpty : payload ≠ [])
    (fits : payload.length + Frame.trailerLength ≤ capacity)
    (sameLength : received.length = (Frame.body payload).length)
    (left : Checksum.echoes (8 * (Frame.body payload).length)
      (Bytes.differences (Frame.body payload) received) ≠ 0) :
    ReportedAtEnd capacity received := by
  have positive := List.length_pos_iff.mpr notEmpty
  have length := Frame.length_body payload
  have untouched : (Checksum.new.extend (Frame.body payload)).register = Checksum.residue :=
    Checksum.extend_trailer payload
  have difference := Checksum.extend_xor_extend_same Checksum.new sameLength.symm
  have notResidue : (Checksum.new.extend received).register ≠ Checksum.residue := by
    intro isResidue
    rw [untouched, isResidue, UInt16.xor_self] at difference
    exact left difference.symm
  obtain ⟨computed, found, unequal, judged⟩ := verdict_of_no_residue (by omega) notResidue
  refine ⟨computed, found, unequal, ?_⟩
  rw [outcomes_enclose_stuff (by omega) (by omega), judged]

/-- A burst of up to sixteen bits is reported, wherever it stands in the body. -/
theorem burst_is_caught {start : Nat} (notEmpty : payload ≠ [])
    (fits : payload.length + Frame.trailerLength ≤ capacity)
    (sameLength : received.length = (Frame.body payload).length)
    (wrong : Bytes.differences (Frame.body payload) received ≠ [])
    (inWindow : ∀ place ∈ Bytes.differences (Frame.body payload) received,
      start ≤ place ∧ place < start + 16) :
    ReportedAtEnd capacity received := by
  apply reportedAtEnd_of_echoes notEmpty fits sameLength
  apply Checksum.echoes_ne_zero_of_burst wrong
  · exact Bytes.differences_sorted _ _
  · intro place member
    exact Bytes.lt_of_mem_differences member
  · exact inWindow

/-- Sixteen wrong bits in a row, the first in the payload and the others in the
trailer. -/
theorem straddling_burst_is_caught :
    ([0x41] : Bytes) ≠ [] ∧ ([0x41] : Bytes).length + Frame.trailerLength ≤ 3 ∧
      ([0xC1, 0x0A, 0xDC] : Bytes).length = (Frame.body [0x41]).length ∧
      Bytes.differences (Frame.body [0x41]) [0xC1, 0x0A, 0xDC] ≠ [] ∧
      (∀ place ∈ Bytes.differences (Frame.body [0x41]) [0xC1, 0x0A, 0xDC],
        7 ≤ place ∧ place < 7 + 16) ∧
      ReportedAtEnd 3 [0xC1, 0x0A, 0xDC] := by
  have notEmpty : ([0x41] : Bytes) ≠ [] := by decide
  have fits : ([0x41] : Bytes).length + Frame.trailerLength ≤ 3 := by decide
  have sameLength : ([0xC1, 0x0A, 0xDC] : Bytes).length = (Frame.body [0x41]).length := by
    rw [Frame.body_letter]
    rfl
  have places : Bytes.differences (Frame.body [0x41]) [0xC1, 0x0A, 0xDC] =
      [7, 8, 9, 10, 11, 12, 13, 14, 15, 16, 17, 18, 19, 20, 21, 22] := by
    rw [Frame.body_letter]
    decide
  have wrong : Bytes.differences (Frame.body [0x41]) [0xC1, 0x0A, 0xDC] ≠ [] := by
    rw [places]
    exact List.cons_ne_nil _ _
  have inWindow : ∀ place ∈ Bytes.differences (Frame.body [0x41]) [0xC1, 0x0A, 0xDC],
      7 ≤ place ∧ place < 7 + 16 := by
    rw [places]
    decide
  exact ⟨notEmpty, fits, sameLength, wrong, inWindow,
    burst_is_caught notEmpty fits sameLength wrong inWindow⟩

/-- An odd number of wrong bits is reported, and so are two wrong bits in a body of up
to 4095 bytes. -/
theorem scattered_errors_are_caught (notEmpty : payload ≠ [])
    (fits : payload.length + Frame.trailerLength ≤ capacity)
    (sameLength : received.length = (Frame.body payload).length)
    (wrong : (Bytes.differences (Frame.body payload) received).length % 2 = 1 ∨
      (Bytes.differences (Frame.body payload) received).length = 2 ∧
        (Frame.body payload).length ≤ 4095) :
    ReportedAtEnd capacity received := by
  apply reportedAtEnd_of_echoes notEmpty fits sameLength
  rcases wrong with odd | ⟨two, short⟩
  · exact Checksum.echoes_ne_zero_of_odd odd
  · apply Checksum.echoes_ne_zero_of_pair two
    · exact Bytes.differences_sorted _ _
    · intro place member
      exact Bytes.lt_of_mem_differences member
    · have enough : 8 * 4095 ≤ Checksum.period := by decide
      omega

/-- Two wrong bits, the first of the payload and the last of the trailer. -/
theorem distant_pair_is_caught :
    ([0x41] : Bytes) ≠ [] ∧ ([0x41] : Bytes).length + Frame.trailerLength ≤ 3 ∧
      ([0x40, 0xF5, 0x23] : Bytes).length = (Frame.body [0x41]).length ∧
      ((Bytes.differences (Frame.body [0x41]) [0x40, 0xF5, 0x23]).length % 2 = 1 ∨
        (Bytes.differences (Frame.body [0x41]) [0x40, 0xF5, 0x23]).length = 2 ∧
          (Frame.body [0x41]).length ≤ 4095) ∧
      ReportedAtEnd 3 [0x40, 0xF5, 0x23] := by
  have notEmpty : ([0x41] : Bytes) ≠ [] := by decide
  have fits : ([0x41] : Bytes).length + Frame.trailerLength ≤ 3 := by decide
  have sameLength : ([0x40, 0xF5, 0x23] : Bytes).length = (Frame.body [0x41]).length := by
    rw [Frame.body_letter]
    rfl
  have wrong : (Bytes.differences (Frame.body [0x41]) [0x40, 0xF5, 0x23]).length % 2 = 1 ∨
      (Bytes.differences (Frame.body [0x41]) [0x40, 0xF5, 0x23]).length = 2 ∧
        (Frame.body [0x41]).length ≤ 4095 := by
    rw [Frame.body_letter]
    decide
  exact ⟨notEmpty, fits, sameLength, wrong,
    scattered_errors_are_caught notEmpty fits sameLength wrong⟩

end Deframer

end FramedSerial
