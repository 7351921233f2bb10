import FramedSerial.Proofs.Checksum.Residue
import FramedSerial.Proofs.Frame.Enclosure
import Mathlib.Data.FinEnum

/-!
# One trailer for each message

Two bytes behind a message can bring the checksum of the whole to any value, and
for each value there is just one such pair.  The pair that brings it to the
complement of the residue is the checksum of the message itself.  So a receiver
that looks at the checksum of a whole frame accepts the frames that a receiver
accepts which compares the trailer with the checksum of the payload.
-/

namespace FramedSerial

namespace Checksum

theorem littleEndian_ofLittleEndian (low high : UInt8) :
    littleEndian (ofLittleEndian [low, high]) = [low, high] := by
  have lowBelow := low.toNat_lt
  have highBelow := high.toNat_lt
  have lowHalf : (ofLittleEndian [low, high]).toUInt8 = low := by
    rw [ofLittleEndian_pair]
    apply UInt8.toNat_inj.mp
    simp only [UInt16.toNat_toUInt8, UInt16.toNat_ofNat', Nat.reducePow]
    omega
  have highHalf : (ofLittleEndian [low, high] >>> 8).toUInt8 = high := by
    rw [ofLittleEndian_pair]
    apply UInt8.toNat_inj.mp
    simp only [UInt16.toNat_toUInt8, UInt16.toNat_shiftRight, UInt16.toNat_ofNat',
      UInt16.reduceToNat, Nat.shiftRight_eq_div_pow, Nat.reduceMod, Nat.reducePow]
    omega
  rw [littleEndian, lowHalf, highHalf]

/-- Every word is that of one pair of bytes. -/
theorem ofLittleEndian_eq_iff (word : UInt16) (low high : UInt8) :
    ofLittleEndian [low, high] = word ↔
      low = word.toUInt8 ∧ high = (word >>> 8).toUInt8 := by
  constructor
  · rintro rfl
    have pair := littleEndian_ofLittleEndian low high
    rw [littleEndian, List.cons.injEq, List.cons.injEq] at pair
    exact ⟨pair.1.symm, pair.2.1.symm⟩
  · rintro ⟨rfl, rfl⟩
    exact ofLittleEndian_littleEndian word

theorem ofBytes_eq_residue_iff (data : Bytes) :
    ofBytes data = ~~~residue ↔ (new.extend data).register = residue :=
  UInt16.not_inj

theorem ofBytes_append_pair (message : Bytes) (low high : UInt8) :
    ofBytes (message ++ [low, high]) =
      ~~~shifts 16 ((new.extend message).register ^^^ ofLittleEndian [low, high]) := by
  have pair : (new.extend (message ++ [low, high])).register =
      shifts 16 ((new.extend message).register ^^^ ofLittleEndian [low, high]) := by
    rw [extend_append]
    exact absorb_pair _ low high
  rw [← pair]
  rfl

/-- Behind a given message the pairs of bytes and the checksums of the whole
correspond to each other. -/
theorem ofBytes_append_bijective (message : Bytes) :
    Function.Bijective fun trailer : UInt8 × UInt8 =>
      ofBytes (message ++ [trailer.1, trailer.2]) := by
  constructor
  · rintro ⟨low, high⟩ ⟨lowOther, highOther⟩ same
    simp only [ofBytes_append_pair] at same
    have sameSum := shifts_injective 16 (UInt16.not_inj.mp same)
    have sameWord := (UInt16.xor_right_inj _).mp sameSum
    obtain ⟨sameLow, sameHigh⟩ := (ofLittleEndian_eq_iff _ low high).mp sameWord
    obtain ⟨otherLow, otherHigh⟩ :=
      (ofLittleEndian_eq_iff (ofLittleEndian [lowOther, highOther]) _ _).mp rfl
    rw [sameLow, sameHigh, ← otherLow, ← otherHigh]
  · intro checksum
    -- The moves can be undone, as there are finitely many registers.
    obtain ⟨before, moved⟩ :=
      Finite.injective_iff_surjective.mp (shifts_injective 16) (~~~checksum)
    let word := (new.extend message).register ^^^ before
    refine ⟨(word.toUInt8, (word >>> 8).toUInt8), ?_⟩
    have pair : ofLittleEndian [word.toUInt8, (word >>> 8).toUInt8] = word :=
      ofLittleEndian_littleEndian word
    simp only [ofBytes_append_pair]
    rw [pair, ← UInt16.xor_assoc, UInt16.xor_self, UInt16.zero_xor, moved, UInt16.not_not]

end Checksum

namespace Deframer

variable {capacity : Nat}

/-- A frame is accepted if its checksum, trailer included, is the complement of
the residue, and only then. -/
theorem verdict_accepts_iff {frame : Bytes} (longer : Frame.trailerLength ≤ frame.length) :
    (∃ payload, verdict frame = .frame payload) ↔
      Checksum.ofBytes frame = ~~~Checksum.residue := by
  obtain ⟨message, trailer, rfl, length⟩ := Frame.exists_trailer longer
  rw [Checksum.ofBytes_eq_residue_iff, Checksum.extend_eq_residue_iff message trailer length,
    verdict_append message trailer length]
  split
  · next same => exact iff_of_true ⟨message, rfl⟩ same
  · next different =>
      refine iff_of_false ?_ different
      rintro ⟨payload, impossible⟩
      cases impossible

/-- The flag behind a segment that fits, whatever came before the segment. -/
theorem push_flag_behind (deframer : Deframer capacity) {segment : Bytes}
    (flagFree : Frame.flag ∉ segment) (fits : overflowAt? capacity segment = none)
    (longer : Frame.trailerLength < (Frame.unstuff segment).length) :
    ((deframer.after (Frame.flag :: segment)).push Frame.flag).1 =
      some (verdict (Frame.unstuff segment)) := by
  have notShort : ¬(Frame.unstuff segment).length ≤ Frame.trailerLength := by omega
  rw [after_cons, push_flag_snd, after_begun flagFree, push_flag_within segment flagFree,
    closing, fits, ending_eq, if_neg notShort]
  rfl

/-- The complement of the residue tells the frames that are accepted: the checksum
of a message with two bytes behind it is that value if these bytes are the
checksum of the message, low byte first, and only then; the verdict on a frame and
the flag that closes a segment accept by it; and like that value every other one
is brought about by one pair of bytes alone. -/
theorem accepts_by_residue :
    ~~~Checksum.residue = 0x0F47 ∧
      (∀ message low high,
        Checksum.ofBytes (message ++ [low, high]) = ~~~Checksum.residue ↔
          low = (Checksum.ofBytes message).toUInt8 ∧
            high = (Checksum.ofBytes message >>> 8).toUInt8) ∧
      (∀ frame, Frame.trailerLength < frame.length →
        ((∃ payload, verdict frame = .frame payload) ↔
          Checksum.ofBytes frame = ~~~Checksum.residue)) ∧
      (∀ capacity (deframer : Deframer capacity) segment, Frame.flag ∉ segment →
        overflowAt? capacity segment = none →
        Frame.trailerLength < (Frame.unstuff segment).length →
        ((∃ payload, ((deframer.after (Frame.flag :: segment)).push Frame.flag).1 =
            some (.frame payload)) ↔
          Checksum.ofBytes (Frame.unstuff segment) = ~~~Checksum.residue)) ∧
      ∀ message checksum, ∃! trailer : UInt8 × UInt8,
        Checksum.ofBytes (message ++ [trailer.1, trailer.2]) = checksum := by
  refine ⟨by decide, ?_, ?_, ?_, ?_⟩
  · intro message low high
    rw [Checksum.ofBytes_eq_residue_iff,
      Checksum.extend_eq_residue_iff message [low, high] rfl,
      ← Checksum.ofLittleEndian_eq_iff, eq_comm]
  · intro frame longer
    exact verdict_accepts_iff longer.le
  · intro capacity deframer segment flagFree fits longer
    rw [← verdict_accepts_iff longer.le, push_flag_behind deframer flagFree fits longer]
    simp only [Option.some.injEq]
  · intro message checksum
    exact (Checksum.ofBytes_append_bijective message).existsUnique checksum

/-- A segment in which the first byte of the trailer is escaped without need. -/
theorem escaped_trailer_is_accepted :
    Frame.flag ∉ ([0x41, 0x7D, 0xD5, 0xA3] : Bytes) ∧
      overflowAt? 3 [0x41, 0x7D, 0xD5, 0xA3] = none ∧
      Frame.trailerLength < (Frame.unstuff [0x41, 0x7D, 0xD5, 0xA3]).length ∧
      (∃ payload, verdict [0x41, 0xF5, 0xA3] = .frame payload) ∧
      ∃ payload, (((new : Deframer 3).after
        [0x7E, 0x41, 0x7D, 0xD5, 0xA3]).push Frame.flag).1 = some (.frame payload) := by
  have flagFree : Frame.flag ∉ ([0x41, 0x7D, 0xD5, 0xA3] : Bytes) := by decide
  have fits : overflowAt? 3 [0x41, 0x7D, 0xD5, 0xA3] = none := by decide
  have unstuffed : Frame.unstuff [0x41, 0x7D, 0xD5, 0xA3] = [0x41, 0xF5, 0xA3] := by decide
  have longer : Frame.trailerLength < (Frame.unstuff [0x41, 0x7D, 0xD5, 0xA3]).length := by
    decide
  have isResidue : Checksum.ofBytes [0x41, 0xF5, 0xA3] = ~~~Checksum.residue := by
    decide +kernel
  obtain ⟨_, _, judged, closed, _⟩ := accepts_by_residue
  refine ⟨flagFree, fits, longer, ?_, ?_⟩
  · exact (judged [0x41, 0xF5, 0xA3] (by decide)).mpr isResidue
  · apply (closed 3 new [0x41, 0x7D, 0xD5, 0xA3] flagFree fits longer).mpr
    rw [unstuffed]
    exact isResidue

end Deframer

end FramedSerial
