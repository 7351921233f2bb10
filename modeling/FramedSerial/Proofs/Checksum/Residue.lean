import FramedSerial.Proofs.Checksum.Register
import FramedSerial.Proofs.Frame.Trailer

/-!
# Accepting a frame by what is left in the register

A receiver may compute the checksum of the payload and compare it with the
trailer, or let the register run over the whole frame and look at what is left.
Both come to the same: a register that takes in its own checksum holds the
residue, and after no other two bytes does it hold the residue.
-/

namespace FramedSerial

namespace Checksum

/-- The two halves of a word have no bit in common, so to join them is to add them. -/
theorem ofLittleEndian_eq_xor (low high : UInt8) :
    ofLittleEndian [low, high] = low.toUInt16 ^^^ (high.toUInt16 <<< 8) := by
  apply UInt16.toBitVec_inj.mp
  apply BitVec.eq_of_getLsbD_eq
  intro place below
  by_cases inLow : place < 8
  · simp [ofLittleEndian, inLow]
  · have outside : low.toBitVec.getLsbD place = false :=
      BitVec.getLsbD_of_ge _ _ (by omega)
    simp [ofLittleEndian, inLow, outside]

/-- A high half alone moves down unchanged. -/
theorem shifts_high (byte : UInt8) : shifts 8 (byte.toUInt16 <<< 8) = byte.toUInt16 := by
  have below := byte.toNat_lt
  have lowHalf : (byte.toUInt16 <<< 8).toUInt8 = 0 := by
    apply UInt8.toNat_inj.mp
    simp [Nat.shiftLeft_eq]
  have highHalf : (byte.toUInt16 <<< 8) >>> 8 = byte.toUInt16 := by
    apply UInt16.toNat_inj.mp
    simp [Nat.shiftLeft_eq, Nat.shiftRight_eq_div_pow]
    omega
  have nothing : shifts 8 (UInt8.toUInt16 0) = 0 := shifts_zero 8
  rw [shifts_eight, lowHalf, highHalf, nothing, UInt16.zero_xor]

/-- Two bytes at once. -/
theorem absorb_pair (register : UInt16) (low high : UInt8) :
    absorb (absorb register low) high =
      shifts 16 (register ^^^ ofLittleEndian [low, high]) := by
  rw [absorb_eq_absorbBits, absorb_eq_absorbBits, absorbBits, absorbBits,
    ofLittleEndian_eq_xor, shifts_add 8 8, ← UInt16.xor_assoc,
    shifts_xor 8 (register ^^^ low.toUInt16), shifts_high]

theorem extend_pair_eq_residue_iff (checksum : Checksum) (low high : UInt8) :
    (checksum.extend [low, high]).register = residue ↔
      ofLittleEndian [low, high] = checksum.value := by
  have settled : residue = shifts 16 0xFFFF := by decide +kernel
  have allSet : (0xFFFF : UInt16) = -1 := by decide
  have complement : checksum.value = checksum.register ^^^ 0xFFFF := by
    rw [allSet, UInt16.xor_neg_one, value]
  have pair : (checksum.extend [low, high]).register =
      shifts 16 (checksum.register ^^^ ofLittleEndian [low, high]) :=
    absorb_pair checksum.register low high
  rw [pair, settled, (shifts_injective 16).eq_iff, complement]
  constructor
  · intro sum
    rw [← sum, ← UInt16.xor_assoc, UInt16.xor_self, UInt16.zero_xor]
  · intro same
    rw [same, ← UInt16.xor_assoc, UInt16.xor_self, UInt16.zero_xor]

/-- A message leaves the residue exactly if its last two bytes are the checksum of
the others. -/
theorem extend_eq_residue_iff (message trailer : Bytes)
    (length : trailer.length = Frame.trailerLength) :
    (new.extend (message ++ trailer)).register = residue ↔
      ofBytes message = ofLittleEndian trailer := by
  match trailer, length with
  | [low, high], _ =>
      rw [extend_append, extend_pair_eq_residue_iff, eq_comm]
      rfl

theorem extend_trailer (payload : Bytes) :
    (new.extend (payload ++ Frame.trailer payload)).register = residue := by
  apply (extend_eq_residue_iff payload (Frame.trailer payload) rfl).mpr
  rw [Frame.trailer, ofLittleEndian_littleEndian]

end Checksum

namespace Frame

/-- What is long enough for a trailer ends in one. -/
theorem exists_trailer {frame : Bytes} (longer : trailerLength ≤ frame.length) :
    ∃ message trailer : Bytes,
      frame = message ++ trailer ∧ trailer.length = trailerLength := by
  refine ⟨frame.take (frame.length - trailerLength),
    frame.drop (frame.length - trailerLength), ?_, ?_⟩
  · rw [List.take_append_drop]
  · rw [List.length_drop]
    omega

end Frame

namespace Deframer

/-- A frame that leaves anything but the residue is reported with two different
checksums. -/
theorem verdict_of_no_residue {frame : Bytes} (longer : Frame.trailerLength ≤ frame.length)
    (notResidue : (Checksum.new.extend frame).register ≠ Checksum.residue) :
    ∃ computed received, computed ≠ received ∧
      verdict frame = .dropped (.badChecksum computed received) := by
  obtain ⟨message, trailer, rfl, length⟩ := Frame.exists_trailer longer
  rw [ne_eq, Checksum.extend_eq_residue_iff message trailer length] at notResidue
  refine ⟨_, _, notResidue, ?_⟩
  rw [verdict_append message trailer length, if_neg notResidue]

end Deframer

end FramedSerial
