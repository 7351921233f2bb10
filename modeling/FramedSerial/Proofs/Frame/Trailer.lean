import FramedSerial.Frame.Deframer

/-!
# The trailer of a frame

The two bytes behind a payload stand for a number, the low byte first.  The
verdict on a frame compares that number with the checksum of what comes before
it, so it accepts every frame whose trailer was made from its payload.
-/

namespace FramedSerial

namespace Checksum

theorem ofLittleEndian_pair (low high : UInt8) :
    ofLittleEndian [low, high] = UInt16.ofNat (low.toNat + 256 * high.toNat) := by
  have lowBelow := low.toNat_lt
  have highBelow := high.toNat_lt
  have joined : high.toNat <<< 8 ||| low.toNat = high.toNat <<< 8 + low.toNat :=
    (Nat.shiftLeft_add_eq_or_of_lt (by omega) high.toNat).symm
  apply UInt16.toNat_inj.mp
  simp only [ofLittleEndian, List.foldr_cons, List.foldr_nil, UInt16.zero_shiftLeft,
    UInt16.zero_or, UInt16.toNat_or, UInt16.toNat_shiftLeft, UInt8.toNat_toUInt16,
    UInt16.reduceToNat, UInt16.toNat_ofNat', Nat.reduceMod]
  rw [Nat.shiftLeft_eq] at joined ⊢
  rw [Nat.mod_eq_of_lt (by omega), joined]
  omega

@[simp] theorem ofLittleEndian_littleEndian (word : UInt16) :
    ofLittleEndian (littleEndian word) = word := by
  have below := word.toNat_lt
  rw [littleEndian, ofLittleEndian_pair]
  apply UInt16.toNat_inj.mp
  simp only [UInt16.toNat_ofNat', UInt16.toNat_toUInt8, UInt16.toNat_shiftRight,
    UInt16.reduceToNat, Nat.shiftRight_eq_div_pow, Nat.reduceMod, Nat.reducePow]
  omega

end Checksum

namespace Deframer

theorem verdict_append (payload trailer : Bytes)
    (length : trailer.length = Frame.trailerLength) :
    verdict (payload ++ trailer) =
      if Checksum.ofBytes payload = Checksum.ofLittleEndian trailer then .frame payload
      else .dropped (.badChecksum (Checksum.ofBytes payload)
        (Checksum.ofLittleEndian trailer)) := by
  have same : (payload ++ trailer).length - Frame.trailerLength = payload.length := by
    rw [List.length_append, length]
    omega
  simp only [verdict, same, List.take_left, List.drop_left]

@[simp] theorem verdict_append_trailer (payload : Bytes) :
    verdict (payload ++ Frame.trailer payload) = .frame payload := by
  rw [verdict_append _ _ rfl, Frame.trailer, Checksum.ofLittleEndian_littleEndian,
    if_pos rfl]

theorem length_of_verdict {frame payload : Bytes}
    (accepted : verdict frame = .frame payload) :
    payload.length = frame.length - Frame.trailerLength := by
  unfold verdict at accepted
  dsimp only at accepted
  split at accepted
  · cases accepted
    rw [List.length_take]
    omega
  · cases accepted

end Deframer

end FramedSerial
