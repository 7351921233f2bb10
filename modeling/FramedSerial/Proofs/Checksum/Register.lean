import FramedSerial.Checksum
import Mathlib.Data.Nat.Bitwise

/-!
# The register as a linear machine

Registers are added bit by bit.  Moving a register respects sums, so what holds
of the sixteen registers with a single bit, and with two registers of their sum,
holds of all (`register_induction`).  In this way the step by the table is found
to be the step bit by bit.

No two registers are moved to the same one, and no two bytes act on a register
in the same way: a step can be undone on either side.
-/

namespace FramedSerial

namespace Checksum

/-- The register in which one bit is set. -/
def single (place : Nat) : UInt16 :=
  UInt16.ofNat (2 ^ place)

/-- Taking the highest bit away leaves a smaller number. -/
private theorem xor_two_pow_lt {width number : Nat} (small : number < 2 ^ (width + 1))
    (large : 2 ^ width ≤ number) : number ^^^ 2 ^ width < 2 ^ width := by
  apply Nat.lt_pow_two_of_testBit
  intro place above
  rw [Nat.testBit_xor, Nat.testBit_two_pow]
  rcases Nat.eq_or_lt_of_le above with rfl | higher
  · have isSet := Nat.testBit_of_two_pow_le_and_two_pow_add_one_gt large small
    simp [isSet]
  · have beyond := Nat.testBit_lt_two_pow (Nat.lt_of_lt_of_le small
      (Nat.pow_le_pow_right (by decide) higher))
    have different : width ≠ place := by omega
    simp [beyond, different]

theorem register_induction {motive : UInt16 → Prop}
    (ofSingle : ∀ place < 16, motive (single place))
    (ofSum : ∀ left right, motive left → motive right → motive (left ^^^ right))
    (register : UInt16) : motive register := by
  have below : ∀ width ≤ 16, ∀ number < 2 ^ width, motive (UInt16.ofNat number) := by
    intro width
    induction width with
    | zero =>
        intro _ number isZero
        have zero : number = 0 := by omega
        have first := ofSingle 0 (by decide)
        rw [zero]
        exact ofSum (single 0) (single 0) first first
    | succ width induction =>
        intro bounded number small
        by_cases fits : number < 2 ^ width
        · exact induction (by omega) number fits
        · have rest := xor_two_pow_lt small (by omega)
          have sum : number = (number ^^^ 2 ^ width) ^^^ 2 ^ width := by
            rw [Nat.xor_assoc, Nat.xor_self, Nat.xor_zero]
          rw [sum, UInt16.ofNat_xor]
          apply ofSum
          · exact induction (by omega) _ rest
          · exact ofSingle width (by omega)
  have all := below 16 (Nat.le_refl 16) register.toNat register.toNat_lt
  rwa [UInt16.ofNat_toNat] at all

theorem xor_xor_xor_comm (first second third fourth : UInt16) :
    (first ^^^ second) ^^^ (third ^^^ fourth) =
      (first ^^^ third) ^^^ (second ^^^ fourth) := by
  ac_rfl

/-- Whether the bit that the next move takes out is set. -/
def lowest (register : UInt16) : Bool :=
  register.toNat.testBit 0

theorem shift_eq (register : UInt16) :
    shift register = (register >>> 1) ^^^ if lowest register then polynomial else 0 := by
  have same : register &&& 1 = 1 ↔ lowest register = true := by
    rw [← UInt16.toNat_inj, UInt16.toNat_and, lowest, Nat.testBit_zero, decide_eq_true_iff]
    exact iff_of_eq (congrArg (· = 1) (Nat.and_one_is_mod _))
  unfold shift
  by_cases isSet : lowest register = true
  · rw [if_pos (same.mpr isSet), if_pos isSet]
  · rw [if_neg (mt same.mp isSet), if_neg isSet, UInt16.xor_zero]

@[simp] theorem shift_xor (left right : UInt16) :
    shift (left ^^^ right) = shift left ^^^ shift right := by
  have lowestSum : lowest (left ^^^ right) = (lowest left ^^ lowest right) := by
    rw [lowest, UInt16.toNat_xor, Nat.testBit_xor]
    rfl
  rw [shift_eq, shift_eq, shift_eq, lowestSum, UInt16.shiftRight_xor, xor_xor_xor_comm]
  cases lowest left with
  | false =>
      cases lowest right with
      | false => rfl
      | true => rfl
  | true =>
      cases lowest right with
      | false => rfl
      | true => rfl

@[simp] theorem shifts_xor (count : Nat) (left right : UInt16) :
    shifts count (left ^^^ right) = shifts count left ^^^ shifts count right := by
  induction count generalizing left right with
  | zero => rfl
  | succ count induction => rw [shifts, shift_xor, induction, shifts, shifts]

@[simp] theorem shifts_zero (count : Nat) : shifts count 0 = 0 := by
  induction count with
  | zero => rfl
  | succ count induction => exact induction

theorem shifts_add (first second : Nat) (register : UInt16) :
    shifts (first + second) register = shifts second (shifts first register) := by
  induction first generalizing register with
  | zero => rw [Nat.zero_add, shifts]
  | succ first induction => rw [Nat.succ_add, shifts, induction, shifts]

theorem shifts_succ (count : Nat) (register : UInt16) :
    shifts (count + 1) register = shift (shifts count register) :=
  shifts_add count 1 register

/-- The highest bit of a moved register is that of the polynomial, if that was
added at all. -/
theorem eq_zero_of_shift {register : UInt16} (moved : shift register = 0) :
    register = 0 := by
  have below := register.toNat_lt
  rw [shift_eq, UInt16.xor_eq_zero_iff, ← UInt16.toNat_inj, UInt16.toNat_shiftRight] at moved
  have half : register.toNat >>> (UInt16.toNat 1 % 16) = register.toNat / 2 :=
    Nat.shiftRight_eq_div_pow _ 1
  rw [half] at moved
  by_cases isSet : lowest register = true
  · rw [if_pos isSet] at moved
    have large : polynomial.toNat = 0x8408 := rfl
    omega
  · rw [if_neg isSet] at moved
    have nothing : UInt16.toNat 0 = 0 := rfl
    rw [lowest, Nat.testBit_zero, decide_eq_true_iff] at isSet
    apply UInt16.toNat_inj.mp
    omega

theorem shift_injective : Function.Injective shift := by
  intro left right equality
  apply UInt16.xor_eq_zero_iff.mp
  apply eq_zero_of_shift
  rw [shift_xor, equality, UInt16.xor_self]

theorem shifts_injective (count : Nat) : Function.Injective (shifts count) := by
  induction count with
  | zero => exact fun _ _ equality => equality
  | succ count induction => exact induction.comp shift_injective

theorem shifts_eq_zero_iff {count : Nat} {register : UInt16} :
    shifts count register = 0 ↔ register = 0 := by
  constructor
  · intro moved
    exact shifts_injective count (moved.trans (shifts_zero count).symm)
  · rintro rfl
    exact shifts_zero count

/-- Eight moves let the high half move down and replace the low half. -/
theorem shifts_eight (register : UInt16) :
    shifts 8 register = shifts 8 register.toUInt8.toUInt16 ^^^ (register >>> 8) := by
  induction register using register_induction with
  | ofSingle place below =>
      revert place
      decide
  | ofSum left right leftEq rightEq =>
      rw [shifts_xor, leftEq, rightEq, UInt16.toUInt8_xor, UInt8.toUInt16_xor, shifts_xor,
        UInt16.shiftRight_xor, xor_xor_xor_comm]

/-- The step by the table is the step bit by bit. -/
theorem absorb_eq_absorbBits (register : UInt16) (byte : UInt8) :
    absorb register byte = absorbBits register byte := by
  have entry : absorb register byte =
      shifts 8 (register.toUInt8 ^^^ byte).toUInt16 ^^^ (register >>> 8) := by
    rw [absorb, remainders, Vector.getElem_ofFn, UInt16.ofNat_uInt8ToNat]
  rw [entry, absorbBits, UInt8.toUInt16_xor, shifts_xor, shifts_xor, shifts_eight register]
  ac_rfl

theorem absorbBits_injective (byte : UInt8) :
    Function.Injective fun register => absorbBits register byte := by
  intro left right equality
  exact (UInt16.xor_left_inj _).mp (shifts_injective 8 equality)

theorem toUInt16_injective : Function.Injective UInt8.toUInt16 := by
  intro left right equality
  apply UInt8.toNat_inj.mp
  simpa using congrArg UInt16.toNat equality

/-- Two bytes act on a register in two different ways. -/
theorem absorbBits_injective_byte (register : UInt16) :
    Function.Injective (absorbBits register) := by
  intro left right equality
  exact toUInt16_injective ((UInt16.xor_right_inj _).mp (shifts_injective 8 equality))

theorem update_injective (byte : UInt8) :
    Function.Injective fun checksum : Checksum => checksum.update byte := by
  rintro ⟨left⟩ ⟨right⟩ equality
  have registers := congrArg register equality
  simp only [update, absorb_eq_absorbBits] at registers
  exact congrArg Checksum.mk (absorbBits_injective byte registers)

theorem extend_injective (data : Bytes) :
    Function.Injective fun checksum : Checksum => checksum.extend data := by
  induction data with
  | nil => exact fun _ _ equality => equality
  | cons byte rest induction => exact induction.comp (update_injective byte)

/-- Two messages that differ in a single byte leave two different registers. -/
theorem eq_of_extend_eq {checksum : Checksum} {front back : Bytes} {left right : UInt8}
    (equality : checksum.extend (front ++ left :: back) =
      checksum.extend (front ++ right :: back)) : left = right := by
  rw [extend_append, extend_append, extend_cons, extend_cons] at equality
  have registers := congrArg register (extend_injective back equality)
  simp only [update, absorb_eq_absorbBits] at registers
  exact absorbBits_injective_byte _ registers

end Checksum

end FramedSerial
