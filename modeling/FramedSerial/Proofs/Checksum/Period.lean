import FramedSerial.Proofs.Checksum.Errors
import Mathlib.Dynamics.PeriodicPts.Defs
import Mathlib.Tactic.NormNum.Prime

/-!
# How long the register takes to return

A register that is moved on and on, with nothing added, returns after 32767 moves
and not before.  Moves that many could be carried out one by one; instead a
register is read as a polynomial, the number of moves as a power of the variable,
and powers are taken by squaring.

Two wrong bits cancel each other only if they stand a whole period apart.
-/

namespace FramedSerial

namespace Checksum

/-- The register that stands for the polynomial one. -/
def unit : UInt16 := 0x8000

/-- The product of two registers as polynomials: the second one, moved on by the
places of the first. -/
def times (left right : UInt16) : UInt16 :=
  total (fun place => shifts (15 - place) right) (places left)

theorem times_shifts (left right : UInt16) (count : Nat) :
    times left (shifts count right) = shifts count (times left right) := by
  rw [times, times, shifts_total]
  apply total_congr
  intro place _
  rw [← shifts_add, ← shifts_add, Nat.add_comm]

theorem times_unit (register : UInt16) : times register unit = register := by
  induction register using register_induction with
  | ofSingle place below =>
      revert place
      decide +kernel
  | ofSum left right leftEq rightEq =>
      rw [times, total_places_xor, ← times, ← times, leftEq, rightEq]

/-- To multiply by a power of the variable is to move on. -/
theorem times_power (register : UInt16) (count : Nat) :
    times register (shifts count unit) = shifts count register := by
  rw [times_shifts, times_unit]

/-- The number with the given binary digits, the lowest first. -/
def number : List Bool → Nat
  | [] => 0
  | digit :: digits => 2 * number digits + if digit then 1 else 0

/-- The power of the variable whose exponent has the given binary digits. -/
def power : List Bool → UInt16
  | [] => unit
  | digit :: digits =>
      let square := times (power digits) (power digits)
      if digit then shift square else square

theorem shifts_number (digits : List Bool) : shifts (number digits) unit = power digits := by
  induction digits with
  | nil => rfl
  | cons digit digits induction =>
      have square : times (power digits) (power digits) = shifts (2 * number digits) unit := by
        rw [← induction, times_power, ← shifts_add, Nat.two_mul]
      cases digit with
      | false =>
          simp only [number, power, square, Bool.false_eq_true, if_false, Nat.add_zero]
      | true =>
          simp only [number, power, square, if_true, shifts_succ]

theorem shifts_eq_iterate (count : Nat) (register : UInt16) :
    shifts count register = shift^[count] register := by
  induction count generalizing register with
  | zero => rfl
  | succ count induction => rw [shifts, induction, Function.iterate_succ_apply]

theorem isPeriodicPt_iff {count : Nat} {register : UInt16} :
    Function.IsPeriodicPt shift count register ↔ shifts count register = register := by
  rw [Function.IsPeriodicPt, Function.IsFixedPt, shifts_eq_iterate]

/-- The number of moves after which a register returns. -/
def period : Nat := 32767

theorem shifts_period : shifts period unit = unit := by
  have digits : period = number (List.replicate 15 true) := rfl
  rw [digits, shifts_number]
  decide +kernel

/-- The divisors of the period that are left when one of its prime factors is taken
out. -/
theorem not_returned_before :
    shifts (31 * 151) unit ≠ unit ∧ shifts (7 * 151) unit ≠ unit ∧
      shifts (7 * 31) unit ≠ unit := by
  have first : 31 * 151 = number [true, false, false, true, false, false, true, false, false,
    true, false, false, true] := rfl
  have second : 7 * 151 = number [true, false, false, false, false, true, false, false, false,
    false, true] := rfl
  have third : 7 * 31 = number [true, false, false, true, true, false, true, true] := rfl
  rw [first, second, third, shifts_number, shifts_number, shifts_number]
  decide +kernel

theorem prime_of_dvd_period {prime : Nat} (isPrime : prime.Prime) (divides : prime ∣ period) :
    prime = 7 ∨ prime = 31 ∨ prime = 151 := by
  have factors : period = 7 * 31 * 151 := rfl
  rw [factors, isPrime.dvd_mul, isPrime.dvd_mul] at divides
  rcases divides with (isFirst | isSecond) | isThird
  · exact .inl ((Nat.prime_dvd_prime_iff_eq isPrime (by norm_num)).mp isFirst)
  · exact .inr (.inl ((Nat.prime_dvd_prime_iff_eq isPrime (by norm_num)).mp isSecond))
  · exact .inr (.inr ((Nat.prime_dvd_prime_iff_eq isPrime (by norm_num)).mp isThird))

theorem minimalPeriod_shift : Function.minimalPeriod shift unit = period := by
  obtain ⟨notFirst, notSecond, notThird⟩ := not_returned_before
  obtain ⟨cofactor, product⟩ := (isPeriodicPt_iff.mpr shifts_period).minimalPeriod_dvd
  have returns : ∀ count other, Function.minimalPeriod shift unit * other = count →
      shifts count unit = unit := by
    intro count other multiple
    apply isPeriodicPt_iff.mp
    exact (Function.isPeriodicPt_minimalPeriod shift unit).trans_dvd ⟨other, multiple.symm⟩
  by_contra different
  have proper : cofactor ≠ 1 := by
    rintro rfl
    exact different (by rw [product, Nat.mul_one])
  -- A prime factor of the cofactor is one of the period, and without it the register
  -- would still return.
  obtain ⟨prime, isPrime, other, rfl⟩ := Nat.exists_prime_and_dvd proper
  rw [Nat.mul_left_comm] at product
  have whole : period = 7 * 31 * 151 := rfl
  rcases prime_of_dvd_period isPrime ⟨_, product⟩ with rfl | rfl | rfl
  · exact notFirst (returns _ other (by omega))
  · exact notSecond (returns _ other (by omega))
  · exact notThird (returns _ other (by omega))

/-- Two wrong bits less than a period apart leave something. -/
theorem echoes_ne_zero_of_pair {length : Nat} {places : List Nat} (two : places.length = 2)
    (sorted : places.Pairwise (· < ·)) (inMessage : ∀ place ∈ places, place < length)
    (short : length ≤ period) : echoes length places ≠ 0 := by
  match places, two with
  | [first, second], _ =>
      have before : first < second := by simpa using sorted
      have inside := inMessage second (by simp)
      have distance : length - first = (second - first) + (length - second) := by omega
      intro isZero
      have cancelled : echo (length - first) = echo (length - second) := by
        rw [echoes, total_cons, total_cons, total_nil, UInt16.xor_zero,
          UInt16.xor_eq_zero_iff] at isZero
        exact isZero
      rw [echo, echo, distance, shifts_add] at cancelled
      have one : (1 : UInt16) = shifts 15 unit := by decide +kernel
      have returned := shifts_injective _ cancelled
      rw [one, ← shifts_add, Nat.add_comm 15, shifts_add] at returned
      have periodic := isPeriodicPt_iff.mpr (shifts_injective 15 returned)
      have multiple := periodic.minimalPeriod_dvd
      rw [minimalPeriod_shift] at multiple
      have atLeast := Nat.le_of_dvd (by omega) multiple
      omega

end Checksum

end FramedSerial
