import FramedSerial.Proofs.Checksum.Sums
import Mathlib.Data.List.Range

/-!
# What wrong bits leave in the register

Two messages of one length differ in some of their bits.  The registers that they
leave differ by a sum with one part for each of these bits: the part of a bit is
the register that it alone would leave, and depends only on how far it stands
before the end (`extend_xor_extend`).

Such a sum is not zero if all the bits lie within sixteen places, and not if their
number is odd.
-/

namespace FramedSerial

namespace Bytes

/-- The bit at a place of a message, the lowest bit of each byte first. -/
def bit (data : Bytes) (place : Nat) : Bool :=
  (data.getD (place / 8) 0).toNat.testBit (place % 8)

/-- The places at which two messages of one length differ. -/
def differences (first second : Bytes) : List Nat :=
  (List.range (8 * first.length)).filter fun place => first.bit place ^^ second.bit place

theorem bit_cons_of_lt (byte : UInt8) (rest : Bytes) {place : Nat} (below : place < 8) :
    bit (byte :: rest) place = byte.toNat.testBit place := by
  rw [bit, Nat.div_eq_of_lt below, Nat.mod_eq_of_lt below]
  rfl

theorem bit_cons_add (byte : UInt8) (rest : Bytes) (place : Nat) :
    bit (byte :: rest) (8 + place) = bit rest place := by
  rw [bit, bit, Nat.add_div_left place (by decide), Nat.add_mod_left, List.getD_cons_succ]

theorem differences_cons (first second : UInt8) (firstRest secondRest : Bytes) :
    differences (first :: firstRest) (second :: secondRest) =
      ((List.range 8).filter fun place => (first ^^^ second).toNat.testBit place) ++
        (differences firstRest secondRest).map (8 + ·) := by
  have split : 8 * (first :: firstRest).length = 8 + 8 * firstRest.length := by
    rw [List.length_cons]
    omega
  rw [differences, split, List.range_add, List.filter_append, List.filter_map, differences]
  congr 1
  · apply List.filter_congr
    intro place member
    have below : place < 8 := List.mem_range.mp member
    rw [bit_cons_of_lt _ _ below, bit_cons_of_lt _ _ below, UInt8.toNat_xor,
      Nat.testBit_xor]
  · simp only [Function.comp_def, bit_cons_add]

theorem differences_sorted (first second : Bytes) :
    (differences first second).Pairwise (· < ·) :=
  List.Pairwise.filter _ List.pairwise_lt_range

theorem lt_of_mem_differences {first second : Bytes} {place : Nat}
    (member : place ∈ differences first second) : place < 8 * first.length :=
  List.mem_range.mp (List.mem_of_mem_filter member)

end Bytes

namespace Checksum

/-- The register that a single bit leaves at the end of a message, if it stands
`distance` places before the end. -/
def echo (distance : Nat) : UInt16 :=
  shifts distance 1

/-- What wrong bits at some places of a message leave in the register. -/
def echoes (length : Nat) (places : List Nat) : UInt16 :=
  total (fun place => echo (length - place)) places

theorem echoes_append (length : Nat) (front back : List Nat) :
    echoes length (front ++ back) = echoes length front ^^^ echoes length back :=
  total_append front back

/-- Only the distance to the end counts. -/
theorem echoes_map_add (length count : Nat) (places : List Nat) :
    echoes (count + length) (places.map (count + ·)) = echoes length places := by
  rw [echoes, echoes, total_map]
  simp only [Nat.add_sub_add_left]

/-- Further bits without an error move the register on. -/
theorem shifts_echoes {length : Nat} {places : List Nat}
    (within : ∀ place ∈ places, place ≤ length) (count : Nat) :
    shifts count (echoes length places) = echoes (count + length) places := by
  rw [echoes, echoes, shifts_total]
  apply total_congr
  intro place member
  have before := within place member
  have distance : count + length - place = length - place + count := by omega
  rw [echo, echo, distance, shifts_add]

/-- The effect of one byte is that of its bits. -/
theorem shifts_byte (byte : UInt8) :
    shifts 8 byte.toUInt16 =
      echoes 8 ((List.range 8).filter fun place => byte.toNat.testBit place) := by
  have ofRegister : ∀ register : UInt16, shifts 8 register.toUInt8.toUInt16 =
      echoes 8 ((List.range 8).filter fun place => register.toNat.testBit place) := by
    intro register
    induction register using register_induction with
    | ofSingle place below =>
        revert place
        decide
    | ofSum left right leftEq rightEq =>
        simp only [UInt16.toUInt8_xor, UInt8.toUInt16_xor, shifts_xor, leftEq, rightEq, echoes,
          UInt16.toNat_xor, Nat.testBit_xor, total_filter_xor]
  have ofByte := ofRegister byte.toUInt16
  rwa [UInt8.toUInt8_toUInt16, UInt8.toNat_toUInt16] at ofByte

theorem update_xor_update (left right : Checksum) (first second : UInt8) :
    (left.update first).register ^^^ (right.update second).register =
      shifts 8 (left.register ^^^ right.register) ^^^ shifts 8 (first ^^^ second).toUInt16 := by
  rw [update, update, absorb_eq_absorbBits, absorb_eq_absorbBits, absorbBits, absorbBits,
    ← shifts_xor, ← shifts_xor, UInt8.toUInt16_xor, xor_xor_xor_comm]

/-- The registers that two messages leave differ by what the wrong bits leave, and
by the difference of the registers before them. -/
theorem extend_xor_extend (left right : Checksum) {first second : Bytes}
    (sameLength : first.length = second.length) :
    (left.extend first).register ^^^ (right.extend second).register =
      shifts (8 * first.length) (left.register ^^^ right.register) ^^^
        echoes (8 * first.length) (Bytes.differences first second) := by
  induction first generalizing left right second with
  | nil =>
      cases second with
      | nil => exact UInt16.xor_zero.symm
      | cons byte rest => cases sameLength
  | cons byte rest induction =>
      cases second with
      | nil => cases sameLength
      | cons other others =>
          have later := induction (left.update byte) (right.update other)
            (Nat.succ.inj sameLength)
          have length : 8 * (byte :: rest).length = 8 + 8 * rest.length := by
            rw [List.length_cons]
            omega
          have firstByte : ∀ place ∈ (List.range 8).filter fun place =>
              (byte ^^^ other).toNat.testBit place, place ≤ 8 := by
            intro place member
            exact Nat.le_of_lt (List.mem_range.mp (List.mem_of_mem_filter member))
          rw [extend_cons, extend_cons, later, update_xor_update, shifts_byte, shifts_xor,
            shifts_echoes firstByte, ← shifts_add, length, Bytes.differences_cons, echoes_append,
            echoes_map_add, Nat.add_comm 8 (8 * rest.length), UInt16.xor_assoc]

/-- Wrong bits in a message that were not wrong before it. -/
theorem extend_xor_extend_same (checksum : Checksum) {first second : Bytes}
    (sameLength : first.length = second.length) :
    (checksum.extend first).register ^^^ (checksum.extend second).register =
      echoes (8 * first.length) (Bytes.differences first second) := by
  rw [extend_xor_extend checksum checksum sameLength, UInt16.xor_self, shifts_zero,
    UInt16.zero_xor]

theorem parity_echo (distance : Nat) : parity (echo distance) = 1 :=
  parity_shifts distance 1

/-- An odd number of wrong bits leaves an odd register. -/
theorem echoes_ne_zero_of_odd {length : Nat} {places : List Nat}
    (odd : places.length % 2 = 1) : echoes length places ≠ 0 := by
  intro isZero
  have isOne : parity (echoes length places) = 1 := by
    rw [echoes, parity_total fun place => parity_echo (length - place), if_pos odd]
  rw [isZero] at isOne
  revert isOne
  decide

theorem testBit_single {place : Nat} (below : place < 16) (other : Nat) :
    (single place).toNat.testBit other = decide (place = other) := by
  have small : 2 ^ place < 2 ^ 16 := Nat.pow_lt_pow_right (by decide) below
  rw [single, UInt16.toNat_ofNat', Nat.mod_eq_of_lt small, Nat.testBit_two_pow]

theorem testBit_total {part : Nat → UInt16} {places : List Nat} {bit : Nat}
    (unset : ∀ place ∈ places, (part place).toNat.testBit bit = false) :
    (total part places).toNat.testBit bit = false := by
  induction places with
  | nil => exact Nat.zero_testBit bit
  | cons place places induction =>
      have first := unset place List.mem_cons_self
      have rest := induction fun later member => unset later (List.mem_cons_of_mem _ member)
      rw [total_cons, UInt16.toNat_xor, Nat.testBit_xor, first, rest]
      rfl

theorem echo_of_window : ∀ place < 16, echo (16 - place) = shifts 16 (single place) := by
  decide +kernel

/-- Different bits do not cancel each other. -/
theorem total_single_ne_zero {start : Nat} {places : List Nat} (notEmpty : places ≠ [])
    (sorted : places.Pairwise (· < ·))
    (inWindow : ∀ place ∈ places, start ≤ place ∧ place < start + 16) :
    total (fun place => single (place - start)) places ≠ 0 := by
  cases places with
  | nil => exact absurd rfl notEmpty
  | cons first rest =>
      -- The first place stands in front of all others, so none of them takes its bit back.
      have before := (List.pairwise_cons.mp sorted).1
      obtain ⟨firstAfter, firstBelow⟩ := inWindow first List.mem_cons_self
      have others : (total (fun place => single (place - start)) rest).toNat.testBit
          (first - start) = false := by
        apply testBit_total
        intro place member
        have later := before place member
        have below := (inWindow place (List.mem_cons_of_mem _ member)).2
        have different : place - start ≠ first - start := by omega
        rw [testBit_single (by omega), decide_eq_false different]
      have isSet : (total (fun place => single (place - start)) (first :: rest)).toNat.testBit
          (first - start) = true := by
        rw [total_cons, UInt16.toNat_xor, Nat.testBit_xor, others,
          testBit_single (by omega), decide_eq_true rfl]
        rfl
      intro isZero
      rw [isZero] at isSet
      cases (Nat.zero_testBit _).symm.trans isSet

/-- Wrong bits within sixteen places leave a word in which just these bits are set,
moved on. -/
theorem shifts_echoes_of_window {length start : Nat} {places : List Nat}
    (inMessage : ∀ place ∈ places, place < length)
    (inWindow : ∀ place ∈ places, start ≤ place ∧ place < start + 16) :
    shifts 16 (echoes length places) =
      shifts (length - start) (shifts 16
        (total (fun place => single (place - start)) places)) := by
  rw [echoes, shifts_total, shifts_total, shifts_total]
  apply total_congr
  intro place member
  obtain ⟨after, before⟩ := inWindow place member
  have inside := inMessage place member
  have distance : length - place + 16 = 16 - (place - start) + (length - start) := by
    omega
  rw [← echo_of_window (place - start) (by omega), echo, echo, ← shifts_add, ← shifts_add,
    distance]

theorem echoes_ne_zero_of_burst {length start : Nat} {places : List Nat}
    (notEmpty : places ≠ []) (sorted : places.Pairwise (· < ·))
    (inMessage : ∀ place ∈ places, place < length)
    (inWindow : ∀ place ∈ places, start ≤ place ∧ place < start + 16) :
    echoes length places ≠ 0 := by
  intro isZero
  have moved := shifts_echoes_of_window inMessage inWindow
  rw [isZero, shifts_zero] at moved
  have nothing := shifts_eq_zero_iff.mp (shifts_eq_zero_iff.mp moved.symm)
  exact total_single_ne_zero notEmpty sorted inWindow nothing

end Checksum

end FramedSerial
