import FramedSerial.Proofs.Checksum.Register

/-!
# Sums of registers

A register is the sum of the single bits at its places, and everything that
respects sums is told by what it makes of these.  The parity of a register is the
sum of as many ones; moving a register keeps it, because the polynomial and the
bit that it replaces are together an even number of bits.
-/

namespace FramedSerial

namespace Checksum

/-- The sum of the registers that belong to some places. -/
def total (part : Nat → UInt16) (places : List Nat) : UInt16 :=
  places.foldr (fun place sum => part place ^^^ sum) 0

section

variable {part other : Nat → UInt16} {places : List Nat}

@[simp] theorem total_nil : total part [] = 0 := rfl

@[simp] theorem total_cons (place : Nat) :
    total part (place :: places) = part place ^^^ total part places := rfl

theorem total_append (front back : List Nat) :
    total part (front ++ back) = total part front ^^^ total part back := by
  induction front with
  | nil => rw [List.nil_append, total_nil, UInt16.zero_xor]
  | cons place front induction =>
      rw [List.cons_append, total_cons, total_cons, induction, UInt16.xor_assoc]

theorem total_map (change : Nat → Nat) :
    total part (places.map change) = total (fun place => part (change place)) places := by
  induction places with
  | nil => rfl
  | cons place places induction => rw [List.map_cons, total_cons, total_cons, induction]

theorem total_congr (same : ∀ place ∈ places, part place = other place) :
    total part places = total other places := by
  induction places with
  | nil => rfl
  | cons place places induction =>
      have first := same place List.mem_cons_self
      have rest := induction fun later member => same later (List.mem_cons_of_mem _ member)
      rw [total_cons, total_cons, first, rest]

theorem shifts_total (count : Nat) :
    shifts count (total part places) = total (fun place => shifts count (part place)) places := by
  induction places with
  | nil => exact shifts_zero count
  | cons place places induction => rw [total_cons, total_cons, shifts_xor, induction]

theorem total_xor :
    total (fun place => part place ^^^ other place) places =
      total part places ^^^ total other places := by
  induction places with
  | nil => exact UInt16.xor_zero.symm
  | cons place places induction =>
      rw [total_cons, total_cons, total_cons, induction, xor_xor_xor_comm]

theorem total_filter (chosen : Nat → Bool) :
    total part (places.filter chosen) =
      total (fun place => if chosen place then part place else 0) places := by
  induction places with
  | nil => rfl
  | cons place places induction =>
      by_cases isChosen : chosen place = true
      · rw [List.filter_cons_of_pos isChosen, total_cons, total_cons, if_pos isChosen,
          induction]
      · rw [List.filter_cons_of_neg isChosen, total_cons, if_neg isChosen, induction,
          UInt16.zero_xor]

/-- A place that is chosen twice does not count. -/
theorem total_filter_xor (left right : Nat → Bool) :
    total part (places.filter fun place => left place ^^ right place) =
      total part (places.filter left) ^^^ total part (places.filter right) := by
  rw [total_filter, total_filter, total_filter, ← total_xor]
  apply total_congr
  intro place _
  cases left place with
  | false => simp
  | true =>
      cases right place with
      | false => simp
      | true => simp

end

/-- The places at which the bits of a register are set. -/
def places (register : UInt16) : List Nat :=
  (List.range 16).filter fun place => register.toNat.testBit place

theorem total_places_xor (part : Nat → UInt16) (left right : UInt16) :
    total part (places (left ^^^ right)) =
      total part (places left) ^^^ total part (places right) := by
  rw [places, places, places, ← total_filter_xor]
  simp only [UInt16.toNat_xor, Nat.testBit_xor]

/-- One for a register with an odd number of bits, and zero for the others. -/
def parity (register : UInt16) : UInt16 :=
  total (fun _ => 1) (places register)

theorem parity_xor (left right : UInt16) :
    parity (left ^^^ right) = parity left ^^^ parity right :=
  total_places_xor _ left right

theorem parity_shift (register : UInt16) : parity (shift register) = parity register := by
  induction register using register_induction with
  | ofSingle place below =>
      revert place
      decide
  | ofSum left right leftEq rightEq => rw [shift_xor, parity_xor, parity_xor, leftEq, rightEq]

theorem parity_shifts (count : Nat) (register : UInt16) :
    parity (shifts count register) = parity register := by
  induction count generalizing register with
  | zero => rfl
  | succ count induction => rw [shifts, induction, parity_shift]

/-- A sum of registers of odd parity takes the parity of their number. -/
theorem parity_total {part : Nat → UInt16} (odd : ∀ place, parity (part place) = 1)
    (places : List Nat) :
    parity (total part places) = if places.length % 2 = 1 then 1 else 0 := by
  induction places with
  | nil =>
      rw [total_nil]
      decide
  | cons place places induction =>
      rw [total_cons, parity_xor, odd, induction, List.length_cons]
      by_cases isOdd : places.length % 2 = 1
      · have nowEven : ¬(places.length + 1) % 2 = 1 := by omega
        rw [if_pos isOdd, if_neg nowEven, UInt16.xor_self]
      · have nowOdd : (places.length + 1) % 2 = 1 := by omega
        rw [if_neg isOdd, if_pos nowOdd, UInt16.xor_zero]

end Checksum

end FramedSerial
