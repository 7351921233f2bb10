/-!
# Saturating counters

Events are counted in words of 32 bits.  A counter that has reached the largest
word stays there, so a count is exact or says that it is too large to tell.
-/

namespace FramedSerial

structure Counter where
  count : UInt32
deriving DecidableEq, Repr

namespace Counter

/-- The largest count, at which every counter stops. -/
def ceiling : Nat := 4294967295

def zero : Counter := ⟨0⟩

instance : Inhabited Counter := ⟨zero⟩

def ofNat (count : Nat) : Counter := ⟨UInt32.ofNat count⟩

def toNat (counter : Counter) : Nat := counter.count.toNat

def increment (counter : Counter) : Counter :=
  if counter.toNat < ceiling then ⟨counter.count + 1⟩ else counter

/-- The sum of two counts, or the ceiling if the sum lies above it. -/
def add (left right : Counter) : Counter :=
  if left.toNat + right.toNat < ceiling then ⟨left.count + right.count⟩
  else ⟨UInt32.ofNat ceiling⟩

/-- The difference of two counts, taken as words: it wraps below zero. -/
def since (later earlier : Counter) : UInt32 :=
  later.count - earlier.count

theorem toNat_le_ceiling (counter : Counter) : counter.toNat ≤ ceiling := by
  have below := counter.count.toNat_lt
  simp only [toNat, ceiling]
  omega

@[simp] theorem toNat_zero : zero.toNat = 0 := rfl

@[simp] theorem toNat_increment (counter : Counter) :
    counter.increment.toNat = min (counter.toNat + 1) ceiling := by
  have bounded := counter.toNat_le_ceiling
  unfold increment
  split
  · next below =>
      simp only [toNat, ceiling, UInt32.toNat_add] at *
      have one : (1 : UInt32).toNat = 1 := rfl
      omega
  · next full => omega

@[simp] theorem toNat_add (left right : Counter) :
    (left.add right).toNat = min (left.toNat + right.toNat) ceiling := by
  unfold add
  split
  · next below =>
      simp only [toNat, ceiling, UInt32.toNat_add] at *
      omega
  · next full =>
      have largest : (UInt32.ofNat ceiling).toNat = ceiling := rfl
      simp only [toNat, largest] at *
      omega

/-- The difference does not wrap between a count and a later one. -/
theorem toNat_since {later earlier : Counter} (grown : earlier.toNat ≤ later.toNat) :
    (later.since earlier).toNat = later.toNat - earlier.toNat :=
  UInt32.toNat_sub_of_le later.count earlier.count grown

theorem eq_of_toNat_eq {left right : Counter} (same : left.toNat = right.toNat) :
    left = right := by
  cases left
  cases right
  exact congrArg mk (UInt32.toNat_inj.mp same)

@[simp] theorem add_zero (counter : Counter) : counter.add zero = counter := by
  have bounded := counter.toNat_le_ceiling
  apply eq_of_toNat_eq
  simp only [toNat_add, toNat_zero]
  omega

/-- A count that is capped twice might as well be capped at the end. -/
theorem capped_add (count more : Nat) :
    min (min count ceiling + more) ceiling = min (count + more) ceiling := by
  -- The numeral behind the ceiling is too large to be unfolded.
  generalize ceiling = limit
  omega

theorem add_capped (count more : Nat) :
    min (count + min more ceiling) ceiling = min (count + more) ceiling := by
  rw [Nat.add_comm, capped_add, Nat.add_comm]

/-- An event that is counted later makes the same difference to a sum. -/
theorem increment_eq_add {sum left right : Counter} (isSum : sum = left.add right) :
    sum.increment = left.add right.increment := by
  apply eq_of_toNat_eq
  rw [isSum, toNat_increment, toNat_add, toNat_add, toNat_increment, capped_add,
    add_capped, Nat.add_assoc]

end Counter

end FramedSerial
