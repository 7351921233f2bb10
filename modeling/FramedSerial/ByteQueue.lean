import FramedSerial.Bytes

/-!
# Bounded byte queues

A first-in first-out queue in a ring of slots, for one producer and one
consumer.  One slot always stays unused, so that equal positions mean an empty
queue and a full one has its write position just behind the read position: a
queue of capacity `n` has `n + 1` slots.  Positions wrap by the arithmetic of
`Fin`.

`toList` is the content of a queue, the oldest byte first.
-/

namespace FramedSerial

structure ByteQueue (capacity : Nat) where
  slots : Vector UInt8 (capacity + 1)
  readAt : Fin (capacity + 1)
  writeAt : Fin (capacity + 1)
deriving DecidableEq

namespace ByteQueue

variable {capacity : Nat}

def empty : ByteQueue capacity :=
  ⟨Vector.replicate (capacity + 1) 0, 0, 0⟩

instance : Inhabited (ByteQueue capacity) := ⟨empty⟩

/-- The number of bytes held: the distance from the read to the write position,
around the ring. -/
def length (queue : ByteQueue capacity) : Nat :=
  (queue.writeAt - queue.readAt).val

def free (queue : ByteQueue capacity) : Nat :=
  capacity - queue.length

def isEmpty (queue : ByteQueue capacity) : Bool :=
  queue.readAt == queue.writeAt

def isFull (queue : ByteQueue capacity) : Bool :=
  queue.writeAt + 1 == queue.readAt

/-- The position of the byte that `offset` others stand before. -/
def position (queue : ByteQueue capacity) (offset : Nat) : Fin (capacity + 1) :=
  queue.readAt + Fin.ofNat (capacity + 1) offset

/-- The bytes held, the oldest first. -/
def toList (queue : ByteQueue capacity) : Bytes :=
  (List.range queue.length).map fun offset => queue.slots[queue.position offset]

/-- Appends a byte, or hands it back if the queue is full. -/
def push (queue : ByteQueue capacity) (byte : UInt8) :
    Except UInt8 (ByteQueue capacity) :=
  if queue.isFull then .error byte
  else .ok { queue with
    slots := queue.slots.set queue.writeAt byte
    writeAt := queue.writeAt + 1 }

def peek? (queue : ByteQueue capacity) : Option UInt8 :=
  if queue.isEmpty then none else some queue.slots[queue.readAt]

def pop? (queue : ByteQueue capacity) : Option (UInt8 × ByteQueue capacity) :=
  if queue.isEmpty then none
  else some (queue.slots[queue.readAt], { queue with readAt := queue.readAt + 1 })

/-- Pushes bytes in order; returns those handed back. -/
def pushAll (queue : ByteQueue capacity) : Bytes → Bytes × ByteQueue capacity
  | [] => ([], queue)
  | byte :: rest =>
      match queue.push byte with
      | .ok queue => pushAll queue rest
      | .error byte =>
          let (rejected, queue) := pushAll queue rest
          (byte :: rejected, queue)

/-- Takes out up to `count` bytes, and fewer only if the queue runs empty. -/
def popMany (queue : ByteQueue capacity) : (count : Nat) → Bytes × ByteQueue capacity
  | 0 => ([], queue)
  | count + 1 =>
      match queue.pop? with
      | none => ([], queue)
      | some (byte, queue) =>
          let (taken, queue) := popMany queue count
          (byte :: taken, queue)

/-- Takes bytes out into the front of a buffer until it is filled or the queue
is empty.  Returns how many were taken, the buffer and the queue. -/
def popInto (queue : ByteQueue capacity) (buffer : Bytes) :
    Nat × Bytes × ByteQueue capacity :=
  let (taken, queue) := queue.popMany buffer.length
  (taken.length, buffer.overwrite taken, queue)

/-- Forgets all bytes; the positions start again at the first slot. -/
def clear (queue : ByteQueue capacity) : ByteQueue capacity :=
  { queue with readAt := 0, writeAt := 0 }

@[simp] theorem length_empty : (empty : ByteQueue capacity).length = 0 := by
  simp [length, empty]

@[simp] theorem length_clear (queue : ByteQueue capacity) : queue.clear.length = 0 := by
  simp [length, clear]

theorem length_le_capacity (queue : ByteQueue capacity) : queue.length ≤ capacity :=
  Nat.le_of_lt_succ (queue.writeAt - queue.readAt).isLt

/-- The position after the last slot is the first one. -/
theorem val_next (position : Fin (capacity + 1)) :
    (position + 1).val = if position.val = capacity then 0 else position.val + 1 := by
  have below := position.isLt
  have one : (1 : Fin (capacity + 1)).val = 1 % (capacity + 1) := rfl
  rw [Fin.val_add, one, Nat.add_mod_mod]
  split
  · next last => rw [last, Nat.mod_self]
  · next inside => exact Nat.mod_eq_of_lt (by omega)

/-- The distance between the positions, without wrapping arithmetic. -/
theorem length_eq (queue : ByteQueue capacity) :
    queue.length =
      if queue.readAt.val ≤ queue.writeAt.val then queue.writeAt.val - queue.readAt.val
      else queue.writeAt.val + (capacity + 1) - queue.readAt.val := by
  have readBelow := queue.readAt.isLt
  have writeBelow := queue.writeAt.isLt
  simp only [length, Fin.sub_def]
  split
  · next ordered =>
      rw [Nat.mod_eq_sub_mod (by omega), Nat.mod_eq_of_lt (by omega)]
      omega
  · next wrapped =>
      rw [Nat.mod_eq_of_lt (by omega)]
      omega

theorem length_of_push {queue longer : ByteQueue capacity} {byte : UInt8}
    (accepted : queue.push byte = .ok longer) : longer.length = queue.length + 1 := by
  unfold push at accepted
  split at accepted
  · contradiction
  · next notFull =>
      cases accepted
      have different : (queue.writeAt + 1).val ≠ queue.readAt.val := by
        intro equality
        exact notFull (by simp [isFull, Fin.ext equality])
      have next := val_next queue.writeAt
      have readBelow := queue.readAt.isLt
      have writeBelow := queue.writeAt.isLt
      rw [length_eq, length_eq]
      grind

theorem length_of_pop? {queue shorter : ByteQueue capacity} {byte : UInt8}
    (popped : queue.pop? = some (byte, shorter)) : queue.length = shorter.length + 1 := by
  unfold pop? at popped
  split at popped
  · contradiction
  · next notEmpty =>
      cases popped
      have different : queue.readAt.val ≠ queue.writeAt.val := by
        intro equality
        exact notEmpty (by simp [isEmpty, Fin.ext equality])
      have next := val_next queue.readAt
      have readBelow := queue.readAt.isLt
      have writeBelow := queue.writeAt.isLt
      rw [length_eq, length_eq]
      grind

theorem pop?_eq_none_iff (queue : ByteQueue capacity) :
    queue.pop? = none ↔ queue.length = 0 := by
  have readBelow := queue.readAt.isLt
  have writeBelow := queue.writeAt.isLt
  rw [length_eq]
  simp only [pop?, isEmpty, ite_eq_left_iff, reduceCtorEq, imp_false,
    Decidable.not_not, beq_iff_eq, Fin.ext_iff]
  split <;> omega

end ByteQueue

end FramedSerial
