import FramedSerial.ByteQueue
import Mathlib.Algebra.Group.Fin.Basic

/-!
# The contents of a queue

A queue is the list of the bytes that it holds, the oldest first.  A push puts
one byte behind the list or finds it as long as the capacity, a pop takes its
first byte, and nothing else in the slots can be seen.
-/

namespace FramedSerial

namespace ByteQueue

variable {capacity : Nat}

theorem position_zero (queue : ByteQueue capacity) : queue.position 0 = queue.readAt :=
  add_zero queue.readAt

/-- The first position behind the contents is the one to write at. -/
theorem position_length (queue : ByteQueue capacity) :
    queue.position queue.length = queue.writeAt := by
  have distance : Fin.ofNat (capacity + 1) queue.length = queue.writeAt - queue.readAt :=
    Fin.ofNat_val_eq_self _
  rw [position, distance, add_sub_cancel]

theorem position_ne_writeAt {queue : ByteQueue capacity} {offset : Nat}
    (inside : offset < queue.length) : queue.position offset ≠ queue.writeAt := by
  intro equality
  have bounded := queue.length_le_capacity
  rw [← position_length] at equality
  have sameOffset : Fin.ofNat (capacity + 1) offset =
      Fin.ofNat (capacity + 1) queue.length := add_left_cancel equality
  have sameValue := congrArg Fin.val sameOffset
  simp only [Fin.val_ofNat] at sameValue
  rw [Nat.mod_eq_of_lt (by omega), Nat.mod_eq_of_lt (by omega)] at sameValue
  omega

@[simp] theorem length_toList (queue : ByteQueue capacity) :
    queue.toList.length = queue.length := by
  simp [toList]

theorem toList_eq_nil_iff (queue : ByteQueue capacity) :
    queue.toList = [] ↔ queue.length = 0 := by
  rw [← List.length_eq_zero_iff, length_toList]

@[simp] theorem toList_empty : (empty : ByteQueue capacity).toList = [] := by
  simp [toList_eq_nil_iff]

@[simp] theorem toList_clear (queue : ByteQueue capacity) : queue.clear.toList = [] := by
  simp [toList_eq_nil_iff]

theorem toList_of_push {queue longer : ByteQueue capacity} {byte : UInt8}
    (accepted : queue.push byte = .ok longer) : longer.toList = queue.toList ++ [byte] := by
  have length := length_of_push accepted
  unfold push at accepted
  split at accepted
  · contradiction
  · cases accepted
    rw [toList, length, List.range_succ, List.map_append, toList]
    congr 1
    · apply List.map_congr_left
      intro offset member
      have different : queue.writeAt.val ≠ (queue.position offset).val := by
        intro equality
        exact position_ne_writeAt (List.mem_range.mp member) (Fin.ext equality).symm
      exact Vector.getElem_set_ne queue.writeAt.isLt (queue.position offset).isLt different
    · have last : queue.writeAt.val = (queue.position queue.length).val :=
        congrArg Fin.val (position_length queue).symm
      have stored : (queue.slots.set queue.writeAt byte)[queue.position queue.length] =
          byte :=
        (Vector.getElem_set _ _).trans (if_pos last)
      exact congrArg (fun item => [item]) stored

theorem toList_of_pop? {queue shorter : ByteQueue capacity} {byte : UInt8}
    (popped : queue.pop? = some (byte, shorter)) :
    queue.toList = byte :: shorter.toList := by
  have length := length_of_pop? popped
  unfold pop? at popped
  split at popped
  · contradiction
  · cases popped
    rw [toList, length, List.range_succ_eq_map, List.map_cons, List.map_map, toList]
    congr 1
    · exact congrArg (fun place => queue.slots[place]) (position_zero queue)
    · apply List.map_congr_left
      intro offset _
      have next : queue.position (offset + 1) =
          queue.readAt + 1 + Fin.ofNat (capacity + 1) offset := by
        rw [position, add_assoc]
        congr 1
        apply Fin.ext
        simp [Fin.val_add, Nat.add_comm]
      exact congrArg (fun place => queue.slots[place]) next

theorem pop?_eq_none_iff_toList (queue : ByteQueue capacity) :
    queue.pop? = none ↔ queue.toList = [] := by
  rw [pop?_eq_none_iff, toList_eq_nil_iff]

/-- A queue is full when only the unused slot is left. -/
theorem isFull_iff (queue : ByteQueue capacity) :
    queue.isFull = true ↔ queue.length = capacity := by
  have next := val_next queue.writeAt
  have readBelow := queue.readAt.isLt
  have writeBelow := queue.writeAt.isLt
  rw [length_eq, isFull, beq_iff_eq, Fin.ext_iff, next]
  split
  · split
    · omega
    · omega
  · split
    · omega
    · omega

theorem push_of_full {queue : ByteQueue capacity} (full : queue.length = capacity)
    (byte : UInt8) : queue.push byte = .error byte := by
  rw [push, if_pos (queue.isFull_iff.mpr full)]

theorem push_of_room {queue : ByteQueue capacity} (room : queue.length < capacity)
    (byte : UInt8) :
    ∃ longer, queue.push byte = .ok longer ∧ longer.toList = queue.toList ++ [byte] := by
  have notFull : ¬queue.isFull = true := by
    rw [isFull_iff]
    omega
  have accepted : ∃ longer, queue.push byte = .ok longer := by
    rw [push, if_neg notFull]
    exact ⟨_, rfl⟩
  obtain ⟨longer, accepted⟩ := accepted
  exact ⟨longer, accepted, toList_of_push accepted⟩

/-- Of many bytes those are pushed for which there is room, and the others handed back. -/
theorem toList_pushAll (queue : ByteQueue capacity) (bytes : Bytes) :
    (queue.pushAll bytes).1 = bytes.drop (capacity - queue.length) ∧
      (queue.pushAll bytes).2.toList =
        queue.toList ++ bytes.take (capacity - queue.length) := by
  induction bytes generalizing queue with
  | nil =>
      rw [List.drop_nil, List.take_nil, List.append_nil]
      exact ⟨rfl, rfl⟩
  | cons byte rest induction =>
      rcases Nat.lt_or_eq_of_le queue.length_le_capacity with room | full
      · obtain ⟨longer, accepted, contents⟩ := push_of_room room byte
        obtain ⟨rejected, held⟩ := induction longer
        have length := length_of_push accepted
        have oneLess : capacity - queue.length = capacity - longer.length + 1 := by
          omega
        simp only [pushAll, accepted]
        rw [oneLess, List.drop_succ_cons, List.take_succ_cons, held, contents,
          List.append_assoc]
        exact ⟨rejected, rfl⟩
      · have noRoom : capacity - queue.length = 0 := by omega
        obtain ⟨rejected, held⟩ := induction queue
        simp only [pushAll, push_of_full full]
        rw [rejected, held, noRoom]
        exact ⟨rfl, rfl⟩

theorem toList_popMany (queue : ByteQueue capacity) (count : Nat) :
    (queue.popMany count).1 = queue.toList.take count ∧
      (queue.popMany count).2.toList = queue.toList.drop count := by
  induction count generalizing queue with
  | zero => exact ⟨rfl, rfl⟩
  | succ count induction =>
      rw [popMany]
      cases popped : queue.pop? with
      | none =>
          rw [pop?_eq_none_iff_toList] at popped
          simp [popped]
      | some outcome =>
          obtain ⟨byte, shorter⟩ := outcome
          obtain ⟨taken, left⟩ := induction shorter
          rw [toList_of_pop? popped]
          exact ⟨congrArg (byte :: ·) taken, left⟩

end ByteQueue

end FramedSerial
