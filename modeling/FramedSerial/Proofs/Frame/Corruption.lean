import FramedSerial.Proofs.Checksum.Residue
import FramedSerial.Proofs.Frame.Enclosure

/-!
# One bit turned on the line

A turned bit may do more than change a byte of the frame.  It may make a flag,
which cuts the frame in two; it may make an escape or destroy one, which changes
the number of bytes that are stored.  In all these cases no segment stores as many
bytes as the frame had, so the payload cannot come out.

In the remaining cases one stored byte has been replaced by another, and the
checksum tells.
-/

namespace FramedSerial

namespace Frame

/-- The byte with one bit turned. -/
def flipBit (bit : Fin 8) (byte : UInt8) : UInt8 :=
  byte ^^^ (1 <<< UInt8.ofNat bit.val)

theorem flipBit_ne (bit : Fin 8) (byte : UInt8) : flipBit bit byte ≠ byte := by
  have something : ∀ place : Fin 8, (1 : UInt8) <<< UInt8.ofNat place.val ≠ 0 := by decide
  intro same
  apply something bit
  apply (UInt8.xor_right_inj byte).mp
  rw [UInt8.xor_zero]
  exact same

/-- A flag and an escape are two bits apart. -/
theorem flipBit_escape_ne_flag (bit : Fin 8) : flipBit bit escape ≠ flag := by
  revert bit
  decide

/-- A byte other than an escape is stored in its place. -/
theorem unstuff_append_cons (front back : Bytes) {byte : UInt8} (kept : byte ≠ escape) :
    unstuff (front ++ byte :: back) =
      unstuff front ++
        (if markedAfter false front then byte ^^^ escapeMask else byte) ::
          unstuff back := by
  rw [unstuff, unstuffFrom_append, unstuffFrom, if_neg kept]
  rfl

theorem modify_length_append (front back : Bytes) (byte : UInt8) (change : UInt8 → UInt8) :
    (front ++ byte :: back).modify front.length change = front ++ change byte :: back := by
  induction front with
  | nil => rfl
  | cons first front induction =>
      rw [List.cons_append, List.length_cons, List.modify_succ_cons, induction,
        List.cons_append]

/-- Changing a byte inside a frame changes a byte between its flags. -/
theorem encode_modify {payload : Bytes} {index : Nat} (afterFirst : 0 < index)
    (beforeLast : index + 1 < (encode payload).length) (change : UInt8 → UInt8) :
    ∃ front byte back, inside payload = front ++ byte :: back ∧
      (encode payload)[index] = byte ∧
      (encode payload).modify index change = enclose (front ++ change byte :: back) := by
  obtain ⟨place, rfl⟩ : ∃ place, index = place + 1 := ⟨index - 1, by omega⟩
  have form : encode payload = flag :: (inside payload ++ [flag]) := rfl
  have within : place < (inside payload).length := by
    rw [form, List.length_cons, List.length_append, List.length_singleton] at beforeLast
    omega
  obtain ⟨front, byte, back, split, length, _⟩ := List.exists_of_modify change within
  refine ⟨front, byte, back, split, ?_, ?_⟩
  · simp [form, split, ← length]
  · rw [form, split, ← length, List.modify_succ_cons, List.append_assoc, List.cons_append,
      modify_length_append]
    simp [enclose]

end Frame

namespace Deframer

variable {capacity : Nat} {payload front back : Bytes} {byte other : UInt8}

/-- A payload comes out only of a segment that stores as many bytes as its frame. -/
theorem frame_not_mem_events {stream : Bytes}
    (otherLength : ∀ segment ∈ stream.splitOn Frame.flag,
      segment.countP Frame.stored ≠ payload.length + Frame.trailerLength) :
    .frame payload ∉ (new : Deframer capacity).events stream := by
  intro brought
  obtain ⟨segment, among, closed⟩ := segment_of_frame brought
  have length := (closing_eq_frame closed).2
  rw [Frame.length_unstuff] at length
  exact otherLength segment among length

/-- The bytes that a frame stores: the payload and its trailer. -/
theorem countP_stored_inside (payload : Bytes) :
    (Frame.inside payload).countP Frame.stored = payload.length + Frame.trailerLength := by
  rw [← Frame.length_unstuff, Frame.inside, Frame.unstuff_stuff, List.length_append]
  rfl

section

variable (sent : Frame.inside payload = front ++ byte :: back)

include sent

theorem parts_flagFree : Frame.flag ∉ front ∧ Frame.flag ∉ back := by
  have flagFree := Frame.flag_not_mem_inside payload
  rw [sent, List.mem_append, List.mem_cons, not_or, not_or] at flagFree
  exact ⟨flagFree.1, flagFree.2.2⟩

theorem changed_flagFree (notFlag : other ≠ Frame.flag) :
    Frame.flag ∉ front ++ other :: back := by
  obtain ⟨frontFree, backFree⟩ := parts_flagFree sent
  rw [List.mem_append, List.mem_cons, not_or, not_or]
  exact ⟨frontFree, notFlag.symm, backFree⟩

/-- Where no escape comes or goes, the number of bytes stored is the same. -/
theorem countP_stored_changed (same : Frame.stored other = Frame.stored byte) :
    (front ++ other :: back).countP Frame.stored = payload.length + Frame.trailerLength := by
  rw [← countP_stored_inside, sent, List.countP_append, List.countP_append, List.countP_cons,
    List.countP_cons, same]

/-- A flag in the middle of a frame leaves two segments, both of them too short. -/
theorem frame_not_mem_of_cut (kept : Frame.stored byte = true) :
    .frame payload ∉
      (new : Deframer capacity).events (Frame.enclose (front ++ Frame.flag :: back)) := by
  obtain ⟨frontFree, backFree⟩ := parts_flagFree sent
  have counted := countP_stored_inside payload
  have none : ([] : Bytes).countP Frame.stored = 0 := rfl
  have positive : 0 < Frame.trailerLength := by decide
  rw [sent, List.countP_append, List.countP_cons_of_pos kept] at counted
  apply frame_not_mem_events
  rw [Frame.splitOn_enclose_append frontFree backFree]
  simp only [List.mem_cons, List.not_mem_nil, or_false]
  rintro segment (rfl | rfl | rfl | rfl)
  · omega
  · omega
  · omega
  · omega

/-- An escape that is made or destroyed changes the number of bytes stored. -/
theorem frame_not_mem_of_recount (notFlag : other ≠ Frame.flag)
    (recount : Frame.stored other ≠ Frame.stored byte) :
    .frame payload ∉
      (new : Deframer capacity).events (Frame.enclose (front ++ other :: back)) := by
  have counted := countP_stored_inside payload
  have none : ([] : Bytes).countP Frame.stored = 0 := rfl
  have positive : 0 < Frame.trailerLength := by decide
  have recounted : (front ++ other :: back).countP Frame.stored ≠
      payload.length + Frame.trailerLength := by
    rw [← counted, sent, List.countP_append, List.countP_append, List.countP_cons,
      List.countP_cons]
    cases kept : Frame.stored byte with
    | false => simp [Bool.eq_true_of_not_eq_false (kept ▸ recount)]
    | true => simp [Bool.eq_false_of_not_eq_true (kept ▸ recount)]
  apply frame_not_mem_events
  rw [Frame.splitOn_enclose (changed_flagFree sent notFlag)]
  simp only [List.mem_cons, List.not_mem_nil, or_false]
  rintro segment (rfl | rfl | rfl)
  · omega
  · exact recounted
  · omega

theorem lastStored_changed (otherKept : Frame.stored other = true) :
    ∀ last ∈ (front ++ other :: back).getLast?, Frame.stored last = true := by
  intro last isLast
  rw [List.getLast?_append, List.getLast?_cons] at isLast
  cases atEnd : back.getLast? with
  | none =>
      rw [atEnd] at isLast
      cases isLast
      exact otherKept
  | some final =>
      rw [atEnd] at isLast
      cases isLast
      apply Frame.stored_of_getLast?_stuff
      rw [← Frame.inside, sent, List.getLast?_append, List.getLast?_cons, atEnd]
      rfl

theorem extend_changed_ne_residue (kept : byte ≠ Frame.escape) (otherKept : other ≠ Frame.escape)
    (different : other ≠ byte) :
    (Checksum.new.extend (Frame.unstuff (front ++ other :: back))).register ≠
      Checksum.residue := by
  intro isResidue
  have unstuffed : Frame.unstuff (front ++ byte :: back) = payload ++ Frame.trailer payload := by
    rw [← sent, Frame.inside, Frame.unstuff_stuff]
  have untouched := Checksum.extend_trailer payload
  rw [← unstuffed, ← isResidue, Frame.unstuff_append_cons front back kept,
    Frame.unstuff_append_cons front back otherKept] at untouched
  have sameStored := Checksum.eq_of_extend_eq (congrArg Checksum.mk untouched)
  split at sameStored
  · exact different ((UInt8.xor_left_inj Frame.escapeMask).mp sameStored).symm
  · exact different sameStored.symm

/-- A stored byte that is replaced by another is reported at the closing flag. -/
theorem outcomes_of_replaced (notEmpty : payload ≠ [])
    (fits : payload.length + Frame.trailerLength ≤ capacity)
    (kept : byte ≠ Frame.escape) (notFlag : other ≠ Frame.flag)
    (otherKept : other ≠ Frame.escape) (different : other ≠ byte) :
    ∃ computed received, computed ≠ received ∧
      (new : Deframer capacity).outcomes (Frame.enclose (front ++ other :: back)) =
        List.replicate ((Frame.inside payload).length + 1) none ++
          [some (.dropped (.badChecksum computed received))] := by
  have positive := List.length_pos_iff.mpr notEmpty
  have byteStored : Frame.stored byte = true := by simpa [Frame.stored] using kept
  have otherStored : Frame.stored other = true := by simpa [Frame.stored] using otherKept
  have flagFree := changed_flagFree sent notFlag
  have length := countP_stored_changed sent (otherStored.trans byteStored.symm)
  rw [← Frame.length_unstuff] at length
  have noOverflow : overflowAt? capacity (front ++ other :: back) = none := by
    apply overflowAt?_of_fits
    · omega
    · exact lastStored_changed sent otherStored
  have notResidue := extend_changed_ne_residue sent kept otherKept different
  obtain ⟨computed, received, unequal, judged⟩ :=
    verdict_of_no_residue (by omega) notResidue
  refine ⟨computed, received, unequal, ?_⟩
  rw [outcomes_enclose_of_fits flagFree noOverflow (by omega), judged, sent]
  simp only [List.length_append, List.length_cons]

end

theorem events_of_silent {deframer : Deframer capacity} {stream : Bytes} {count : Nat}
    {event : Event}
    (outcomes : deframer.outcomes stream = List.replicate count none ++ [some event]) :
    deframer.events stream = [event] := by
  rw [events, outcomes, List.filterMap_append]
  simp

/-- Any other byte in the place of one inside a frame keeps the payload from coming
out, unless an escape becomes a flag. -/
theorem frame_not_mem_of_changed (sent : Frame.inside payload = front ++ byte :: back)
    (notEmpty : payload ≠ []) (fits : payload.length + Frame.trailerLength ≤ capacity)
    (different : other ≠ byte) (notCut : byte = Frame.escape → other ≠ Frame.flag) :
    .frame payload ∉
      (new : Deframer capacity).events (Frame.enclose (front ++ other :: back)) := by
  by_cases isFlag : other = Frame.flag
  · have kept : Frame.stored byte = true := by
      simpa [Frame.stored] using fun isEscape => notCut isEscape isFlag
    rw [isFlag]
    exact frame_not_mem_of_cut sent kept
  · by_cases recount : Frame.stored other = Frame.stored byte
    · have kept : byte ≠ Frame.escape := by
        rintro rfl
        have otherEscape : other = Frame.escape := by simpa [Frame.stored] using recount
        exact different otherEscape
      have otherKept : other ≠ Frame.escape := by
        rintro rfl
        have byteEscape : byte = Frame.escape := by simpa [Frame.stored] using recount
        exact kept byteEscape
      obtain ⟨computed, found, _, outcomes⟩ :=
        outcomes_of_replaced sent notEmpty fits kept isFlag otherKept different
      rw [events_of_silent outcomes, List.mem_singleton]
      exact Event.noConfusion
    · exact frame_not_mem_of_recount sent isFlag recount

/-- However a single bit of a frame is turned on the line, its first and its last
byte apart, the payload does not come out.  If moreover no reserved byte is made or
destroyed, the deframer reports two different checksums at the last byte, and nothing
before it. -/
theorem flipped_bit_is_caught (bit : Fin 8) {index : Nat} (notEmpty : payload ≠ [])
    (fits : payload.length + Frame.trailerLength ≤ capacity) (afterFirst : 0 < index)
    (beforeLast : index + 1 < (Frame.encode payload).length) :
    .frame payload ∉ (new : Deframer capacity).events
        ((Frame.encode payload).modify index (Frame.flipBit bit)) ∧
      ((Frame.encode payload)[index] ≠ Frame.escape →
        Frame.flipBit bit (Frame.encode payload)[index] ≠ Frame.flag →
        Frame.flipBit bit (Frame.encode payload)[index] ≠ Frame.escape →
        ∃ computed found, computed ≠ found ∧
          (new : Deframer capacity).outcomes
              ((Frame.encode payload).modify index (Frame.flipBit bit)) =
            List.replicate ((Frame.encode payload).length - 1) none ++
              [some (.dropped (.badChecksum computed found))]) := by
  obtain ⟨front, byte, back, sent, atIndex, changed⟩ :=
    Frame.encode_modify afterFirst beforeLast (Frame.flipBit bit)
  have different := Frame.flipBit_ne bit byte
  have length : (Frame.encode payload).length - 1 = (Frame.inside payload).length + 1 := by
    have form : Frame.encode payload = Frame.enclose (Frame.inside payload) := rfl
    rw [form, Frame.enclose, List.length_append, List.length_cons, List.length_singleton]
    omega
  rw [changed, atIndex, length]
  constructor
  · apply frame_not_mem_of_changed sent notEmpty fits different
    rintro rfl
    exact Frame.flipBit_escape_ne_flag bit
  · intro kept notFlag otherKept
    exact outcomes_of_replaced sent notEmpty fits kept notFlag otherKept different

/-- The lowest bit of a payload that needs an escape itself: the byte behind the
escape is changed, and the change is reported. -/
theorem flipped_escaped_byte_is_caught :
    ([0x7D] : Bytes) ≠ [] ∧ [(0x7D : UInt8)].length + Frame.trailerLength ≤ 3 ∧ 0 < 2 ∧
      2 + 1 < (Frame.encode [0x7D]).length ∧
      .frame [0x7D] ∉ (new : Deframer 3).events
        ((Frame.encode [0x7D]).modify 2 (Frame.flipBit 0)) ∧
      ∃ computed found, computed ≠ found ∧
        (new : Deframer 3).outcomes ((Frame.encode [0x7D]).modify 2 (Frame.flipBit 0)) =
          List.replicate ((Frame.encode [0x7D]).length - 1) none ++
            [some (.dropped (.badChecksum computed found))] := by
  have notEmpty : ([0x7D] : Bytes) ≠ [] := by decide
  have fits : [(0x7D : UInt8)].length + Frame.trailerLength ≤ 3 := by decide
  have wire : Frame.encode [0x7D] = [0x7E, 0x7D, 0x5D, 0x1A, 0x58, 0x7E] := by
    decide +kernel
  have beforeLast : 2 + 1 < (Frame.encode [0x7D]).length := by
    rw [wire]
    decide
  obtain ⟨notDelivered, reported⟩ :=
    @flipped_bit_is_caught 3 [0x7D] 0 2 notEmpty fits (by decide) beforeLast
  have within : 2 < (Frame.encode [0x7D]).length := by omega
  have atIndex : (Frame.encode [0x7D])[2] = 0x5D := by
    simp only [wire]
    rfl
  refine ⟨notEmpty, fits, by decide, beforeLast, notDelivered, ?_⟩
  apply reported
  · rw [atIndex]
    decide
  · rw [atIndex]
    decide
  · rw [atIndex]
    decide

end Deframer

end FramedSerial
