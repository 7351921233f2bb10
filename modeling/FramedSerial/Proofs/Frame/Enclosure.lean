import FramedSerial.Proofs.Frame.Trains

/-!
# What stands between two flags

The bytes that a segment stores are its bytes other than escapes, whatever the
escapes do to their values.  So the length of a payload can be read off the line,
and a frame that brings a given payload has to have the right number of bytes.

A segment that fits brings nothing before the flag behind it, and then the verdict
on the bytes that it stores.
-/

namespace FramedSerial

namespace Frame

/-- A run of bytes between two flags. -/
def enclose (segment : Bytes) : Bytes :=
  flag :: segment ++ [flag]

/-- Whether a byte inside a frame is stored, and not only a mark for the next. -/
def stored (byte : UInt8) : Bool :=
  byte != escape

theorem length_unstuffFrom (marked : Bool) (data : Bytes) :
    (unstuffFrom marked data).length = data.countP stored := by
  induction data generalizing marked with
  | nil => rfl
  | cons byte rest induction =>
      by_cases isEscape : byte = escape
      · have skipped : ¬stored byte = true := by simp [stored, isEscape]
        rw [unstuffFrom, if_pos isEscape, induction, List.countP_cons_of_neg skipped]
      · have kept : stored byte = true := by simpa [stored] using isEscape
        rw [unstuffFrom, if_neg isEscape, List.length_cons, induction,
          List.countP_cons_of_pos kept]

theorem length_unstuff (data : Bytes) : (unstuff data).length = data.countP stored :=
  length_unstuffFrom false data

theorem splitOn_enclose {segment : Bytes} (flagFree : flag ∉ segment) :
    (enclose segment).splitOn flag = [[], segment, []] := by
  have first : flag ∉ ([] : Bytes) := List.not_mem_nil
  have form : enclose segment = [] ++ flag :: (segment ++ flag :: []) := rfl
  rw [form, List.splitOn_append_cons_self_of_not_mem first,
    List.splitOn_append_cons_self_of_not_mem flagFree, List.splitOn_eq_singleton first]

/-- A flag in the middle makes two segments of one. -/
theorem splitOn_enclose_append {front back : Bytes} (frontFree : flag ∉ front)
    (backFree : flag ∉ back) :
    (enclose (front ++ flag :: back)).splitOn flag = [[], front, back, []] := by
  have first : flag ∉ ([] : Bytes) := List.not_mem_nil
  have form : enclose (front ++ flag :: back) =
      [] ++ flag :: (front ++ flag :: (back ++ flag :: [])) := by
    simp [enclose]
  rw [form, List.splitOn_append_cons_self_of_not_mem first,
    List.splitOn_append_cons_self_of_not_mem frontFree,
    List.splitOn_append_cons_self_of_not_mem backFree, List.splitOn_eq_singleton first]

/-- What is stuffed never ends in an escape. -/
theorem stored_of_getLast?_stuff {data : Bytes} {last : UInt8}
    (isLast : (stuff data).getLast? = some last) : stored last = true := by
  cases data using List.reverseRecOn with
  | nil => cases isLast
  | append_singleton front byte =>
      have form : stuff (front ++ [byte]) = stuff front ++ stuffByte byte := by simp
      rw [form, stuffByte] at isLast
      by_cases isReserved : reserved byte = true
      · rw [if_pos isReserved, List.getLast?_append] at isLast
        cases isLast
        rcases reserved_cases isReserved with rfl | rfl
        · rfl
        · rfl
      · rw [if_neg isReserved, List.getLast?_concat] at isLast
        cases isLast
        simpa [stored] using (plain_cases isReserved).2

end Frame

namespace Deframer

variable {capacity : Nat}

/-- A segment overflows only if it stores too many bytes or ends in an escape. -/
theorem overflowAt?_of_fits {segment : Bytes}
    (fits : (Frame.unstuff segment).length ≤ capacity)
    (lastStored : ∀ last ∈ segment.getLast?, Frame.stored last = true) :
    overflowAt? capacity segment = none := by
  cases segment using List.reverseRecOn with
  | nil => rfl
  | append_singleton front last =>
      have kept : Frame.stored last = true := lastStored last List.getLast?_concat
      rw [overflowAt?, List.find?_range_eq_none]
      intro index below
      have notLater : index ≤ front.length := by
        rw [List.length_append, List.length_singleton] at below
        omega
      have fewer : ((front ++ [last]).take index).countP Frame.stored ≤
          front.countP Frame.stored := by
        rw [List.take_append_of_le_length notLater]
        exact List.Sublist.countP_le (List.take_sublist index front)
      rw [Frame.length_unstuff, List.countP_append, List.countP_singleton,
        if_pos kept] at fits
      rw [Frame.length_unstuff, Bool.not_eq_true', decide_eq_false_iff_not]
      omega

theorem outcomes_enclose {segment : Bytes} (flagFree : Frame.flag ∉ segment) :
    (new : Deframer capacity).outcomes (Frame.enclose segment) =
      none :: segmentOutcomes capacity segment ++ [closing capacity segment] := by
  have opened : (new : Deframer capacity).push Frame.flag = (none, begun) := rfl
  rw [Frame.enclose, List.cons_append, outcomes_cons, opened, outcomes_concat,
    outcomes_begun flagFree, after_begun flagFree, push_flag_within segment flagFree]
  rfl

/-- A segment without overflow is silent up to the flag behind it. -/
theorem outcomes_enclose_of_fits {segment : Bytes} (flagFree : Frame.flag ∉ segment)
    (fits : overflowAt? capacity segment = none)
    (longer : Frame.trailerLength < (Frame.unstuff segment).length) :
    (new : Deframer capacity).outcomes (Frame.enclose segment) =
      List.replicate (segment.length + 1) none ++
        [some (verdict (Frame.unstuff segment))] := by
  have silent : segmentOutcomes capacity segment = List.replicate segment.length none := by
    simp [segmentOutcomes, fits, List.map_const']
  have notShort : ¬(Frame.unstuff segment).length ≤ Frame.trailerLength := by omega
  rw [outcomes_enclose flagFree, silent, closing, fits, ending_eq, if_neg notShort,
    List.replicate_succ]
  rfl

theorem outcomes_enclose_stuff {frame : Bytes} (longer : Frame.trailerLength < frame.length)
    (fits : frame.length ≤ capacity) :
    (new : Deframer capacity).outcomes (Frame.enclose (Frame.stuff frame)) =
      List.replicate ((Frame.stuff frame).length + 1) none ++ [some (verdict frame)] := by
  have notTooLong : ¬capacity < frame.length := by omega
  have noOverflow : overflowAt? capacity (Frame.stuff frame) = none := by
    rw [overflowAt?_stuff, if_neg notTooLong]
  have enclosed := outcomes_enclose_of_fits (Frame.flag_not_mem_stuff frame) noOverflow
  rw [Frame.unstuff_stuff] at enclosed
  exact enclosed longer

theorem closing_eq_frame {segment payload : Bytes}
    (brought : closing capacity segment = some (.frame payload)) :
    verdict (Frame.unstuff segment) = .frame payload ∧
      (Frame.unstuff segment).length = payload.length + Frame.trailerLength := by
  rw [closing] at brought
  split at brought
  · cases brought
  · rw [ending_eq] at brought
    split at brought
    · cases brought
    · next longer =>
        have accepted := Option.some.inj brought
        refine ⟨accepted, ?_⟩
        have length := length_of_verdict accepted
        omega

/-- Inside a segment no frame comes out. -/
theorem frame_not_mem_segmentOutcomes (segment payload : Bytes) :
    some (.frame payload) ∉ segmentOutcomes capacity segment := by
  intro member
  obtain ⟨index, _, brought⟩ := List.mem_map.mp member
  split at brought
  · cases brought
  · cases brought

theorem closing_of_mem_segmentsOutcomes {before : Option Event} {segments : List Bytes}
    {payload : Bytes}
    (member : some (.frame payload) ∈ segmentsOutcomes capacity before segments) :
    before = some (.frame payload) ∨
      ∃ segment ∈ segments, closing capacity segment = some (.frame payload) := by
  induction segments generalizing before with
  | nil => cases member
  | cons segment later induction =>
      rw [segmentsOutcomes, List.mem_append, List.mem_cons] at member
      rcases member with (same | inside) | after
      · exact .inl same.symm
      · exact absurd inside (frame_not_mem_segmentOutcomes segment payload)
      · rcases induction after with closed | ⟨other, among, closed⟩
        · exact .inr ⟨segment, List.mem_cons_self, closed⟩
        · exact .inr ⟨other, List.mem_cons_of_mem _ among, closed⟩

/-- A frame comes only out of one of the segments of a stream. -/
theorem segment_of_frame {stream payload : Bytes}
    (brought : .frame payload ∈ (new : Deframer capacity).events stream) :
    ∃ segment ∈ stream.splitOn Frame.flag,
      closing capacity segment = some (.frame payload) := by
  obtain ⟨outcome, member, isFrame⟩ := List.mem_filterMap.mp brought
  cases isFrame
  rw [outcomes_new, reading] at member
  split at member
  · cases member
  · next noise segments pieces =>
      rcases List.mem_append.mp member with inNoise | inSegments
      · cases List.eq_of_mem_replicate inNoise
      · rcases closing_of_mem_segmentsOutcomes inSegments with none | ⟨segment, among, closed⟩
        · cases none
        · rw [pieces]
          exact ⟨segment, List.mem_cons_of_mem _ among, closed⟩

end Deframer

end FramedSerial
