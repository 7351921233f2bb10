import FramedSerial.Proofs.Frame.Streams
import FramedSerial.Proofs.Frame.Stuffing
import FramedSerial.Proofs.Frame.Trailer
import Mathlib.Data.List.Find
import Mathlib.Data.List.Induction

/-!
# Reading a stream by its segments

A stream can be read as a whole, without a machine.  It is cut at its flags.
The piece in front of the first flag is noise; every other piece is a segment
and is judged by itself: it overflows at the first byte that finds the capacity
used up, or else the flag behind it gives the verdict on its bytes.

`reading` is this description, and `reads_segments` says that the deframer
follows it on every stream, byte by byte.
-/

namespace FramedSerial

namespace Deframer

variable {capacity : Nat}

/-- The place in a segment of the first byte for which there is no room. -/
def overflowAt? (capacity : Nat) (segment : Bytes) : Option Nat :=
  (List.range segment.length).find? fun index =>
    capacity ≤ (Frame.unstuff (segment.take index)).length

/-- What the bytes of a segment bring, one by one. -/
def segmentOutcomes (capacity : Nat) (segment : Bytes) : List (Option Event) :=
  (List.range segment.length).map fun index =>
    if overflowAt? capacity segment = some index then
      some (.dropped (.tooLong capacity))
    else none

/-- What a frame of the given bytes brings: nothing if there are no more than
two of them, and else a comparison of the last two with the checksum. -/
def ending (frame : Bytes) : Option Event :=
  match frame.reverse with
  | high :: low :: last :: others =>
      let payload := (last :: others).reverse
      let received := UInt16.ofNat (low.toNat + 256 * high.toNat)
      if Checksum.ofBytes payload = received then some (.frame payload)
      else some (.dropped (.badChecksum (Checksum.ofBytes payload) received))
  | _ => none

/-- What the flag behind a segment brings. -/
def closing (capacity : Nat) (segment : Bytes) : Option Event :=
  if (overflowAt? capacity segment).isSome then none
  else ending (Frame.unstuff segment)

/-- What the segments bring, each with the flag in front of it; `before` is what
the first of these flags brings. -/
def segmentsOutcomes (capacity : Nat) (before : Option Event) :
    List Bytes → List (Option Event)
  | [] => []
  | segment :: later =>
      before :: segmentOutcomes capacity segment ++
        segmentsOutcomes capacity (closing capacity segment) later

/-- What a whole stream brings to a new deframer. -/
def reading (capacity : Nat) (stream : Bytes) : List (Option Event) :=
  match stream.splitOn Frame.flag with
  | [] => []
  | noise :: segments =>
      List.replicate noise.length none ++ segmentsOutcomes capacity none segments

/-- The bytes behind the last flag of a stream, if there is a flag. -/
def openSegment? (stream : Bytes) : Option Bytes :=
  (stream.splitOn Frame.flag).tail.getLast?

theorem ending_eq (frame : Bytes) :
    ending frame =
      if frame.length ≤ Frame.trailerLength then none else some (verdict frame) := by
  obtain ⟨backward, rfl⟩ : ∃ backward, frame = backward.reverse :=
    ⟨frame.reverse, frame.reverse_reverse.symm⟩
  match backward with
  | [] | [_] | [_, _] => rfl
  | high :: low :: last :: others =>
      have form : (high :: low :: last :: others).reverse =
          (last :: others).reverse ++ [low, high] := by
        simp
      have longer : ¬((last :: others).reverse ++ [low, high]).length ≤
          Frame.trailerLength := by
        simp [Frame.trailerLength]
      rw [form, if_neg longer, verdict_append _ _ rfl, Checksum.ofLittleEndian_pair]
      simp only [ending, List.reverse_append, List.reverse_cons, List.reverse_nil,
        List.nil_append, List.cons_append, List.reverse_reverse]
      split
      · rfl
      · rfl

theorem lt_length_of_overflowAt? {segment : Bytes} {index : Nat}
    (found : overflowAt? capacity segment = some index) : index < segment.length := by
  simpa using List.mem_of_find?_eq_some found

/-- One more byte makes a segment overflow only if it is the first without
room. -/
theorem overflowAt?_concat (segment : Bytes) (byte : UInt8) :
    overflowAt? capacity (segment ++ [byte]) =
      (overflowAt? capacity segment).or
        (if capacity ≤ (Frame.unstuff segment).length then some segment.length
          else none) := by
  have sameFront : ∀ index ∈ List.range segment.length,
      decide (capacity ≤ (Frame.unstuff ((segment ++ [byte]).take index)).length) =
        decide (capacity ≤ (Frame.unstuff (segment.take index)).length) := by
    intro index member
    have below : index < segment.length := List.mem_range.mp member
    rw [List.take_append_of_le_length (Nat.le_of_lt below)]
  rw [overflowAt?, List.length_append, List.length_singleton, List.range_succ,
    List.find?_append, List.find?_congr sameFront, ← overflowAt?]
  by_cases full : capacity ≤ (Frame.unstuff segment).length
  · simp [full]
  · simp [full]

theorem segmentOutcomes_concat (segment : Bytes) (byte : UInt8) :
    segmentOutcomes capacity (segment ++ [byte]) =
      segmentOutcomes capacity segment ++
        [if overflowAt? capacity segment = none ∧
            capacity ≤ (Frame.unstuff segment).length then
          some (.dropped (.tooLong capacity)) else none] := by
  rw [segmentOutcomes, List.length_append, List.length_singleton, List.range_succ,
    List.map_append, overflowAt?_concat, segmentOutcomes]
  cases found : overflowAt? capacity segment with
  | some index =>
      have below := lt_length_of_overflowAt? found
      have different : index ≠ segment.length := by omega
      simp [different]
  | none =>
      by_cases full : capacity ≤ (Frame.unstuff segment).length
      · simp only [full, Option.none_or, if_true, Option.some.injEq, List.map_cons,
          List.map_nil, and_self, List.append_cancel_right_eq]
        apply List.map_congr_left
        intro index member
        have below : index < segment.length := List.mem_range.mp member
        have different : segment.length ≠ index := by omega
        simp [different]
      · simp [full]

def within (segment : Bytes) : Deframer capacity :=
  if (overflowAt? capacity segment).isSome then
    { phase := .awaitingFlag
      previous := segment.getLast?.getD Frame.flag }
  else
    { phase := .accumulating
      held := Frame.unstuff segment
      previous := segment.getLast?.getD Frame.flag
      escapePending := Frame.markedAfter false segment }

theorem push_within {segment : Bytes} {byte : UInt8} (inside : byte ≠ Frame.flag) :
    (within segment : Deframer capacity).push byte =
      (if overflowAt? capacity segment = none ∧
          capacity ≤ (Frame.unstuff segment).length then
        some (.dropped (.tooLong capacity)) else none,
      within (segment ++ [byte])) := by
  -- The cases are the order of the tests in `push`: given up, full, escape, other.
  unfold within
  rw [overflowAt?_concat]
  cases overflowAt? capacity segment with
  | some index => simp [push, inside]
  | none =>
      by_cases full : capacity ≤ (Frame.unstuff segment).length
      · simp [push, inside, fill, giveUp, full]
      · by_cases isEscape : byte = Frame.escape
        · have different : Frame.escape ≠ Frame.flag := by decide
          simp [push, different, fill, full, isEscape, Frame.unstuff_concat]
        · have unmarked : (byte == Frame.escape) = false := by simpa using isEscape
          simp [push, inside, fill, full, isEscape, unmarked, store,
            Frame.unstuff_concat]

theorem after_begun {segment : Bytes} (flagFree : Frame.flag ∉ segment) :
    (begun : Deframer capacity).after segment = within segment := by
  induction segment using List.reverseRecOn with
  | nil => rfl
  | append_singleton segment byte induction =>
      simp only [List.mem_append, List.mem_singleton, not_or] at flagFree
      rw [after_concat, induction flagFree.1, push_within (Ne.symm flagFree.2)]

theorem outcomes_begun {segment : Bytes} (flagFree : Frame.flag ∉ segment) :
    (begun : Deframer capacity).outcomes segment = segmentOutcomes capacity segment := by
  induction segment using List.reverseRecOn with
  | nil => rfl
  | append_singleton segment byte induction =>
      simp only [List.mem_append, List.mem_singleton, not_or] at flagFree
      rw [outcomes_concat, segmentOutcomes_concat, induction flagFree.1,
        after_begun flagFree.1, push_within (Ne.symm flagFree.2)]

theorem push_flag_within (segment : Bytes) (flagFree : Frame.flag ∉ segment) :
    (within segment : Deframer capacity).push Frame.flag =
      (closing capacity segment, begun) := by
  refine Prod.ext ?_ (push_flag_snd _)
  rw [push_flag_fst, closing, within]
  cases overflowAt? capacity segment with
  | some index => simp
  | none =>
      have previous : segment = [] ∨ segment.getLast?.getD Frame.flag ≠ Frame.flag := by
        cases last : segment.getLast? with
        | none => exact .inl (List.getLast?_eq_none_iff.mp last)
        | some byte =>
            refine .inr ?_
            rintro rfl
            exact flagFree (List.mem_of_getLast? last)
      simp only [Option.isSome_none, Bool.false_eq_true, if_false, fill, ending_eq,
        true_and]
      rcases previous with rfl | different
      · rfl
      · by_cases short : (Frame.unstuff segment).length ≤ Frame.trailerLength
        · have notLonger :
              ¬Frame.trailerLength < (Frame.unstuff segment).length := by omega
          simp [short, notLonger]
        · have longer : Frame.trailerLength < (Frame.unstuff segment).length := by omega
          simp [different, short, longer]

/-- Induction over a stream by its segments, the last one first. -/
theorem segments_induction {motive : Bytes → Prop}
    (last : ∀ segment, Frame.flag ∉ segment → motive segment)
    (more : ∀ segment rest, Frame.flag ∉ segment → motive rest →
      motive (segment ++ Frame.flag :: rest))
    (stream : Bytes) : motive stream := by
  induction length : stream.length using Nat.strongRecOn generalizing stream with
  | ind _ induction =>
      by_cases member : Frame.flag ∈ stream
      · obtain ⟨segment, rest, rfl, flagFree⟩ := List.eq_append_cons_of_mem member
        apply more segment rest flagFree
        apply induction rest.length _ rest rfl
        simp only [← length, List.length_append, List.length_cons]
        omega
      · exact last stream member

/-- Behind a flag the deframer follows the segments to the end of the stream. -/
theorem outcomes_behind_flag (before : Option Event) (stream : Bytes) :
    before :: (begun : Deframer capacity).outcomes stream =
      segmentsOutcomes capacity before (stream.splitOn Frame.flag) := by
  induction stream using segments_induction generalizing before with
  | last segment flagFree =>
      rw [List.splitOn_eq_singleton flagFree, outcomes_begun flagFree]
      simp [segmentsOutcomes]
  | more segment rest flagFree induction =>
      rw [List.splitOn_append_cons_self_of_not_mem flagFree, segmentsOutcomes,
        ← induction, outcomes_append, outcomes_begun flagFree, after_begun flagFree,
        outcomes_cons, push_flag_within segment flagFree]
      rfl

theorem after_behind_flag (capacity : Nat) (stream : Bytes) :
    ∃ segment, (stream.splitOn Frame.flag).getLast? = some segment ∧
      (begun : Deframer capacity).after stream = within segment := by
  induction stream using segments_induction with
  | last segment flagFree =>
      refine ⟨segment, ?_, after_begun flagFree⟩
      rw [List.splitOn_eq_singleton flagFree]
      rfl
  | more segment rest flagFree induction =>
      obtain ⟨final, last, reached⟩ := induction
      refine ⟨final, ?_, ?_⟩
      · rw [List.splitOn_append_cons_self_of_not_mem flagFree, List.getLast?_cons, last]
        rfl
      · rw [after_append, after_cons, push_flag_snd, reached]

theorem outcomes_noise (deframer : Deframer capacity) {noise : Bytes}
    (awaiting : deframer.phase = .awaitingFlag) (flagFree : Frame.flag ∉ noise) :
    deframer.outcomes noise = List.replicate noise.length none ∧
      (deframer.after noise).phase = .awaitingFlag ∧
      (deframer.after noise).held = deframer.held := by
  induction noise generalizing deframer with
  | nil => exact ⟨rfl, awaiting, rfl⟩
  | cons byte noise induction =>
      simp only [List.mem_cons, not_or] at flagFree
      have pushed : deframer.push byte = (none, { deframer with previous := byte }) := by
        simp [push, awaiting, Ne.symm flagFree.1]
      obtain ⟨silent, stillAwaiting, stillHeld⟩ :=
        induction { deframer with previous := byte } awaiting flagFree.2
      rw [outcomes_cons, after_cons, pushed]
      refine ⟨?_, stillAwaiting, stillHeld⟩
      rw [silent, List.length_cons, List.replicate_succ]

/-- The bytes that are held behind a stream: those of the open segment, unless
it has overflowed. -/
def collected (capacity : Nat) (stream : Bytes) : Bytes :=
  match openSegment? stream with
  | none => []
  | some segment =>
      if (overflowAt? capacity segment).isSome then [] else Frame.unstuff segment

theorem outcomes_new (stream : Bytes) :
    (new : Deframer capacity).outcomes stream = reading capacity stream := by
  unfold reading
  by_cases member : Frame.flag ∈ stream
  · obtain ⟨noise, rest, rfl, flagFree⟩ := List.eq_append_cons_of_mem member
    obtain ⟨silent, awaiting, _⟩ := outcomes_noise (new : Deframer capacity) rfl flagFree
    have opened : ((new.after noise : Deframer capacity).push Frame.flag).1 = none := by
      simp [push_flag_fst, awaiting]
    rw [List.splitOn_append_cons_self_of_not_mem flagFree, outcomes_append, silent,
      outcomes_cons, opened, push_flag_snd, outcomes_behind_flag]
  · obtain ⟨silent, _⟩ := outcomes_noise (new : Deframer capacity) rfl member
    rw [List.splitOn_eq_singleton member, silent]
    simp [segmentsOutcomes]

theorem after_new (capacity : Nat) (stream : Bytes) :
    (((new : Deframer capacity).after stream).phase = .awaitingFlag ↔
        Frame.flag ∉ stream ∨ ∃ segment, openSegment? stream = some segment ∧
          (overflowAt? capacity segment).isSome) ∧
      ((new : Deframer capacity).after stream).held = collected capacity stream := by
  by_cases member : Frame.flag ∈ stream
  · obtain ⟨noise, rest, rfl, flagFree⟩ := List.eq_append_cons_of_mem member
    obtain ⟨segment, last, reached⟩ := after_behind_flag capacity rest
    have isOpen : openSegment? (noise ++ Frame.flag :: rest) = some segment := by
      rw [openSegment?, List.splitOn_append_cons_self_of_not_mem flagFree, List.tail_cons,
        last]
    rw [after_append, after_cons, push_flag_snd, reached, collected, isOpen, within]
    by_cases overflown : (overflowAt? capacity segment).isSome = true
    · simp [overflown]
    · simp [overflown, member]
  · obtain ⟨_, awaiting, held⟩ :=
      outcomes_noise (new : Deframer capacity) rfl member
    have notOpen : openSegment? stream = none := by
      rw [openSegment?, List.splitOn_eq_singleton member]
      rfl
    rw [awaiting, held, collected, notOpen]
    simp [member, new]

/-- A deframer reads every stream by its segments.  Each byte brings what the
segment it belongs to says; and behind every prefix the deframer awaits a flag
exactly if there was none or the open segment has overflowed, and otherwise it
holds the bytes of the open segment. -/
theorem reads_segments (stream : Bytes) :
    (new : Deframer capacity).outcomes stream = reading capacity stream ∧
      ∀ count,
        (((new : Deframer capacity).after (stream.take count)).phase = .awaitingFlag ↔
          Frame.flag ∉ stream.take count ∨
            ∃ segment, openSegment? (stream.take count) = some segment ∧
              (overflowAt? capacity segment).isSome) ∧
        ((new : Deframer capacity).after (stream.take count)).held =
          collected capacity (stream.take count) ∧
        ((new : Deframer capacity).after (stream.take count)).fill =
          (collected capacity (stream.take count)).length := by
  refine ⟨outcomes_new stream, ?_⟩
  intro count
  obtain ⟨phase, held⟩ := after_new capacity (stream.take count)
  exact ⟨phase, held, by rw [fill, held]⟩

end Deframer

end FramedSerial
