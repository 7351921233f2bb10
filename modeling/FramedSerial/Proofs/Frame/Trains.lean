import FramedSerial.Proofs.Frame.Segments

/-!
# Frames one behind the other

A sender puts frames on the line in a train.  Two frames in a row may share a
flag, and any number of further flags may stand between them.  A deframer takes
every train apart again, whatever was on the line before: each frame that fits
comes out at its closing flag, each that does not is reported once, and frames
without payload pass in silence.
-/

namespace FramedSerial

namespace Frame

/-- The frame of `first` and of all later payloads, each with the number of
flags that stand in front of it besides the one that it shares. -/
def train (first : Bytes) : (later : List (Nat × Bytes)) → Bytes
  | [] => encode first
  | (extra, next) :: later =>
      encode first ++ List.replicate extra flag ++ (train next later).tail

/-- What stands between the flags of a frame. -/
def inside (payload : Bytes) : Bytes :=
  stuff (payload ++ trailer payload)

theorem flag_not_mem_inside (payload : Bytes) : flag ∉ inside payload :=
  flag_not_mem_stuff _

theorem train_cons (first next : Bytes) (extra : Nat) (later : List (Nat × Bytes)) :
    train first ((extra, next) :: later) =
      flag :: (inside first ++ [flag] ++ List.replicate extra flag ++
        (train next later).tail) := rfl

end Frame

namespace Deframer

variable {capacity : Nat}

/-- The events that the frame of a payload brings about. -/
def expected (capacity : Nat) (payload : Bytes) : List Event :=
  if capacity < payload.length + Frame.trailerLength then [.dropped (.tooLong capacity)]
  else if payload = [] then []
  else [.frame payload]

/-- What the bytes of a frame behind its first flag bring, one by one.  A frame
that is too long is reported at the first byte for which there is no room, any
other at the closing flag. -/
def answer (capacity : Nat) (payload : Bytes) : List (Option Event) :=
  let fitting := (Frame.stuff ((payload ++ Frame.trailer payload).take capacity)).length
  let whole := (Frame.inside payload).length
  if capacity < payload.length + Frame.trailerLength then
    List.replicate fitting none ++ some (.dropped (.tooLong capacity)) ::
      List.replicate (whole - fitting) none
  else
    List.replicate whole none ++ [if payload = [] then none else some (.frame payload)]

def trainAnswers (capacity : Nat) (first : Bytes) :
    (later : List (Nat × Bytes)) → List (Option Event)
  | [] => answer capacity first
  | (extra, next) :: later =>
      answer capacity first ++ List.replicate extra none ++ trainAnswers capacity next later

/-- A stuffed run overflows exactly if it holds too many bytes, and then at the
first byte of what does not fit. -/
theorem overflowAt?_stuff (capacity : Nat) (data : Bytes) :
    overflowAt? capacity (Frame.stuff data) =
      if capacity < data.length then some (Frame.stuff (data.take capacity)).length
      else none := by
  by_cases tooLong : capacity < data.length
  · rw [if_pos tooLong, overflowAt?, List.find?_range_eq_some]
    have split : Frame.stuff data =
        Frame.stuff (data.take capacity) ++ Frame.stuff (data.drop capacity) := by
      rw [← Frame.stuff_append, List.take_append_drop]
    have notEmpty : Frame.stuff (data.drop capacity) ≠ [] := by
      intro equality
      have restored := congrArg Frame.unstuff equality
      rw [Frame.unstuff_stuff, Frame.unstuff_nil, List.drop_eq_nil_iff] at restored
      omega
    have positive := List.length_pos_iff.mpr notEmpty
    refine ⟨?_, ?_, ?_⟩
    · rw [split, List.take_left, Frame.unstuff_stuff, List.length_take]
      simp only [decide_eq_true_eq]
      omega
    · rw [List.mem_range, split, List.length_append]
      omega
    · intro index before
      have fewer := Frame.length_unstuff_take_stuff before
      rw [List.length_take] at fewer
      rw [split, List.take_append_of_le_length (Nat.le_of_lt before)]
      simp only [Bool.not_eq_true', decide_eq_false_iff_not]
      omega
  · rw [if_neg tooLong, overflowAt?, List.find?_range_eq_none]
    intro index below
    have fewer := Frame.length_unstuff_take_stuff below
    simp only [Bool.not_eq_true', decide_eq_false_iff_not]
    omega

/-- A single place in a row of bytes that bring nothing else. -/
private theorem map_range_single {Outcome : Type} (place count : Nat)
    (below : place < count) (found : Outcome) :
    ((List.range count).map fun index =>
        if some place = some index then some found else none) =
      List.replicate place none ++ some found ::
        List.replicate (count - 1 - place) none := by
  apply List.ext_getElem
  · simp
    omega
  · intro index _ _
    simp only [List.getElem_map, List.getElem_range, Option.some.injEq,
      List.getElem_append, List.length_replicate, List.getElem_replicate,
      List.getElem_cons]
    grind

theorem segmentOutcomes_inside (payload : Bytes) :
    segmentOutcomes capacity (Frame.inside payload) ++
        [closing capacity (Frame.inside payload)] = answer capacity payload := by
  have found := overflowAt?_stuff capacity (payload ++ Frame.trailer payload)
  have length : (payload ++ Frame.trailer payload).length =
      payload.length + Frame.trailerLength := List.length_append
  rw [length] at found
  unfold segmentOutcomes closing answer Frame.inside
  by_cases tooLong : capacity < payload.length + Frame.trailerLength
  · rw [if_pos tooLong] at found
    have below := lt_length_of_overflowAt? found
    rw [found, map_range_single _ _ below]
    simp only [Option.isSome_some, if_true, if_pos tooLong, List.append_assoc,
      List.cons_append, List.append_cancel_left_eq, List.cons.injEq, true_and]
    rw [← List.replicate_succ']
    congr 1
    omega
  · rw [if_neg tooLong] at found
    rw [found, Frame.unstuff_stuff, ending_eq, length]
    simp only [reduceCtorEq, if_false, List.map_const', List.length_range,
      Option.isSome_none, Bool.false_eq_true, if_neg tooLong, verdict_append_trailer]
    by_cases isEmpty : payload = []
    · simp [isEmpty]
    · have positive := List.length_pos_iff.mpr isEmpty
      have longer : ¬payload.length + Frame.trailerLength ≤ Frame.trailerLength := by omega
      simp [isEmpty, longer]

theorem filterMap_answer (payload : Bytes) :
    (answer capacity payload).filterMap id = expected capacity payload := by
  unfold answer expected
  by_cases tooLong : capacity < payload.length + Frame.trailerLength
  · simp [tooLong, List.filterMap_append]
  · simp only [if_neg tooLong]
    by_cases isEmpty : payload = []
    · simp [isEmpty]
    · simp [isEmpty]

theorem filterMap_trainAnswers (first : Bytes) (later : List (Nat × Bytes)) :
    (trainAnswers capacity first later).filterMap id =
      (first :: later.map Prod.snd).flatMap (expected capacity) := by
  induction later generalizing first with
  | nil =>
      rw [trainAnswers, filterMap_answer]
      simp
  | cons next later induction =>
      obtain ⟨extra, next⟩ := next
      have silent : (List.replicate extra (none : Option Event)).filterMap id = [] := by
        simp
      rw [trainAnswers, List.filterMap_append, List.filterMap_append, filterMap_answer,
        silent, induction, List.append_nil]
      simp only [List.map_cons, List.flatMap_cons]

theorem outcomes_frame (payload : Bytes) :
    (begun : Deframer capacity).outcomes (Frame.inside payload ++ [Frame.flag]) =
      answer capacity payload := by
  have flagFree := Frame.flag_not_mem_inside payload
  rw [outcomes_concat, outcomes_begun flagFree, after_begun flagFree,
    push_flag_within _ flagFree, segmentOutcomes_inside]

theorem after_frame (payload : Bytes) :
    (begun : Deframer capacity).after (Frame.inside payload ++ [Frame.flag]) = begun := by
  rw [after_concat, push_flag_snd]

theorem outcomes_flags (capacity count : Nat) :
    (begun : Deframer capacity).outcomes (List.replicate count Frame.flag) =
        List.replicate count none ∧
      (begun : Deframer capacity).after (List.replicate count Frame.flag) = begun := by
  induction count with
  | zero => exact ⟨rfl, rfl⟩
  | succ count induction =>
      have pushed : (begun : Deframer capacity).push Frame.flag = (none, begun) := rfl
      rw [List.replicate_succ, outcomes_cons, after_cons, pushed, induction.1, induction.2]
      exact ⟨rfl, rfl⟩

/-- Behind its first flag a train is taken apart frame by frame. -/
theorem outcomes_train_tail (capacity : Nat) (first : Bytes)
    (later : List (Nat × Bytes)) :
    (begun : Deframer capacity).outcomes (Frame.train first later).tail =
        trainAnswers capacity first later ∧
      (begun : Deframer capacity).after (Frame.train first later).tail = begun := by
  induction later generalizing first with
  | nil => exact ⟨outcomes_frame first, after_frame first⟩
  | cons next later induction =>
      obtain ⟨extra, next⟩ := next
      -- The closing flag of `first` already begins the next frame, and further
      -- flags begin it again.
      obtain ⟨silent, unchanged⟩ := outcomes_flags capacity extra
      obtain ⟨answers, reached⟩ := induction next
      have front : (begun : Deframer capacity).after (Frame.inside first ++ [Frame.flag] ++
          List.replicate extra Frame.flag) = begun := by
        rw [after_append, after_frame, unchanged]
      rw [Frame.train_cons, List.tail_cons]
      constructor
      · rw [outcomes_append, front, answers,
          outcomes_append _ (Frame.inside first ++ [Frame.flag]), outcomes_frame,
          after_frame, silent, trainAnswers]
      · rw [after_append, front, reached]

theorem train_eq_flag_cons (first : Bytes) (later : List (Nat × Bytes)) :
    Frame.train first later = Frame.flag :: (Frame.train first later).tail := by
  cases later with
  | nil => rfl
  | cons next later => rfl

/-- Whatever state a deframer is in, it takes a train apart into its payloads.
The first flag only ends what was held before; behind it the bytes bring the
answers to the frames and nothing else, and in the end a new frame has begun. -/
theorem outcomes_train (deframer : Deframer capacity) (first : Bytes)
    (later : List (Nat × Bytes)) :
    deframer.outcomes (Frame.train first later) =
        (if deframer.phase = .accumulating ∧ deframer.previous ≠ Frame.flag ∧
            Frame.trailerLength < deframer.fill then
          some (verdict deframer.held)
        else none) :: trainAnswers capacity first later ∧
      (deframer.outcomes (Frame.train first later)).tail.filterMap id =
        (first :: later.map Prod.snd).flatMap (expected capacity) ∧
      (deframer.after (Frame.train first later)).phase = .accumulating ∧
      (deframer.after (Frame.train first later)).fill = 0 := by
  obtain ⟨answers, reached⟩ := outcomes_train_tail capacity first later
  have outcomes : deframer.outcomes (Frame.train first later) =
      (deframer.push Frame.flag).1 :: trainAnswers capacity first later := by
    rw [train_eq_flag_cons, outcomes_cons, push_flag_snd, answers]
  have after : deframer.after (Frame.train first later) = begun := by
    rw [train_eq_flag_cons, after_cons, push_flag_snd, reached]
  refine ⟨?_, ?_, ?_, ?_⟩
  · rw [outcomes, push_flag_fst]
  · rw [outcomes, List.tail_cons, filterMap_trainAnswers]
  · rw [after]
    rfl
  · rw [after]
    rfl

/-- One further flag between any two frames leaves each frame its own flags. -/
theorem train_of_separate (first : Bytes) (later : List Bytes) :
    Frame.train first (later.map fun payload => (1, payload)) =
      (first :: later).flatMap Frame.encode := by
  induction later generalizing first with
  | nil =>
      rw [List.flatMap_singleton]
      rfl
  | cons next later induction =>
      have rest := induction next
      rw [train_eq_flag_cons] at rest
      rw [List.flatMap_cons, ← rest, List.map_cons, Frame.train, List.append_assoc]
      rfl

/-- A new deframer gets the frames of a sender one by one. -/
theorem events_encodings (capacity : Nat) (payloads : List Bytes) :
    (new : Deframer capacity).events (payloads.flatMap Frame.encode) =
      payloads.flatMap (expected capacity) := by
  cases payloads with
  | nil => rfl
  | cons first later =>
      have answers :=
        (outcomes_train_tail capacity first (later.map fun payload => (1, payload))).1
      have silent : ((new : Deframer capacity).push Frame.flag) = (none, begun) := rfl
      rw [← train_of_separate, train_eq_flag_cons, events, outcomes_cons, silent, answers,
        List.filterMap_cons_none rfl, filterMap_trainAnswers, List.map_map]
      simp only [Function.comp_def, List.map_id']

end Deframer

end FramedSerial
