import FramedSerial.Frame.Deframer

/-!
# Deframers along a stream

`outcomes` lists what each byte of a stream brings and `after` is the deframer
that is left.  Both may be taken piece by piece.  A flag leaves every deframer
in one and the same state, `begun`, whatever came before it.
-/

namespace FramedSerial

namespace Deframer

variable {capacity : Nat}

/-- What the bytes of a stream bring, one by one. -/
def outcomes (deframer : Deframer capacity) (stream : Bytes) : List (Option Event) :=
  (deframer.run stream).map Prod.fst

def after (deframer : Deframer capacity) (stream : Bytes) : Deframer capacity :=
  stream.foldl (fun present byte => (present.push byte).2) deframer

/-- What a stream brings, without the bytes that bring nothing. -/
def events (deframer : Deframer capacity) (stream : Bytes) : List Event :=
  (deframer.outcomes stream).filterMap id

def begun : Deframer capacity where
  phase := .accumulating
  previous := Frame.flag

@[simp] theorem after_nil (deframer : Deframer capacity) : deframer.after [] = deframer := rfl

@[simp] theorem after_cons (deframer : Deframer capacity) (byte : UInt8) (rest : Bytes) :
    deframer.after (byte :: rest) = (deframer.push byte).2.after rest := rfl

@[simp] theorem outcomes_nil (deframer : Deframer capacity) : deframer.outcomes [] = [] := rfl

@[simp] theorem outcomes_cons (deframer : Deframer capacity) (byte : UInt8) (rest : Bytes) :
    deframer.outcomes (byte :: rest) =
      (deframer.push byte).1 :: (deframer.push byte).2.outcomes rest := rfl

theorem after_append (deframer : Deframer capacity) (front back : Bytes) :
    deframer.after (front ++ back) = (deframer.after front).after back :=
  List.foldl_append

theorem outcomes_append (deframer : Deframer capacity) (front back : Bytes) :
    deframer.outcomes (front ++ back) =
      deframer.outcomes front ++ (deframer.after front).outcomes back := by
  induction front generalizing deframer with
  | nil => rfl
  | cons byte front induction => simp [induction]

theorem length_outcomes (deframer : Deframer capacity) (stream : Bytes) :
    (deframer.outcomes stream).length = stream.length := by
  induction stream generalizing deframer with
  | nil => rfl
  | cons byte rest induction =>
      rw [outcomes_cons, List.length_cons, List.length_cons, induction]

/-- The deframers that a run goes through are those behind the prefixes of the
stream. -/
theorem run_concat (deframer : Deframer capacity) (front : Bytes) (byte : UInt8) :
    deframer.run (front ++ [byte]) =
      deframer.run front ++ [(deframer.after front).push byte] := by
  induction front generalizing deframer with
  | nil => rfl
  | cons first front induction => simp [run, induction]

theorem outcomes_concat (deframer : Deframer capacity) (front : Bytes) (byte : UInt8) :
    deframer.outcomes (front ++ [byte]) =
      deframer.outcomes front ++ [((deframer.after front).push byte).1] := by
  simp [outcomes, run_concat]

theorem after_concat (deframer : Deframer capacity) (front : Bytes) (byte : UInt8) :
    deframer.after (front ++ [byte]) = ((deframer.after front).push byte).2 := by
  simp [after]

theorem events_append (deframer : Deframer capacity) (front back : Bytes) :
    deframer.events (front ++ back) =
      deframer.events front ++ (deframer.after front).events back := by
  rw [events, outcomes_append, List.filterMap_append]
  rfl

/-- The front of a stream brings the first events of the whole. -/
theorem events_of_front (deframer : Deframer capacity) {front stream : Bytes}
    (isFront : front <+: stream) : deframer.events front <+: deframer.events stream := by
  obtain ⟨back, rfl⟩ := isFront
  rw [events_append]
  exact List.prefix_append _ _

theorem push_flag_snd (deframer : Deframer capacity) :
    (deframer.push Frame.flag).2 = begun := by
  unfold push
  cases deframer.phase with
  | awaitingFlag => rfl
  | accumulating =>
      dsimp only
      rw [if_pos rfl]
      split
      · rfl
      · rfl

/-- A flag ends what a deframer holds, if that is more than a trailer. -/
theorem push_flag_fst (deframer : Deframer capacity) :
    (deframer.push Frame.flag).1 =
      if deframer.phase = .accumulating ∧ deframer.previous ≠ Frame.flag ∧
          Frame.trailerLength < deframer.fill then
        some (verdict deframer.held)
      else none := by
  unfold push
  cases phase : deframer.phase with
  | awaitingFlag => simp
  | accumulating =>
      by_cases repeated : deframer.previous = Frame.flag
      · simp [repeated]
      · by_cases short : deframer.held.length ≤ Frame.trailerLength
        · have notLonger : ¬Frame.trailerLength < deframer.held.length := by omega
          simp [repeated, fill, short, notLonger]
        · have longer : Frame.trailerLength < deframer.held.length := by omega
          simp [repeated, fill, short, longer]

/-- Any other byte brings nothing, unless a frame is under way and there is no
room for the byte. -/
theorem push_plain_fst (deframer : Deframer capacity) {byte : UInt8}
    (notFlag : byte ≠ Frame.flag) :
    (deframer.push byte).1 =
      if deframer.phase = .accumulating ∧ capacity ≤ deframer.fill then
        some (.dropped (.tooLong capacity))
      else none := by
  unfold push
  cases phase : deframer.phase with
  | awaitingFlag => simp [notFlag]
  | accumulating =>
      dsimp only
      rw [if_neg notFlag]
      by_cases full : capacity ≤ deframer.held.length
      · simp [fill, full]
      · by_cases isEscape : byte = Frame.escape
        · simp [fill, full, isEscape]
        · simp [fill, full, isEscape]

/-- A frame comes out at a flag only, and out of more than a trailer. -/
theorem push_eq_frame {deframer : Deframer capacity} {byte : UInt8} {payload : Bytes}
    (brought : (deframer.push byte).1 = some (.frame payload)) :
    Frame.trailerLength < deframer.fill ∧ verdict deframer.held = .frame payload := by
  by_cases isFlag : byte = Frame.flag
  · rw [isFlag, push_flag_fst] at brought
    split at brought
    · next ended => exact ⟨ended.2.2, Option.some.inj brought⟩
    · cases brought
  · rw [push_plain_fst _ isFlag] at brought
    split at brought
    · cases brought
    · cases brought

end Deframer

end FramedSerial
