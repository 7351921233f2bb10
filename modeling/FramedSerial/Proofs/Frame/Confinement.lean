import FramedSerial.Proofs.Frame.Storage

/-!
# A flag wipes the history of a deframer

Two deframers may have seen different streams, may have been reset at different
times and may have the remains of different frames in their slots.  From the
first flag that both of them see they cannot be told apart any more: neither a
corrupted frame nor a truncated or an overlong one has any influence on what is
read behind the next flag.  A reset deframer is no different from a new one.
-/

namespace FramedSerial

namespace Deframer

variable {capacity : Nat}

/-- What may happen to a deframer from outside. -/
inductive Signal where
  | push (byte : UInt8)
  | reset
deriving DecidableEq, Repr

def heed (deframer : Deframer capacity) : Signal → Deframer capacity
  | .push byte => (deframer.push byte).2
  | .reset => deframer.reset

def heedAll (deframer : Deframer capacity) (history : List Signal) : Deframer capacity :=
  history.foldl heed deframer

/-- Whatever came before a flag, behind it a deframer brings what a deframer
brings that has seen nothing but a flag. -/
theorem outcomes_drop_flag (deframer : Deframer capacity) (front rest : Bytes) :
    (deframer.outcomes (front ++ Frame.flag :: rest)).drop (front.length + 1) =
      (begun : Deframer capacity).outcomes rest := by
  rw [outcomes_append, outcomes_cons, push_flag_snd, ← deframer.length_outcomes front]
  exact List.drop_length_add_append 1

theorem after_flag (deframer : Deframer capacity) (front rest : Bytes) :
    deframer.after (front ++ Frame.flag :: rest) = (begun : Deframer capacity).after rest := by
  rw [after_append, after_cons, push_flag_snd]

namespace Stored

def heed (stored : Stored capacity) : Signal → Stored capacity
  | .push byte => (stored.push byte).2
  | .reset => stored.reset

def heedAll (stored : Stored capacity) (history : List Signal) : Stored capacity :=
  history.foldl heed stored

theorem contents_heed (stored : Stored capacity) (signal : Signal) :
    (stored.heed signal).contents = stored.contents.heed signal := by
  cases signal with
  | push byte => rw [heed, Deframer.heed, push_contents]
  | reset => rfl

theorem contents_heedAll (stored : Stored capacity) (history : List Signal) :
    (stored.heedAll history).contents = stored.contents.heedAll history := by
  induction history generalizing stored with
  | nil => rfl
  | cons signal history induction =>
      have first := stored.contents_heed signal
      have later := induction (stored.heed signal)
      rw [first] at later
      exact later

/-- Contents are all of a deframer that can be seen from outside. -/
theorem seen_of_contents_eq {left right : Stored capacity}
    (same : left.contents = right.contents) :
    left.phase = right.phase ∧ left.fill = right.fill := by
  constructor
  · exact congrArg Deframer.phase same
  · rw [← fill_contents, same, fill_contents]

/-- Whatever two deframers have been through, a flag makes them alike: every byte
behind it brings the same to both, and from the flag on they are in the same
phase with the same fill.  Resetting makes a deframer like a new one.  All that
is said here of slots holds of the bytes kept in a list. -/
theorem flag_wipes_history (capacity : Nat) (first second : List Signal)
    (front rest : Bytes) :
    let left : Stored capacity := new.heedAll first
    let right : Stored capacity := new.heedAll second
    (left.outcomes (front ++ Frame.flag :: rest)).drop (front.length + 1) =
        (right.outcomes (front ++ Frame.flag :: rest)).drop (front.length + 1) ∧
      (∀ count,
        (left.after (front ++ Frame.flag :: rest.take count)).phase =
            (right.after (front ++ Frame.flag :: rest.take count)).phase ∧
          (left.after (front ++ Frame.flag :: rest.take count)).fill =
            (right.after (front ++ Frame.flag :: rest.take count)).fill) ∧
      (∀ stream, left.reset.outcomes stream = (new : Stored capacity).outcomes stream) ∧
      ∀ stream,
        left.outcomes stream = (Deframer.new.heedAll first : Deframer capacity).outcomes stream ∧
          (left.after stream).contents =
            (Deframer.new.heedAll first : Deframer capacity).after stream := by
  intro left right
  have contents : left.contents = Deframer.new.heedAll first := by
    rw [← contents_new]
    exact contents_heedAll new first
  refine ⟨?_, ?_, ?_, ?_⟩
  · rw [outcomes_contents, outcomes_contents, outcomes_drop_flag, outcomes_drop_flag]
  · intro count
    apply seen_of_contents_eq
    rw [after_contents, after_contents, after_flag, after_flag]
  · intro stream
    rw [outcomes_contents, outcomes_contents, contents_reset, contents_new]
    rfl
  · intro stream
    rw [outcomes_contents, after_contents, contents]
    exact ⟨rfl, rfl⟩

end Stored

end Deframer

end FramedSerial
