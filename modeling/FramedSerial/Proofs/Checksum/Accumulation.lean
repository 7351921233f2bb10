import FramedSerial.Proofs.Checksum.Register
import Mathlib.Logic.Function.Basic

/-!
# Checksums fed piece by piece

A program may have several checksums under way, copy them, feed each of them byte
by byte or in slices, and ask for their values at any time.  It cannot tell them
from records that keep all the data and compute bit by bit whenever they are
asked: every answer is the same.  So the value depends on the data alone and not
on where it was cut, asking changes nothing, and a copy goes its own way.
-/

namespace FramedSerial

namespace Checksum

/-- What a program does with the checksums under way, each of which stands at a
place of its own. -/
inductive Use where
  | start (place : Nat)
  | update (place : Nat) (byte : UInt8)
  /-- The checksum is taken from its place, and its successor is put at another. -/
  | advance (source target : Nat) (byte : UInt8)
  | extend (place : Nat) (data : Bytes)
  | copy (source target : Nat)
  | value (place : Nat)
  | trailer (place : Nat)
deriving DecidableEq, Repr

/-- The places at which a use may leave something else than it found. -/
def Use.changes : Use → List Nat
  | .start place | .update place _ | .extend place _ => [place]
  | .advance source target _ => [source, target]
  | .copy _ target => [target]
  | .value _ | .trailer _ => []

inductive Answer where
  | value (word : UInt16)
  | trailer (bytes : Bytes)
deriving DecidableEq, Repr

/-- Something that can be fed and asked for a checksum. -/
structure Accumulator (State : Type) where
  start : State
  update : State → UInt8 → State
  extend : State → Bytes → State
  value : State → UInt16
  trailer : State → Bytes

/-- The checksum bit by bit: the complement of what the data leaves in the register. -/
def bitwise (data : Bytes) : UInt16 :=
  ~~~data.foldl absorbBits start

def running : Accumulator Checksum where
  start := new
  update := update
  extend := extend
  value := value
  trailer := trailer

/-- Keeps the data itself. -/
def recording : Accumulator Bytes where
  start := []
  update data byte := data ++ [byte]
  extend data more := data ++ more
  value := bitwise
  trailer data := littleEndian (bitwise data)

namespace Accumulator

variable {State Other : Type}

def use (accumulator : Accumulator State) (states : Nat → Option State) :
    Use → Option Answer × (Nat → Option State)
  | .start place => (none, Function.update states place (some accumulator.start))
  | .update place byte =>
      (none, Function.update states place
        ((states place).map fun state => accumulator.update state byte))
  | .advance source target byte =>
      (none, Function.update (Function.update states source none) target
        ((states source).map fun state => accumulator.update state byte))
  | .extend place data =>
      (none, Function.update states place
        ((states place).map fun state => accumulator.extend state data))
  | .copy source target => (none, Function.update states target (states source))
  | .value place => ((states place).map fun state => .value (accumulator.value state), states)
  | .trailer place =>
      ((states place).map fun state => .trailer (accumulator.trailer state), states)

/-- The answers to a sequence of uses, and what stands at the places behind it. -/
def useAll (accumulator : Accumulator State) (states : Nat → Option State) :
    List Use → List (Option Answer) × (Nat → Option State)
  | [] => ([], states)
  | use :: later =>
      let (answer, states) := accumulator.use states use
      let (answers, states) := accumulator.useAll states later
      (answer :: answers, states)

/-- A use leaves all places alone that it does not change. -/
theorem use_of_not_changed (accumulator : Accumulator State)
    (states : Nat → Option State) {use : Use} {place : Nat} (other : place ∉ use.changes) :
    (accumulator.use states use).2 place = states place := by
  cases use with
  | start _ | update _ _ | extend _ _ | copy _ _ =>
      exact Function.update_of_ne (List.ne_of_not_mem_cons other) _ _
  | advance _ _ _ =>
      have notSource := List.ne_of_not_mem_cons other
      have notTarget := List.ne_of_not_mem_cons (List.not_mem_of_not_mem_cons other)
      exact (Function.update_of_ne notTarget _ _).trans
        (Function.update_of_ne notSource _ _)
  | value _ | trailer _ => rfl

/-- One accumulator does to the images of states what the other does to the states,
and answers the same. -/
structure Represents (accumulator : Accumulator State) (image : Other → State)
    (original : Accumulator Other) : Prop where
  start : image original.start = accumulator.start
  update : ∀ state byte,
    image (original.update state byte) = accumulator.update (image state) byte
  extend : ∀ state data,
    image (original.extend state data) = accumulator.extend (image state) data
  value : ∀ state, accumulator.value (image state) = original.value state
  trailer : ∀ state, accumulator.trailer (image state) = original.trailer state

variable {accumulator : Accumulator State} {image : Other → State}
  {original : Accumulator Other}

/-- To feed the image of what stands at a place is to take the image of what was fed. -/
private theorem update_map_map (feed : State → State) (feedOther : Other → Other)
    (commutes : ∀ state, image (feedOther state) = feed (image state))
    (states : Nat → Option Other) (target : Nat) (state? : Option Other) :
    Function.update (Option.map image ∘ states) target ((state?.map image).map feed) =
      Option.map image ∘ Function.update states target (state?.map feedOther) := by
  have same : (state?.map image).map feed = (state?.map feedOther).map image := by
    cases state? with
    | none => rfl
    | some state => exact congrArg some (commutes state).symm
  rw [same]
  exact (Function.comp_update _ states target _).symm

theorem Represents.use (represents : accumulator.Represents image original)
    (states : Nat → Option Other) (use : Use) :
    accumulator.use (Option.map image ∘ states) use =
      ((original.use states use).1, Option.map image ∘ (original.use states use).2) := by
  cases use with
  | start place =>
      simp only [Accumulator.use, Function.comp_update, Option.map_some, represents.start]
  | update place byte =>
      exact congrArg (Prod.mk none) (update_map_map
        (accumulator.update · byte) (original.update · byte)
        (fun state => represents.update state byte) states place (states place))
  | advance source target byte =>
      have fed := update_map_map (accumulator.update · byte) (original.update · byte)
        (fun state => represents.update state byte) (Function.update states source none)
        target (states source)
      rw [Function.comp_update] at fed
      exact congrArg (Prod.mk none) fed
  | extend place data =>
      exact congrArg (Prod.mk none) (update_map_map
        (accumulator.extend · data) (original.extend · data)
        (fun state => represents.extend state data) states place (states place))
  | copy source target =>
      exact congrArg (Prod.mk none) (Function.comp_update _ states target _).symm
  | value place =>
      simp [Accumulator.use, Function.comp_def, represents.value]
  | trailer place =>
      simp [Accumulator.use, Function.comp_def, represents.trailer]

theorem Represents.useAll (represents : accumulator.Represents image original)
    (states : Nat → Option Other) (uses : List Use) :
    accumulator.useAll (Option.map image ∘ states) uses =
      ((original.useAll states uses).1,
        Option.map image ∘ (original.useAll states uses).2) := by
  induction uses generalizing states with
  | nil => rfl
  | cons use later induction =>
      simp only [Accumulator.useAll, represents.use, induction]

end Accumulator

theorem register_extend (checksum : Checksum) (data : Bytes) :
    (checksum.extend data).register = data.foldl absorbBits checksum.register := by
  induction data generalizing checksum with
  | nil => rfl
  | cons byte rest induction =>
      have step : (checksum.update byte).register = absorbBits checksum.register byte :=
        absorb_eq_absorbBits checksum.register byte
      rw [extend_cons, induction, step]
      rfl

theorem ofBytes_eq_bitwise (data : Bytes) : ofBytes data = bitwise data := by
  rw [ofBytes, value, register_extend]
  rfl

/-- A running checksum is what the data fed to it leaves. -/
theorem running_represents : running.Represents new.extend recording where
  start := rfl
  update data byte := extend_append new data [byte]
  extend data more := extend_append new data more
  value data := ofBytes_eq_bitwise data
  trailer data := congrArg littleEndian (ofBytes_eq_bitwise data)

/-- Whatever is done with checksums, from none at the outset, every answer is the
one computed bit by bit from all the data that was fed, and the checksum at a place
has the value of the whole data there.  A use leaves alone what stands at other
places than it changes, and asking changes none. -/
theorem running_answers_as_recording (uses : List Use) :
    (running.useAll (fun _ => none) uses).1 =
        (recording.useAll (fun _ => none) uses).1 ∧
      (∀ place, ((running.useAll (fun _ => none) uses).2 place).map value =
          ((recording.useAll (fun _ => none) uses).2 place).map ofBytes) ∧
      (∀ data, ofBytes data = ~~~data.foldl absorbBits start) ∧
      ∀ states (use : Use) place, place ∉ use.changes →
        (running.use states use).2 place = states place := by
  have same := running_represents.useAll (fun _ => none) uses
  refine ⟨congrArg Prod.fst same, ?_, ofBytes_eq_bitwise, ?_⟩
  · intro place
    have states : (running.useAll (fun _ => none) uses).2 =
        Option.map new.extend ∘ (recording.useAll (fun _ => none) uses).2 :=
      congrArg Prod.snd same
    rw [states, Function.comp_apply, Option.map_map]
    rfl
  · intro states use place other
    exact running.use_of_not_changed states other

/-- A checksum is copied in the middle; the original and the copy then go on with
different data, the one handed on to a third place. -/
theorem copied_letter_answers :
    2 ∉ (Use.extend 1 [0x42, 0x43]).changes ∧
      (running.useAll (fun _ => none)
        [.start 0, .update 0 0x41, .copy 0 1, .extend 1 [], .extend 1 [0x42, 0x43],
          .trailer 1, .advance 0 2 0x42, .value 0, .value 2, .value 1]).1 =
        [none, none, none, none, none, some (.trailer [0x2F, 0x9F]), none, none,
          some (.value 0x31EF), some (.value 0x9F2F)] ∧
      (running.use (fun _ => some new) (.extend 1 [0x42, 0x43])).2 2 = some new := by
  have other : 2 ∉ (Use.extend 1 [0x42, 0x43]).changes := by decide
  refine ⟨other, ?_, ?_⟩
  · rw [(running_answers_as_recording _).1]
    decide +kernel
  · exact (running_answers_as_recording []).2.2.2 _ _ _ other

end Checksum

end FramedSerial
