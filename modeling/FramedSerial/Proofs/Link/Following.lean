import FramedSerial.Proofs.Frame.Trains
import FramedSerial.Proofs.Link.Intake
import Mathlib.Data.List.Basic

/-!
# Following a stream without loss

A link at which a stream arrives, none of whose bytes is dropped, has read the
front of the stream and keeps the rest in its queue.  So the events that it has
come to are the first events of the stream.  If nothing comes out of the stream
but frames, and every buffer has room for them, then the payloads are handed
over one by one, and a read that finds nothing has nothing to find.
-/

namespace FramedSerial

namespace Deframer

variable {capacity : Nat}

theorem frame_injective : Function.Injective Event.frame := by
  intro first second same
  cases same
  rfl

/-- A payload that a receiver is made for. -/
def Fits (capacity : Nat) (payload : Bytes) : Prop :=
  payload ≠ [] ∧ payload.length ≤ capacity - Frame.trailerLength

instance (capacity : Nat) (payload : Bytes) : Decidable (Fits capacity payload) :=
  inferInstanceAs (Decidable (_ ∧ _))

theorem events_of_fitting {payloads : List Bytes}
    (fitting : ∀ payload ∈ payloads, Fits capacity payload) :
    (new : Deframer capacity).events (payloads.flatMap Frame.encode) =
      payloads.map .frame := by
  rw [events_encodings, ← List.flatMap_singleton' (payloads.map _), List.flatMap_map]
  apply List.flatMap_congr
  intro payload member
  obtain ⟨notEmpty, short⟩ := fitting payload member
  have positive := List.length_pos_iff.mpr notEmpty
  have notTooLong : ¬capacity < payload.length + Frame.trailerLength := by
    unfold Frame.trailerLength at short ⊢
    omega
  rw [expected, if_neg notTooLong, if_neg notEmpty]

end Deframer

namespace Link

variable {sizes : Sizes}

theorem Inbox.accept_of_undropped {capacity : Nat} {inbox : Inbox capacity} {byte : UInt8}
    (undropped : (inbox.accept byte).bytesDropped.toNat = 0) :
    inbox.bytesDropped.toNat = 0 ∧
      (inbox.accept byte).queue.toList = inbox.queue.toList ++ [byte] := by
  rcases Nat.lt_or_eq_of_le inbox.queue.length_le_capacity with room | full
  · obtain ⟨longer, accepted, contents⟩ := Inbox.accept_of_room room byte
    rw [accepted] at undropped ⊢
    exact ⟨undropped, contents⟩
  · rw [Inbox.accept_of_full full, Counter.toNat_increment, Nat.min_eq_zero_iff] at undropped
    rcases undropped with one | zero
    · cases one
    · cases zero

theorem Inbox.foldl_accept_of_undropped {capacity : Nat} {inbox : Inbox capacity}
    {bytes : Bytes} (undropped : (bytes.foldl Inbox.accept inbox).bytesDropped.toNat = 0) :
    inbox.bytesDropped.toNat = 0 ∧
      (bytes.foldl Inbox.accept inbox).queue.toList = inbox.queue.toList ++ bytes := by
  induction bytes generalizing inbox with
  | nil => exact ⟨undropped, (List.append_nil _).symm⟩
  | cons byte rest induction =>
      obtain ⟨undroppedNext, contents⟩ := induction undropped
      obtain ⟨undroppedHere, contentsHere⟩ := Inbox.accept_of_undropped undroppedNext
      refine ⟨undroppedHere, ?_⟩
      rw [List.foldl_cons, contents, contentsHere, List.append_assoc, List.singleton_append]

theorem followAll_arrive (link : Link sizes) (bytes : Bytes) :
    link.followAll (bytes.map .arrive) =
      { link with inbox := bytes.foldl Inbox.accept link.inbox } := by
  induction bytes generalizing link with
  | nil => rfl
  | cons byte rest induction =>
      have arrived := induction (link.follow (.arrive byte))
      rw [List.map_cons, followAll, List.foldl_cons, ← followAll, arrived, follow_arrive]
      rfl

/-- Of the bytes that have arrived a link has read some front, and come to the
events in it. -/
def Unframed (link : Link sizes) (arrived : Bytes) (events : List Deframer.Event) : Prop :=
  ∃ read, read ++ link.inbox.queue.toList = arrived ∧
    link.receiver.deframer = Deframer.new.after read ∧
    (Deframer.new : Deframer sizes.frame).events read = events

section

variable {link later : Link sizes} {arrived : Bytes} {events : List Deframer.Event}

/-- What a link has not come to is still to come out of its queue. -/
theorem Unframed.split (unframed : link.Unframed arrived events) :
    events ++ link.receiver.deframer.events link.inbox.queue.toList =
      (Deframer.new : Deframer sizes.frame).events arrived := by
  obtain ⟨read, isArrived, deframer, isRead⟩ := unframed
  rw [← isArrived, Deframer.events_append, isRead, deframer]

theorem Unframed.first (unframed : link.Unframed arrived events) :
    events <+: (Deframer.new : Deframer sizes.frame).events arrived :=
  ⟨_, unframed.split⟩

theorem Unframed.arrive (unframed : link.Unframed arrived events) {bytes : Bytes}
    (undropped :
      (link.followAll (bytes.map .arrive)).inbox.bytesDropped.toNat = 0) :
    (link.followAll (bytes.map .arrive)).Unframed (arrived ++ bytes) events := by
  rw [followAll_arrive] at undropped ⊢
  obtain ⟨_, contents⟩ := Inbox.foldl_accept_of_undropped undropped
  obtain ⟨read, isArrived, deframer, isRead⟩ := unframed
  refine ⟨read, ?_, deframer, isRead⟩
  rw [contents, ← isArrived, List.append_assoc]

variable {event? : Option Deframer.Event} {consumed left : Bytes}

theorem Unframed.advance (unframed : link.Unframed arrived events)
    (split : consumed ++ left = link.inbox.queue.toList)
    (hasRead : link.HasRead later consumed left) :
    later.Unframed arrived (events ++ link.receiver.deframer.events consumed) := by
  obtain ⟨read, isArrived, deframer, isRead⟩ := unframed
  refine ⟨read ++ consumed, ?_, ?_, ?_⟩
  · rw [hasRead.pending, List.append_assoc, split, isArrived]
  · rw [hasRead.deframer, deframer, Deframer.after_append]
  · rw [Deframer.events_append, isRead, ← deframer]

/-- The event that is found next is the next event of all that has arrived. -/
theorem Unframed.next (unframed : link.Unframed arrived events)
    (finds : Deframer.Finds Deframer.Event.isAny link.receiver.deframer
      link.inbox.queue.toList event? consumed left) :
    events ++ event?.toList <+: (Deframer.new : Deframer sizes.frame).events arrived ∧
      (event? = none →
        events = (Deframer.new : Deframer sizes.frame).events arrived) := by
  obtain ⟨read, isArrived, deframer, isRead⟩ := unframed
  have isNext : (Deframer.new : Deframer sizes.frame).events (read ++ consumed) =
      events ++ event?.toList := by
    rw [Deframer.events_append, isRead, ← deframer, finds.events]
  have split : read ++ consumed ++ left = arrived := by
    rw [List.append_assoc, finds.split, isArrived]
  constructor
  · rw [← isNext]
    apply Deframer.events_of_front
    exact ⟨left, split⟩
  · intro none
    subst none
    rw [finds.left_eq_nil, List.append_nil] at split
    rw [← split, isNext, Option.toList_none, List.append_nil]

theorem Unframed.read (unframed : link.Unframed arrived events)
    (finds : Deframer.Finds Deframer.Event.isAny link.receiver.deframer
      link.inbox.queue.toList event? consumed left)
    (hasRead : link.HasRead later consumed left) :
    later.Unframed arrived (events ++ event?.toList) := by
  rw [← finds.events]
  exact unframed.advance finds.split hasRead

end

/-- A link that has come to the frames of the given payloads and to nothing else,
and has handed all of them over. -/
structure Follows (link : Link sizes) (arrived : Bytes) (delivered : List Bytes) : Prop where
  unframed : link.Unframed arrived (delivered.map .frame)
  badChecksums : link.receiver.badChecksums = .zero
  framesTooLong : link.receiver.framesTooLong = .zero
  framesWithoutRoom : link.receiver.framesWithoutRoom = .zero

/-- What a read comes to where nothing but frames has arrived, all of them with
room in the buffer. -/
inductive Fetches (arrived : Bytes) (delivered frames : List Bytes) (buffer : Bytes) :
    Reading × Bytes × Link sizes → Prop where
  | nothing {later : Link sizes} : delivered = frames → later.Follows arrived delivered →
      Fetches arrived delivered frames buffer (.nothing, buffer, later)
  | frame {payload : Bytes} {later : Link sizes} : payload ≠ [] →
      delivered ++ [payload] <+: frames → later.Follows arrived (delivered ++ [payload]) →
      Fetches arrived delivered frames buffer
        (.frame payload.length, payload ++ buffer.drop payload.length, later)

/-- The payload that a read has left in the buffer, if it has. -/
def fetched (filled : Bytes) : Reading → List Bytes
  | .frame length => [filled.take length]
  | .nothing | .lost _ => []

section

variable {link : Link sizes} {arrived buffer : Bytes} {delivered frames : List Bytes}

theorem Follows.arrive (follows : link.Follows arrived delivered) {bytes : Bytes}
    (undropped :
      (link.followAll (bytes.map .arrive)).inbox.bytesDropped.toNat = 0) :
    (link.followAll (bytes.map .arrive)).Follows (arrived ++ bytes) delivered := by
  have unframed := follows.unframed.arrive undropped
  rw [followAll_arrive] at unframed ⊢
  exact ⟨unframed, follows.badChecksums, follows.framesTooLong,
    follows.framesWithoutRoom⟩

theorem Follows.delivered_first (follows : link.Follows arrived delivered)
    (brings : (Deframer.new : Deframer sizes.frame).events arrived = frames.map .frame) :
    delivered <+: frames := by
  have first := follows.unframed.first
  rw [brings] at first
  exact (List.prefix_map_iff_of_injective Deframer.frame_injective).mp first

theorem Follows.fetches (follows : link.Follows arrived delivered)
    (released : link.receiver.claimed = false)
    (brings : (Deframer.new : Deframer sizes.frame).events arrived = frames.map .frame)
    (room : ∀ payload ∈ frames, payload.length ≤ buffer.length) :
    Fetches arrived delivered frames buffer (link.tryReceive buffer) := by
  obtain ⟨event?, consumed, queue, journal, finds, result⟩ := tryReceive_finds released buffer
  obtain ⟨isNext, all⟩ := follows.unframed.next finds
  rw [brings] at isNext all
  rw [result]
  rcases event? with _ | ⟨payload⟩ | fault
  · apply Fetches.nothing
    · exact List.map_injective_iff.mpr Deframer.frame_injective (all rfl)
    · refine ⟨?_, follows.badChecksums, follows.framesTooLong, follows.framesWithoutRoom⟩
      rw [← List.append_nil (delivered.map _)]
      exact follows.unframed.read finds ⟨rfl, rfl, rfl, rfl⟩
  · have mapped : (delivered ++ [payload]).map Deframer.Event.frame <+:
        frames.map .frame := by
      rw [List.map_append]
      exact isNext
    have isNextFrame :=
      (List.prefix_map_iff_of_injective Deframer.frame_injective).mp mapped
    have member : payload ∈ frames := by
      apply isNextFrame.subset
      exact List.mem_append_right _ (List.mem_singleton_self payload)
    simp only [handed, counted, if_pos (room payload member)]
    apply Fetches.frame
    · exact finds.payload_ne_nil
    · exact isNextFrame
    · refine ⟨?_, follows.badChecksums, follows.framesTooLong, follows.framesWithoutRoom⟩
      rw [List.map_append]
      exact follows.unframed.read finds ⟨rfl, rfl, rfl, rfl⟩
  · -- No fault is among the frames.
    have member : Deframer.Event.dropped fault ∈ frames.map Deframer.Event.frame := by
      apply isNext.subset
      exact List.mem_append_right _ (List.mem_singleton_self _)
    obtain ⟨payload, _, impossible⟩ := List.mem_map.mp member
    cases impossible

theorem Fetches.tryReceive
    (fetches : Fetches arrived delivered frames buffer (link.tryReceive buffer)) :
    (link.tryReceive buffer).2.2.Follows arrived
        (delivered ++ fetched (link.tryReceive buffer).2.1 (link.tryReceive buffer).1) ∧
      ((link.tryReceive buffer).1 = .nothing ↔ delivered = frames) := by
  generalize link.tryReceive buffer = outcome at fetches ⊢
  cases fetches with
  | nothing all follows =>
      rw [fetched, List.append_nil]
      exact ⟨follows, iff_of_true rfl all⟩
  | frame notEmpty isNext follows =>
      rw [fetched, List.take_left]
      refine ⟨follows, iff_of_false Reading.noConfusion ?_⟩
      intro all
      have longer := isNext.length_le
      rw [all, List.length_append, List.length_singleton] at longer
      omega

/-- Where no fault is found, a read past faulty frames is a single read. -/
theorem Fetches.receive
    (fetches : Fetches arrived delivered frames buffer (link.tryReceive buffer)) :
    (link.receive buffer).2.2.Follows arrived
        (delivered ++ if (link.receive buffer).1 = 0 then []
          else [(link.receive buffer).2.1.take (link.receive buffer).1]) ∧
      ((link.receive buffer).1 = 0 ↔ delivered = frames) := by
  obtain ⟨_, nothing_iff⟩ := fetches.tryReceive
  rcases read : link.tryReceive buffer with ⟨reading, filled, later⟩
  rw [read] at fetches nothing_iff
  cases fetches with
  | nothing all follows =>
      rw [receive_of_nothing read, if_pos rfl, List.append_nil]
      exact ⟨follows, iff_of_true rfl all⟩
  | frame notEmpty isNext follows =>
      have notZero : _ ≠ 0 := (List.length_pos_iff.mpr notEmpty).ne'
      rw [receive_of_frame read, if_neg notZero, List.take_left]
      refine ⟨follows, iff_of_false notZero ?_⟩
      intro all
      cases nothing_iff.mpr all

end

end Link

end FramedSerial
