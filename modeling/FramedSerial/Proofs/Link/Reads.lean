import FramedSerial.Link.Reception
import FramedSerial.Proofs.Frame.Payloads
import FramedSerial.Proofs.QueueContents

/-!
# What a read of a link comes to

A read moves received bytes into the deframer until one of them brings an event
of the kind that is wanted: any event for a single read, a frame for a read that
goes on past faulty frames.  `Finds` says so of plain lists, without queues and
loops: which event is found, which bytes are used up for it and which are left.
The rest of a read is `handed` and `counted`: what the caller gets for the event
and what the receiver makes of it.
-/

namespace FramedSerial

namespace Deframer

variable {capacity : Nat} {wanted : Event → Bool}

def Event.isFrame : Event → Bool
  | .frame _ => true
  | .dropped _ => false

def Event.isAny : Event → Bool
  | _ => true

/-- None of the bytes brings an event that is wanted. -/
def Barren (wanted : Event → Bool) (deframer : Deframer capacity) (bytes : Bytes) : Prop :=
  ∀ event, some event ∈ deframer.outcomes bytes → wanted event = false

/-- The first event that is wanted among the pending bytes, the bytes up to the
one that brings it, and the bytes behind. -/
inductive Finds (wanted : Event → Bool) (deframer : Deframer capacity) :
    Bytes → Option Event → Bytes → Bytes → Prop where
  | nothing {pending : Bytes} :
      Barren wanted deframer pending → Finds wanted deframer pending none pending []
  | event {front left : Bytes} {byte : UInt8} {event : Event} :
      Barren wanted deframer front →
      ((deframer.after front).push byte).1 = some event → wanted event = true →
      Finds wanted deframer (front ++ byte :: left) (some event) (front ++ [byte]) left

theorem barren_nil (deframer : Deframer capacity) : Barren wanted deframer [] := by
  intro event member
  cases member

theorem barren_cons {deframer : Deframer capacity} {byte : UInt8} {rest : Bytes}
    (unwanted : ∀ event, (deframer.push byte).1 = some event → wanted event = false)
    (later : Barren wanted (deframer.push byte).2 rest) :
    Barren wanted deframer (byte :: rest) := by
  intro event member
  rw [outcomes_cons] at member
  rcases List.mem_cons.mp member with here | there
  · exact unwanted event here.symm
  · exact later event there

theorem Barren.append {deframer : Deframer capacity} {front back : Bytes}
    (first : Barren wanted deframer front)
    (second : Barren wanted (deframer.after front) back) :
    Barren wanted deframer (front ++ back) := by
  intro event member
  rw [outcomes_append] at member
  rcases List.mem_append.mp member with inFront | inBack
  · exact first event inFront
  · exact second event inBack

theorem Barren.of_any {deframer : Deframer capacity} {bytes : Bytes}
    (barren : Barren Event.isAny deframer bytes) : Barren wanted deframer bytes := by
  intro event member
  have impossible := barren event member
  cases impossible

theorem Barren.events_eq_nil {deframer : Deframer capacity} {bytes : Bytes}
    (barren : Barren Event.isAny deframer bytes) : deframer.events bytes = [] := by
  apply List.filterMap_eq_nil_iff.mpr
  intro outcome member
  cases outcome with
  | none => rfl
  | some event => cases barren event member

theorem Finds.split {deframer : Deframer capacity} {pending consumed left : Bytes}
    {event? : Option Event} (finds : Finds wanted deframer pending event? consumed left) :
    consumed ++ left = pending := by
  cases finds with
  | nothing _ => exact List.append_nil _
  | event _ _ _ => rw [List.append_assoc, List.singleton_append]

theorem Finds.left_eq_nil {deframer : Deframer capacity} {pending consumed left : Bytes}
    (finds : Finds wanted deframer pending none consumed left) : left = [] := by
  cases finds
  rfl

/-- The first event of all, if it is wanted, is the first that is wanted. -/
theorem Finds.of_any {deframer : Deframer capacity} {pending consumed left : Bytes}
    {event? : Option Event} (finds : Finds Event.isAny deframer pending event? consumed left)
    (isWanted : ∀ event, event? = some event → wanted event = true) :
    Finds wanted deframer pending event? consumed left := by
  cases finds with
  | nothing barren => exact .nothing barren.of_any
  | event barren brought _ => exact .event barren.of_any brought (isWanted _ rfl)

theorem Finds.cons {deframer : Deframer capacity} {byte : UInt8}
    {rest consumed left : Bytes} {event? : Option Event}
    (unwanted : ∀ event, (deframer.push byte).1 = some event → wanted event = false)
    (finds : Finds wanted (deframer.push byte).2 rest event? consumed left) :
    Finds wanted deframer (byte :: rest) event? (byte :: consumed) left := by
  cases finds with
  | nothing barren => exact .nothing (barren_cons unwanted barren)
  | event barren brought isWanted =>
      have silent := barren_cons unwanted barren
      exact .event silent brought isWanted

/-- A search that ends at an event that is not wanted goes on behind it. -/
theorem Finds.go_on {deframer : Deframer capacity}
    {pending consumed between later left : Bytes} {found : Event} {event? : Option Event}
    (first : Finds Event.isAny deframer pending (some found) consumed between)
    (unwanted : wanted found = false)
    (second : Finds wanted (deframer.after consumed) between event? later left) :
    Finds wanted deframer pending event? (consumed ++ later) left := by
  cases first with
  | @event front between byte found silent brought _ =>
      have passed : Barren wanted deframer (front ++ [byte]) := by
        apply silent.of_any.append
        apply barren_cons
        · intro event same
          rw [brought] at same
          cases same
          exact unwanted
        · exact barren_nil _
      cases second with
      | nothing barren =>
          have all := passed.append barren
          rw [List.append_assoc, List.singleton_append] at all ⊢
          exact .nothing all
      | @event later left last event barren broughtLater isWanted =>
          have all := passed.append barren
          have reached : ((deframer.after (front ++ [byte] ++ later)).push last).1 =
              some event := by
            rw [after_append]
            exact broughtLater
          have finds : Finds wanted deframer
              (front ++ [byte] ++ later ++ last :: left) (some event)
              (front ++ [byte] ++ later ++ [last]) left := .event all reached isWanted
          simpa only [List.append_assoc, List.cons_append, List.nil_append] using finds

/-- The bytes up to the first event of all bring this event and no other. -/
theorem Finds.events {deframer : Deframer capacity} {pending consumed left : Bytes}
    {event? : Option Event}
    (finds : Finds Event.isAny deframer pending event? consumed left) :
    deframer.events consumed = event?.toList := by
  cases finds with
  | nothing barren => exact barren.events_eq_nil
  | event barren brought _ =>
      rw [events_append, barren.events_eq_nil, Deframer.events, outcomes_cons, brought]
      rfl

theorem Finds.payload_ne_nil {deframer : Deframer capacity}
    {pending consumed left payload : Bytes}
    (finds : Finds wanted deframer pending (some (.frame payload)) consumed left) :
    payload ≠ [] := by
  cases finds with
  | event _ brought _ => exact Deframer.payload_ne_nil brought

end Deframer

namespace Link

variable {sizes : Sizes}

theorem nextEvent_finds {capacity frameCapacity : Nat} (queue : ByteQueue capacity)
    (deframer : Deframer frameCapacity) :
    ∃ consumed, (nextEvent queue deframer).2.2 = deframer.after consumed ∧
      Deframer.Finds Deframer.Event.isAny deframer queue.toList
        (nextEvent queue deframer).1 consumed (nextEvent queue deframer).2.1.toList := by
  induction queue, deframer using nextEvent.induct with
  | case1 queue deframer popped =>
      rw [nextEvent_of_empty popped]
      rw [ByteQueue.pop?_eq_none_iff_toList] at popped
      refine ⟨[], rfl, ?_⟩
      rw [popped]
      exact .nothing (Deframer.barren_nil deframer)
  | case2 queue deframer byte rest popped event later pushed =>
      rw [nextEvent_of_event popped pushed, ByteQueue.toList_of_pop? popped]
      refine ⟨[byte], ?_, ?_⟩
      · rw [Deframer.after_cons, pushed]
        rfl
      · have brought : ((deframer.after []).push byte).1 = some event := by
          rw [Deframer.after_nil, pushed]
        have silent : Deframer.Barren Deframer.Event.isAny deframer [] :=
          Deframer.barren_nil deframer
        exact .event silent brought rfl
  | case3 queue deframer byte rest popped later pushed induction =>
      rw [nextEvent_of_silence popped pushed, ByteQueue.toList_of_pop? popped]
      obtain rfl : (deframer.push byte).2 = later := congrArg Prod.snd pushed
      obtain ⟨consumed, reached, finds⟩ := induction
      refine ⟨byte :: consumed, reached, ?_⟩
      apply Deframer.Finds.cons
      · intro event brought
        rw [pushed] at brought
        cases brought
      · exact finds

/-- What a single read hands over for the event that it finds: the reading, and
the buffer afterwards. -/
def handed (buffer : Bytes) : Option Deframer.Event → Reading × Bytes
  | none => (.nothing, buffer)
  | some (.frame payload) =>
      if payload.length ≤ buffer.length then
        (.frame payload.length, payload ++ buffer.drop payload.length)
      else (.lost (.noRoom payload.length buffer.length), buffer)
  | some (.dropped fault) => (.lost (.faulty fault), buffer)

/-- The length that a read past faulty frames returns for a reading. -/
def Reading.length : Reading → Nat
  | .frame length => length
  | .nothing | .lost _ => 0

/-- A single read that does not come to a faulty frame is all there is to a read. -/
theorem receive_of_end {link later : Link sizes} {buffer filled : Bytes} {reading : Reading}
    (read : link.tryReceive buffer = (reading, filled, later))
    (notFaulty : ∀ fault, reading ≠ .lost (.faulty fault)) :
    link.receive buffer = (reading.length, filled, later) := by
  rcases reading with _ | length | ⟨fault⟩ | _
  · exact receive_of_nothing read
  · exact receive_of_frame read
  · exact absurd rfl (notFaulty fault)
  · exact receive_of_noRoom read

/-- A read ends with a single read that does not come to a faulty frame, or goes on
behind one that does. -/
theorem receive_induction {motive : Link sizes → Bytes → Prop}
    (ends : ∀ link buffer reading filled later,
      link.tryReceive buffer = (reading, filled, later) →
      (∀ fault, reading ≠ .lost (.faulty fault)) → motive link buffer)
    (goesOn : ∀ link buffer fault filled later,
      link.tryReceive buffer = (.lost (.faulty fault), filled, later) →
      motive later filled → motive link buffer)
    (link : Link sizes) (buffer : Bytes) : motive link buffer := by
  induction link, buffer using receive.induct with
  | case1 link buffer length filled later read =>
      exact ends link buffer _ filled later read fun _ => Reading.noConfusion
  | case2 link buffer filled later read =>
      exact ends link buffer _ filled later read fun _ => Reading.noConfusion
  | case3 link buffer length capacity filled later read =>
      apply ends link buffer _ filled later read
      intro fault same
      cases same
  | case4 link buffer fault filled later read induction =>
      exact goesOn link buffer fault filled later read induction

/-- What a receiver counts for an event. -/
def counted {capacity : Nat} (receiver : Receiver capacity) (buffer : Bytes) :
    Option Deframer.Event → Receiver capacity
  | none => receiver
  | some (.frame payload) =>
      if payload.length ≤ buffer.length then receiver.countFrame else receiver.countNoRoom
  | some (.dropped fault) => receiver.countFault fault

/-- A single read of a link that nobody else reads finds the first event of all,
and hands over and counts that.  Nothing else changes but the journal. -/
theorem tryReceive_finds {link : Link sizes} (unclaimed : link.receiver.claimed = false)
    (buffer : Bytes) :
    ∃ event? consumed queue journal,
      Deframer.Finds Deframer.Event.isAny link.receiver.deframer link.inbox.queue.toList
        event? consumed queue.toList ∧
      link.tryReceive buffer =
        ((handed buffer event?).1, (handed buffer event?).2,
          { link with
            inbox := { link.inbox with queue := queue }
            receiver := { counted { link.receiver with
                deframer := link.receiver.deframer.after consumed } buffer event? with
              claimed := false }
            journal := journal }) := by
  obtain ⟨consumed, reached, finds⟩ :=
    nextEvent_finds link.inbox.queue link.receiver.deframer
  rcases outcome : nextEvent link.inbox.queue link.receiver.deframer with
    ⟨event?, queue, deframer⟩
  rw [outcome] at reached finds
  dsimp only at reached finds
  have advanced : link.claim.advance = (event?, { link.claim with
      inbox := { link.inbox with queue := queue }
      receiver := { link.claim.receiver with deframer := deframer } }) := by
    simp only [advance, claim, outcome]
  simp only [tryReceive, watchedRead, unclaimed, Bool.false_eq_true, if_false, advanced]
  rw [reached]
  cases event? with
  | none => exact ⟨none, consumed, queue, link.journal, finds, rfl⟩
  | some event =>
      cases event with
      | dropped fault =>
          refine ⟨_, consumed, queue, link.journal.push (.frameFaulty fault), finds, ?_⟩
          cases fault with
          | badChecksum computed received => rfl
          | tooLong capacity => rfl
      | frame payload =>
          by_cases room : payload.length ≤ buffer.length
          · refine ⟨_, consumed, queue, link.journal.push (.frameReceived payload.length),
              finds, ?_⟩
            simp only [settle, handed, counted, if_pos room]
            rfl
          · refine ⟨_, consumed, queue, link.journal.push
              (.frameWithoutRoom payload.length buffer.length), finds, ?_⟩
            simp only [settle, handed, counted, if_neg room]
            rfl

structure HasRead (link later : Link sizes) (consumed left : Bytes) : Prop where
  pending : later.inbox.queue.toList = left
  deframer : later.receiver.deframer = link.receiver.deframer.after consumed
  released : later.receiver.claimed = false
  noneDropped : later.inbox.bytesDropped = link.inbox.bytesDropped

theorem HasRead.trans {link between later : Link sizes}
    {consumed consumedLater left leftLater : Bytes}
    (first : HasRead link between consumed left)
    (second : HasRead between later consumedLater leftLater) :
    HasRead link later (consumed ++ consumedLater) leftLater := by
  constructor
  · exact second.pending
  · rw [second.deframer, first.deframer, Deframer.after_append]
  · exact second.released
  · rw [second.noneDropped, first.noneDropped]

/-- A read that finds the first event that is wanted, uses the bytes up to it and
hands over what belongs to it. -/
def Reads (wanted : Deframer.Event → Bool) (link later : Link sizes)
    (buffer filled : Bytes) (reading : Reading) : Prop :=
  ∃ event? consumed left,
    Deframer.Finds wanted link.receiver.deframer link.inbox.queue.toList event? consumed
      left ∧
    HasRead link later consumed left ∧ (reading, filled) = handed buffer event?

theorem Reads.released {wanted : Deframer.Event → Bool} {link later : Link sizes}
    {buffer filled : Bytes} {reading : Reading}
    (reads : Reads wanted link later buffer filled reading) :
    later.receiver.claimed = false := by
  obtain ⟨_, _, _, _, hasRead, _⟩ := reads
  exact hasRead.released

theorem tryReceive_reads {link : Link sizes} (unclaimed : link.receiver.claimed = false)
    (buffer : Bytes) :
    Reads Deframer.Event.isAny link (link.tryReceive buffer).2.2 buffer
      (link.tryReceive buffer).2.1 (link.tryReceive buffer).1 := by
  obtain ⟨event?, consumed, queue, journal, finds, result⟩ :=
    tryReceive_finds unclaimed buffer
  rw [result]
  refine ⟨event?, consumed, queue.toList, finds, ⟨rfl, ?_, rfl, rfl⟩, rfl⟩
  rcases event? with _ | ⟨payload⟩ | ⟨_ | _⟩
  · rfl
  · simp only [counted]
    split
    · rfl
    · rfl
  · rfl
  · rfl

theorem Reads.of_any {link later : Link sizes} {buffer filled : Bytes} {reading : Reading}
    (reads : Reads Deframer.Event.isAny link later buffer filled reading)
    (notFaulty : ∀ fault, reading ≠ .lost (.faulty fault)) :
    Reads Deframer.Event.isFrame link later buffer filled reading := by
  obtain ⟨event?, consumed, left, finds, hasRead, result⟩ := reads
  refine ⟨event?, consumed, left, finds.of_any ?_, hasRead, result⟩
  intro event isEvent
  subst isEvent
  cases event with
  | frame payload => rfl
  | dropped fault =>
      cases result
      exact absurd rfl (notFaulty fault)

/-- A read that comes to a faulty frame may be followed by another one. -/
theorem Reads.go_on {link between later : Link sizes} {buffer filled filledLater : Bytes}
    {fault : Frame.Fault} {reading : Reading}
    (first : Reads Deframer.Event.isAny link between buffer filled (.lost (.faulty fault)))
    (second : Reads Deframer.Event.isFrame between later filled filledLater reading) :
    Reads Deframer.Event.isFrame link later buffer filledLater reading := by
  obtain ⟨event?, consumed, left, finds, hasRead, result⟩ := first
  obtain ⟨eventLater?, consumedLater, leftLater, findsLater, hasReadLater, resultLater⟩ :=
    second
  rw [hasRead.pending, hasRead.deframer] at findsLater
  rcases event? with _ | ⟨payload⟩ | fault
  · cases result
  · simp only [handed] at result
    split at result
    · cases result
    · cases result
  · cases result
    exact ⟨eventLater?, consumed ++ consumedLater, leftLater, finds.go_on rfl findsLater,
      hasRead.trans hasReadLater, resultLater⟩

/-- No length is read off a reading exactly if no frame was found or there was no
room for it: a payload is not empty. -/
theorem length_handed_eq_zero_iff {capacity : Nat} {wanted : Deframer.Event → Bool}
    {deframer : Deframer capacity} {pending consumed left : Bytes}
    {event? : Option Deframer.Event}
    (finds : Deframer.Finds wanted deframer pending event? consumed left) (buffer : Bytes) :
    (handed buffer event?).1.length = 0 ↔
      ∀ payload, event? = some (.frame payload) → buffer.length < payload.length := by
  rcases event? with _ | ⟨payload⟩ | fault
  · simp [handed, Reading.length]
  · have positive := List.length_pos_iff.mpr finds.payload_ne_nil
    simp only [handed, Option.some.injEq, Deframer.Event.frame.injEq, forall_eq']
    split
    · simp only [Reading.length]
      omega
    · simp only [Reading.length, true_iff]
      omega
  · simp [handed, Reading.length]

theorem receive_reads {link : Link sizes} (unclaimed : link.receiver.claimed = false)
    (buffer : Bytes) :
    ∃ reading, (link.receive buffer).1 = reading.length ∧
      Reads Deframer.Event.isFrame link (link.receive buffer).2.2 buffer
        (link.receive buffer).2.1 reading := by
  induction link, buffer using receive_induction with
  | ends link buffer reading filled later read notFaulty =>
      have reads := tryReceive_reads unclaimed buffer
      rw [read] at reads
      rw [receive_of_end read notFaulty]
      exact ⟨reading, rfl, reads.of_any notFaulty⟩
  | goesOn link buffer fault filled later read induction =>
      have reads := tryReceive_reads unclaimed buffer
      rw [read] at reads
      rw [receive_of_faulty read]
      obtain ⟨reading, length, readsLater⟩ := induction reads.released
      exact ⟨reading, length, reads.go_on readsLater⟩

end Link

end FramedSerial
