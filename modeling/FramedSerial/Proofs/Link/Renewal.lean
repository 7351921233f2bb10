import FramedSerial.Proofs.Link.Histories
import FramedSerial.Proofs.Link.Outlet
import FramedSerial.Proofs.Link.Repetition

/-!
# Bringing a link up makes it new

A link that is brought up or shut down keeps the slots of its queues, its counts,
the record of its device and its journal.  Everything else is as in a link that
has only just been made: so from then on it repeats such a link, operation by
operation, and what it counts, records and notes comes on top of what it did
before.  Only whether the device is powered is told by the last operation that
brought the link up or shut it down.
-/

namespace FramedSerial

namespace Link

variable {sizes : Sizes}

/-- What an operation gives back to its caller. -/
inductive Answer where
  | nothing
  | reading (reading : Reading) (buffer : Bytes)
  | count (count : Nat) (buffer : Bytes)
deriving DecidableEq, Repr

def answer (link : Link sizes) : Operation → Answer
  | .tryReceive buffer =>
      let (reading, filled, _) := link.tryReceive buffer
      .reading reading filled
  | .receive buffer =>
      let (length, filled, _) := link.receive buffer
      .count length filled
  | .receiveRaw buffer =>
      let (count, filled, _) := link.receiveRaw buffer
      .count count filled
  | _ => .nothing

/-- What can be seen of an operation: its answer, and the link behind it. -/
structure Observation where
  answer : Answer
  busy : Bool
  pendingInbound : Nat
  pendingOutbound : Nat
deriving DecidableEq, Repr

def observe (link : Link sizes) : List Operation → List Observation
  | [] => []
  | operation :: run =>
      let later := link.operate operation
      { answer := link.answer operation
        busy := later.busy
        pendingInbound := later.pendingInbound
        pendingOutbound := later.pendingOutbound } :: later.observe run

/-- The device is passive.  `past` is the link at the time when it was brought up
or shut down, and `fresh` goes on from a new link that has been brought up. -/
structure Repeats (past fresh later : Link sizes) : Prop where
  passive : later.device.behaviour = .passive
  passiveFresh : fresh.device.behaviour = .passive
  record : later.device.record.toList =
    past.device.record.toList ++ fresh.device.record.toList
  transmitter : Transmitter.Repeats past.transmitter fresh.transmitter later.transmitter
  inbox : Inbox.Repeats past.inbox fresh.inbox later.inbox
  receiver : Receiver.Repeats past.receiver fresh.receiver later.receiver
  settings : later.settings = fresh.settings
  journal : ∃ entries, later.journal.toList = past.journal.toList ++ entries ∧
    fresh.journal.toList = .broughtUp :: entries

section

variable {past fresh later : Link sizes}

theorem Repeats.note (repeats : Repeats past fresh later) (entry : Entry) :
    Repeats past (fresh.note entry) (later.note entry) := by
  obtain ⟨entries, journal, journalFresh⟩ := repeats.journal
  refine { repeats with journal := ⟨entries ++ [entry], ?_, ?_⟩ }
  · simp [Link.note, journal]
  · simp [Link.note, journalFresh]

theorem Repeats.step (repeats : Repeats past fresh later) (task : Task) :
    (later.step task).1 = (fresh.step task).1 ∧
      Repeats past (fresh.step task).2 (later.step task).2 := by
  match task with
  | .follow (.submit byte) =>
      obtain ⟨sameAdmission, transmitter⟩ := repeats.transmitter.submit byte
      rcases outcome : later.transmitter.submit byte with ⟨admission, laterTransmitter⟩
      rcases outcomeFresh : fresh.transmitter.submit byte with ⟨_, freshTransmitter⟩
      rw [outcome, outcomeFresh] at sameAdmission transmitter
      obtain rfl := sameAdmission
      simp only [Link.step, outcome, outcomeFresh]
      have submitted : Repeats past { fresh with transmitter := freshTransmitter }
          { later with transmitter := laterTransmitter } :=
        { repeats with transmitter := transmitter }
      cases admission with
      | write => exact ⟨rfl, submitted⟩
      | queued => exact ⟨rfl, submitted⟩
      | dropped => exact ⟨rfl, submitted.note (.outboundFull byte)⟩
  | .follow .complete =>
      obtain ⟨sameNext, transmitter⟩ := repeats.transmitter.complete
      exact ⟨congrArg (fun next => next.toList.map Task.write) sameNext,
        { repeats with transmitter := transmitter }⟩
  | .follow (.arrive byte) =>
      exact ⟨rfl, { repeats with inbox := repeats.inbox.accept byte }⟩
  | .write byte =>
      simp only [Link.step, reactions_of_passive repeats.passive,
        reactions_of_passive repeats.passiveFresh]
      refine ⟨trivial, { repeats with record := ?_ }⟩
      simp [Device.take, repeats.record]
  | .written =>
      obtain ⟨sameNext, transmitter⟩ := repeats.transmitter.written
      exact ⟨congrArg (fun next => next.toList.map Task.write) sameNext,
        { repeats with transmitter := transmitter }⟩

theorem Repeats.perform (repeats : Repeats past fresh later) (agenda : List Task) :
    Repeats past (fresh.perform agenda) (later.perform agenda) := by
  induction fresh, agenda using Link.perform.induct generalizing later with
  | case1 fresh =>
      rw [perform_nil, perform_nil]
      exact repeats
  | case2 fresh task agenda outcome =>
      rename_i induction
      obtain ⟨sameTasks, stepped⟩ := repeats.step task
      rw [perform_cons, perform_cons, sameTasks]
      exact induction stepped

theorem Repeats.followAll (repeats : Repeats past fresh later) (calls : List Call) :
    Repeats past (fresh.followAll calls) (later.followAll calls) := by
  induction calls generalizing fresh later with
  | nil => exact repeats
  | cons call calls induction => exact induction (repeats.perform [.follow call])

theorem Repeats.claim (repeats : Repeats past fresh later) :
    Repeats past fresh.claim later.claim :=
  { repeats with receiver := { repeats.receiver with claimed := rfl } }

theorem Repeats.release (repeats : Repeats past fresh later) :
    Repeats past fresh.release later.release :=
  { repeats with receiver := { repeats.receiver with claimed := rfl } }

theorem Repeats.advance (repeats : Repeats past fresh later) :
    later.advance.1 = fresh.advance.1 ∧
      Repeats past fresh.advance.2 later.advance.2 := by
  obtain ⟨sameEvent, left, deframer⟩ :=
    nextEvent_of_toList_eq repeats.inbox.queue fresh.receiver.deframer
  simp only [Link.advance, repeats.receiver.deframer]
  exact ⟨sameEvent, { repeats with
    inbox := ⟨left, repeats.inbox.bytesDropped⟩
    receiver := { repeats.receiver with deframer := deframer } }⟩

theorem Repeats.settle (repeats : Repeats past fresh later) (buffer : Bytes)
    (event : Deframer.Event) :
    (later.settle unwatched buffer event).1 = (fresh.settle unwatched buffer event).1 ∧
      Repeats past (fresh.settle unwatched buffer event).2
        (later.settle unwatched buffer event).2 := by
  cases event with
  | dropped fault =>
      have counted : Repeats past
          { fresh with receiver := fresh.receiver.countFault fault }
          { later with receiver := later.receiver.countFault fault } :=
        { repeats with receiver := repeats.receiver.countFault fault }
      exact ⟨rfl, counted.note (.frameFaulty fault)⟩
  | frame payload =>
      unfold Link.settle
      dsimp only
      split
      · have counted : Repeats past
            { fresh with receiver := fresh.receiver.countFrame }
            { later with receiver := later.receiver.countFrame } :=
          { repeats with receiver := repeats.receiver.countFrame }
        exact ⟨rfl, counted.note (.frameReceived payload.length)⟩
      · have counted : Repeats past
            { fresh with receiver := fresh.receiver.countNoRoom }
            { later with receiver := later.receiver.countNoRoom } :=
          { repeats with receiver := repeats.receiver.countNoRoom }
        exact ⟨rfl, counted.note (.frameWithoutRoom payload.length buffer.length)⟩

theorem Repeats.watchedRead (repeats : Repeats past fresh later) (buffer : Bytes) :
    (later.watchedRead unwatched buffer).1 = (fresh.watchedRead unwatched buffer).1 ∧
      Repeats past (fresh.watchedRead unwatched buffer).2
        (later.watchedRead unwatched buffer).2 := by
  unfold Link.watchedRead
  rw [repeats.receiver.claimed]
  by_cases claimed : fresh.receiver.claimed = true
  · rw [if_pos claimed, if_pos claimed]
    exact ⟨rfl, repeats⟩
  · rw [if_neg claimed, if_neg claimed]
    obtain ⟨sameEvent, advanced⟩ := repeats.claim.advance
    rcases outcome : later.claim.advance with ⟨event?, between⟩
    rcases outcomeFresh : fresh.claim.advance with ⟨_, betweenFresh⟩
    rw [outcome, outcomeFresh] at sameEvent advanced
    obtain rfl := sameEvent
    cases event? with
    | none => exact ⟨rfl, advanced.release⟩
    | some event =>
        obtain ⟨sameRead, settled⟩ := advanced.settle buffer event
        exact ⟨sameRead, settled.release⟩

theorem Repeats.tryReceive (repeats : Repeats past fresh later) {buffer filled : Bytes}
    {reading : Reading} {between : Link sizes}
    (read : fresh.tryReceive buffer = (reading, filled, between)) :
    ∃ betweenLater, later.tryReceive buffer = (reading, filled, betweenLater) ∧
      Repeats past between betweenLater := by
  obtain ⟨sameRead, reads⟩ := repeats.watchedRead buffer
  have sameReading : (later.tryReceive buffer).1 = (fresh.tryReceive buffer).1 :=
    congrArg Read.reading sameRead
  have sameBuffer : (later.tryReceive buffer).2.1 = (fresh.tryReceive buffer).2.1 :=
    congrArg Read.buffer sameRead
  have reached : (fresh.tryReceive buffer).2.2 = between := by rw [read]
  rw [read] at sameReading sameBuffer
  refine ⟨(later.tryReceive buffer).2.2, ?_, reached ▸ reads⟩
  exact Prod.ext sameReading (Prod.ext sameBuffer rfl)

theorem Repeats.receive (repeats : Repeats past fresh later) (buffer : Bytes) :
    ∃ last, later.receive buffer =
        ((fresh.receive buffer).1, (fresh.receive buffer).2.1, last) ∧
      Repeats past (fresh.receive buffer).2.2 last := by
  induction fresh, buffer using receive_induction generalizing later with
  | ends fresh buffer reading filled between read notFaulty =>
      obtain ⟨betweenLater, readLater, reads⟩ := repeats.tryReceive read
      rw [receive_of_end read notFaulty, receive_of_end readLater notFaulty]
      exact ⟨betweenLater, rfl, reads⟩
  | goesOn fresh buffer fault filled between read induction =>
      obtain ⟨betweenLater, readLater, reads⟩ := repeats.tryReceive read
      rw [receive_of_faulty read, receive_of_faulty readLater]
      exact induction reads

theorem Repeats.receiveRaw (repeats : Repeats past fresh later) (buffer : Bytes) :
    (later.receiveRaw buffer).1 = (fresh.receiveRaw buffer).1 ∧
      (later.receiveRaw buffer).2.1 = (fresh.receiveRaw buffer).2.1 ∧
      Repeats past (fresh.receiveRaw buffer).2.2 (later.receiveRaw buffer).2.2 := by
  obtain ⟨count, filled, left⟩ := later.inbox.queue.popInto_eq buffer
  obtain ⟨countFresh, filledFresh, leftFresh⟩ := fresh.inbox.queue.popInto_eq buffer
  rw [repeats.inbox.queue] at count filled left
  exact ⟨count.trans countFresh.symm, filled.trans filledFresh.symm,
    { repeats with inbox := ⟨left.trans leftFresh.symm, repeats.inbox.bytesDropped⟩ }⟩

theorem Repeats.clear (repeats : Repeats past fresh later) :
    Repeats past fresh.clear later.clear :=
  { repeats with
    transmitter := repeats.transmitter.clear
    inbox := repeats.inbox.clear
    receiver := repeats.receiver.clear }

/-- A device that records the same may be switched on and off. -/
theorem Repeats.withDevice (repeats : Repeats past fresh later)
    {device deviceFresh : Device}
    (behaviour : device.behaviour = later.device.behaviour)
    (behaviourFresh : deviceFresh.behaviour = fresh.device.behaviour)
    (record : device.record = later.device.record)
    (recordFresh : deviceFresh.record = fresh.device.record) :
    Repeats past { fresh with device := deviceFresh } { later with device := device } := by
  refine { repeats with
    passive := behaviour.trans repeats.passive
    passiveFresh := behaviourFresh.trans repeats.passiveFresh
    record := ?_ }
  rw [record, recordFresh]
  exact repeats.record

/-- An operation has the same answer, and what is left repeats what is left. -/
theorem Repeats.operate (repeats : Repeats past fresh later) (operation : Operation) :
    later.answer operation = fresh.answer operation ∧
      Repeats past (fresh.operate operation) (later.operate operation) := by
  cases operation with
  | bringUp =>
      have powered := repeats.clear.withDevice (powerUp_behaviour later.device)
        (powerUp_behaviour fresh.device) (powerUp_record later.device)
        (powerUp_record fresh.device)
      exact ⟨rfl, powered.note .broughtUp⟩
  | shutDown =>
      have powered := repeats.clear.withDevice (powerDown_behaviour later.device)
        (powerDown_behaviour fresh.device) (powerDown_record later.device)
        (powerDown_record fresh.device)
      exact ⟨rfl, powered.note .shutDown⟩
  | reset =>
      have noted := repeats.note (.resetRequested fresh.settings.settleSpins)
      rw [Link.operate, Link.operate, Link.reset, Link.reset, repeats.settings]
      exact ⟨rfl, noted.withDevice rfl rfl rfl rfl⟩
  | send payload =>
      have sent := repeats.followAll ((Frame.encode payload).map .submit)
      exact ⟨rfl, { sent with transmitter := sent.transmitter.countFrame }⟩
  | sendRaw data => exact ⟨rfl, repeats.followAll (data.map .submit)⟩
  | follow call => exact ⟨rfl, repeats.perform [.follow call]⟩
  | tryReceive buffer =>
      rcases read : fresh.tryReceive buffer with ⟨reading, filled, between⟩
      obtain ⟨betweenLater, readLater, reads⟩ := repeats.tryReceive read
      simp only [answer, Link.operate, read, readLater]
      exact ⟨trivial, reads⟩
  | receive buffer =>
      obtain ⟨last, received, reads⟩ := repeats.receive buffer
      simp only [answer, Link.operate, received]
      exact ⟨trivial, reads⟩
  | receiveRaw buffer =>
      obtain ⟨count, filled, reads⟩ := repeats.receiveRaw buffer
      simp only [answer, Link.operate, count, filled]
      exact ⟨trivial, reads⟩

theorem Repeats.observe (repeats : Repeats past fresh later) (run : List Operation) :
    later.observe run = fresh.observe run ∧
      Repeats past (fresh.operateAll run) (later.operateAll run) := by
  induction run generalizing fresh later with
  | nil => exact ⟨rfl, repeats⟩
  | cons operation run induction =>
      obtain ⟨sameAnswer, operated⟩ := repeats.operate operation
      obtain ⟨sameLater, repeatsLast⟩ := induction operated
      refine ⟨?_, repeatsLast⟩
      have busy : (later.operate operation).busy = (fresh.operate operation).busy :=
        operated.transmitter.busy
      have inbound := ByteQueue.length_eq_of_toList_eq operated.inbox.queue
      have outbound := ByteQueue.length_eq_of_toList_eq operated.transmitter.queue
      simp only [Link.observe, sameAnswer, busy, sameLater, pendingInbound, inbound,
        pendingOutbound, outbound]

theorem Repeats.of (repeats : Repeats past fresh later) (statistic : Statistic) :
    later.statistics.of statistic =
      (past.statistics.of statistic).add (fresh.statistics.of statistic) := by
  cases statistic with
  | framesSent => exact repeats.transmitter.framesSent
  | framesReceived => exact repeats.receiver.framesReceived
  | badChecksums => exact repeats.receiver.badChecksums
  | framesTooLong => exact repeats.receiver.framesTooLong
  | framesWithoutRoom => exact repeats.receiver.framesWithoutRoom
  | inboundBytesDropped => exact repeats.inbox.bytesDropped
  | outboundBytesDropped => exact repeats.transmitter.bytesDropped

end

/-- A cleared link repeats one that has only just been made and brought up. -/
theorem Ready.repeats {settings : Settings} {powered : Bool} {link : Link sizes}
    (ready : link.Ready settings powered) {device : Device}
    (passive : device.behaviour = .passive) (entry : Entry) :
    Repeats ({ link.clear with device := device }.note entry)
      (new .passive settings).bringUp ({ link.clear with device := device }.note entry) where
  passive := passive
  passiveFresh := rfl
  record := (List.append_nil _).symm
  transmitter := Transmitter.repeats_clear link.transmitter
  inbox := Inbox.repeats_clear link.inbox
  receiver := Receiver.repeats_clear ready.unclaimed
  settings := ready.settings
  journal := ⟨[], (List.append_nil _).symm, rfl⟩

/-- Nothing of what was done to `old` shows from `start` on, for which that link has
been brought up or shut down: every run has the observations that it has from
`fresh` on, and what is written, counted and noted is put behind what there was. -/
structure StartsAfresh (old fresh start : Link sizes) : Prop where
  observed : ∀ run, start.observe run = fresh.observe run
  written : ∀ run, (start.operateAll run).device.record.toList =
    old.device.record.toList ++ (fresh.operateAll run).device.record.toList
  counted : ∀ run statistic, ((start.operateAll run).statistics.of statistic).toNat =
    min ((old.statistics.of statistic).toNat +
      ((fresh.operateAll run).statistics.of statistic).toNat) Counter.ceiling
  noted : ∀ run, ∃ entries,
    (start.operateAll run).journal.toList = start.journal.toList ++ entries ∧
      (fresh.operateAll run).journal.toList = fresh.journal.toList ++ entries

theorem Repeats.startsAfresh {settings : Settings} {old start : Link sizes}
    (repeats : Repeats start (new .passive settings).bringUp start)
    (record : start.device.record = old.device.record)
    (statistics : start.statistics = old.statistics) :
    old.StartsAfresh (new .passive settings).bringUp start where
  observed run := (repeats.observe run).1
  written run := by
    rw [← record]
    exact (repeats.observe run).2.record
  counted run statistic := by
    rw [(repeats.observe run).2.of statistic, Counter.toNat_add, statistics]
  noted run := (repeats.observe run).2.journal

/-- Whatever was done to a link with a passive device, once it is brought up, shut
down and brought up, or shut down alone, it is in all that follows as a new link
that has been brought up.  Its device is powered like that of the new link, except
that a link that is shut down has to be brought up for this. -/
theorem renewal_erases_history (settings : Settings) (history : List Operation) :
    let old : Link sizes := (new .passive settings).operateAll history
    let fresh : Link sizes := (new .passive settings).bringUp
    old.StartsAfresh fresh old.bringUp ∧ old.StartsAfresh fresh old.shutDown.bringUp ∧
      old.StartsAfresh fresh old.shutDown ∧
      ∀ run,
        (fresh.operateAll run).device.powered = run.foldl Operation.powers true ∧
          (old.bringUp.operateAll run).device.powered = run.foldl Operation.powers true ∧
          (old.shutDown.bringUp.operateAll run).device.powered =
            run.foldl Operation.powers true ∧
          (old.shutDown.operateAll run).device.powered =
            run.foldl Operation.powers false := by
  intro old fresh
  have ready := (ready_new settings : (new .passive settings : Link sizes).Ready _ _)
  have oldReady := ready.operateAll history
  have up := oldReady.bringUp
  have down := oldReady.shutDown
  refine ⟨?_, ?_, ?_, ?_⟩
  · apply (oldReady.repeats up.passive .broughtUp).startsAfresh
    · exact powerUp_record old.device
    · rfl
  · apply (down.repeats down.bringUp.passive .broughtUp).startsAfresh
    · exact (powerUp_record _).trans (powerDown_record old.device)
    · rfl
  · apply (oldReady.repeats down.passive .shutDown).startsAfresh
    · exact powerDown_record old.device
    · rfl
  · intro run
    exact ⟨(ready.bringUp.operateAll run).powered, (up.operateAll run).powered,
      (down.bringUp.operateAll run).powered, (down.operateAll run).powered⟩

end Link

end FramedSerial
