import FramedSerial.Proofs.Link.Conservation

/-!
# The sending half of a link with a passive device

A passive device does not call its link back.  What such a link sends is told by
four things: the bytes that the device has taken, those that wait, whether a
burst is under way, and the count of dropped bytes.  These make up an outlet.
Submitting a byte and reporting a completion are functions of the outlet alone,
and so is sending many bytes: an outlet has room for some number of bytes, it
accepts that many and drops the others.
-/

namespace FramedSerial

namespace Link

structure Outlet where
  taken : Bytes
  waiting : Bytes
  busy : Bool
  bytesDropped : Counter
deriving DecidableEq, Repr

namespace Outlet

variable {capacity : Nat}

def submit (capacity : Nat) (outlet : Outlet) (byte : UInt8) : Outlet :=
  if outlet.busy then
    if outlet.waiting.length < capacity then
      { outlet with waiting := outlet.waiting ++ [byte] }
    else { outlet with bytesDropped := outlet.bytesDropped.increment }
  else { outlet with taken := outlet.taken ++ [byte], busy := true }

def submitAll (capacity : Nat) (outlet : Outlet) (data : Bytes) : Outlet :=
  data.foldl (submit capacity) outlet

def complete (outlet : Outlet) : Outlet :=
  match outlet.waiting with
  | [] => { outlet with busy := false }
  | byte :: rest => { outlet with taken := outlet.taken ++ [byte], waiting := rest }

/-- All bytes that have been accepted, in order. -/
def bytes (outlet : Outlet) : Bytes :=
  outlet.taken ++ outlet.waiting

/-- How many further bytes are accepted before one is dropped. -/
def room (capacity : Nat) (outlet : Outlet) : Nat :=
  if outlet.busy then capacity - outlet.waiting.length else capacity + 1

def EmptyWhenIdle (outlet : Outlet) : Prop :=
  outlet.busy = false → outlet.waiting = []

theorem submit_of_room {outlet : Outlet} (emptyWhenIdle : outlet.EmptyWhenIdle)
    (room : 0 < outlet.room capacity) (byte : UInt8) :
    (outlet.submit capacity byte).bytes = outlet.bytes ++ [byte] ∧
      (outlet.submit capacity byte).room capacity + 1 = outlet.room capacity ∧
      (outlet.submit capacity byte).bytesDropped = outlet.bytesDropped := by
  unfold Outlet.room at room
  cases busy : outlet.busy with
  | false =>
      have noneWaits := emptyWhenIdle busy
      simp [submit, Outlet.room, bytes, busy, noneWaits]
  | true =>
      rw [if_pos busy] at room
      have below : outlet.waiting.length < capacity := by omega
      simp only [submit, Outlet.room, bytes, busy, if_true, if_pos below,
        List.length_append, List.length_singleton, List.append_assoc, true_and, and_true]
      omega

theorem submit_of_full {outlet : Outlet} (full : outlet.room capacity = 0)
    (byte : UInt8) :
    (outlet.submit capacity byte).bytes = outlet.bytes ∧
      (outlet.submit capacity byte).room capacity = 0 ∧
      (outlet.submit capacity byte).bytesDropped = outlet.bytesDropped.increment := by
  have isFull := full
  unfold room at isFull
  split at isFull
  · next busy =>
      have notBelow : ¬outlet.waiting.length < capacity := by omega
      rw [submit, if_pos busy, if_neg notBelow]
      exact ⟨rfl, full, rfl⟩
  · cases isFull

/-- A byte that is submitted begins a burst or comes in the middle of one. -/
theorem emptyWhenIdle_submit (capacity : Nat) (outlet : Outlet) (byte : UInt8) :
    (outlet.submit capacity byte).EmptyWhenIdle := by
  intro idle
  cases busy : outlet.busy with
  | false => simp [submit, busy] at idle
  | true =>
      rw [submit, if_pos busy] at idle
      split at idle
      · cases busy.symm.trans idle
      · cases busy.symm.trans idle

theorem taken_prefix_submit (outlet : Outlet) (byte : UInt8) :
    outlet.taken <+: (outlet.submit capacity byte).taken := by
  unfold submit
  split
  · split
    · exact List.prefix_rfl
    · exact List.prefix_rfl
  · exact List.prefix_append _ _

theorem taken_prefix_submitAll (capacity : Nat) (outlet : Outlet) (data : Bytes) :
    outlet.taken <+: (outlet.submitAll capacity data).taken := by
  induction data generalizing outlet with
  | nil => exact List.prefix_rfl
  | cons byte rest induction =>
      apply List.IsPrefix.trans (outlet.taken_prefix_submit byte)
      exact induction _

theorem submitAll_cons (outlet : Outlet) (byte : UInt8) (rest : Bytes) :
    outlet.submitAll capacity (byte :: rest) =
      (outlet.submit capacity byte).submitAll capacity rest := rfl

/-- Of many bytes those are accepted for which there is room. -/
theorem bytes_submitAll {outlet : Outlet} (emptyWhenIdle : outlet.EmptyWhenIdle)
    (data : Bytes) :
    (outlet.submitAll capacity data).bytes =
      outlet.bytes ++ data.take (outlet.room capacity) := by
  induction data generalizing outlet with
  | nil =>
      rw [List.take_nil, List.append_nil]
      rfl
  | cons byte rest induction =>
      have later := induction (emptyWhenIdle_submit capacity outlet byte)
      rw [submitAll_cons, later]
      rcases Nat.eq_zero_or_pos (outlet.room capacity) with full | room
      · obtain ⟨sameBytes, stillFull, _⟩ := submit_of_full full byte
        rw [sameBytes, stillFull, full, List.take_zero, List.take_zero]
      · obtain ⟨oneMore, oneLess, _⟩ := submit_of_room emptyWhenIdle room byte
        rw [oneMore, ← oneLess, List.take_succ_cons, List.append_assoc,
          List.singleton_append]

/-- The bytes for which there is no room are counted. -/
theorem bytesDropped_submitAll {outlet : Outlet} (emptyWhenIdle : outlet.EmptyWhenIdle)
    (data : Bytes) :
    (outlet.submitAll capacity data).bytesDropped.toNat =
      min (outlet.bytesDropped.toNat + (data.length - outlet.room capacity))
        Counter.ceiling := by
  induction data generalizing outlet with
  | nil =>
      have bounded := outlet.bytesDropped.toNat_le_ceiling
      have same : outlet.submitAll capacity [] = outlet := rfl
      rw [same, List.length_nil]
      omega
  | cons byte rest induction =>
      have later := induction (emptyWhenIdle_submit capacity outlet byte)
      rw [submitAll_cons, later, List.length_cons]
      rcases Nat.eq_zero_or_pos (outlet.room capacity) with full | room
      · obtain ⟨_, stillFull, oneMore⟩ := submit_of_full full byte
        rw [stillFull, oneMore, full, Counter.toNat_increment, Counter.capped_add,
          Nat.sub_zero, Nat.sub_zero, Nat.add_right_comm, Nat.add_assoc]
      · obtain ⟨_, oneLess, same⟩ := submit_of_room emptyWhenIdle room byte
        rw [same]
        omega

/-- Where no byte has been dropped, none was dropped before and all are accepted. -/
theorem submitAll_of_undropped {outlet : Outlet} (emptyWhenIdle : outlet.EmptyWhenIdle)
    {data : Bytes} (undropped : (outlet.submitAll capacity data).bytesDropped.toNat = 0) :
    outlet.bytesDropped.toNat = 0 ∧
      (outlet.submitAll capacity data).bytes = outlet.bytes ++ data := by
  rw [bytesDropped_submitAll emptyWhenIdle, Nat.min_eq_zero_iff] at undropped
  rcases undropped with none | zero
  · have enough : data.length ≤ outlet.room capacity := by omega
    constructor
    · omega
    · rw [bytes_submitAll emptyWhenIdle, List.take_of_length_le enough]
  · cases zero

theorem bytes_complete (outlet : Outlet) : outlet.complete.bytes = outlet.bytes := by
  cases waiting : outlet.waiting with
  | nil => simp only [complete, bytes, waiting]
  | cons byte rest =>
      simp only [complete, bytes, waiting, List.append_assoc, List.singleton_append]

theorem bytesDropped_complete (outlet : Outlet) :
    outlet.complete.bytesDropped = outlet.bytesDropped := by
  unfold complete
  split
  · rfl
  · rfl

theorem taken_prefix_complete (outlet : Outlet) : outlet.taken <+: outlet.complete.taken := by
  unfold complete
  split
  · exact List.prefix_rfl
  · exact List.prefix_append _ _

end Outlet

variable {sizes : Sizes}

def outlet (link : Link sizes) : Outlet where
  taken := link.device.record.toList
  waiting := link.transmitter.queue.toList
  busy := link.transmitter.busy
  bytesDropped := link.transmitter.bytesDropped

theorem length_waiting (link : Link sizes) :
    link.outlet.waiting.length = link.pendingOutbound :=
  ByteQueue.length_toList _

/-- A link with a passive device, between two operations. -/
structure Quiet (link : Link sizes) : Prop where
  passive : link.device.behaviour = .passive
  resting : link.Resting

theorem Resting.follow {link : Link sizes} (resting : link.Resting) (call : Call) :
    (link.follow call).Resting := by
  have keeps : link.Keeps link.outgoing := ⟨resting, rfl⟩
  exact (keeps.follow call).2.1

theorem Quiet.emptyWhenIdle {link : Link sizes} (quiet : link.Quiet) :
    link.outlet.EmptyWhenIdle :=
  quiet.resting.emptyWhenIdle

theorem quiet_new (settings : Settings) : (new .passive settings : Link sizes).Quiet where
  passive := rfl
  resting := (keeps_new .passive settings).1

theorem reactions_of_passive {device : Device} (passive : device.behaviour = .passive)
    (byte : UInt8) : device.reactions byte = [] := by
  rw [Device.reactions, passive]
  rfl

/-- Handing a byte to a passive device brings about nothing else. -/
theorem perform_write {link : Link sizes} (passive : link.device.behaviour = .passive)
    (notNoted : link.transmitter.completionNoted = false) (byte : UInt8) :
    link.perform [.write byte] =
      { link with
        device := link.device.take byte
        transmitter := { link.transmitter with writing := false } } := by
  rw [perform_cons]
  simp only [step, reactions_of_passive passive]
  rw [List.map_nil, List.nil_append, List.singleton_append, perform_cons]
  simp only [step, Transmitter.written_of_not_noted notNoted]
  exact perform_nil _

section

variable {link : Link sizes}

theorem follow_submit_of_idle (quiet : link.Quiet) (idle : link.transmitter.busy = false)
    (byte : UInt8) :
    link.follow (.submit byte) =
      { link with
        device := link.device.take byte
        transmitter := { link.transmitter with busy := true, writing := false } } := by
  rw [follow, perform_cons]
  simp only [step, Transmitter.submit_of_idle idle]
  apply perform_write
  · exact quiet.passive
  · exact quiet.resting.notNoted

theorem follow_submit_of_room (busy : link.transmitter.busy = true)
    (room : link.pendingOutbound < sizes.outbox) (byte : UInt8) :
    ∃ longer, longer.toList = link.transmitter.queue.toList ++ [byte] ∧
      link.follow (.submit byte) =
        { link with transmitter := { link.transmitter with queue := longer } } := by
  obtain ⟨longer, admitted, contents⟩ := Transmitter.submit_of_room busy room byte
  refine ⟨longer, contents, ?_⟩
  rw [follow, perform_cons]
  simp only [step, admitted]
  exact perform_nil _

theorem follow_submit_of_full (busy : link.transmitter.busy = true)
    (full : link.pendingOutbound = sizes.outbox) (byte : UInt8) :
    link.follow (.submit byte) =
      { link with
        transmitter := { link.transmitter with
          bytesDropped := link.transmitter.bytesDropped.increment }
        journal := link.journal.push (.outboundFull byte) } := by
  rw [follow, perform_cons]
  simp only [step, Transmitter.submit_of_full busy full]
  exact perform_nil _

/-- A completion that finds no byte waiting ends the burst. -/
theorem follow_complete_of_empty (resting : link.Resting)
    (popped : link.transmitter.queue.pop? = none) :
    link.follow .complete =
      { link with transmitter := { link.transmitter with busy := false } } := by
  have notWriting := resting.notWriting
  have completed := Transmitter.complete_of_not_writing notWriting
  rw [follow, perform_cons]
  simp only [step, completed, Transmitter.next, popped, ← notWriting]
  exact perform_nil _

/-- A completion that comes when no burst is under way does nothing. -/
theorem Resting.complete_of_idle (resting : link.Resting) (idle : link.busy = false) :
    link.follow .complete = link := by
  have noneWaits : link.transmitter.queue.toList = [] := resting.emptyWhenIdle idle
  have popped := (ByteQueue.pop?_eq_none_iff_toList _).mpr noneWaits
  rw [follow_complete_of_empty resting popped, ← idle]
  rfl

/-- A completion that finds a byte waiting hands it to the device. -/
theorem follow_complete_of_pop (quiet : link.Quiet) {byte : UInt8}
    {shorter : ByteQueue sizes.outbox}
    (popped : link.transmitter.queue.pop? = some (byte, shorter)) :
    link.follow .complete =
      { link with
        device := link.device.take byte
        transmitter := { link.transmitter with queue := shorter } } := by
  have notWriting := quiet.resting.notWriting
  have completed := Transmitter.complete_of_not_writing notWriting
  rw [follow, perform_cons]
  simp only [step, completed, Transmitter.next, popped]
  refine (perform_write ?_ ?_ byte).trans ?_
  · exact quiet.passive
  · exact quiet.resting.notNoted
  · simp only [← notWriting]

/-- A completion ends the burst, or the device is handed the next byte. -/
theorem follow_complete (quiet : link.Quiet) :
    (link.transmitter.queue.toList = [] ∧
        link.follow .complete =
          { link with transmitter := { link.transmitter with busy := false } }) ∨
      ∃ byte shorter, link.transmitter.queue.toList = byte :: shorter.toList ∧
        link.follow .complete =
          { link with
            device := link.device.take byte
            transmitter := { link.transmitter with queue := shorter } } := by
  cases popped : link.transmitter.queue.pop? with
  | none =>
      have isEmpty := (ByteQueue.pop?_eq_none_iff_toList _).mp popped
      exact .inl ⟨isEmpty, follow_complete_of_empty quiet.resting popped⟩
  | some outcome =>
      obtain ⟨byte, shorter⟩ := outcome
      have contents := ByteQueue.toList_of_pop? popped
      exact .inr ⟨byte, shorter, contents, follow_complete_of_pop quiet popped⟩

/-- On a quiet link a byte is submitted to the outlet. -/
theorem Quiet.submit (quiet : link.Quiet) (byte : UInt8) :
    (link.follow (.submit byte)).Quiet ∧
      (link.follow (.submit byte)).outlet = link.outlet.submit sizes.outbox byte := by
  have resting := quiet.resting.follow (.submit byte)
  cases busy : link.transmitter.busy with
  | false =>
      have idle : link.outlet.busy = false := busy
      rw [follow_submit_of_idle quiet busy] at resting ⊢
      constructor
      · exact ⟨quiet.passive, resting⟩
      · rw [Outlet.submit, idle]
        simp [outlet, Device.take]
  | true =>
      have isBusy : link.outlet.busy = true := busy
      have bounded : link.pendingOutbound ≤ sizes.outbox := ByteQueue.length_le_capacity _
      rw [Outlet.submit, if_pos isBusy, length_waiting]
      rcases Nat.lt_or_eq_of_le bounded with room | full
      · obtain ⟨longer, contents, followed⟩ := follow_submit_of_room busy room byte
        rw [followed] at resting ⊢
        constructor
        · exact ⟨quiet.passive, resting⟩
        · rw [if_pos room]
          simp [outlet, contents]
      · have noRoom : ¬link.pendingOutbound < sizes.outbox := by omega
        rw [follow_submit_of_full busy full] at resting ⊢
        constructor
        · exact ⟨quiet.passive, resting⟩
        · rw [if_neg noRoom]
          rfl

theorem Quiet.complete (quiet : link.Quiet) :
    (link.follow .complete).Quiet ∧
      (link.follow .complete).outlet = link.outlet.complete := by
  have resting := quiet.resting.follow .complete
  rcases follow_complete quiet with ⟨isEmpty, followed⟩ |
    ⟨byte, shorter, contents, followed⟩
  · rw [followed] at resting ⊢
    constructor
    · exact ⟨quiet.passive, resting⟩
    · simp [outlet, Outlet.complete, isEmpty]
  · rw [followed] at resting ⊢
    constructor
    · exact ⟨quiet.passive, resting⟩
    · simp [outlet, Outlet.complete, Device.take, contents]

theorem Quiet.sendRaw (quiet : link.Quiet) (data : Bytes) :
    (link.sendRaw data).Quiet ∧
      (link.sendRaw data).outlet = link.outlet.submitAll sizes.outbox data := by
  induction data generalizing link with
  | nil => exact ⟨quiet, rfl⟩
  | cons byte rest induction =>
      obtain ⟨quietNext, submitted⟩ := quiet.submit byte
      obtain ⟨quietLater, submittedLater⟩ := induction quietNext
      refine ⟨quietLater, ?_⟩
      rw [Outlet.submitAll_cons, ← submitted]
      exact submittedLater

theorem Quiet.send (quiet : link.Quiet) (payload : Bytes) :
    (link.send payload).Quiet ∧
      (link.send payload).outlet =
        link.outlet.submitAll sizes.outbox (Frame.encode payload) := by
  obtain ⟨⟨passive, resting⟩, submitted⟩ := quiet.sendRaw (Frame.encode payload)
  constructor
  · exact ⟨passive, resting.notWriting, resting.notNoted, resting.emptyWhenIdle⟩
  · exact submitted

end

end Link

end FramedSerial
