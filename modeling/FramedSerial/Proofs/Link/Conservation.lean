import FramedSerial.Proofs.Link.Handover
import FramedSerial.Proofs.Link.Operations
import Mathlib.Data.List.DropRight

/-!
# No byte is lost on the way out

The bytes that a device has taken, and behind them the bytes that wait in the
queue, are the bytes that the link has accepted, in the order in which it
accepted them.  Only bringing a link up and shutting it down forget bytes, and
these are the ones in the queue.

The device may call its link back in the middle of a frame.  So the invariant
holds at every moment of an agenda and not only between two operations: an
agenda is empty, or a single call or write, or what the device asked for while
it takes a byte (`Orderly`).
-/

namespace FramedSerial

namespace Link

variable {sizes : Sizes}

/-- The state of the sending half when no operation is under way. -/
structure Resting (link : Link sizes) : Prop where
  notWriting : link.transmitter.writing = false
  notNoted : link.transmitter.completionNoted = false
  emptyWhenIdle : link.transmitter.busy = false → link.transmitter.queue.toList = []

/-- The bytes that the device has taken and those that wait behind them. -/
def outgoing (link : Link sizes) : Bytes :=
  link.device.record.toList ++ link.transmitter.queue.toList

inductive Orderly (kept : Bytes) (link : Link sizes) (agenda : List Task) : Prop where
  | resting : link.Resting → link.outgoing = kept → agenda = [] → Orderly kept link agenda
  | called (call : Call) : link.Resting → link.outgoing = kept →
      agenda = [.follow call] → Orderly kept link agenda
  | told (byte : UInt8) : link.transmitter.busy = true →
      link.transmitter.writing = true → link.transmitter.completionNoted = false →
      link.device.record.toList ++ byte :: link.transmitter.queue.toList = kept →
      agenda = [.write byte] → Orderly kept link agenda
  | taking (calls : List Call) : link.transmitter.busy = true →
      link.transmitter.writing = true → link.outgoing = kept →
      agenda = calls.map .follow ++ [.written] → Orderly kept link agenda

/-- A device is handed a byte only when it takes no other. -/
def Moment.Exclusive (moment : Moment sizes) : Prop :=
  ∀ byte later, moment.agenda = .write byte :: later → .written ∉ later

theorem Orderly.exclusive {link : Link sizes} {kept : Bytes} {agenda : List Task}
    (orderly : Orderly kept link agenda) : (Moment.mk link agenda).Exclusive := by
  intro byte later isWrite
  rcases orderly with ⟨_, _, form⟩ | ⟨call, _, _, form⟩ | ⟨first, _, _, _, _, form⟩ |
    ⟨calls, _, _, _, form⟩
  · simp [form] at isWrite
  · simp [form] at isWrite
  · simp only [form] at isWrite
    cases isWrite
    exact List.not_mem_nil
  · simp only [form] at isWrite
    cases calls with
    | nil => simp at isWrite
    | cons call calls => simp at isWrite

/-- Going on tells the next byte, or brings the link to rest. -/
theorem orderly_next (link : Link sizes) {kept : Bytes} {next : Option UInt8}
    {transmitter : Transmitter sizes.outbox}
    (result : link.transmitter.next = (next, transmitter))
    (notNoted : link.transmitter.completionNoted = false)
    (emptyWhenIdle : link.transmitter.busy = false → link.transmitter.queue.toList = [])
    (outgoing : link.outgoing = kept) :
    Orderly kept { link with transmitter := transmitter } (next.toList.map .write) := by
  rcases Transmitter.cases_of_next result with ⟨rfl, isEmpty, rfl⟩ |
    ⟨byte, shorter, rfl, contents, rfl⟩
  · exact .resting ⟨rfl, notNoted, fun _ => isEmpty⟩ outgoing rfl
  · have busy : link.transmitter.busy = true := by
      by_contra notBusy
      have isEmpty := emptyWhenIdle (Bool.eq_false_iff.mpr notBusy)
      rw [contents] at isEmpty
      cases isEmpty
    rw [Link.outgoing, contents] at outgoing
    exact .told byte busy rfl notNoted outgoing rfl

theorem orderly_submit {link : Link sizes} {kept : Bytes} {byte : UInt8}
    (resting : link.Resting) (outgoing : link.outgoing = kept) :
    Orderly (kept ++ (Moment.mk link [.follow (.submit byte)]).admitted)
      (link.step (.follow (.submit byte))).2
      ((link.step (.follow (.submit byte))).1 ++ []) := by
  rcases outcome : link.transmitter.submit byte with ⟨admission, later⟩
  rcases Transmitter.cases_of_submit outcome with ⟨rfl, notBusy, rfl⟩ |
    ⟨rfl, busy, longer, contents, rfl⟩ | ⟨rfl, busy, rfl⟩
  · have isEmpty := resting.emptyWhenIdle notBusy
    simp only [step, outcome, Moment.admitted, reduceCtorEq, if_false]
    refine .told byte rfl rfl resting.notNoted ?_ rfl
    simp [← outgoing, Link.outgoing, isEmpty]
  · simp only [step, outcome, Moment.admitted, reduceCtorEq, if_false]
    refine .resting ⟨resting.notWriting, resting.notNoted, ?_⟩ ?_ rfl
    · intro notBusy
      simp [busy] at notBusy
    · simp [← outgoing, Link.outgoing, contents]
  · simp only [step, outcome, Moment.admitted, if_true]
    refine .resting ⟨resting.notWriting, resting.notNoted, resting.emptyWhenIdle⟩ ?_ rfl
    rw [List.append_nil]
    exact outgoing

/-- A byte that the device submits while it takes one waits or is dropped. -/
theorem orderly_nested_submit {link : Link sizes} {kept : Bytes} {byte : UInt8}
    {calls : List Call} (busy : link.transmitter.busy = true)
    (writing : link.transmitter.writing = true) (outgoing : link.outgoing = kept) :
    Orderly
      (kept ++ (Moment.mk link
        (.follow (.submit byte) :: (calls.map .follow ++ [.written]))).admitted)
      (link.step (.follow (.submit byte))).2
      ((link.step (.follow (.submit byte))).1 ++ (calls.map .follow ++ [.written])) := by
  rcases outcome : link.transmitter.submit byte with ⟨admission, later⟩
  rcases Transmitter.cases_of_submit outcome with ⟨rfl, notBusy, _⟩ |
    ⟨rfl, _, longer, contents, rfl⟩ | ⟨rfl, _, rfl⟩
  · simp [busy] at notBusy
  · simp only [step, outcome, Moment.admitted, reduceCtorEq, if_false]
    refine .taking calls busy writing ?_ rfl
    simp [← outgoing, Link.outgoing, contents]
  · simp only [step, outcome, Moment.admitted, if_true]
    refine .taking calls busy writing ?_ rfl
    rw [List.append_nil]
    exact outgoing

/-- Carrying out a task keeps the order of the bytes, with those that it gets
accepted put behind. -/
theorem Orderly.step {link : Link sizes} {kept : Bytes} {task : Task} {later : List Task}
    (orderly : Orderly kept link (task :: later)) :
    Orderly (kept ++ (Moment.mk link (task :: later)).admitted) (link.step task).2
      ((link.step task).1 ++ later) := by
  rcases orderly with ⟨_, _, form⟩ | ⟨call, resting, outgoing, form⟩ |
    ⟨byte, busy, writing, notNoted, outgoing, form⟩ |
    ⟨calls, busy, writing, outgoing, form⟩
  · cases form
  · cases form
    cases call with
    | submit byte => exact orderly_submit resting outgoing
    | arrive byte =>
        simp only [Moment.admitted, List.append_nil]
        exact .resting ⟨resting.notWriting, resting.notNoted, resting.emptyWhenIdle⟩
          outgoing rfl
    | complete =>
        simp only [Moment.admitted, List.append_nil, Link.step]
        exact orderly_next link
          (Transmitter.complete_of_not_writing resting.notWriting).symm
          resting.notNoted resting.emptyWhenIdle outgoing
  · cases form
    simp only [Moment.admitted, List.append_nil]
    refine .taking (link.device.reactions byte) busy writing ?_ rfl
    simpa [Link.outgoing, Link.step, Device.take] using outgoing
  · cases calls with
    | nil =>
        cases form
        simp only [Moment.admitted, List.append_nil, Link.step]
        cases noted : link.transmitter.completionNoted with
        | false =>
            rw [Transmitter.written_of_not_noted noted]
            refine .resting ⟨rfl, noted, ?_⟩ outgoing rfl
            intro notBusy
            simp [busy] at notBusy
        | true =>
            -- Going on happens with the note already taken back.
            let cleared : Link sizes := { link with
              transmitter := { link.transmitter with completionNoted := false } }
            have emptyWhenIdle : cleared.transmitter.busy = false →
                cleared.transmitter.queue.toList = [] := by
              intro notBusy
              simp [cleared, busy] at notBusy
            rw [Transmitter.written_of_noted noted]
            exact cleared.orderly_next rfl rfl emptyWhenIdle outgoing
    | cons call calls =>
        cases form
        cases call with
        | submit byte => exact orderly_nested_submit busy writing outgoing
        | arrive byte =>
            simp only [Moment.admitted, List.append_nil]
            exact .taking calls busy writing outgoing rfl
        | complete =>
            simp only [Moment.admitted, List.append_nil, Link.step]
            rw [Transmitter.complete_of_writing writing]
            exact .taking calls busy writing outgoing rfl

/-- At every moment of an agenda no write is inside another one, and at its end
the accepted bytes are all there. -/
theorem Orderly.course {link : Link sizes} {kept : Bytes} {agenda : List Task}
    (orderly : Orderly kept link agenda) :
    (∀ moment ∈ link.course agenda, moment.Exclusive) ∧
      Orderly (kept ++ (link.course agenda).flatMap Moment.admitted)
        (link.perform agenda) [] := by
  -- The agenda grows and shrinks, so the induction is the one of `perform`; the
  -- accepted bytes collect in `kept`.
  induction link, agenda using perform.induct generalizing kept with
  | case1 link =>
      rw [course_nil, perform_nil]
      constructor
      · intro moment member
        rw [List.mem_singleton.mp member]
        exact orderly.exclusive
      · simpa [Moment.admitted] using orderly
  | case2 link task later outcome =>
      rename_i induction
      obtain ⟨exclusive, final⟩ := induction orderly.step
      rw [course_cons, perform_cons]
      constructor
      · intro moment member
        rcases List.mem_cons.mp member with rfl | inLater
        · exact orderly.exclusive
        · exact exclusive moment inLater
      · rw [List.flatMap_cons, ← List.append_assoc]
        exact final

/-- A link at rest whose outgoing bytes are the given ones. -/
def Keeps (link : Link sizes) (kept : Bytes) : Prop :=
  link.Resting ∧ link.outgoing = kept

theorem Orderly.keeps {link : Link sizes} {kept : Bytes} (orderly : Orderly kept link []) :
    link.Keeps kept := by
  rcases orderly with ⟨resting, outgoing, _⟩ | ⟨call, _, _, form⟩ |
    ⟨byte, _, _, _, _, form⟩ | ⟨calls, _, _, _, form⟩
  · exact ⟨resting, outgoing⟩
  · cases form
  · cases form
  · cases calls with
    | nil => cases form
    | cons call calls => cases form

theorem Keeps.follow {link : Link sizes} {kept : Bytes} (keeps : link.Keeps kept)
    (call : Call) :
    (∀ moment ∈ link.course [.follow call], moment.Exclusive) ∧
      (link.follow call).Keeps
        (kept ++ (link.course [.follow call]).flatMap Moment.admitted) := by
  have orderly : Orderly kept link [.follow call] :=
    .called call keeps.1 keeps.2 rfl
  obtain ⟨exclusive, final⟩ := orderly.course
  exact ⟨exclusive, final.keeps⟩

theorem Keeps.followAll {link : Link sizes} {kept : Bytes} (keeps : link.Keeps kept)
    (calls : List Call) :
    (∀ moment ∈ link.callsCourse calls, moment.Exclusive) ∧
      (link.followAll calls).Keeps
        (kept ++ (link.callsCourse calls).flatMap Moment.admitted) := by
  induction calls generalizing link kept with
  | nil =>
      refine ⟨?_, ?_⟩
      · intro moment member
        cases member
      · simpa [callsCourse, Link.followAll] using keeps
  | cons call calls induction =>
      obtain ⟨exclusive, keepsNext⟩ := keeps.follow call
      obtain ⟨exclusiveLater, keepsLater⟩ := induction keepsNext
      refine ⟨?_, ?_⟩
      · intro moment member
        rcases List.mem_append.mp member with inFirst | inLater
        · exact exclusive moment inFirst
        · exact exclusiveLater moment inLater
      · rw [callsCourse, List.flatMap_append, ← List.append_assoc]
        exact keepsLater

theorem Keeps.transfer {link later : Link sizes} {kept : Bytes} (keeps : link.Keeps kept)
    (sameTransmitter : later.transmitter = link.transmitter)
    (sameDevice : later.device = link.device) : later.Keeps kept := by
  obtain ⟨⟨notWriting, notNoted, emptyWhenIdle⟩, outgoing⟩ := keeps
  constructor
  · constructor
    · rw [sameTransmitter, notWriting]
    · rw [sameTransmitter, notNoted]
    · rw [sameTransmitter]
      exact emptyWhenIdle
  · rw [← outgoing, Link.outgoing, Link.outgoing, sameTransmitter, sameDevice]

theorem Keeps.countFrame {link : Link sizes} {kept : Bytes} (keeps : link.Keeps kept) :
    Keeps { link with transmitter := link.transmitter.countFrame } kept :=
  ⟨⟨keeps.1.notWriting, keeps.1.notNoted, keeps.1.emptyWhenIdle⟩, keeps.2⟩

/-- Clearing forgets the bytes in the queue, which are the last ones. -/
theorem Keeps.clear {link : Link sizes} {kept : Bytes} (keeps : link.Keeps kept)
    {device : Device} (sameRecord : device.record = link.device.record) :
    Keeps { link.clear with device := device } (kept.rdrop link.pendingOutbound) := by
  have isEmpty : link.transmitter.queue.clear.toList = [] := ByteQueue.toList_clear _
  refine ⟨⟨rfl, rfl, fun _ => isEmpty⟩, ?_⟩
  have length : link.pendingOutbound = link.transmitter.queue.toList.length :=
    (ByteQueue.length_toList _).symm
  have forgotten : kept.rdrop link.pendingOutbound = link.device.record.toList := by
    rw [← keeps.2, Link.outgoing, length, List.rdrop_append_length]
  rw [forgotten, ← sameRecord]
  have outgoing : device.record.toList ++ link.transmitter.queue.clear.toList =
      device.record.toList := by
    rw [isEmpty, List.append_nil]
  exact outgoing

def Operation.forgets : Operation → Bool
  | .bringUp | .shutDown => true
  | _ => false

/-- A link, and the bytes that it has accepted since it was made without those
that it has forgotten. -/
structure Ledger (sizes : Sizes) where
  link : Link sizes
  kept : Bytes := []

namespace Ledger

/-- An operation puts the bytes accepted in its course behind the others; one
that forgets takes away as many bytes as the queue holds. -/
def enter (ledger : Ledger sizes) (operation : Operation) : Ledger sizes where
  link := ledger.link.operate operation
  kept :=
    if operation.forgets then ledger.kept.rdrop ledger.link.pendingOutbound
    else ledger.kept ++ ledger.link.accepted operation

def enterAll (ledger : Ledger sizes) (operations : List Operation) : Ledger sizes :=
  operations.foldl enter ledger

end Ledger

theorem powerUp_record (device : Device) : device.powerUp.record = device.record := by
  unfold Device.powerUp
  split
  · rfl
  · rfl

theorem powerDown_record (device : Device) : device.powerDown.record = device.record := by
  unfold Device.powerDown
  split
  · rfl
  · rfl

/-- One operation, and what it adds to the bytes or takes from them. -/
theorem Keeps.enter {ledger : Ledger sizes} (keeps : ledger.link.Keeps ledger.kept)
    (operation : Operation) :
    (∀ moment ∈ ledger.link.moments operation, moment.Exclusive) ∧
      (ledger.enter operation).link.Keeps (ledger.enter operation).kept := by
  obtain ⟨exclusive, keepsAll⟩ := keeps.followAll operation.calls
  refine ⟨exclusive, ?_⟩
  cases operation with
  | bringUp =>
      have cleared := keeps.clear (powerUp_record ledger.link.device)
      exact cleared.transfer rfl rfl
  | shutDown =>
      have cleared := keeps.clear (powerDown_record ledger.link.device)
      exact cleared.transfer rfl rfl
  | reset =>
      obtain ⟨⟨notWriting, notNoted, emptyWhenIdle⟩, outgoing⟩ := keepsAll
      exact ⟨⟨notWriting, notNoted, emptyWhenIdle⟩, outgoing⟩
  | send payload => exact keepsAll.countFrame
  | sendRaw data => exact keepsAll
  | follow call => exact keepsAll
  | tryReceive buffer =>
      obtain ⟨sameTransmitter, sameDevice⟩ := ledger.link.tryReceive_keeps buffer
      exact keepsAll.transfer sameTransmitter sameDevice
  | receive buffer =>
      obtain ⟨sameTransmitter, sameDevice⟩ := ledger.link.receive_keeps buffer
      exact keepsAll.transfer sameTransmitter sameDevice
  | receiveRaw buffer => exact keepsAll.transfer rfl rfl

theorem keeps_new (behaviour : Behaviour) (settings : Settings) :
    (new behaviour settings : Link sizes).Keeps [] := by
  have isEmpty : (ByteQueue.empty : ByteQueue sizes.outbox).toList = [] :=
    ByteQueue.toList_empty
  exact ⟨⟨rfl, rfl, fun _ => isEmpty⟩, isEmpty⟩

theorem Keeps.enterAll {ledger : Ledger sizes} (keeps : ledger.link.Keeps ledger.kept)
    (operations : List Operation) :
    (ledger.enterAll operations).link.Keeps (ledger.enterAll operations).kept := by
  induction operations generalizing ledger with
  | nil => exact keeps
  | cons operation operations induction =>
      exact induction (keeps.enter operation).2

/-- Whatever the sizes, the device and the operations so far: what the device
has taken and what waits are the accepted bytes without the forgotten ones, in
order; the flags are those of a link at rest; and in the course of any further
operation the device is handed no byte while it takes another. -/
theorem outgoing_conserved (behaviour : Behaviour) (settings : Settings)
    (operations : List Operation) :
    let ledger : Ledger sizes :=
      Ledger.enterAll { link := new behaviour settings } operations
    ledger.link.device.record.toList ++ ledger.link.transmitter.queue.toList =
        ledger.kept ∧
      ledger.link.transmitter.writing = false ∧
      ledger.link.transmitter.completionNoted = false ∧
      (ledger.link.transmitter.busy = false →
        ledger.link.transmitter.queue.toList = []) ∧
      ∀ operation, ∀ moment ∈ ledger.link.moments operation, ∀ byte later,
        moment.agenda = .write byte :: later → .written ∉ later := by
  intro ledger
  have keeps : ledger.link.Keeps ledger.kept :=
    Keeps.enterAll (keeps_new behaviour settings) operations
  refine ⟨keeps.2, keeps.1.notWriting, keeps.1.notNoted, keeps.1.emptyWhenIdle, ?_⟩
  intro operation moment member
  exact (keeps.enter operation).1 moment member

/-- A device that submits a byte and reports two completions while it takes its
first one; a byte that waits behind these is forgotten on shutting down. -/
def interruptedLedger : Ledger { inbox := 4, outbox := 3, frame := 8 } :=
  Ledger.enterAll
    { link := new (.scripted { injections := [(0, [0x42])], completions := [2, 0] }) {} }
    [.follow (.submit 0x41), .sendRaw [0x43], .shutDown]

theorem interruptedLedger_conserved :
    (interruptedLedger.link.transmitter.busy = false ∧
        interruptedLedger.link.transmitter.queue.toList = []) ∧
      (interruptedLedger.kept = [0x41, 0x42] ∧
        interruptedLedger.link.device.record.toList ++
          interruptedLedger.link.transmitter.queue.toList = [0x41, 0x42]) ∧
      ∃ moment ∈ interruptedLedger.link.moments (.follow (.submit 0x44)),
        moment.agenda = [.write 0x44] ∧ .written ∉ ([] : List Task) := by
  have conserved := @outgoing_conserved { inbox := 4, outbox := 3, frame := 8 }
    (.scripted { injections := [(0, [0x42])], completions := [2, 0] }) {}
    [.follow (.submit 0x41), .sendRaw [0x43], .shutDown]
  obtain ⟨outgoing, _, _, emptyWhenIdle, exclusive⟩ := conserved
  have notBusy : interruptedLedger.link.transmitter.busy = false := rfl
  have noneWaits : interruptedLedger.link.transmitter.queue.toList = [] :=
    emptyWhenIdle notBusy
  have record : interruptedLedger.link.device.record.toList = [0x41, 0x42] := by
    simp [interruptedLedger, Ledger.enterAll, Ledger.enter, operate, shutDown, note,
      sendRaw, followAll, follow, perform_cons, perform_nil, step, new, Behaviour.script,
      Script.reactions, Script.injected, Script.completionsAt, Device.reactions,
      Device.take, Device.powerDown, Transmitter.submit, Transmitter.complete,
      Transmitter.written, Transmitter.next, ByteQueue.push, ByteQueue.pop?,
      ByteQueue.isFull, ByteQueue.isEmpty, ByteQueue.empty]
  have kept : interruptedLedger.link.outgoing = [0x41, 0x42] := by
    rw [Link.outgoing, record, noneWaits]
    rfl
  let told := (interruptedLedger.link.step (.follow (.submit 0x44))).2
  have visited : ⟨told, [.write 0x44]⟩ ∈
      interruptedLedger.link.moments (.follow (.submit 0x44)) := by
    have first : ⟨told, [.write 0x44]⟩ ∈ told.course [.write 0x44] := by
      rw [course_cons]
      exact .head _
    rw [moments, Operation.calls, callsCourse, callsCourse, List.append_nil, course_cons]
    exact .tail _ first
  exact ⟨⟨notBusy, noneWaits⟩, ⟨outgoing.symm.trans kept, kept⟩, _, visited, rfl,
    exclusive _ _ visited _ _ rfl⟩

end Link

end FramedSerial
