import FramedSerial.Proofs.Link.Draining
import FramedSerial.Proofs.Link.Reachability

/-!
# Sending comes to an end

A device may submit bytes and report completions while it takes a byte, and each of
these may lead to the next byte, in front of which the device may act again.  That
this comes to an end can be seen from the bytes that lie ahead of a link: those that
wait in the queue and those that the device will still submit.  A byte that is handed
to the device was one of them or was submitted by the operation itself, and none is
handed over twice.

`CarriesOut` describes a finite course of tasks without saying in advance that there
is one, and counts the bytes handed over in it.
-/

namespace FramedSerial

namespace Link

variable {sizes : Sizes}

/-- How many bytes a task hands to the device. -/
def Task.writes : Task → Nat
  | .write _ => 1
  | .follow _ | .written => 0

/-- The tasks of an agenda are carried out, with everything that follows from them,
until none is left; `writes` bytes are handed to the device in the course of it. -/
inductive CarriesOut : Link sizes → List Task → (writes : Nat) → Link sizes → Prop where
  | done {link : Link sizes} : CarriesOut link [] 0 link
  | task {link last : Link sizes} {task : Task} {later : List Task} {writes : Nat} :
      CarriesOut (link.step task).2 ((link.step task).1 ++ later) writes last →
      CarriesOut link (task :: later) (task.writes + writes) last

/-- The bytes that wait and those that the device will still submit. -/
def ahead (link : Link sizes) : Nat :=
  link.pendingOutbound + link.device.injectionsLeft

/-- A byte handed to the device is not outstanding any more, and none is added. -/
theorem writes_add_outstanding_le (link : Link sizes) (task : Task) (later : List Task) :
    task.writes + outstanding (link.step task).2 ((link.step task).1 ++ later) ≤
      outstanding link (task :: later) := by
  have noneAdded : outstanding (link.step task).2 ((link.step task).1 ++ later) ≤
      outstanding link (task :: later) := by
    rcases link.step_decreases task later with fewer | ⟨same, _⟩
    · exact Nat.le_of_lt fewer
    · exact Nat.le_of_eq same
  cases task with
  | follow call =>
      rw [Task.writes, Nat.zero_add]
      exact noneAdded
  | write byte =>
      have submitted := agendaBytes_reactions link.device byte
      simp only [step, Task.writes, outstanding, pendingOutbound, agendaBytes_append,
        agendaBytes, Task.bytes]
      omega
  | written =>
      rw [Task.writes, Nat.zero_add]
      exact noneAdded

theorem taken_step (link : Link sizes) (task : Task) :
    (link.step task).2.device.taken = link.device.taken + task.writes := by
  match task with
  | .follow (.submit byte) =>
      rcases outcome : link.transmitter.submit byte with ⟨_ | _ | _, transmitter⟩
      all_goals
        simp only [step, outcome]
        rfl
  | .follow .complete => rfl
  | .follow (.arrive byte) => rfl
  | .write byte => rfl
  | .written => rfl

theorem carriesOut_perform (link : Link sizes) (agenda : List Task) :
    ∃ writes, CarriesOut link agenda writes (link.perform agenda) := by
  induction link, agenda using perform.induct with
  | case1 link =>
      rw [perform_nil]
      exact ⟨0, .done⟩
  | case2 link task later outcome =>
      rename_i induction
      obtain ⟨writes, carriesOut⟩ := induction
      rw [perform_cons]
      exact ⟨task.writes + writes, .task carriesOut⟩

namespace CarriesOut

variable {link between last : Link sizes} {agenda : List Task} {writes : Nat}

theorem writes_le (carriesOut : CarriesOut link agenda writes last) :
    writes + last.ahead ≤ link.ahead + agendaBytes agenda := by
  induction carriesOut with
  | done => exact Nat.le_of_eq (Nat.zero_add _)
  | @task link last task later writes _ induction =>
      have first := link.writes_add_outstanding_le task later
      unfold outstanding at first
      unfold ahead at induction ⊢
      omega

theorem taken (carriesOut : CarriesOut link agenda writes last) :
    last.device.taken = link.device.taken + writes := by
  induction carriesOut with
  | done => rfl
  | @task link last task later writes _ induction =>
      rw [induction, taken_step, Nat.add_assoc]

theorem append {later : List Task} {more : Nat}
    (begins : CarriesOut link agenda writes between)
    (continues : CarriesOut between later more last) :
    CarriesOut link (agenda ++ later) (writes + more) last := by
  induction begins with
  | done =>
      rw [Nat.zero_add]
      exact continues
  | @task link between task agenda writes _ induction =>
      have rest := induction continues
      rw [List.append_assoc] at rest
      rw [List.cons_append, Nat.add_assoc]
      exact .task rest

end CarriesOut

/-- The calls are followed one after the other to the end, and at most `limit` bytes
are handed to the device meanwhile. -/
def EndsWithin (link : Link sizes) (calls : List Call) (limit : Nat)
    (last : Link sizes) : Prop :=
  ∃ writes, CarriesOut link (calls.map .follow) writes last ∧
    last.device.taken = link.device.taken + writes ∧ writes ≤ limit

theorem carriesOut_followAll (link : Link sizes) (calls : List Call) :
    ∃ writes, CarriesOut link (calls.map .follow) writes (link.followAll calls) := by
  induction calls generalizing link with
  | nil => exact ⟨0, .done⟩
  | cons call calls induction =>
      obtain ⟨first, begins⟩ := link.carriesOut_perform [.follow call]
      obtain ⟨more, continues⟩ := induction (link.follow call)
      exact ⟨first + more, begins.append continues⟩

theorem followAll_endsWithin (link : Link sizes) (calls : List Call) :
    link.EndsWithin calls (agendaBytes (calls.map .follow) + link.ahead)
      (link.followAll calls) := by
  obtain ⟨writes, carriesOut⟩ := link.carriesOut_followAll calls
  have bounded := carriesOut.writes_le
  refine ⟨writes, carriesOut, carriesOut.taken, ?_⟩
  omega

theorem sendRaw_endsWithin (link : Link sizes) (data : Bytes) :
    link.EndsWithin (data.map .submit) (data.length + link.ahead) (link.sendRaw data) := by
  have ends := link.followAll_endsWithin (data.map .submit)
  rw [agendaBytes_submits] at ends
  exact ends

/-- A completion that fetches a byte brings the link nearer to its end. -/
theorem Resting.ahead_complete_lt {link : Link sizes} (resting : link.Resting)
    {byte : UInt8} {shorter : ByteQueue sizes.outbox}
    (popped : link.transmitter.queue.pop? = some (byte, shorter)) :
    (link.follow .complete).ahead < link.ahead := by
  let telling : Link sizes := { link with
    transmitter := { link.transmitter with writing := true, queue := shorter } }
  have followed : link.follow .complete = telling.perform [.write byte] := by
    have completed := Transmitter.complete_of_not_writing resting.notWriting
    rw [Link.follow, perform_cons]
    simp only [step, completed, Transmitter.next, popped]
    rfl
  obtain ⟨writes, carriesOut⟩ := telling.carriesOut_perform [.write byte]
  have bounded := carriesOut.writes_le
  have oneLess : telling.ahead + 1 = link.ahead := by
    have length : link.pendingOutbound = shorter.length + 1 :=
      ByteQueue.length_of_pop? popped
    have same : telling.ahead = shorter.length + link.device.injectionsLeft := rfl
    unfold ahead at same ⊢
    omega
  rw [followed]
  cases carriesOut with
  | task rest =>
      simp only [Task.writes, agendaBytes, Task.bytes] at bounded
      omega

theorem completeUpTo_le (link : Link sizes) (limit : Nat) :
    (link.completeUpTo limit).1 ≤ limit := by
  induction limit generalizing link with
  | zero => exact Nat.le_refl 0
  | succ limit induction =>
      cases busy : link.busy with
      | false =>
          rw [completeUpTo_of_idle busy]
          exact Nat.zero_le _
      | true =>
          rw [completeUpTo_of_busy busy]
          exact Nat.succ_le_succ (induction _)

/-- As many completions as there are bytes ahead, and one more, end every burst. -/
theorem Resting.idle_completeUpTo {link : Link sizes} (resting : link.Resting)
    {limit : Nat} (enough : link.ahead < limit) :
    (link.completeUpTo limit).2.busy = false := by
  induction limit generalizing link with
  | zero => cases enough
  | succ limit induction =>
      cases busy : link.busy with
      | false =>
          rw [completeUpTo_of_idle busy]
          exact busy
      | true =>
          rw [completeUpTo_of_busy busy]
          cases popped : link.transmitter.queue.pop? with
          | none =>
              have idle : (link.follow .complete).busy = false := by
                rw [follow_complete_of_empty resting popped]
                rfl
              rw [completeUpTo_of_idle idle]
              exact idle
          | some outcome =>
              have nearer := resting.ahead_complete_lt popped
              apply induction
              · exact resting.follow .complete
              · omega

theorem Resting.drains {link : Link sizes} (resting : link.Resting) : link.Drains := by
  apply drains_of_idle
  exact resting.idle_completeUpTo (Nat.lt_succ_self _)

/-- How everything that makes a link send comes to an end, and how soon. -/
structure EndsSoon (link : Link sizes) : Prop where
  submit : ∀ byte,
    link.EndsWithin [.submit byte] (1 + link.ahead) (link.follow (.submit byte))
  complete : link.EndsWithin [.complete] link.ahead (link.follow .complete)
  sendRaw : ∀ data,
    link.EndsWithin (data.map .submit) (data.length + link.ahead) (link.sendRaw data)
  /-- A frame is sent by submitting its bytes, and is counted when that has ended. -/
  send : ∀ payload, ∃ last,
    link.EndsWithin ((Frame.encode payload).map .submit)
        ((Frame.encode payload).length + link.ahead) last ∧
      link.send payload = { last with transmitter := last.transmitter.countFrame }
  /-- Reporting completions for as long as the link is busy ends as well. -/
  drains : link.Drains
  reported : link.drain.1 ≤ link.ahead + 1

/-- Whatever the sizes, the device and the state of a link, what it is made to send
ends, with no more bytes handed to the device than were ahead and have been submitted
by the operation itself. -/
theorem sending_ends {behaviour : Behaviour} {settings : Settings} {link : Link sizes}
    (reachable : Reachable behaviour settings link) : link.EndsSoon := by
  constructor
  case submit =>
    intro byte
    exact link.sendRaw_endsWithin [byte]
  case complete =>
    have ends := link.followAll_endsWithin [.complete]
    rw [show agendaBytes ([Call.complete].map .follow) = 0 from rfl, Nat.zero_add] at ends
    exact ends
  case sendRaw => exact link.sendRaw_endsWithin
  case send =>
    intro payload
    exact ⟨_, link.sendRaw_endsWithin (Frame.encode payload), rfl⟩
  case drains => exact reachable.resting.drains
  case reported => exact link.completeUpTo_le _

/-- A device that echoes, and that submits two bytes while it takes its second one and
another while it takes its fourth; every second byte it reports as sent at once. -/
def chainingDevice : Behaviour :=
  .scripted {
    echoes := true
    injections := [(1, [0x50, 0x51]), (3, [0x52])]
    completions := [0, 2] }

/-- A link whose device has taken one byte, while another one waits. -/
def chainedLink : Link { inbox := 4, outbox := 3, frame := 8 } :=
  (new chainingDevice {}).sendRaw [0x41, 0x42]

theorem chainedLink_reachable : Reachable chainingDevice {} chainedLink :=
  Reachable.new.operate (.sendRaw [0x41, 0x42])

theorem chainedLink_ends :
    Reachable chainingDevice {} chainedLink ∧ chainedLink.ahead = 4 ∧
      chainedLink.EndsWithin [.complete] 4 (chainedLink.follow .complete) ∧
      chainedLink.EndsWithin [.submit 0x43] 5 (chainedLink.follow (.submit 0x43)) ∧
      chainedLink.drain.1 ≤ 5 ∧ chainedLink.drain.2.busy = false ∧
      chainedLink.drain.2.device.record.toList = [0x41, 0x42, 0x50, 0x51, 0x52] := by
  have ends := sending_ends chainedLink_reachable
  have ahead : chainedLink.ahead = 4 := by
    simp [chainedLink, chainingDevice, Link.ahead, pendingOutbound, sendRaw, followAll,
      follow, perform_cons, perform_nil, step, new, Behaviour.script, Script.reactions,
      Script.injected, Script.injectionsFrom, Script.completionsAt, Device.reactions,
      Device.take, Device.injectionsLeft, Transmitter.submit, Transmitter.written,
      ByteQueue.push, ByteQueue.isFull, ByteQueue.length, ByteQueue.empty]
  have complete := ends.complete
  have submit := ends.submit 0x43
  have reported := ends.reported
  rw [ahead] at complete submit reported
  refine ⟨chainedLink_reachable, ahead, complete, submit, reported, ends.drains.idle, ?_⟩
  rw [chainedLink, chainingDevice]
  simp [drain, completeUpTo, busy, pendingOutbound, sendRaw, followAll, follow,
    perform_cons, perform_nil, step, new, Behaviour.script, Script.reactions,
    Script.injected, Script.injectionsFrom, Script.completionsAt, Device.reactions,
    Device.take, Device.injectionsLeft, Transmitter.submit, Transmitter.complete,
    Transmitter.written, Transmitter.next, ByteQueue.push, ByteQueue.pop?,
    ByteQueue.isFull, ByteQueue.isEmpty, ByteQueue.length, ByteQueue.empty]

end Link

end FramedSerial
