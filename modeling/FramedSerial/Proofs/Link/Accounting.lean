import FramedSerial.Proofs.Link.Handover
import FramedSerial.Proofs.Link.Histories
import FramedSerial.Proofs.Link.Reads

/-!
# What the counts of a link account for

Every count has events of its own, and these can be told without it: what an
agenda does at each of its moments, what the single reads of an operation come to,
and which operations are asked for.  A count is the number of its events since the
link was made, or the ceiling if there were more.

`Accounts` says so of two statistics and the events between them.  It holds of one
task and of one read, and from there of agendas, of operations and of histories.
-/

namespace FramedSerial

namespace Link

variable {sizes : Sizes}

/-- The events that the next task is: a byte that finds a full queue is dropped. -/
def Moment.events (moment : Moment sizes) : List Statistic :=
  match moment.agenda with
  | .follow (.submit _) :: _ =>
      if moment.link.busy && moment.link.transmitter.queue.isFull then
        [.outboundBytesDropped]
      else []
  | .follow (.arrive _) :: _ =>
      if moment.link.inbox.queue.isFull then [.inboundBytesDropped] else []
  | _ => []

/-- The event that a single read comes to, unless it finds nothing. -/
def Reading.events : Reading → List Statistic
  | .nothing => []
  | .frame _ => [.framesReceived]
  | .lost (.faulty (.badChecksum _ _)) => [.badChecksums]
  | .lost (.faulty (.tooLong _)) => [.framesTooLong]
  | .lost (.noRoom _ _) => [.framesWithoutRoom]

/-- What the single reads come to that make up a read past faulty frames. -/
def readings (link : Link sizes) (buffer : Bytes) : List Reading :=
  match _read : link.tryReceive buffer with
  | (.frame length, _, _) => [.frame length]
  | (.nothing, _, _) => [.nothing]
  | (.lost (.noRoom length capacity), _, _) => [.lost (.noRoom length capacity)]
  | (.lost (.faulty fault), filled, later) =>
      .lost (.faulty fault) :: later.readings filled
termination_by link.pendingInbound
decreasing_by exact pendingInbound_of_tryReceive _read Reading.noConfusion

/-- What the single reads of an operation come to. -/
def singleReads (link : Link sizes) : Operation → List Reading
  | .tryReceive buffer => [(link.tryReceive buffer).1]
  | .receive buffer => link.readings buffer
  | _ => []

/-- The event that it is to ask for an operation. -/
def Operation.events : Operation → List Statistic
  | .send _ => [.framesSent]
  | _ => []

def events (link : Link sizes) (operation : Operation) : List Statistic :=
  (link.moments operation).flatMap Moment.events ++
    (link.singleReads operation).flatMap Reading.events ++ operation.events

def historyEvents (link : Link sizes) : List Operation → List Statistic
  | [] => []
  | operation :: later =>
      link.events operation ++ (link.operate operation).historyEvents later

section

variable {link later : Link sizes} {buffer filled : Bytes}

theorem readings_of_end {reading : Reading}
    (read : link.tryReceive buffer = (reading, filled, later))
    (notFaulty : ∀ fault, reading ≠ .lost (.faulty fault)) :
    link.readings buffer = [reading] := by
  rw [readings]
  split
  · simp_all
  · simp_all
  · simp_all
  · next fault _ _ found =>
      have faulty := congrArg Prod.fst (read.symm.trans found)
      exact absurd faulty (notFaulty fault)

theorem readings_of_faulty {fault : Frame.Fault}
    (read : link.tryReceive buffer = (.lost (.faulty fault), filled, later)) :
    link.readings buffer = .lost (.faulty fault) :: later.readings filled := by
  rw [readings]
  split <;> simp_all

end

/-- The later counts are the earlier ones with the given events counted. -/
def Accounts (earlier later : Statistics) (events : List Statistic) : Prop :=
  ∀ statistic, (later.of statistic).toNat =
    min ((earlier.of statistic).toNat + events.count statistic) Counter.ceiling

namespace Accounts

theorem nothing (statistics : Statistics) : Accounts statistics statistics [] := by
  intro statistic
  rw [List.count_nil, Nat.add_zero]
  exact (Nat.min_eq_left (Counter.toNat_le_ceiling _)).symm

theorem one (statistics : Statistics) (statistic : Statistic) :
    Accounts statistics (statistics.increment statistic) [statistic] := by
  intro asked
  rw [Statistics.of_increment, List.count_singleton]
  by_cases same : statistic = asked
  · simp [same]
  · have bounded := (statistics.of asked).toNat_le_ceiling
    simp [same, bounded]

theorem trans {earlier between later : Statistics} {first second : List Statistic}
    (begins : Accounts earlier between first) (continues : Accounts between later second) :
    Accounts earlier later (first ++ second) := by
  intro statistic
  rw [continues statistic, begins statistic, Counter.capped_add, List.count_append,
    Nat.add_assoc]

/-- No count ever falls. -/
theorem le {earlier later : Statistics} {events : List Statistic}
    (accounts : Accounts earlier later events) (statistic : Statistic) :
    (earlier.of statistic).toNat ≤ (later.of statistic).toNat := by
  have bounded := (earlier.of statistic).toNat_le_ceiling
  rw [accounts statistic]
  omega

end Accounts

/-- Going on leaves the counts of a transmitter as they are. -/
theorem Transmitter.next_counts {capacity : Nat} (transmitter : Transmitter capacity) :
    transmitter.next.2.framesSent = transmitter.framesSent ∧
      transmitter.next.2.bytesDropped = transmitter.bytesDropped := by
  rcases outcome : transmitter.next with ⟨next, later⟩
  rcases Transmitter.cases_of_next outcome with ⟨_, _, rfl⟩ | ⟨byte, shorter, _, _, rfl⟩
  · exact ⟨rfl, rfl⟩
  · exact ⟨rfl, rfl⟩

theorem Transmitter.complete_counts {capacity : Nat} (transmitter : Transmitter capacity) :
    transmitter.complete.2.framesSent = transmitter.framesSent ∧
      transmitter.complete.2.bytesDropped = transmitter.bytesDropped := by
  cases writing : transmitter.writing with
  | true =>
      rw [Transmitter.complete_of_writing writing]
      exact ⟨rfl, rfl⟩
  | false =>
      rw [Transmitter.complete_of_not_writing writing]
      exact transmitter.next_counts

theorem Transmitter.written_counts {capacity : Nat} (transmitter : Transmitter capacity) :
    transmitter.written.2.framesSent = transmitter.framesSent ∧
      transmitter.written.2.bytesDropped = transmitter.bytesDropped := by
  cases noted : transmitter.completionNoted with
  | true =>
      rw [Transmitter.written_of_noted noted]
      exact Transmitter.next_counts { transmitter with completionNoted := false }
  | false =>
      rw [Transmitter.written_of_not_noted noted]
      exact ⟨rfl, rfl⟩

/-- A transmitter with the same counts makes no difference to the statistics. -/
theorem Accounts.of_counts (link : Link sizes) {transmitter : Transmitter sizes.outbox}
    (counts : transmitter.framesSent = link.transmitter.framesSent ∧
      transmitter.bytesDropped = link.transmitter.bytesDropped) :
    Accounts link.statistics { link with transmitter := transmitter }.statistics [] := by
  have same : { link with transmitter := transmitter }.statistics = link.statistics := by
    simp only [statistics, counts]
  rw [same]
  exact .nothing _

theorem submit_accounts (link : Link sizes) (byte : UInt8) (agenda : List Task) :
    Accounts link.statistics (link.step (.follow (.submit byte))).2.statistics
      (Moment.mk link (.follow (.submit byte) :: agenda)).events := by
  cases busy : link.transmitter.busy with
  | false =>
      simp only [step, Transmitter.submit_of_idle busy, Moment.events, Link.busy, busy,
        Bool.false_and, Bool.false_eq_true, if_false]
      exact .nothing _
  | true =>
      rcases Nat.lt_or_eq_of_le link.transmitter.queue.length_le_capacity with room | full
      · obtain ⟨longer, admitted, _⟩ := Transmitter.submit_of_room busy room byte
        have notFull : link.transmitter.queue.isFull = false := by
          apply Bool.eq_false_iff.mpr
          intro isFull
          have full := link.transmitter.queue.isFull_iff.mp isFull
          omega
        simp only [step, admitted, Moment.events, notFull, Bool.and_false,
          Bool.false_eq_true, if_false]
        exact .nothing _
      · have isFull := link.transmitter.queue.isFull_iff.mpr full
        simp only [step, Transmitter.submit_of_full busy full, Moment.events, Link.busy,
          busy, isFull, Bool.and_self, if_true]
        exact .one link.statistics .outboundBytesDropped

theorem arrive_accounts (link : Link sizes) (byte : UInt8) (agenda : List Task) :
    Accounts link.statistics (link.step (.follow (.arrive byte))).2.statistics
      (Moment.mk link (.follow (.arrive byte) :: agenda)).events := by
  simp only [step, Moment.events, Inbox.accept]
  by_cases isFull : link.inbox.queue.isFull = true
  · have full := link.inbox.queue.isFull_iff.mp isFull
    rw [ByteQueue.push_of_full full, if_pos isFull]
    exact .one link.statistics .inboundBytesDropped
  · have room : link.inbox.queue.length < sizes.inbox := by
      have bounded := link.inbox.queue.length_le_capacity
      have notFull := mt link.inbox.queue.isFull_iff.mpr isFull
      omega
    obtain ⟨longer, accepted, _⟩ := ByteQueue.push_of_room room byte
    rw [accepted, if_neg isFull]
    exact .nothing _

theorem step_accounts (link : Link sizes) (task : Task) (agenda : List Task) :
    Accounts link.statistics (link.step task).2.statistics
      (Moment.mk link (task :: agenda)).events := by
  match task with
  | .follow (.submit byte) => exact link.submit_accounts byte agenda
  | .follow (.arrive byte) => exact link.arrive_accounts byte agenda
  | .follow .complete => exact .of_counts link link.transmitter.complete_counts
  | .write byte => exact .nothing _
  | .written => exact .of_counts link link.transmitter.written_counts

theorem perform_accounts (link : Link sizes) (agenda : List Task) :
    Accounts link.statistics (link.perform agenda).statistics
      ((link.course agenda).flatMap Moment.events) := by
  induction link, agenda using perform.induct with
  | case1 link =>
      rw [perform_nil, course_nil]
      exact .nothing _
  | case2 link task agenda outcome =>
      rename_i induction
      rw [perform_cons, course_cons, List.flatMap_cons]
      exact (link.step_accounts task agenda).trans induction

theorem followAll_accounts (link : Link sizes) (calls : List Call) :
    Accounts link.statistics (link.followAll calls).statistics
      ((link.callsCourse calls).flatMap Moment.events) := by
  induction calls generalizing link with
  | nil => exact .nothing _
  | cons call calls induction =>
      rw [callsCourse, List.flatMap_append]
      exact (link.perform_accounts [.follow call]).trans (induction (link.follow call))

/-- A single read counts what it comes to. -/
theorem tryReceive_accounts (link : Link sizes) (buffer : Bytes) :
    Accounts link.statistics (link.tryReceive buffer).2.2.statistics
      (link.tryReceive buffer).1.events := by
  by_cases claimed : link.receiver.claimed = true
  · simp only [tryReceive, watchedRead, if_pos claimed]
    exact .nothing _
  · have unclaimed := Bool.eq_false_iff.mpr claimed
    obtain ⟨event?, consumed, queue, journal, _, result⟩ :=
      tryReceive_finds unclaimed buffer
    rw [result]
    rcases event? with _ | ⟨payload⟩ | ⟨⟨computed, received⟩ | ⟨capacity⟩⟩
    · exact .nothing _
    · simp only [handed, counted]
      split
      · exact .one link.statistics .framesReceived
      · exact .one link.statistics .framesWithoutRoom
    · exact .one link.statistics .badChecksums
    · exact .one link.statistics .framesTooLong

theorem receive_accounts (link : Link sizes) (buffer : Bytes) :
    Accounts link.statistics (link.receive buffer).2.2.statistics
      ((link.readings buffer).flatMap Reading.events) := by
  induction link, buffer using receive_induction with
  | ends link buffer reading filled later read notFaulty =>
      have accounts := link.tryReceive_accounts buffer
      rw [read] at accounts
      rw [receive_of_end read notFaulty, readings_of_end read notFaulty,
        List.flatMap_singleton]
      exact accounts
  | goesOn link buffer fault filled later read induction =>
      have accounts := link.tryReceive_accounts buffer
      rw [read] at accounts
      rw [receive_of_faulty read, readings_of_faulty read, List.flatMap_cons]
      exact accounts.trans induction

/-- Every operation counts its events, and nothing else. -/
theorem operate_accounts (link : Link sizes) (operation : Operation) :
    Accounts link.statistics (link.operate operation).statistics
      (link.events operation) := by
  -- The three parts of `events`, one behind the other: calls, reads, the operation.
  have called := link.followAll_accounts operation.calls
  cases operation with
  | bringUp => exact (called.trans (.nothing _)).trans (.nothing _)
  | shutDown => exact (called.trans (.nothing _)).trans (.nothing _)
  | reset => exact (called.trans (.nothing _)).trans (.nothing _)
  | send payload => exact (called.trans (.nothing _)).trans (.one _ .framesSent)
  | sendRaw data => exact (called.trans (.nothing _)).trans (.nothing _)
  | follow call => exact (called.trans (.nothing _)).trans (.nothing _)
  | tryReceive buffer =>
      have read := link.tryReceive_accounts buffer
      rw [← List.flatMap_singleton Reading.events] at read
      exact (called.trans read).trans (.nothing _)
  | receive buffer =>
      exact (called.trans (link.receive_accounts buffer)).trans (.nothing _)
  | receiveRaw buffer => exact (called.trans (.nothing _)).trans (.nothing _)

theorem operateAll_accounts (link : Link sizes) (history : List Operation) :
    Accounts link.statistics (link.operateAll history).statistics
      (link.historyEvents history) := by
  induction history generalizing link with
  | nil => exact .nothing _
  | cons operation later induction =>
      exact (link.operate_accounts operation).trans (induction (link.operate operation))

/-- Whatever the sizes, the device and the history: each count is the number of
its events, or the ceiling if there were more; no operation ever lowers a count; a
single read that comes to something counts just that, and one that finds nothing
counts nothing; and the lost frames are those of the three kinds together. -/
theorem counts_events (behaviour : Behaviour) (settings : Settings)
    (history : List Operation) :
    let made : Link sizes := new behaviour settings
    let link := made.operateAll history
    (∀ statistic, (link.statistics.of statistic).toNat =
        min ((made.historyEvents history).count statistic) Counter.ceiling) ∧
      (∀ operation statistic, (link.statistics.of statistic).toNat ≤
        ((link.operate operation).statistics.of statistic).toNat) ∧
      (∀ buffer,
        (link.tryReceive buffer).1.events.length =
            (if (link.tryReceive buffer).1 = .nothing then 0 else 1) ∧
          Accounts link.statistics (link.tryReceive buffer).2.2.statistics
            (link.tryReceive buffer).1.events) ∧
      link.statistics.framesDropped.toNat =
        min (link.statistics.badChecksums.toNat + link.statistics.framesTooLong.toNat +
          link.statistics.framesWithoutRoom.toNat) Counter.ceiling := by
  intro made link
  have accounts := made.operateAll_accounts history
  refine ⟨?_, ?_, ?_, link.statistics.toNat_framesDropped⟩
  · intro statistic
    have zero : (made.statistics.of statistic).toNat = 0 := by
      cases statistic <;> rfl
    rw [accounts statistic, zero, Nat.zero_add]
  · intro operation statistic
    exact (link.operate_accounts operation).le statistic
  · intro buffer
    refine ⟨?_, link.tryReceive_accounts buffer⟩
    rcases (link.tryReceive buffer).1 with _ | length | ⟨computed, received⟩ | capacity |
      length
    all_goals rfl

end Link

end FramedSerial
