import FramedSerial.Proofs.Link.Halves
import FramedSerial.Proofs.Link.Outlet

/-!
# Draining a link

Whoever has no interrupts reports completions until the link is idle.  Each
completion of a burst hands over one byte that waits, and the one that finds none
waiting ends the burst; so draining comes to an end, and by then the device has
taken everything that was accepted.  Neither this nor submitting bytes for which
there is room changes anything else of the link.
-/

namespace FramedSerial

namespace Link

variable {sizes : Sizes}

namespace Outlet

variable {capacity : Nat}

/-- Where there is room for all bytes, all are accepted. -/
theorem submitAll_of_room {outlet : Outlet} (emptyWhenIdle : outlet.EmptyWhenIdle)
    {data : Bytes} (room : data.length ≤ outlet.room capacity) :
    (outlet.submitAll capacity data).bytes = outlet.bytes ++ data ∧
      (outlet.submitAll capacity data).bytesDropped = outlet.bytesDropped := by
  constructor
  · rw [bytes_submitAll emptyWhenIdle, List.take_of_length_le room]
  · induction data generalizing outlet with
    | nil => rfl
    | cons byte rest induction =>
        rw [List.length_cons] at room
        have positive : 0 < outlet.room capacity := by omega
        obtain ⟨_, oneLess, same⟩ := submit_of_room emptyWhenIdle positive byte
        rw [submitAll_cons, ← same]
        apply induction
        · exact emptyWhenIdle_submit capacity outlet byte
        · omega

/-- How many completions it takes until no burst is under way. -/
def completions (outlet : Outlet) : Nat :=
  if outlet.busy then outlet.waiting.length + 1 else 0

/-- The outlet once everything has been handed to the device. -/
def drained (outlet : Outlet) : Outlet where
  taken := outlet.bytes
  waiting := []
  busy := false
  bytesDropped := outlet.bytesDropped

theorem completions_complete {outlet : Outlet} (busy : outlet.busy = true) :
    outlet.complete.completions + 1 = outlet.completions := by
  cases waiting : outlet.waiting with
  | nil => simp [completions, complete, busy, waiting]
  | cons byte rest => simp [completions, complete, busy, waiting]

theorem drained_complete (outlet : Outlet) : outlet.complete.drained = outlet.drained := by
  rw [drained, bytes_complete, bytesDropped_complete]
  rfl

theorem drained_of_idle {outlet : Outlet} (emptyWhenIdle : outlet.EmptyWhenIdle)
    (idle : outlet.busy = false) : outlet.drained = outlet := by
  obtain ⟨taken, waiting, busy, bytesDropped⟩ := outlet
  obtain rfl : busy = false := idle
  obtain rfl : waiting = [] := emptyWhenIdle rfl
  rw [drained, bytes, List.append_nil]

end Outlet

/-- The link once a number of completions has been reported. -/
def completed (link : Link sizes) (count : Nat) : Link sizes :=
  link.followAll (List.replicate count .complete)

theorem completeUpTo_of_idle {link : Link sizes} (idle : link.busy = false) (limit : Nat) :
    link.completeUpTo limit = (0, link) := by
  cases limit with
  | zero => rfl
  | succ limit => rw [completeUpTo, if_neg (by simp [idle])]

theorem completeUpTo_of_busy {link : Link sizes} (busy : link.busy = true) (limit : Nat) :
    link.completeUpTo (limit + 1) =
      (((link.follow .complete).completeUpTo limit).1 + 1,
        ((link.follow .complete).completeUpTo limit).2) := by
  rw [completeUpTo, if_pos busy]

/-- Completions are reported one after the other and only to a busy link. -/
theorem completeUpTo_reports (link : Link sizes) (limit : Nat) :
    (link.completeUpTo limit).2 = link.completed (link.completeUpTo limit).1 ∧
      ∀ count, count < (link.completeUpTo limit).1 → (link.completed count).busy = true := by
  induction limit generalizing link with
  | zero =>
      constructor
      · rfl
      · intro count below
        cases below
  | succ limit induction =>
      cases busy : link.busy with
      | false =>
          rw [completeUpTo_of_idle busy]
          constructor
          · rfl
          · intro count below
            cases below
      | true =>
          obtain ⟨reached, busyBefore⟩ := induction (link.follow .complete)
          rw [completeUpTo_of_busy busy]
          constructor
          · exact reached
          · intro count below
            cases count with
            | zero => exact busy
            | succ count => exact busyBefore count (Nat.lt_of_succ_lt_succ below)

/-- Reporting completions as long as the link is busy comes to an end, and
`drain` goes up to that end. -/
structure Drains (link : Link sizes) : Prop where
  idle : link.drain.2.busy = false
  reached : link.drain.2 = link.completed link.drain.1
  busyBefore : ∀ count, count < link.drain.1 → (link.completed count).busy = true

section

variable {link : Link sizes}

theorem drains_of_idle (idle : link.drain.2.busy = false) : link.Drains := by
  obtain ⟨reached, busyBefore⟩ := link.completeUpTo_reports
    (link.pendingOutbound + link.device.injectionsLeft + 1)
  exact ⟨idle, reached, busyBefore⟩

theorem Quiet.submit_onlySends (quiet : link.Quiet)
    (room : 0 < link.outlet.room sizes.outbox) (byte : UInt8) :
    link.OnlySends (link.follow (.submit byte)) := by
  cases busy : link.transmitter.busy with
  | false =>
      rw [follow_submit_of_idle quiet busy byte]
      exact ⟨rfl, rfl⟩
  | true =>
      have isBusy : link.outlet.busy = true := busy
      rw [Outlet.room, if_pos isBusy, length_waiting] at room
      obtain ⟨longer, _, followed⟩ := follow_submit_of_room busy (by omega) byte
      rw [followed]
      exact ⟨rfl, rfl⟩

theorem Quiet.complete_onlySends (quiet : link.Quiet) :
    link.OnlySends (link.follow .complete) := by
  rcases follow_complete quiet with ⟨_, followed⟩ | ⟨byte, shorter, _, followed⟩
  · rw [followed]
    exact ⟨rfl, rfl⟩
  · rw [followed]
    exact ⟨rfl, rfl⟩

theorem Quiet.sendRaw_onlySends (quiet : link.Quiet) {data : Bytes}
    (room : data.length ≤ link.outlet.room sizes.outbox) :
    link.OnlySends (link.sendRaw data) := by
  induction data generalizing link with
  | nil => exact .refl link
  | cons byte rest induction =>
      rw [List.length_cons] at room
      have positive : 0 < link.outlet.room sizes.outbox := by omega
      obtain ⟨quietNext, submitted⟩ := quiet.submit byte
      obtain ⟨_, oneLess, _⟩ :=
        Outlet.submit_of_room quiet.emptyWhenIdle positive byte
      have first := quiet.submit_onlySends positive byte
      have later := induction quietNext (by rw [submitted]; omega)
      exact first.trans later

theorem Quiet.completeUpTo (quiet : link.Quiet) {limit : Nat}
    (enough : link.outlet.completions ≤ limit) :
    (link.completeUpTo limit).1 = link.outlet.completions ∧
      (link.completeUpTo limit).2.Quiet ∧
      (link.completeUpTo limit).2.outlet = link.outlet.drained ∧
      link.OnlySends (link.completeUpTo limit).2 := by
  induction limit generalizing link with
  | zero =>
      have idle : link.outlet.busy = false := by
        cases busy : link.outlet.busy with
        | false => rfl
        | true => simp [Outlet.completions, busy] at enough
      have none : link.outlet.completions = 0 := by omega
      rw [Outlet.drained_of_idle quiet.emptyWhenIdle idle, none]
      exact ⟨rfl, quiet, rfl, .refl link⟩
  | succ limit induction =>
      cases busy : link.outlet.busy with
      | false =>
          rw [completeUpTo_of_idle busy, Outlet.completions, busy,
            Outlet.drained_of_idle quiet.emptyWhenIdle busy]
          exact ⟨rfl, quiet, rfl, .refl link⟩
      | true =>
          obtain ⟨quietNext, completed⟩ := quiet.complete
          have oneLess := Outlet.completions_complete busy
          obtain ⟨count, quietLater, reached, onlySends⟩ :=
            induction quietNext (by rw [completed]; omega)
          rw [completed] at count reached
          rw [completeUpTo_of_busy busy]
          refine ⟨?_, quietLater, ?_, ?_⟩
          · rw [count, oneLess]
          · rw [reached, Outlet.drained_complete]
          · exact quiet.complete_onlySends.trans onlySends

/-- Draining hands over everything that was accepted. -/
theorem Quiet.drain (quiet : link.Quiet) :
    link.drain.1 = link.outlet.completions ∧ link.drain.2.Quiet ∧
      link.drain.2.outlet = link.outlet.drained ∧ link.OnlySends link.drain.2 := by
  apply quiet.completeUpTo
  rw [Outlet.completions, length_waiting]
  split
  · omega
  · omega

theorem Quiet.drains (quiet : link.Quiet) : link.Drains := by
  obtain ⟨_, _, reached, _⟩ := quiet.drain
  exact drains_of_idle (congrArg Outlet.busy reached)

end

end Link

end FramedSerial
