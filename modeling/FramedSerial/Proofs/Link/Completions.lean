import FramedSerial.Proofs.Link.Draining
import FramedSerial.Proofs.Link.Reachability

/-!
# What completions do

Each completion that is reported to a link with a passive device takes one byte out
of the queue and hands it to the device.  The burst goes on as long as a byte was
found, so the completion that ends it is the one behind the last byte; whatever is
reported after that leaves the link as it is.

A number of completions is therefore the same as taking that number of bytes out of
the queue at once, which says all that they do to the link.
-/

namespace FramedSerial

namespace Link

variable {sizes : Sizes}

namespace Device

/-- The device when it has taken bytes one after the other. -/
def takeAll (device : Device) (bytes : Bytes) : Device :=
  bytes.foldl take device

@[simp] theorem takeAll_nil (device : Device) : device.takeAll [] = device := rfl

@[simp] theorem takeAll_cons (device : Device) (byte : UInt8) (rest : Bytes) :
    device.takeAll (byte :: rest) = (device.take byte).takeAll rest := rfl

theorem takeAll_append (device : Device) (front back : Bytes) :
    device.takeAll (front ++ back) = (device.takeAll front).takeAll back :=
  List.foldl_append

@[simp] theorem record_takeAll (device : Device) (bytes : Bytes) :
    (device.takeAll bytes).record.toList = device.record.toList ++ bytes := by
  induction bytes generalizing device with
  | nil => exact (List.append_nil _).symm
  | cons byte rest induction =>
      rw [takeAll_cons, induction]
      simp [take]

end Device

section

variable {link : Link sizes}

theorem completed_succ (link : Link sizes) (count : Nat) :
    link.completed (count + 1) = (link.follow .complete).completed count := rfl

theorem completed_add (link : Link sizes) (first later : Nat) :
    link.completed (first + later) = (link.completed first).completed later := by
  rw [completed, List.replicate_add]
  exact List.foldl_append

/-- Completions do nothing but take bytes out of the queue for the device; the burst
goes on while there was one for each. -/
theorem Quiet.completed_eq (quiet : link.Quiet) (count : Nat) :
    link.completed count =
      { link with
        device := link.device.takeAll (link.transmitter.queue.popMany count).1
        transmitter := { link.transmitter with
          busy := link.busy && decide (count ≤ link.pendingOutbound)
          queue := (link.transmitter.queue.popMany count).2 } } := by
  induction count generalizing link with
  | zero =>
      rw [decide_eq_true (Nat.zero_le _), Bool.and_true]
      rfl
  | succ count induction =>
      have later := induction quiet.complete.1
      rw [completed_succ, ByteQueue.popMany]
      cases popped : link.transmitter.queue.pop? with
      | none =>
          have noneWaits : link.pendingOutbound = 0 :=
            (ByteQueue.pop?_eq_none_iff _).mp popped
          have noMore : link.transmitter.queue.popMany count =
              ([], link.transmitter.queue) := by
            cases count with
            | zero => rfl
            | succ count => rw [ByteQueue.popMany, popped]
          rw [later, follow_complete_of_empty quiet.resting popped]
          simp [busy, noneWaits, noMore]
      | some outcome =>
          obtain ⟨byte, shorter⟩ := outcome
          have oneLess : link.pendingOutbound = shorter.length + 1 :=
            ByteQueue.length_of_pop? popped
          have enough : decide (count + 1 ≤ link.pendingOutbound) =
              decide (count ≤ shorter.length) := by
            apply decide_eq_decide.mpr
            omega
          rw [later, follow_complete_of_pop quiet popped, enough]
          rfl

theorem Quiet.completed_idle (quiet : link.Quiet) (idle : link.busy = false) (count : Nat) :
    link.completed count = link := by
  induction count with
  | zero => rfl
  | succ count induction =>
      rw [completed_succ, quiet.resting.complete_of_idle idle]
      exact induction

/-- Behind the end of a burst completions do nothing, however many there are. -/
theorem Quiet.completed_of_drain_le (quiet : link.Quiet) {count : Nat}
    (enough : link.drain.1 ≤ count) : link.completed count = link.drain.2 := by
  obtain ⟨_, quietLater, _, _⟩ := quiet.drain
  obtain ⟨idle, reached, _⟩ := quiet.drains
  obtain ⟨further, rfl⟩ := Nat.exists_eq_add_of_le enough
  rw [completed_add, ← reached]
  exact quietLater.completed_idle idle further

end

/-- How completions empty the queue of a link. -/
structure CompletesInOrder (link : Link sizes) : Prop where
  /-- The device takes the first bytes of the queue, in order. -/
  taken : ∀ count, (link.completed count).device =
    link.device.takeAll (link.transmitter.queue.toList.take count)
  /-- Each completion makes it take one byte, as long as there is one. -/
  single : ∀ count, (link.completed (count + 1)).device =
    (link.completed count).device.takeAll link.transmitter.queue.toList[count]?.toList
  left : ∀ count, (link.completed count).transmitter.queue.toList =
    link.transmitter.queue.toList.drop count
  burst : link.busy = true → ∀ count,
    (link.completed count).busy = true ↔ count ≤ link.pendingOutbound
  idle : link.busy = false → ∀ count, link.completed count = link
  drains : link.Drains
  length : link.drain.1 = if link.busy then link.pendingOutbound + 1 else 0
  emptied : link.drain.2.device.record.toList =
    link.device.record.toList ++ link.transmitter.queue.toList
  /-- Completions that come too late leave no trace for anything that is sent later. -/
  surplus : ∀ count, link.drain.1 ≤ count → link.completed count = link.drain.2

/-- Whatever has become of a link with a passive device, completions make the device
take the bytes of the queue one by one, and one more ends the burst; draining the link
reports just these, and on an idle link completions do nothing at all. -/
theorem completes_in_order {settings : Settings} {link : Link sizes}
    (reachable : Reachable .passive settings link) : link.CompletesInOrder := by
  have quiet := reachable.quiet
  have taken : ∀ count, (link.completed count).device =
      link.device.takeAll (link.transmitter.queue.toList.take count) := by
    intro count
    rw [quiet.completed_eq, (ByteQueue.toList_popMany _ count).1]
  obtain ⟨drainLength, _, drained, _⟩ := quiet.drain
  constructor
  case taken => exact taken
  case single =>
    intro count
    rw [taken, taken, List.take_add_one, Device.takeAll_append]
  case left =>
    intro count
    rw [quiet.completed_eq]
    exact (ByteQueue.toList_popMany _ count).2
  case burst =>
    intro busy count
    rw [quiet.completed_eq]
    simp [Link.busy, show link.transmitter.busy = true from busy]
  case idle =>
    intro idle count
    exact quiet.completed_idle idle count
  case drains => exact quiet.drains
  case length =>
    rw [drainLength, Outlet.completions, length_waiting]
    rfl
  case emptied => exact congrArg Outlet.taken drained
  case surplus =>
    intro count enough
    exact quiet.completed_of_drain_le enough

/-- A link that has dropped a byte and gone on behind the last slot of its queue: one of
the first four bytes went to the device at once and the others with the completions, and
two bytes wait in the last slot and the first. -/
def wrappedLink : Link { inbox := 4, outbox := 3, frame := 8 } :=
  (((new .passive {}).sendRaw [1, 2, 3, 4, 5]).completed 3).sendRaw [6, 7]

theorem wrappedLink_reachable : Reachable .passive {} wrappedLink :=
  Reachable.new.operateAll [.sendRaw [1, 2, 3, 4, 5], .follow .complete, .follow .complete,
    .follow .complete, .sendRaw [6, 7]]

theorem outlet_wrappedLink :
    wrappedLink.outlet = ⟨[1, 2, 3, 4], [6, 7], true, Counter.zero.increment⟩ := by
  obtain ⟨quiet, outlet⟩ := (quiet_new {}).sendRaw [1, 2, 3, 4, 5]
  obtain ⟨quietOne, outletOne⟩ := quiet.complete
  obtain ⟨quietTwo, outletTwo⟩ := quietOne.complete
  obtain ⟨quietThree, outletThree⟩ := quietTwo.complete
  obtain ⟨_, outletLast⟩ := quietThree.sendRaw [6, 7]
  rw [outletThree, outletTwo, outletOne, outlet] at outletLast
  exact outletLast

theorem wrappedLink_completes_in_order :
    Reachable .passive {} wrappedLink ∧ wrappedLink.busy = true ∧
      (wrappedLink.completed 1).device.record.toList = [1, 2, 3, 4, 6] ∧
      (wrappedLink.completed 2).device.record.toList = [1, 2, 3, 4, 6, 7] ∧
      (wrappedLink.completed 2).busy = true ∧ (wrappedLink.completed 3).busy = false ∧
      wrappedLink.drain.1 = 3 ∧ wrappedLink.completed 8 = wrappedLink.drain.2 := by
  have inOrder := completes_in_order wrappedLink_reachable
  have record : wrappedLink.device.record.toList = [1, 2, 3, 4] :=
    congrArg Outlet.taken outlet_wrappedLink
  have waiting : wrappedLink.transmitter.queue.toList = [6, 7] :=
    congrArg Outlet.waiting outlet_wrappedLink
  have busy : wrappedLink.busy = true := congrArg Outlet.busy outlet_wrappedLink
  have pending : wrappedLink.pendingOutbound = 2 := by
    rw [← length_waiting, outlet_wrappedLink]
    rfl
  have drainLength : wrappedLink.drain.1 = 3 := by
    rw [inOrder.length, busy, pending]
    rfl
  refine ⟨wrappedLink_reachable, busy, ?_, ?_, ?_, ?_, drainLength, ?_⟩
  · rw [inOrder.taken, Device.record_takeAll, record, waiting]
    rfl
  · rw [inOrder.taken, Device.record_takeAll, record, waiting]
    rfl
  · exact (inOrder.burst busy 2).mpr pending.ge
  · have ended := (inOrder.burst busy 3).not
    rw [pending] at ended
    simpa using ended
  · exact inOrder.surplus 8 (by omega)

end Link

end FramedSerial
