import FramedSerial.Proofs.Endpoint.Receiving
import Mathlib.Algebra.GroupWithZero.Nat

/-!
# What an endpoint reports as dropped

Of the bytes that are pushed an endpoint takes in as many as its queue has room for
and drops the others.  What it reports is not counted on the spot but is how far the
counter of dropped bytes has moved, and the counter stops at its ceiling.  So a report
is exact as long as the counter stays below the ceiling, and says too little once it
would have gone beyond.

Nothing else moves the counter.  All the reports of an endpoint therefore add up to
what is counted, and to no more than the ceiling however many bytes are dropped.
-/

namespace FramedSerial

namespace Endpoint

/-- The number of received bytes that are counted as dropped. -/
def dropped (endpoint : Endpoint) : Nat :=
  endpoint.link.statistics.inboundBytesDropped.toNat

/-- How many bytes are taken in before one is dropped. -/
def room (endpoint : Endpoint) : Nat :=
  sizes.inbox - endpoint.link.pendingInbound

/-- The number of bytes that a reply reports as dropped. -/
def Reply.reported : Reply → Nat
  | .dropped count => count.toNat
  | _ => 0

/-- The number of bytes that the replies to a history report as dropped. -/
def reported (endpoint : Endpoint) (history : List Request) : Nat :=
  ((endpoint.answerAll history).1.map Reply.reported).sum

/-- Bytes that are pushed are taken in as long as there is room; the others move the
counter, and the reply says how far. -/
theorem answer_pushBytes (endpoint : Endpoint) (data : Bytes) :
    (endpoint.answer (.pushBytes data)).2.link.inbox.queue.toList =
        endpoint.link.inbox.queue.toList ++ data.take endpoint.room ∧
      (endpoint.answer (.pushBytes data)).2.dropped =
        min (endpoint.dropped + (data.length - endpoint.room)) Counter.ceiling ∧
      ∃ count, (endpoint.answer (.pushBytes data)).1 = .dropped count ∧
        endpoint.dropped + count.toNat =
          (endpoint.answer (.pushBytes data)).2.dropped := by
  obtain ⟨contents, counted⟩ := Link.Inbox.foldl_accept endpoint.link.inbox data
  have bounded : endpoint.dropped ≤ Counter.ceiling := Counter.toNat_le_ceiling _
  have later := endpoint.inbox_answer_pushBytes data
  have counts : (endpoint.answer (.pushBytes data)).2.dropped =
      min (endpoint.dropped + (data.length - endpoint.room)) Counter.ceiling :=
    (congrArg (fun inbox => inbox.bytesDropped.toNat) later).trans counted
  refine ⟨(congrArg (fun inbox => inbox.queue.toList) later).trans contents, counts, _,
    rfl, ?_⟩
  have grown : endpoint.dropped ≤ (endpoint.answer (.pushBytes data)).2.dropped := by
    rw [counts]
    exact Nat.le_min.mpr ⟨Nat.le_add_right _ _, bounded⟩
  calc
    _ = endpoint.dropped +
        ((endpoint.answer (.pushBytes data)).2.dropped - endpoint.dropped) :=
      congrArg (endpoint.dropped + ·) (Counter.toNat_since grown)
    _ = _ := Nat.add_sub_of_le grown

/-- No other request has to do with the counter. -/
theorem Effect.same_dropped {link later : Link sizes} {request : Request}
    {payloads : List Bytes} (effect : Effect link later request payloads)
    (notPushed : ∀ data, request ≠ .pushBytes data) :
    later.inbox.bytesDropped = link.inbox.bytesDropped := by
  cases effect with
  | kept _ sameInbox _ => exact congrArg Link.Inbox.bytesDropped sameInbox
  | arrived _ => exact absurd rfl (notPushed _)
  | read _ _ yields => exact yields.noneDropped
  | taken sameDropped _ => exact sameDropped

theorem reported_answer (endpoint : Endpoint) {request : Request}
    (notPushed : ∀ data, request ≠ .pushBytes data) :
    (endpoint.answer request).1.reported = 0 := by
  cases request with
  | encodeFrame payload =>
      rw [answer]
      cases endpoint.encodeFrame payload with
      | ok outcome => rfl
      | error fault => rfl
  | pushBytes data => exact absurd rfl (notPushed data)
  | encodeRaw | nextFrame | drainFrames | readRaw | statistics => rfl

/-- A reply reports by how much the counter has moved. -/
theorem dropped_concat (history : List Request) (request : Request) :
    (new.after (history ++ [request])).dropped =
      (new.after history).dropped + ((new.after history).answer request).1.reported := by
  by_cases pushed : ∃ data, request = .pushBytes data
  · obtain ⟨data, rfl⟩ := pushed
    obtain ⟨_, _, count, reply, moved⟩ := (new.after history).answer_pushBytes data
    rw [after_concat, reply]
    exact moved.symm
  · have notPushed : ∀ data, request ≠ .pushBytes data := fun data same =>
      pushed ⟨data, same⟩
    rw [reported_answer _ notPushed]
    exact congrArg Counter.toNat ((effect_after history request).same_dropped notPushed)

theorem reported_concat (endpoint : Endpoint) (history : List Request)
    (request : Request) :
    endpoint.reported (history ++ [request]) =
      endpoint.reported history +
        ((endpoint.after history).answer request).1.reported := by
  induction history generalizing endpoint with
  | nil => exact Nat.add_comm _ _
  | cons first history induction =>
      have later := induction (endpoint.answer first).2
      unfold reported at later ⊢
      rw [List.cons_append, answerAll_cons, answerAll_cons, List.map_cons, List.map_cons,
        List.sum_cons, List.sum_cons, later, Nat.add_assoc]
      rfl

/-- All that an endpoint has ever reported adds up to what it has counted. -/
theorem reported_eq_dropped (history : List Request) :
    new.reported history = (new.after history).dropped := by
  induction history using List.reverseRecOn with
  | nil => rfl
  | append_singleton history request induction =>
      rw [reported_concat, dropped_concat, induction]

/-- Whatever an endpoint has been asked before: of the bytes that are pushed it takes in
those for which there is room.  It reports the number of the others exactly if the
counter can hold them on top of those dropped before, and in any case the reports of its
whole history add up to the counter. -/
theorem pushBytes_reports_exactly_iff (history : List Request) (data : Bytes) :
    ((new.after history).answer (.pushBytes data)).2.link.inbox.queue.toList =
        (new.after history).link.inbox.queue.toList ++ data.take (new.after history).room ∧
      (∃ count, ((new.after history).answer (.pushBytes data)).1 = .dropped count ∧
        (count.toNat = data.length - (new.after history).room ↔
          (new.after history).dropped + (data.length - (new.after history).room) ≤
            Counter.ceiling)) ∧
      new.reported (history ++ [.pushBytes data]) =
        min ((new.after history).dropped + (data.length - (new.after history).room))
          Counter.ceiling := by
  obtain ⟨contents, counted, count, reply, moved⟩ :=
    (new.after history).answer_pushBytes data
  refine ⟨contents, ⟨count, reply, ?_⟩, ?_⟩
  · rw [counted] at moved
    constructor
    · intro same
      rw [same] at moved
      exact Nat.le_trans (Nat.le_of_eq moved) (Nat.min_le_right _ _)
    · intro fits
      rw [Nat.min_eq_left fits] at moved
      exact Nat.add_left_cancel moved
  · rw [reported_eq_dropped, after_concat]
    exact counted

theorem inbox_after_pushes (endpoint : Endpoint) (chunks : List Bytes) :
    (endpoint.after (chunks.map .pushBytes)).link.inbox =
      chunks.flatten.foldl Link.Inbox.accept endpoint.link.inbox := by
  induction chunks generalizing endpoint with
  | nil => rfl
  | cons chunk chunks induction =>
      rw [List.flatten_cons, List.foldl_append, ← inbox_answer_pushBytes]
      exact induction _

/-- As many chunks of 4096 zeros. -/
def zeroChunks (count : Nat) : List Bytes :=
  List.replicate count (List.replicate 4096 0)

/-- An endpoint from which nobody has read since it was made. -/
def neglected (count : Nat) : Endpoint :=
  new.after ((zeroChunks count).map .pushBytes)

theorem neglected_counts (count : Nat) :
    (neglected count).link.inbox.queue.toList.length = min sizes.inbox (count * 4096) ∧
      (neglected count).dropped = min (count * 4096 - sizes.inbox) Counter.ceiling := by
  have inbox := new.inbox_after_pushes (zeroChunks count)
  have length : (zeroChunks count).flatten.length = count * 4096 := by
    rw [zeroChunks, List.flatten_replicate_replicate, List.length_replicate]
  have noneWaits : new.link.inbox.queue.toList = [] := ByteQueue.toList_clear _
  have noneDropped : new.link.inbox.bytesDropped.toNat = 0 := rfl
  have nonePending : new.link.inbox.queue.length = 0 := ByteQueue.length_clear _
  obtain ⟨contents, counted⟩ :=
    Link.Inbox.foldl_accept new.link.inbox (zeroChunks count).flatten
  rw [← inbox, noneWaits, nonePending] at contents
  rw [← inbox, noneDropped, nonePending, length] at counted
  constructor
  · rw [neglected, contents, List.nil_append, List.length_take, length]
    rfl
  · refine counted.trans ?_
    rw [Nat.zero_add, Nat.sub_zero]

/-- With its queue full and its counter at the ceiling, an endpoint drops a byte and
reports none. -/
theorem neglected_reports_nothing :
    (neglected 1048577).link.pendingInbound = sizes.inbox ∧
      (neglected 1048577).dropped = Counter.ceiling ∧
      ((neglected 1048577).answer (.pushBytes [0])).1 = .dropped 0 ∧
      ((neglected 1048577).answer (.pushBytes [0])).2.link.inbox.queue.toList =
        (neglected 1048577).link.inbox.queue.toList := by
  obtain ⟨waiting, dropped⟩ := neglected_counts 1048577
  have full : (neglected 1048577).link.pendingInbound = sizes.inbox := by
    rw [← Link.length_toList_inbox, waiting]
    rfl
  have ceiling : (neglected 1048577).dropped = Counter.ceiling := by
    rw [dropped]
    rfl
  obtain ⟨contents, counted, count, reply, moved⟩ :=
    (neglected 1048577).answer_pushBytes [0]
  have noRoom : (neglected 1048577).room = 0 := by
    rw [room, full, Nat.sub_self]
  have none : count.toNat = (0 : UInt32).toNat := by
    rw [counted, ceiling, Nat.min_eq_right (Nat.le_add_right _ _)] at moved
    exact Nat.add_eq_left.mp moved
  refine ⟨full, ceiling, ?_, ?_⟩
  · rw [reply, UInt32.toNat_inj.mp none]
  · rw [contents, noRoom, List.take_zero, List.append_nil]

end Endpoint

end FramedSerial
