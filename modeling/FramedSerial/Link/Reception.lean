import FramedSerial.Link.Basic
import FramedSerial.Link.Loss

/-!
# Receiving

Frames are read out of the received bytes when a task asks for one.  A read goes
on to the first frame that is complete or lost, and leaves the bytes behind it
for the next read.  It writes into the caller's buffer only what it hands over:
of a frame without room nothing is written.

A read may be watched: each time it makes an entry in the journal, a function of
the caller, the watcher, runs on the link as it is then, with the receiver still
claimed.
-/

namespace FramedSerial

namespace Link

variable {sizes : Sizes}

/-- What one read comes to. -/
inductive Reading where
  /-- No frame is complete, or another read is going on. -/
  | nothing
  /-- A frame with a payload of this length is in the buffer. -/
  | frame (length : Nat)
  | lost (loss : Loss)
deriving DecidableEq, Repr

/-- A read that has come to its end: its result, the caller's buffer, and what
the watcher returned, entry by entry. -/
structure Read (α : Type) where
  reading : Reading
  buffer : Bytes
  observed : List α
deriving DecidableEq, Repr

/-- Takes the receiver for a read. -/
def claim (link : Link sizes) : Link sizes :=
  { link with receiver := { link.receiver with claimed := true } }

/-- Gives the receiver back. -/
def release (link : Link sizes) : Link sizes :=
  { link with receiver := { link.receiver with claimed := false } }

/-- Moves received bytes into the deframer, up to the first event. -/
def advance (link : Link sizes) : Option Deframer.Event × Link sizes :=
  let (event, queue, deframer) := nextEvent link.inbox.queue link.receiver.deframer
  (event, { link with
    inbox := { link.inbox with queue := queue }
    receiver := { link.receiver with deframer := deframer } })

/-- Makes an entry in the journal and runs the watcher. -/
def noteWatched {α : Type} (watch : Link sizes → α × Link sizes) (link : Link sizes)
    (entry : Entry) : α × Link sizes :=
  watch (link.note entry)

/-- Counts and notes what has come to an end, and hands a frame over if there is
room for it. -/
def settle {α : Type} (watch : Link sizes → α × Link sizes) (link : Link sizes)
    (buffer : Bytes) : Deframer.Event → Read α × Link sizes
  | .frame payload =>
      if payload.length ≤ buffer.length then
        let counted := { link with receiver := link.receiver.countFrame }
        let (seen, later) := counted.noteWatched watch (.frameReceived payload.length)
        (⟨.frame payload.length, buffer.overwrite payload, [seen]⟩, later)
      else
        let counted := { link with receiver := link.receiver.countNoRoom }
        let (seen, later) := counted.noteWatched watch
          (.frameWithoutRoom payload.length buffer.length)
        (⟨.lost (.noRoom payload.length buffer.length), buffer, [seen]⟩, later)
  | .dropped fault =>
      let counted := { link with receiver := link.receiver.countFault fault }
      let (seen, later) := counted.noteWatched watch (.frameFaulty fault)
      (⟨.lost (.faulty fault), buffer, [seen]⟩, later)

/-- Reads one frame into the buffer, watched. -/
def watchedRead {α : Type} (watch : Link sizes → α × Link sizes) (link : Link sizes)
    (buffer : Bytes) : Read α × Link sizes :=
  if link.receiver.claimed then (⟨.nothing, buffer, []⟩, link)
  else
    match link.claim.advance with
    | (none, later) => (⟨.nothing, buffer, []⟩, later.release)
    | (some event, later) =>
        let (read, settled) := later.settle watch buffer event
        (read, settled.release)

/-- A watcher that does nothing. -/
def unwatched (link : Link sizes) : Unit × Link sizes :=
  ((), link)

/-- Reads one frame into the buffer: the reading, the buffer and the link. -/
def tryReceive (link : Link sizes) (buffer : Bytes) : Reading × Bytes × Link sizes :=
  let (read, later) := link.watchedRead unwatched buffer
  (read.reading, read.buffer, later)

/-- Reads one frame while each journal entry sets off another read of the same
link, into a buffer of its own. -/
def nestedReceive (link : Link sizes) (buffer innerBuffer : Bytes) :
    Read (Read Unit) × Link sizes :=
  link.watchedRead (fun inner => inner.watchedRead unwatched innerBuffer) buffer

theorem pendingInbound_of_advance {link later : Link sizes} {event : Deframer.Event}
    (found : link.advance = (some event, later)) :
    later.pendingInbound < link.pendingInbound := by
  unfold advance at found
  rcases outcome : nextEvent link.inbox.queue link.receiver.deframer with
    ⟨event', queue, deframer⟩
  rw [outcome] at found
  simp only [Prod.mk.injEq] at found
  obtain ⟨same, rfl⟩ := found
  subst same
  exact length_of_nextEvent outcome

theorem inbox_settle (link : Link sizes) (buffer : Bytes) (event : Deframer.Event) :
    (link.settle unwatched buffer event).2.inbox = link.inbox := by
  unfold settle
  split
  · split <;> rfl
  · rfl

/-- A read that comes to something uses up at least one received byte. -/
theorem pendingInbound_of_tryReceive {link later : Link sizes} {buffer filled : Bytes}
    {reading : Reading} (read : link.tryReceive buffer = (reading, filled, later))
    (found : reading ≠ .nothing) : later.pendingInbound < link.pendingInbound := by
  unfold tryReceive watchedRead at read
  cases claimed : link.receiver.claimed with
  | true => simp_all
  | false =>
      rcases outcome : link.claim.advance with ⟨none | event, between⟩
      · simp_all
      · have shorter := pendingInbound_of_advance outcome
        have same := between.inbox_settle buffer event
        simp only [claimed, Bool.false_eq_true, if_false, outcome, Prod.mk.injEq] at read
        rw [← read.2.2]
        simp only [pendingInbound, release, claim] at shorter ⊢
        rw [same]
        exact shorter

/-- Reads one frame into the buffer and goes on past faulty ones.  Returns the
length of the payload, or zero if there is none or the buffer had no room. -/
def receive (link : Link sizes) (buffer : Bytes) : Nat × Bytes × Link sizes :=
  match _read : link.tryReceive buffer with
  | (.frame length, filled, later) => (length, filled, later)
  | (.nothing, filled, later) => (0, filled, later)
  | (.lost (.noRoom _ _), filled, later) => (0, filled, later)
  | (.lost (.faulty _), filled, later) => later.receive filled
termination_by link.pendingInbound
decreasing_by exact pendingInbound_of_tryReceive _read Reading.noConfusion

section

variable {link later : Link sizes} {buffer filled : Bytes}

theorem receive_of_frame {length : Nat}
    (read : link.tryReceive buffer = (.frame length, filled, later)) :
    link.receive buffer = (length, filled, later) := by
  rw [receive]
  split <;> simp_all

theorem receive_of_nothing
    (read : link.tryReceive buffer = (.nothing, filled, later)) :
    link.receive buffer = (0, filled, later) := by
  rw [receive]
  split <;> simp_all

theorem receive_of_noRoom {length capacity : Nat}
    (read : link.tryReceive buffer = (.lost (.noRoom length capacity), filled, later)) :
    link.receive buffer = (0, filled, later) := by
  rw [receive]
  split <;> simp_all

theorem receive_of_faulty {fault : Frame.Fault}
    (read : link.tryReceive buffer = (.lost (.faulty fault), filled, later)) :
    link.receive buffer = later.receive filled := by
  rw [receive]
  split <;> simp_all

/-- A frame that is received uses up at least one received byte. -/
theorem pendingInbound_of_receive {length : Nat}
    (received : link.receive buffer = (length, filled, later)) (found : length ≠ 0) :
    later.pendingInbound < link.pendingInbound := by
  induction link, buffer using receive.induct with
  | case1 link buffer length' filled' between read =>
      rw [receive_of_frame read] at received
      cases received
      exact pendingInbound_of_tryReceive read Reading.noConfusion
  | case2 link buffer filled' between read =>
      rw [receive_of_nothing read] at received
      cases received
      exact absurd rfl found
  | case3 link buffer length' capacity filled' between read =>
      rw [receive_of_noRoom read] at received
      cases received
      exact absurd rfl found
  | case4 link buffer fault filled' between read induction =>
      rw [receive_of_faulty read] at received
      have first := pendingInbound_of_tryReceive read Reading.noConfusion
      exact Nat.lt_trans (induction received) first

end

/-- Reads frames with payloads of up to `capacity` bytes, until there is none or
one has no room. -/
def receiveAll (link : Link sizes) (capacity : Nat) : List Bytes × Link sizes :=
  match _received : link.receive (List.replicate capacity 0) with
  | (0, _, later) => ([], later)
  | (length + 1, filled, later) =>
      let (frames, last) := later.receiveAll capacity
      (filled.take (length + 1) :: frames, last)
termination_by link.pendingInbound
decreasing_by exact pendingInbound_of_receive _received (Nat.succ_ne_zero length)

/-- Reads received bytes as they are, without framing.  Returns how many were
read into the buffer. -/
def receiveRaw (link : Link sizes) (buffer : Bytes) : Nat × Bytes × Link sizes :=
  let (count, buffer, queue) := link.inbox.queue.popInto buffer
  (count, buffer, { link with inbox := { link.inbox with queue := queue } })

end Link

end FramedSerial
