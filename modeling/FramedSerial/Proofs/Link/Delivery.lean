import FramedSerial.Proofs.Link.Following
import FramedSerial.Proofs.Link.Outlet

/-!
# From one link to another

Two links with passive devices, and a line between them that is moved by hand:
the bytes that the sender's device has taken are given to the receiver some at a
time, the oldest first.  Payloads are sent, completions reported, bytes moved and
frames read in any order.

As long as no queue has been full, the bytes of a connection make up one stream,
the frames of the payloads one behind the other.  Its front has been read by the
receiver's deframer, then come the bytes in the receiver's queue, on the line and
in the sender's queue.  So the payloads come out in the order in which they were
sent, without an error, and all of them once nothing is left on the way.
-/

namespace FramedSerial

namespace Link

/-- Two links, and what has happened between them. -/
structure Connection (sending receiving : Sizes) where
  sender : Link sending
  receiver : Link receiving
  /-- The payloads that the sender was asked to send. -/
  sent : List Bytes := []
  /-- How many of the bytes that the sender's device has taken were moved. -/
  moved : Nat := 0
  /-- The payloads that the receiver has returned. -/
  delivered : List Bytes := []

inductive Action where
  | send (payload : Bytes)
  | complete
  | move (count : Nat)
  | receive (buffer : Bytes)
  | tryReceive (buffer : Bytes)
deriving DecidableEq, Repr

/-- Only payloads are sent that the receiver is made for, and only buffers are
used that have room for each of these. -/
def Action.Allowed (capacity : Nat) : Action → Prop
  | .send payload => Deframer.Fits capacity payload
  | .complete | .move _ => True
  | .receive buffer | .tryReceive buffer =>
      capacity - Frame.trailerLength ≤ buffer.length

instance (capacity : Nat) (action : Action) : Decidable (action.Allowed capacity) :=
  match action with
  | .send payload => inferInstanceAs (Decidable (Deframer.Fits capacity payload))
  | .complete | .move _ => inferInstanceAs (Decidable True)
  | .receive buffer | .tryReceive buffer =>
      inferInstanceAs (Decidable (capacity - Frame.trailerLength ≤ buffer.length))

namespace Connection

variable {sending receiving : Sizes}

def start (sending receiving : Sizes) (senderSettings receiverSettings : Settings) :
    Connection sending receiving where
  sender := new .passive senderSettings
  receiver := new .passive receiverSettings

/-- The oldest bytes on the line, as many as are asked for. -/
def oldest (connection : Connection sending receiving) (count : Nat) : Bytes :=
  (connection.sender.device.record.toList.drop connection.moved).take count

def act (connection : Connection sending receiving) :
    Action → Connection sending receiving
  | .send payload =>
      { connection with
        sender := connection.sender.send payload
        sent := connection.sent ++ [payload] }
  | .complete => { connection with sender := connection.sender.follow .complete }
  | .move count =>
      let bytes := connection.oldest count
      { connection with
        receiver := connection.receiver.followAll (bytes.map .arrive)
        moved := connection.moved + bytes.length }
  | .receive buffer =>
      let (length, filled, later) := connection.receiver.receive buffer
      { connection with
        receiver := later
        delivered := connection.delivered ++
          if length = 0 then [] else [filled.take length] }
  | .tryReceive buffer =>
      let (reading, filled, later) := connection.receiver.tryReceive buffer
      { connection with
        receiver := later
        delivered := connection.delivered ++ fetched filled reading }

def actAll (connection : Connection sending receiving) (actions : List Action) :
    Connection sending receiving :=
  actions.foldl act connection

theorem actAll_concat (connection : Connection sending receiving) (actions : List Action)
    (action : Action) :
    connection.actAll (actions ++ [action]) = (connection.actAll actions).act action :=
  List.foldl_concat ..

def stream (connection : Connection sending receiving) : Bytes :=
  connection.sent.flatMap Frame.encode

/-- No byte was dropped on either side. -/
def Undropped (connection : Connection sending receiving) : Prop :=
  connection.sender.transmitter.bytesDropped.toNat = 0 ∧
    connection.receiver.inbox.bytesDropped.toNat = 0

/-- Where every byte of the stream is. -/
structure Lossless (connection : Connection sending receiving) : Prop where
  outgoing : connection.sender.outlet.bytes = connection.stream
  moved : connection.moved ≤ connection.sender.outlet.taken.length
  fitting : ∀ payload ∈ connection.sent, Deframer.Fits receiving.frame payload
  follows : connection.receiver.Follows (connection.stream.take connection.moved)
    connection.delivered

structure Sound (connection : Connection sending receiving) : Prop where
  quiet : connection.sender.Quiet
  released : connection.receiver.receiver.claimed = false
  lossless : connection.Undropped → connection.Lossless

theorem Lossless.frames {connection : Connection sending receiving}
    (lossless : connection.Lossless) :
    ∃ frames, frames <+: connection.sent ∧
      (Deframer.new : Deframer receiving.frame).events
        (connection.stream.take connection.moved) = frames.map .frame := by
  have front := (Deframer.new : Deframer receiving.frame).events_of_front
    (connection.stream.take_prefix connection.moved)
  rw [stream, Deframer.events_of_fitting lossless.fitting] at front
  exact List.prefix_map_iff.mp front

theorem Lossless.moved_le {connection : Connection sending receiving}
    (lossless : connection.Lossless) : connection.moved ≤ connection.stream.length := by
  rw [← lossless.outgoing, Outlet.bytes, List.length_append]
  exact Nat.le_add_right_of_le lossless.moved

theorem Lossless.room {connection : Connection sending receiving}
    (lossless : connection.Lossless) {buffer : Bytes}
    (enough : receiving.frame - Frame.trailerLength ≤ buffer.length) :
    ∀ payload ∈ connection.sent, payload.length ≤ buffer.length := by
  intro payload member
  exact (lossless.fitting payload member).2.trans enough

theorem Sound.send {connection : Connection sending receiving} (sound : connection.Sound)
    {payload : Bytes} (fits : Deframer.Fits receiving.frame payload) :
    (connection.act (.send payload)).Sound := by
  obtain ⟨quiet, submitted⟩ := sound.quiet.send payload
  refine ⟨quiet, sound.released, ?_⟩
  intro undropped
  obtain ⟨undroppedSender, undroppedReceiver⟩ := undropped
  have noneDropped :
      (connection.sender.send payload).outlet.bytesDropped.toNat = 0 := undroppedSender
  rw [submitted] at noneDropped
  obtain ⟨undroppedBefore, accepted⟩ :=
    Outlet.submitAll_of_undropped sound.quiet.emptyWhenIdle noneDropped
  have lossless := sound.lossless ⟨undroppedBefore, undroppedReceiver⟩
  have longer : (connection.act (.send payload)).stream =
      connection.stream ++ Frame.encode payload := by
    simp [stream, Connection.act]
  constructor
  · rw [longer, ← lossless.outgoing, ← accepted, ← submitted]
    rfl
  · have grows := Outlet.taken_prefix_submitAll sending.outbox connection.sender.outlet
      (Frame.encode payload)
    rw [← submitted] at grows
    exact lossless.moved.trans grows.length_le
  · intro other member
    rcases List.mem_append.mp member with before | last
    · exact lossless.fitting other before
    · rw [List.mem_singleton.mp last]
      exact fits
  · -- The stream gets longer behind what has arrived of it.
    have same : (connection.act (.send payload)).stream.take connection.moved =
        connection.stream.take connection.moved := by
      rw [longer, List.take_append_of_le_length lossless.moved_le]
    exact same ▸ lossless.follows

theorem Sound.complete {connection : Connection sending receiving}
    (sound : connection.Sound) : (connection.act .complete).Sound := by
  obtain ⟨quiet, completed⟩ := sound.quiet.complete
  refine ⟨quiet, sound.released, ?_⟩
  intro undropped
  obtain ⟨undroppedSender, undroppedReceiver⟩ := undropped
  have noneDropped : (connection.sender.follow .complete).outlet.bytesDropped.toNat = 0 :=
    undroppedSender
  rw [completed, Outlet.bytesDropped_complete] at noneDropped
  have lossless := sound.lossless ⟨noneDropped, undroppedReceiver⟩
  constructor
  · have same := connection.sender.outlet.bytes_complete
    rw [← completed] at same
    exact same.trans lossless.outgoing
  · have grows := connection.sender.outlet.taken_prefix_complete
    rw [← completed] at grows
    exact lossless.moved.trans grows.length_le
  · exact lossless.fitting
  · exact lossless.follows

theorem Sound.move {connection : Connection sending receiving} (sound : connection.Sound)
    (count : Nat) : (connection.act (.move count)).Sound := by
  have followed := connection.receiver.followAll_arrive (connection.oldest count)
  refine ⟨sound.quiet, ?_, ?_⟩
  · exact (congrArg (fun link => link.receiver.claimed) followed).trans sound.released
  · intro undropped
    obtain ⟨undroppedSender, undroppedReceiver⟩ := undropped
    have noneDropped := undroppedReceiver
    rw [Connection.act] at noneDropped
    dsimp only at noneDropped
    rw [followed] at noneDropped
    obtain ⟨undroppedBefore, _⟩ := Inbox.foldl_accept_of_undropped noneDropped
    have lossless := sound.lossless ⟨undroppedSender, undroppedBefore⟩
    have moved := lossless.moved
    constructor
    · exact lossless.outgoing
    · have length : (connection.oldest count).length =
          min count (connection.sender.outlet.taken.length - connection.moved) := by
        rw [oldest, List.length_take, List.length_drop]
        rfl
      have further : connection.moved + (connection.oldest count).length ≤
          connection.sender.outlet.taken.length := by
        omega
      exact further
    · exact lossless.fitting
    · -- What is moved is the next piece of the stream: the bytes in the sender's
      -- queue only come behind it.
      have onLine : connection.oldest count <+:
          connection.stream.drop connection.moved := by
        rw [← lossless.outgoing, Outlet.bytes, List.drop_append_of_le_length moved]
        exact (List.take_prefix _ _).trans (List.prefix_append _ _)
      have further : connection.stream.take
          (connection.moved + (connection.oldest count).length) =
            connection.stream.take connection.moved ++ connection.oldest count := by
        rw [List.take_add, ← List.prefix_iff_eq_take.mp onLine]
      have follows := lossless.follows.arrive undroppedReceiver
      rw [← further] at follows
      exact follows

/-- A read leaves a connection sound if it goes on with the stream. -/
theorem Sound.read {connection : Connection sending receiving} (sound : connection.Sound)
    {later : Link receiving} {consumed left : Bytes} {more : List Bytes}
    (hasRead : connection.receiver.HasRead later consumed left)
    (goesOn : connection.Lossless → later.Follows
      (connection.stream.take connection.moved) (connection.delivered ++ more)) :
    Sound { connection with
      receiver := later
      delivered := connection.delivered ++ more } := by
  refine ⟨sound.quiet, hasRead.released, ?_⟩
  intro undropped
  obtain ⟨undroppedSender, undroppedReceiver⟩ := undropped
  have noneDropped : connection.receiver.inbox.bytesDropped.toNat = 0 := by
    rw [← hasRead.noneDropped]
    exact undroppedReceiver
  have lossless := sound.lossless ⟨undroppedSender, noneDropped⟩
  exact ⟨lossless.outgoing, lossless.moved, lossless.fitting, goesOn lossless⟩

theorem Lossless.fetches {connection : Connection sending receiving}
    (lossless : connection.Lossless)
    (released : connection.receiver.receiver.claimed = false) {buffer : Bytes}
    (enough : receiving.frame - Frame.trailerLength ≤ buffer.length) :
    ∃ frames, Fetches (connection.stream.take connection.moved) connection.delivered
      frames buffer (connection.receiver.tryReceive buffer) := by
  obtain ⟨frames, first, brings⟩ := lossless.frames
  refine ⟨frames, lossless.follows.fetches released brings ?_⟩
  intro payload member
  exact lossless.room enough payload (first.subset member)

theorem Sound.tryReceive {connection : Connection sending receiving}
    (sound : connection.Sound) {buffer : Bytes}
    (enough : receiving.frame - Frame.trailerLength ≤ buffer.length) :
    (connection.act (.tryReceive buffer)).Sound := by
  obtain ⟨_, _, _, _, hasRead, _⟩ := tryReceive_reads sound.released buffer
  apply sound.read hasRead
  intro lossless
  obtain ⟨frames, fetches⟩ := lossless.fetches sound.released enough
  exact fetches.tryReceive.1

theorem Sound.receive {connection : Connection sending receiving}
    (sound : connection.Sound) {buffer : Bytes}
    (enough : receiving.frame - Frame.trailerLength ≤ buffer.length) :
    (connection.act (.receive buffer)).Sound := by
  obtain ⟨_, _, _, _, _, _, hasRead, _⟩ := receive_reads sound.released buffer
  apply sound.read hasRead
  intro lossless
  obtain ⟨frames, fetches⟩ := lossless.fetches sound.released enough
  exact fetches.receive.1

theorem Sound.act {connection : Connection sending receiving} (sound : connection.Sound)
    {action : Action} (allowed : action.Allowed receiving.frame) :
    (connection.act action).Sound := by
  cases action with
  | send payload => exact sound.send allowed
  | complete => exact sound.complete
  | move count => exact sound.move count
  | receive buffer => exact sound.receive allowed
  | tryReceive buffer => exact sound.tryReceive allowed

theorem sound_start (senderSettings receiverSettings : Settings) :
    (start sending receiving senderSettings receiverSettings).Sound := by
  refine ⟨quiet_new senderSettings, rfl, ?_⟩
  intro undropped
  constructor
  · exact (keeps_new .passive senderSettings).2
  · exact Nat.zero_le _
  · intro payload member
    cases member
  · exact ⟨⟨[], ByteQueue.toList_empty, rfl, rfl⟩, rfl, rfl, rfl⟩

theorem Sound.actAll {connection : Connection sending receiving}
    (sound : connection.Sound) {actions : List Action}
    (allowed : ∀ action ∈ actions, action.Allowed receiving.frame) :
    (connection.actAll actions).Sound := by
  induction actions generalizing connection with
  | nil => exact sound
  | cons action actions induction =>
      obtain ⟨allowedFirst, allowedLater⟩ := List.forall_mem_cons.mp allowed
      exact induction (sound.act allowedFirst) allowedLater

def outletAct (capacity : Nat) (outlet : Outlet) : Action → Outlet
  | .send payload => outlet.submitAll capacity (Frame.encode payload)
  | .complete => outlet.complete
  | .move _ | .receive _ | .tryReceive _ => outlet

/-- The sender does not depend on what is moved and read. -/
theorem outlet_actAll {connection : Connection sending receiving}
    (quiet : connection.sender.Quiet) (actions : List Action) :
    (connection.actAll actions).sender.outlet =
      actions.foldl (outletAct sending.outbox) connection.sender.outlet := by
  induction actions generalizing connection with
  | nil => rfl
  | cons action actions induction =>
      rw [List.foldl_cons]
      cases action with
      | send payload =>
          obtain ⟨quietNext, submitted⟩ := quiet.send payload
          rw [outletAct, ← submitted]
          exact induction quietNext
      | complete =>
          obtain ⟨quietNext, completed⟩ := quiet.complete
          rw [outletAct, ← completed]
          exact induction quietNext
      | move count => exact induction quiet
      | receive buffer => exact induction quiet
      | tryReceive buffer => exact induction quiet

/-- What can be told of a connection that has dropped no byte. -/
structure Delivers (connection : Connection sending receiving) : Prop where
  inOrder : connection.delivered <+: connection.sent
  badChecksums : connection.receiver.statistics.badChecksums = .zero
  framesTooLong : connection.receiver.statistics.framesTooLong = .zero
  framesWithoutRoom : connection.receiver.statistics.framesWithoutRoom = .zero
  /-- If nothing is left to send or to move, then a read that finds nothing tells
  that all has been delivered, and only then it finds nothing. -/
  complete : connection.sender.busy = false →
    connection.moved = connection.sender.device.record.size →
    ∀ buffer, receiving.frame - Frame.trailerLength ≤ buffer.length →
      ((connection.receiver.receive buffer).1 = 0 ↔
        connection.delivered = connection.sent) ∧
      ((connection.receiver.tryReceive buffer).1 = .nothing ↔
        connection.delivered = connection.sent)

/-- Whatever the sizes and settings of two new links, and however sending,
completions, moving and reading follow each other: if in the end no byte was
dropped, then the payloads have come out in order and without error, and all of
them if nothing is left on the way. -/
theorem delivers_in_order (senderSettings receiverSettings : Settings)
    (actions : List Action)
    (allowed : ∀ action ∈ actions, action.Allowed receiving.frame) :
    let connection : Connection sending receiving :=
      (start sending receiving senderSettings receiverSettings).actAll actions
    connection.sender.statistics.outboundBytesDropped = .zero →
      connection.receiver.statistics.inboundBytesDropped = .zero →
      connection.Delivers := by
  intro connection senderUndropped receiverUndropped
  have sound : connection.Sound :=
    (sound_start senderSettings receiverSettings).actAll allowed
  have lossless : connection.Lossless := by
    apply sound.lossless
    constructor
    · exact congrArg Counter.toNat senderUndropped
    · exact congrArg Counter.toNat receiverUndropped
  constructor
  case inOrder =>
    obtain ⟨frames, first, brings⟩ := lossless.frames
    exact (lossless.follows.delivered_first brings).trans first
  case badChecksums => exact lossless.follows.badChecksums
  case framesTooLong => exact lossless.follows.framesTooLong
  case framesWithoutRoom => exact lossless.follows.framesWithoutRoom
  case complete =>
    intro idle allMoved buffer enough
    have noneWaits : connection.sender.outlet.waiting = [] :=
      sound.quiet.emptyWhenIdle idle
    have isStream := lossless.outgoing
    rw [Outlet.bytes, noneWaits, List.append_nil] at isStream
    have allArrived : connection.stream.take connection.moved = connection.stream := by
      rw [allMoved, ← isStream]
      exact List.take_length
    have brings := Deframer.events_of_fitting lossless.fitting
    rw [← stream, ← allArrived] at brings
    have fetches := lossless.follows.fetches sound.released brings (lossless.room enough)
    exact ⟨fetches.receive.2, fetches.tryReceive.2⟩

def arrivals : List Action :=
  [.complete, .send [0x01], .complete, .complete, .complete, .complete, .complete, .move 9]

def arrived : Connection { inbox := 1, outbox := 4 } { inbox := 5, frame := 3 } :=
  (start _ _ {} {}).actAll arrivals

theorem outlet_arrived :
    arrived.sender.outlet = ⟨[0x7E, 0x01, 0xF1, 0xE1, 0x7E], [], false, .zero⟩ := by
  rw [arrived, outlet_actAll (quiet_new {})]
  decide +kernel

theorem inbox_arrived : arrived.receiver.inbox.bytesDropped = .zero := by
  have moved : arrived.receiver = (new .passive {} : Link _).followAll
      ((arrived.sender.outlet.taken.take 9).map .arrive) := rfl
  rw [moved, outlet_arrived, followAll_arrive]
  decide +kernel

/-- The frame comes out at the next read, which is the end of it. -/
theorem arrived_delivers :
    arrived.sent = [[0x01]] ∧ (arrived.act (.receive [0])).delivered = [[0x01]] := by
  have idle : arrived.sender.busy = false := congrArg Outlet.busy outlet_arrived
  have undropped : arrived.sender.statistics.outboundBytesDropped = .zero :=
    congrArg Outlet.bytesDropped outlet_arrived
  have allMoved : arrived.moved = arrived.sender.device.record.size := by
    have moved : arrived.moved = 0 + (arrived.sender.outlet.taken.take 9).length := rfl
    have size : arrived.sender.device.record.size = arrived.sender.outlet.taken.length := rfl
    rw [moved, size, outlet_arrived]
    rfl
  have before : arrived.Delivers :=
    delivers_in_order {} {} arrivals (by decide) undropped inbox_arrived
  have notNothing : (arrived.receiver.receive [0]).1 ≠ 0 := by
    intro nothing
    cases (before.complete idle allMoved [0] (by decide)).1.mp nothing
  have released : arrived.receiver.receiver.claimed = false := by
    have sound : arrived.Sound := (sound_start {} {}).actAll (by decide)
    exact sound.released
  obtain ⟨_, _, _, _, _, _, hasRead, _⟩ := receive_reads released [0]
  have senderUndropped : (arrived.act (.receive [0])).sender.statistics.outboundBytesDropped =
      .zero := undropped
  have stillUndropped : (arrived.act (.receive [0])).receiver.inbox.bytesDropped = .zero :=
    hasRead.noneDropped.trans inbox_arrived
  have afterwards : (arrived.act (.receive [0])).Delivers := by
    have run := actAll_concat (start { inbox := 1, outbox := 4 } { inbox := 5, frame := 3 }
      {} {}) arrivals (.receive [0])
    rw [← arrived] at run
    have allowed : ∀ action ∈ arrivals ++ [.receive [0]], action.Allowed 3 := by decide
    rw [← run] at senderUndropped stillUndropped ⊢
    exact delivers_in_order {} {} _ allowed senderUndropped stillUndropped
  have one : (arrived.act (.receive [0])).delivered.length = 1 := by
    simp only [act, if_neg notNothing]
    rfl
  exact ⟨rfl, afterwards.inOrder.eq_of_length one⟩

end Connection

end Link

end FramedSerial
