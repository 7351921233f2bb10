import FramedSerial.Proofs.Endpoint.Requests
import FramedSerial.Proofs.Frame.Stuffing
import FramedSerial.Proofs.Link.Draining

/-!
# What an endpoint sends

Between two requests the sending half of an endpoint is at rest: no burst is
under way, nothing waits, nothing is left in the record and no byte was ever
dropped.  From there the outbound queue has room for the longest frame and for
each piece of raw data, so that what is sent comes back whole.

Two endpoints at rest that differ in nothing but their sending halves are twins.
Every request gets the same reply from twins and leaves twins behind, and hence
nothing that is asked later tells whether something was sent, except for the
count of frames.
-/

namespace FramedSerial

namespace Endpoint

/-- A link on which everything has been sent and collected, and nothing lost. -/
structure Settled (link : Link sizes) : Prop where
  quiet : link.Quiet
  outlet : link.outlet = ⟨[], [], false, .zero⟩

/-- An endpoint that has counted one more frame as sent. -/
def countFrame (endpoint : Endpoint) : Endpoint :=
  ⟨{ endpoint.link with transmitter := endpoint.link.transmitter.countFrame }⟩

/-- Two endpoints at rest that differ in their sending halves alone. -/
structure Twins (first second : Endpoint) : Prop where
  settledFirst : Settled first.link
  settledSecond : Settled second.link
  onlySends : first.link.OnlySends second.link

theorem settled_new : Settled new.link where
  quiet := ⟨rfl, rfl, rfl, fun _ => ByteQueue.toList_empty⟩
  outlet := by
    have nothingWaits : new.link.transmitter.queue.toList = [] := ByteQueue.toList_empty
    rw [Link.outlet, nothingWaits]
    rfl

/-- Whether a link is settled is a matter of its sending half. -/
theorem Settled.withSender {sender : Link sizes} (settled : Settled sender)
    (link : Link sizes) : Settled (link.withSender sender) := by
  obtain ⟨⟨passive, notWriting, notNoted, emptyWhenIdle⟩, outlet⟩ := settled
  exact ⟨⟨passive, notWriting, notNoted, emptyWhenIdle⟩, outlet⟩

theorem Settled.countFrame {endpoint : Endpoint} (settled : Settled endpoint.link) :
    Settled endpoint.countFrame.link := by
  obtain ⟨⟨passive, notWriting, notNoted, emptyWhenIdle⟩, outlet⟩ := settled
  exact ⟨⟨passive, notWriting, notNoted, emptyWhenIdle⟩, outlet⟩

theorem Settled.twin {endpoint : Endpoint} (settled : Settled endpoint.link) :
    endpoint.Twins endpoint :=
  ⟨settled, settled, .refl _⟩

section

variable {first second third : Endpoint}

theorem Twins.symm (twins : first.Twins second) : second.Twins first :=
  ⟨twins.settledSecond, twins.settledFirst, twins.onlySends.symm⟩

theorem Twins.trans (left : first.Twins second) (right : second.Twins third) :
    first.Twins third :=
  ⟨left.settledFirst, right.settledSecond, left.onlySends.trans right.onlySends⟩

theorem Twins.countFrame (twins : first.Twins second) :
    first.countFrame.Twins second.countFrame := by
  refine ⟨twins.settledFirst.countFrame, twins.settledSecond.countFrame, ?_, ?_⟩
  · have sender := twins.onlySends.sender
    rw [Endpoint.countFrame, Endpoint.countFrame, sender]
    rfl
  · exact congrArg Counter.increment twins.onlySends.framesSent

theorem Twins.statistics (twins : first.Twins second) :
    second.link.statistics = first.link.statistics := by
  have noneDropped : second.link.transmitter.bytesDropped =
      first.link.transmitter.bytesDropped := by
    have ofFirst := congrArg Link.Outlet.bytesDropped twins.settledFirst.outlet
    have ofSecond := congrArg Link.Outlet.bytesDropped twins.settledSecond.outlet
    exact ofSecond.trans ofFirst.symm
  have framesSent := twins.onlySends.framesSent
  rw [twins.onlySends.sender] at noneDropped framesSent ⊢
  simp only [Link.statistics, noneDropped, framesSent]
  rfl

theorem Twins.members (twins : first.Twins second) : second.members = first.members := by
  have pending : second.link.pendingInbound = first.link.pendingInbound := by
    rw [twins.onlySends.sender]
    rfl
  rw [Endpoint.members, Endpoint.members, twins.statistics, pending]

/-- A request that does not look at the sending half does not tell twins apart. -/
theorem Twins.receive (twins : first.Twins second) {request : Request}
    (receivesOnly : request.ReceivesOnly) :
    (second.answer request).1 = (first.answer request).1 ∧
      (first.answer request).2.Twins (second.answer request).2 := by
  have asked := receivesOnly first second.link
  have kept := congrArg Prod.snd (receivesOnly first first.link)
  have same : first.withSender second.link = second :=
    congrArg Endpoint.mk twins.onlySends.sender.symm
  have keeps : (first.answer request).2 =
      (first.answer request).2.withSender first.link := kept
  rw [same] at asked
  rw [asked]
  refine ⟨rfl, ?_, ?_, ?_⟩
  · rw [keeps]
    exact twins.settledFirst.withSender _
  · exact twins.settledSecond.withSender _
  · rw [keeps]
    exact ⟨rfl, twins.onlySends.framesSent⟩

end

/-- Flushing returns what was accepted, and settles the link. -/
theorem flush_settles {link : Link sizes} (quiet : link.Quiet)
    (noneDropped : link.outlet.bytesDropped = .zero) :
    ∃ later, flush ⟨link⟩ = (link.outlet.bytes, later) ∧ Settled later.link ∧
      link.OnlySends later.link := by
  obtain ⟨_, ⟨passive, resting⟩, drained, onlySends⟩ := quiet.drain
  have taken := congrArg Link.Outlet.taken drained
  refine ⟨⟨link.drain.2.collectRecord.2⟩, ?_, ⟨⟨passive, ?_⟩, ?_⟩, ?_⟩
  · exact congrArg (Prod.mk · _) taken
  · exact ⟨resting.notWriting, resting.notNoted, resting.emptyWhenIdle⟩
  · have waiting := congrArg Link.Outlet.waiting drained
    have idle := congrArg Link.Outlet.busy drained
    have dropped := congrArg Link.Outlet.bytesDropped drained
    dsimp only [Link.outlet, Link.Outlet.drained] at waiting idle dropped noneDropped
    simp only [Link.outlet, Link.collectRecord, Link.Device.collect, waiting, idle, dropped,
      noneDropped]
  · apply onlySends.trans
    exact ⟨rfl, rfl⟩

section

variable {endpoint : Endpoint} (settled : Settled endpoint.link)

include settled

/-- A settled link has room for a frame or a piece, and one byte more. -/
theorem sendRaw_fits {data : Bytes} (short : data.length ≤ sizes.outbox) :
    (endpoint.link.sendRaw data).Quiet ∧
      (endpoint.link.sendRaw data).outlet.bytes = data ∧
      (endpoint.link.sendRaw data).outlet.bytesDropped = .zero ∧
      endpoint.link.OnlySends (endpoint.link.sendRaw data) := by
  have room : data.length ≤ endpoint.link.outlet.room sizes.outbox := by
    rw [settled.outlet]
    exact Nat.le_succ_of_le short
  obtain ⟨quiet, submitted⟩ := settled.quiet.sendRaw data
  obtain ⟨bytes, bytesDropped⟩ :=
    Link.Outlet.submitAll_of_room settled.quiet.emptyWhenIdle room
  have onlySends := settled.quiet.sendRaw_onlySends room
  rw [settled.outlet] at submitted bytes bytesDropped
  rw [submitted]
  exact ⟨quiet, bytes, bytesDropped, onlySends⟩

theorem sendPieces_whole {pieces : List Bytes}
    (short : ∀ piece ∈ pieces, piece.length ≤ sizes.outbox) :
    ∃ later, endpoint.sendPieces pieces = (pieces.flatten, later) ∧
      endpoint.Twins later := by
  induction pieces generalizing endpoint with
  | nil => exact ⟨endpoint, rfl, settled.twin⟩
  | cons piece pieces induction =>
      obtain ⟨shortFirst, shortLater⟩ := List.forall_mem_cons.mp short
      obtain ⟨quiet, bytes, noneDropped, sends⟩ := sendRaw_fits settled shortFirst
      obtain ⟨next, flushed, settledNext, sendsNext⟩ := flush_settles quiet noneDropped
      obtain ⟨last, sentLater, twins⟩ := induction settledNext shortLater
      have twin : endpoint.Twins next := ⟨settled, settledNext, sends.trans sendsNext⟩
      refine ⟨last, ?_, twin.trans twins⟩
      rw [sendPieces, flushed, bytes]
      dsimp only
      rw [sentLater]
      rfl

/-- Raw data of any length comes back whole. -/
theorem answer_encodeRaw (data : Bytes) :
    (endpoint.answer (.encodeRaw data)).1 = .encoded data ∧
      endpoint.Twins (endpoint.answer (.encodeRaw data)).2 := by
  have short : ∀ piece ∈ data.pieces sizes.outbox (by decide),
      piece.length ≤ sizes.outbox := by
    intro piece member
    exact Bytes.length_le_of_mem_pieces member
  obtain ⟨later, sent, twins⟩ := sendPieces_whole settled short
  rw [Bytes.flatten_pieces] at sent
  have encoded : endpoint.encodeRaw data = (data, later) := sent
  simp only [answer, encoded]
  exact ⟨trivial, twins⟩

/-- The queue has room for the longest frame, so no frame is cut. -/
theorem answer_encodeFrame {payload : Bytes}
    (short : payload.length ≤ Frame.largestPayload) :
    (endpoint.answer (.encodeFrame payload)).1 = .encoded (Frame.encode payload) ∧
      endpoint.countFrame.Twins (endpoint.answer (.encodeFrame payload)).2 := by
  have fits : (Frame.encode payload).length ≤ sizes.outbox := by
    apply (Frame.length_encode_le payload).trans
    unfold sizes Frame.maxEncodedLength
    dsimp only
    omega
  obtain ⟨quiet, bytes, noneDropped, sends⟩ := sendRaw_fits settled fits
  have quietSent := (settled.quiet.send payload).1
  obtain ⟨later, flushed, settledLater, sendsLater⟩ := flush_settles quietSent noneDropped
  have sent : flush ⟨endpoint.link.send payload⟩ = (Frame.encode payload, later) :=
    flushed.trans (congrArg (Prod.mk · later) bytes)
  have counted : endpoint.countFrame.link.OnlySends (endpoint.link.send payload) := by
    constructor
    · have sender := sends.sender
      rw [Link.send, sender]
      rfl
    · exact congrArg Counter.increment sends.framesSent
  have allowed : ¬Frame.largestPayload < payload.length := by omega
  simp only [answer, encodeFrame, if_neg allowed, sent]
  exact ⟨trivial, settled.countFrame, settledLater, counted.trans sendsLater⟩

end

theorem answer_tooLong (endpoint : Endpoint) {payload : Bytes}
    (tooLong : Frame.largestPayload < payload.length) :
    endpoint.answer (.encodeFrame payload) = (.refused ⟨payload.length⟩, endpoint) := by
  simp only [answer, encodeFrame, if_pos tooLong]

/-- Twins give the same reply, and are twins afterwards. -/
theorem Twins.answer {first second : Endpoint} (twins : first.Twins second)
    (request : Request) :
    (second.answer request).1 = (first.answer request).1 ∧
      (first.answer request).2.Twins (second.answer request).2 := by
  cases request with
  | encodeFrame payload =>
      rcases Nat.lt_or_ge Frame.largestPayload payload.length with tooLong | short
      · rw [answer_tooLong first tooLong, answer_tooLong second tooLong]
        exact ⟨rfl, twins⟩
      · obtain ⟨replyFirst, twinFirst⟩ := answer_encodeFrame twins.settledFirst short
        obtain ⟨replySecond, twinSecond⟩ := answer_encodeFrame twins.settledSecond short
        constructor
        · exact replySecond.trans replyFirst.symm
        · exact twinFirst.symm.trans (twins.countFrame.trans twinSecond)
  | encodeRaw data =>
      obtain ⟨replyFirst, twinFirst⟩ := answer_encodeRaw twins.settledFirst data
      obtain ⟨replySecond, twinSecond⟩ := answer_encodeRaw twins.settledSecond data
      constructor
      · exact replySecond.trans replyFirst.symm
      · exact twinFirst.symm.trans (twins.trans twinSecond)
  | pushBytes data => exact twins.receive (pushBytes_receivesOnly data)
  | nextFrame => exact twins.receive nextFrame_receivesOnly
  | drainFrames => exact twins.receive drainFrames_receivesOnly
  | readRaw limit => exact twins.receive (readRaw_receivesOnly limit)
  | statistics => exact ⟨congrArg Reply.statistics twins.members, twins⟩

theorem Twins.answerAll {first second : Endpoint} (twins : first.Twins second)
    (requests : List Request) :
    (second.answerAll requests).1 = (first.answerAll requests).1 ∧
      (first.after requests).Twins (second.after requests) := by
  induction requests generalizing first second with
  | nil => exact ⟨rfl, twins⟩
  | cons request later induction =>
      obtain ⟨reply, twinsNext⟩ := twins.answer request
      obtain ⟨replies, twinsLast⟩ := induction twinsNext
      refine ⟨?_, twinsLast⟩
      rw [answerAll_cons, answerAll_cons, reply, replies]

theorem Twins.indistinguishable {first second : Endpoint} (twins : first.Twins second) :
    second.Indistinguishable first := by
  intro requests
  obtain ⟨replies, twinsLast⟩ := twins.answerAll requests
  refine ⟨replies, ?_⟩
  rw [twinsLast.onlySends.sender]
  rfl

theorem settled_after (history : List Request) : Settled (new.after history).link :=
  (settled_new.twin.answerAll history).2.settledFirst

/-- What an endpoint sends is what it was asked to send, and afterwards nothing
tells that it was asked, except that frames are counted. -/
structure SendsWhole (endpoint : Endpoint) : Prop where
  frame : ∀ payload, payload.length ≤ Frame.largestPayload →
    (endpoint.answer (.encodeFrame payload)).1 = .encoded (Frame.encode payload) ∧
      (endpoint.answer (.encodeFrame payload)).2.link.statistics =
        { endpoint.link.statistics with
          framesSent := endpoint.link.statistics.framesSent.increment } ∧
      (endpoint.answer (.encodeFrame payload)).2.Indistinguishable endpoint.countFrame
  tooLong : ∀ payload, Frame.largestPayload < payload.length →
    endpoint.answer (.encodeFrame payload) = (.refused ⟨payload.length⟩, endpoint)
  raw : ∀ data,
    (endpoint.answer (.encodeRaw data)).1 = .encoded data ∧
      (endpoint.answer (.encodeRaw data)).2.Indistinguishable endpoint
  idle : endpoint.link.busy = false
  nothingWaits : endpoint.link.transmitter.queue.toList = []
  nothingRecorded : endpoint.link.device.record = #[]
  noneDropped : endpoint.link.transmitter.bytesDropped = .zero
  /-- Flushing comes to an end, whether something has just been sent or not. -/
  flushes : endpoint.link.Drains ∧ (∀ data, (endpoint.link.sendRaw data).Drains) ∧
    ∀ payload, (endpoint.link.send payload).Drains

/-- Whatever an endpoint has been asked so far, it sends every frame and all raw
data whole, refuses what is too long, and is at rest. -/
theorem sends_whole (history : List Request) : (new.after history).SendsWhole := by
  have settled := settled_after history
  generalize new.after history = endpoint at settled ⊢
  have atRest := settled.outlet
  constructor
  case frame =>
    intro payload short
    obtain ⟨reply, twins⟩ := answer_encodeFrame settled short
    exact ⟨reply, twins.statistics, twins.indistinguishable⟩
  case tooLong =>
    intro payload tooLong
    exact endpoint.answer_tooLong tooLong
  case raw =>
    intro data
    obtain ⟨reply, twins⟩ := answer_encodeRaw settled data
    exact ⟨reply, twins.indistinguishable⟩
  case idle => exact congrArg Link.Outlet.busy atRest
  case nothingWaits => exact congrArg Link.Outlet.waiting atRest
  case nothingRecorded =>
    apply Array.toList_inj.mp
    exact congrArg Link.Outlet.taken atRest
  case noneDropped => exact congrArg Link.Outlet.bytesDropped atRest
  case flushes =>
    refine ⟨settled.quiet.drains, ?_, ?_⟩
    · intro data
      exact (settled.quiet.sendRaw data).1.drains
    · intro payload
      exact (settled.quiet.send payload).1.drains

/-- A payload of the largest length with nothing but reserved bytes, and with
reserved bytes for a checksum. -/
def longest : Bytes :=
  List.replicate 2 Frame.escape ++ List.replicate 35 Frame.flag ++
    List.replicate 161 Frame.escape

theorem longest_frame_is_whole :
    longest.length = Frame.largestPayload ∧ (Frame.encode longest).length = sizes.outbox ∧
      (new.answer (.encodeFrame longest)).1 = .encoded (Frame.encode longest) ∧
      (new.answer (.encodeFrame longest)).2.link.statistics.framesSent =
        Counter.zero.increment := by
  have largest : longest.length = Frame.largestPayload := by decide +kernel
  have nothingAsked : new.after [] = new := rfl
  have nothingSent : new.link.statistics.framesSent = .zero := rfl
  obtain ⟨reply, statistics, _⟩ := (sends_whole []).frame longest largest.le
  rw [nothingAsked] at reply statistics
  refine ⟨largest, by decide +kernel, reply, ?_⟩
  rw [← nothingSent]
  exact congrArg Link.Statistics.framesSent statistics

end Endpoint

end FramedSerial
