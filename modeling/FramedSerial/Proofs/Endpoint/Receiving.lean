import FramedSerial.Proofs.Endpoint.Sending
import FramedSerial.Proofs.Link.Fetching

/-!
# What an endpoint receives

An endpoint reads into a buffer for the largest payload.  So none of its frames
is ever without room, and a reply without a frame means that nothing is left in
the queue.

As long as no byte is dropped, what is returned does not depend on how the
stream is cut and when frames are asked for: the payloads returned are the first
ones of the stream, and draining returns all others.  Bytes are dropped only
where a chunk is longer than the room in the queue, so that a stream of any
length is received whole if it comes in chunks that are drained one by one.
-/

namespace FramedSerial

namespace Endpoint

/-- The bytes that a request pushes. -/
def Request.pushed : Request → Bytes
  | .pushBytes data => data
  | _ => []

/-- The payloads that a reply returns. -/
def Reply.payloads : Reply → List Bytes
  | .frame payload? => payload?.toList
  | .frames payloads => payloads
  | _ => []

/-- The payloads that the replies to a history return. -/
def returned (endpoint : Endpoint) (history : List Request) : List Bytes :=
  (endpoint.answerAll history).1.flatMap Reply.payloads

/-- The payloads of all that a history pushes, if it were one stream. -/
def streamed (history : List Request) : List Bytes :=
  (Deframer.new : Deframer Frame.largestFrame).payloads (history.flatMap Request.pushed)

/-- A history in which bytes leave the queue for frames only, and none is dropped. -/
structure Lossless (history : List Request) : Prop where
  framesOnly : ∀ limit, .readRaw limit ∉ history
  noneDropped : (new.after history).link.statistics.inboundBytesDropped = .zero

/-- A history that pushes chunks and drains the queue behind each of them. -/
def rounds (chunks : List Bytes) : List Request :=
  chunks.flatMap fun chunk => [.pushBytes chunk, .drainFrames]

/-- What a request does to the receiving half of a link, and the payloads that it
returns. -/
inductive Effect (link later : Link sizes) : Request → List Bytes → Prop where
  | kept {request : Request} : request.pushed = [] →
      later.inbox = link.inbox → later.receiver = link.receiver →
      Effect link later request []
  | arrived {data : Bytes} : later = link.followAll (data.map .arrive) →
      Effect link later (.pushBytes data) []
  | read {request : Request} {left : Bytes} {payloads : List Bytes} :
      request.pushed = [] → later.Roomy → link.Yields later left payloads →
      Effect link later request payloads
  | taken {limit : Nat} : later.inbox.bytesDropped = link.inbox.bytesDropped →
      later.receiver = link.receiver → Effect link later (.readRaw limit) []

theorem room_for_largest : sizes.frame ≤ Frame.largestPayload + Frame.trailerLength := by
  decide

section

variable {endpoint : Endpoint}

theorem answer_nextFrame (roomy : endpoint.link.Roomy) :
    ∃ payload? left, (endpoint.answer .nextFrame).1 = .frame payload? ∧
      endpoint.link.Yields (endpoint.answer .nextFrame).2.link left payload?.toList ∧
      (endpoint.answer .nextFrame).2.link.Roomy ∧ (payload? = none → left = []) := by
  have room : sizes.frame ≤
      (List.replicate Frame.largestPayload (0 : UInt8)).length + Frame.trailerLength := by
    rw [List.length_replicate]
    exact room_for_largest
  have kept := roomy.receive room
  rcases received : endpoint.link.receive (List.replicate Frame.largestPayload 0) with
    ⟨length, filled, later⟩
  obtain ⟨left, yields, nothingLeft⟩ := roomy.receive_yields room received
  rw [received] at kept
  simp only [answer, nextFrame, received]
  cases length with
  | zero => exact ⟨none, left, rfl, yields, kept, fun _ => nothingLeft rfl⟩
  | succ length =>
      refine ⟨some _, left, rfl, yields, kept, ?_⟩
      intro isNone
      cases isNone

theorem answer_drainFrames (roomy : endpoint.link.Roomy) :
    ∃ payloads, (endpoint.answer .drainFrames).1 = .frames payloads ∧
      endpoint.link.Yields (endpoint.answer .drainFrames).2.link [] payloads ∧
      (endpoint.answer .drainFrames).2.link.Roomy := by
  obtain ⟨kept, yields⟩ := roomy.receiveAll room_for_largest
  exact ⟨_, rfl, yields, kept⟩

theorem Twins.sameInbox {first second : Endpoint} (twins : first.Twins second) :
    second.link.inbox = first.link.inbox := by
  rw [twins.onlySends.sender]
  rfl

theorem Twins.sameReceiver {first second : Endpoint} (twins : first.Twins second) :
    second.link.receiver = first.link.receiver := by
  rw [twins.onlySends.sender]
  rfl

theorem answer_effect (settled : Settled endpoint.link) (roomy : endpoint.link.Roomy)
    (request : Request) :
    Effect endpoint.link (endpoint.answer request).2.link request
      (endpoint.answer request).1.payloads := by
  cases request with
  | encodeFrame payload =>
      rcases Nat.lt_or_ge Frame.largestPayload payload.length with tooLong | short
      · rw [endpoint.answer_tooLong tooLong]
        exact .kept rfl rfl rfl
      · obtain ⟨reply, twins⟩ := answer_encodeFrame settled short
        rw [reply]
        exact .kept rfl twins.sameInbox twins.sameReceiver
  | encodeRaw data =>
      obtain ⟨reply, twins⟩ := answer_encodeRaw settled data
      rw [reply]
      exact .kept rfl twins.sameInbox twins.sameReceiver
  | pushBytes data => exact .arrived rfl
  | nextFrame =>
      obtain ⟨payload?, left, reply, yields, kept, _⟩ := answer_nextFrame roomy
      rw [reply]
      exact .read rfl kept yields
  | drainFrames =>
      obtain ⟨payloads, reply, yields, kept⟩ := answer_drainFrames roomy
      rw [reply]
      exact .read rfl kept yields
  | readRaw limit => exact .taken rfl rfl
  | statistics => exact .kept rfl rfl rfl

end

namespace Effect

variable {link later : Link sizes} {request : Request} {payloads : List Bytes}

theorem roomy (effect : Effect link later request payloads) (roomy : link.Roomy) :
    later.Roomy := by
  cases effect with
  | kept _ _ sameReceiver => exact roomy.of_receiver sameReceiver
  | arrived isLater =>
      rw [isLater, Link.followAll_arrive]
      exact roomy.of_receiver rfl
  | read _ kept _ => exact kept
  | taken _ sameReceiver => exact roomy.of_receiver sameReceiver

/-- Bytes that have been dropped stay counted. -/
theorem undropped (effect : Effect link later request payloads)
    (undropped : later.inbox.bytesDropped.toNat = 0) :
    link.inbox.bytesDropped.toNat = 0 := by
  cases effect with
  | kept _ sameInbox _ =>
      rw [sameInbox] at undropped
      exact undropped
  | arrived isLater =>
      rw [isLater, Link.followAll_arrive] at undropped
      exact (Link.Inbox.foldl_accept_of_undropped undropped).1
  | read _ _ yields =>
      rw [yields.noneDropped] at undropped
      exact undropped
  | taken sameDropped _ =>
      rw [sameDropped] at undropped
      exact undropped

theorem handedOver (effect : Effect link later request payloads)
    (framesOnly : ∀ limit, request ≠ .readRaw limit)
    (undropped : later.inbox.bytesDropped.toNat = 0) {arrived : Bytes}
    {delivered : List Bytes} (handedOver : link.HandedOver arrived delivered) :
    later.HandedOver (arrived ++ request.pushed) (delivered ++ payloads) := by
  cases effect with
  | kept nothingPushed sameInbox sameReceiver =>
      rw [nothingPushed, List.append_nil, List.append_nil]
      exact handedOver.of_same sameInbox sameReceiver
  | arrived isLater =>
      subst isLater
      rw [List.append_nil]
      exact handedOver.arrive undropped
  | read nothingPushed _ yields =>
      rw [nothingPushed, List.append_nil]
      exact handedOver.yields yields
  | taken _ _ => exact absurd rfl (framesOnly _)

end Effect

theorem after_concat (endpoint : Endpoint) (history : List Request) (request : Request) :
    endpoint.after (history ++ [request]) = ((endpoint.after history).answer request).2 := by
  induction history generalizing endpoint with
  | nil => rfl
  | cons first history induction => exact induction _

theorem returned_concat (endpoint : Endpoint) (history : List Request) (request : Request) :
    endpoint.returned (history ++ [request]) =
      endpoint.returned history ++ ((endpoint.after history).answer request).1.payloads := by
  induction history generalizing endpoint with
  | nil => exact List.append_nil _
  | cons first history induction =>
      have later := induction (endpoint.answer first).2
      unfold returned at later ⊢
      rw [List.cons_append, answerAll_cons, answerAll_cons, List.flatMap_cons, later,
        List.flatMap_cons, List.append_assoc]
      rfl

theorem roomy_after (history : List Request) : (new.after history).link.Roomy := by
  induction history using List.reverseRecOn with
  | nil => exact ⟨rfl, ⟨[], rfl⟩, rfl⟩
  | append_singleton history request induction =>
      rw [after_concat]
      exact (answer_effect (settled_after history) induction request).roomy induction

theorem effect_after (history : List Request) (request : Request) :
    Effect (new.after history).link (new.after (history ++ [request])).link request
      ((new.after history).answer request).1.payloads := by
  rw [after_concat]
  exact answer_effect (settled_after history) (roomy_after history) request

theorem handedOver_after {history : List Request} (lossless : Lossless history) :
    (new.after history).link.HandedOver (history.flatMap Request.pushed)
      (new.returned history) := by
  obtain ⟨framesOnly, noneDropped⟩ := lossless
  have undropped : (new.after history).link.inbox.bytesDropped.toNat = 0 :=
    congrArg Counter.toNat noneDropped
  clear noneDropped
  induction history using List.reverseRecOn with
  | nil => exact ⟨[], ⟨[], ByteQueue.toList_empty, rfl, rfl⟩, rfl⟩
  | append_singleton history request induction =>
      have effect := effect_after history request
      have earlier := induction
        (fun limit member => framesOnly limit (List.mem_append_left _ member))
        (effect.undropped undropped)
      rw [returned_concat, List.flatMap_append, List.flatMap_singleton]
      apply effect.handedOver
      · intro limit isRaw
        apply framesOnly limit
        rw [isRaw]
        exact List.mem_append_right _ (List.mem_singleton_self _)
      · exact undropped
      · exact earlier

/-- Chunks that fit into an empty queue, drained one by one, leave it empty, and
no byte is dropped. -/
theorem after_rounds {chunks : List Bytes}
    (short : ∀ chunk ∈ chunks, chunk.length ≤ sizes.inbox) :
    (new.after (rounds chunks)).link.inbox.bytesDropped.toNat = 0 ∧
      (new.after (rounds chunks)).link.inbox.queue.toList = [] := by
  induction chunks using List.reverseRecOn with
  | nil => exact ⟨rfl, ByteQueue.toList_empty⟩
  | append_singleton chunks chunk induction =>
      obtain ⟨undropped, empty⟩ := induction fun earlier member =>
        short earlier (List.mem_append_left _ member)
      have fits := short chunk (List.mem_append_right _ (List.mem_singleton_self _))
      have split : rounds (chunks ++ [chunk]) =
          rounds chunks ++ [.pushBytes chunk] ++ [.drainFrames] := by
        simp [rounds]
      rw [split, after_concat]
      obtain ⟨_, _, yields, _⟩ :=
        answer_drainFrames (roomy_after (rounds chunks ++ [.pushBytes chunk]))
      refine ⟨?_, yields.pending⟩
      rw [yields.noneDropped, after_concat]
      have pushed := (Link.Inbox.foldl_accept (new.after (rounds chunks)).link.inbox chunk).2
      have noneWaits := (ByteQueue.toList_eq_nil_iff _).mp empty
      have roomForAll : chunk.length - (sizes.inbox - 0) = 0 := Nat.sub_eq_zero_of_le fits
      rw [undropped, noneWaits, roomForAll] at pushed
      rw [inbox_answer_pushBytes]
      exact pushed

theorem lossless_rounds {chunks : List Bytes}
    (short : ∀ chunk ∈ chunks, chunk.length ≤ sizes.inbox) : Lossless (rounds chunks) where
  framesOnly := by
    intro limit member
    obtain ⟨chunk, _, inRound⟩ := List.mem_flatMap.mp member
    simp at inRound
  noneDropped := Counter.eq_of_toNat_eq (after_rounds short).1

theorem pushed_rounds (chunks : List Bytes) :
    (rounds chunks).flatMap Request.pushed = chunks.flatten := by
  induction chunks with
  | nil => rfl
  | cons chunk chunks induction =>
      rw [List.flatten_cons, ← induction]
      simp [rounds, Request.pushed]

/-- What an endpoint has received after a history, and what it answers next. -/
structure ReceivesWhole (history : List Request) : Prop where
  framesWithoutRoom : (new.after history).link.statistics.framesWithoutRoom = .zero
  /-- No frame is found only if the queue is empty. -/
  emptied : ((new.after history).answer .nextFrame).1 = .frame none →
    ((new.after history).answer .nextFrame).2.link.pendingInbound = 0
  drained : ((new.after history).answer .drainFrames).2.link.pendingInbound = 0
  first : Lossless history → new.returned history <+: streamed history
  next : Lossless history → ((new.after history).answer .nextFrame).1 =
    .frame (streamed history)[(new.returned history).length]?
  rest : Lossless history → new.returned (history ++ [.drainFrames]) = streamed history

theorem receivesWhole (history : List Request) : ReceivesWhole history := by
  have roomy := roomy_after history
  obtain ⟨payload?, left, reply, yields, _, nothingLeft⟩ := answer_nextFrame roomy
  obtain ⟨payloads, drainReply, yieldsAll, _⟩ := answer_drainFrames roomy
  constructor
  case framesWithoutRoom => exact roomy.framesWithoutRoom
  case emptied =>
    intro isNone
    rw [reply] at isNone
    rw [← Link.length_toList_inbox, yields.pending, nothingLeft (Reply.frame.inj isNone)]
    rfl
  case drained =>
    rw [← Link.length_toList_inbox, yieldsAll.pending]
    rfl
  case first =>
    intro lossless
    exact ⟨_, (handedOver_after lossless).split⟩
  case next =>
    intro lossless
    have later := (handedOver_after lossless).yields yields
    have split : _ = streamed history := later.split
    rw [reply, ← split]
    cases payload? with
    | none =>
        rw [yields.pending, nothingLeft rfl]
        simp [Deframer.payloads, Deframer.events]
    | some payload => simp
  case rest =>
    intro lossless
    have later := (handedOver_after lossless).yields yieldsAll
    rw [returned_concat, drainReply]
    exact later.all yieldsAll.pending

/-- Whatever is asked of an endpoint, it has room for every frame and finds none only
when its queue is empty.  If no byte is dropped, it returns the payloads of the stream
in order, all of them once it is drained; and no byte is dropped of a stream that is
drained chunk by chunk, wherever it is cut. -/
theorem receives_every_frame :
    (∀ history, ReceivesWhole history) ∧
      ∀ chunks : List Bytes, (∀ chunk ∈ chunks, chunk.length ≤ sizes.inbox) →
        (new.after (rounds chunks)).link.statistics.inboundBytesDropped = .zero ∧
          new.returned (rounds chunks) =
            (Deframer.new : Deframer Frame.largestFrame).payloads chunks.flatten := by
  refine ⟨receivesWhole, ?_⟩
  intro chunks short
  have lossless := lossless_rounds short
  refine ⟨lossless.noneDropped, ?_⟩
  rw [← pushed_rounds]
  apply (handedOver_after lossless).all
  exact (after_rounds short).2

/-- A stream with a frame, a spoilt frame and another frame that share their flags, cut
behind an escape and inside the second frame. -/
def cutStream : List Bytes :=
  let stream := (Frame.encode [Frame.escape, 0x31]).dropLast ++ [Frame.flag, 1, 2, 3, 4] ++
    Frame.encode [Frame.flag]
  [stream.take 2, (stream.drop 2).take 6, stream.drop 8]

theorem cutStream_is_received :
    (∀ chunk ∈ cutStream, chunk.length ≤ sizes.inbox) ∧
      Lossless (rounds cutStream) ∧
      new.returned (rounds cutStream) = [[Frame.escape, 0x31], [Frame.flag]] ∧
      ((new.after (rounds cutStream)).answer .nextFrame).1 = .frame none ∧
      ((new.after (rounds cutStream)).answer .nextFrame).2.link.pendingInbound = 0 := by
  obtain ⟨histories, chunks⟩ := receives_every_frame
  have short : ∀ chunk ∈ cutStream, chunk.length ≤ sizes.inbox := by decide +kernel
  have lossless := lossless_rounds short
  have payloads : (Deframer.new : Deframer Frame.largestFrame).payloads cutStream.flatten =
      [[Frame.escape, 0x31], [Frame.flag]] := by decide +kernel
  have returned := (chunks cutStream short).2
  rw [payloads] at returned
  have next := (histories (rounds cutStream)).next lossless
  rw [returned, streamed, pushed_rounds, payloads] at next
  exact ⟨short, lossless, returned, next, (histories (rounds cutStream)).emptied next⟩

end Endpoint

end FramedSerial
