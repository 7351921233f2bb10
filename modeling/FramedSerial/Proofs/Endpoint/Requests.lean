import FramedSerial.Endpoint
import FramedSerial.Proofs.Link.Halves

/-!
# What can be asked of an endpoint

Everything that a host asks of its endpoint is a request, and a request has a
reply; a history of an endpoint is a list of requests.  Requests that have to do
with received bytes do not look at the sending half of the link.
-/

namespace FramedSerial

namespace Endpoint

inductive Request where
  | encodeFrame (payload : Bytes)
  | encodeRaw (data : Bytes)
  | pushBytes (data : Bytes)
  | nextFrame
  | drainFrames
  | readRaw (limit : Nat)
  | statistics
deriving DecidableEq, Repr

inductive Reply where
  | encoded (data : Bytes)
  | refused (fault : PayloadTooLong)
  | dropped (count : UInt32)
  | frame (payload? : Option Bytes)
  | frames (payloads : List Bytes)
  | raw (data : Bytes)
  | statistics (members : List (String × Nat))
deriving DecidableEq, Repr

/-- A request that is refused leaves the endpoint as it was. -/
def answer (endpoint : Endpoint) : Request → Reply × Endpoint
  | .encodeFrame payload =>
      match endpoint.encodeFrame payload with
      | .ok (sent, later) => (.encoded sent, later)
      | .error fault => (.refused fault, endpoint)
  | .encodeRaw data =>
      let (sent, later) := endpoint.encodeRaw data
      (.encoded sent, later)
  | .pushBytes data =>
      let (count, later) := endpoint.pushBytes data
      (.dropped count, later)
  | .nextFrame =>
      let (payload?, later) := endpoint.nextFrame
      (.frame payload?, later)
  | .drainFrames =>
      let (payloads, later) := endpoint.drainFrames
      (.frames payloads, later)
  | .readRaw limit =>
      let (data, later) := endpoint.readRaw limit
      (.raw data, later)
  | .statistics => (.statistics endpoint.members, endpoint)

def answerAll (endpoint : Endpoint) : List Request → List Reply × Endpoint
  | [] => ([], endpoint)
  | request :: later =>
      let (reply, next) := endpoint.answer request
      let (replies, last) := next.answerAll later
      (reply :: replies, last)

/-- The endpoint behind a history. -/
def after (endpoint : Endpoint) (history : List Request) : Endpoint :=
  (endpoint.answerAll history).2

/-- No requests tell the two endpoints apart, and nor do the entries that the
links make in their journals. -/
def Indistinguishable (first second : Endpoint) : Prop :=
  ∀ requests,
    (first.answerAll requests).1 = (second.answerAll requests).1 ∧
      (first.after requests).link.journal = (second.after requests).link.journal

theorem answerAll_cons (endpoint : Endpoint) (request : Request) (later : List Request) :
    endpoint.answerAll (request :: later) =
      ((endpoint.answer request).1 :: ((endpoint.answer request).2.answerAll later).1,
        ((endpoint.answer request).2.answerAll later).2) := rfl

theorem inbox_answer_pushBytes (endpoint : Endpoint) (data : Bytes) :
    (endpoint.answer (.pushBytes data)).2.link.inbox =
      data.foldl Link.Inbox.accept endpoint.link.inbox := by
  simp only [answer, pushBytes, Link.followAll_arrive]

/-- The endpoint with the sending half of another link. -/
def withSender (endpoint : Endpoint) (sender : Link sizes) : Endpoint :=
  ⟨endpoint.link.withSender sender⟩

/-- A request whose answer does not depend on the sending half of the link, and
which leaves that half as it is. -/
def Request.ReceivesOnly (request : Request) : Prop :=
  ∀ (endpoint : Endpoint) (sender : Link sizes),
    (endpoint.withSender sender).answer request =
      ((endpoint.answer request).1, (endpoint.answer request).2.withSender sender)

theorem pushBytes_receivesOnly (data : Bytes) : (Request.pushBytes data).ReceivesOnly := by
  intro endpoint sender
  have moved := endpoint.link.followAll_arrive_withSender sender data
  simp only [answer, pushBytes, withSender, moved]
  rfl

theorem nextFrame_receivesOnly : Request.nextFrame.ReceivesOnly := by
  intro endpoint sender
  have moved := endpoint.link.receive_withSender sender
    (List.replicate Frame.largestPayload 0)
  simp only [answer, nextFrame, withSender, moved]
  rcases endpoint.link.receive (List.replicate Frame.largestPayload 0) with
    ⟨_ | length, filled, later⟩
  · rfl
  · rfl

theorem drainFrames_receivesOnly : Request.drainFrames.ReceivesOnly := by
  intro endpoint sender
  have moved := endpoint.link.receiveAll_withSender sender Frame.largestPayload
  simp only [answer, drainFrames, withSender, moved]

theorem readRaw_receivesOnly (limit : Nat) : (Request.readRaw limit).ReceivesOnly := by
  intro endpoint sender
  rfl

end Endpoint

end FramedSerial
