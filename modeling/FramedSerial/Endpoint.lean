import FramedSerial.Link.Reception
import FramedSerial.Link.Transmission

/-!
# The host's end of a line

A host has no serial interrupts.  Its endpoint is a link with a passive device
that completes every byte at once: what is to be sent comes back as a byte
string, and what was received is handed over in chunks of any size.

The outbound queue has room for the longest frame, so a frame is never cut.
-/

namespace FramedSerial

namespace Endpoint

def sizes : Link.Sizes where
  inbox := 4095
  outbox := Frame.maxEncodedLength Frame.largestPayload
  frame := Frame.largestFrame

end Endpoint

structure Endpoint where
  link : Link Endpoint.sizes
deriving DecidableEq

namespace Endpoint

/-- A payload that no receiver would accept. -/
structure PayloadTooLong where
  length : Nat
deriving DecidableEq, Repr

def PayloadTooLong.message (fault : PayloadTooLong) : String :=
  let length := fault.length
  let limit := Frame.largestPayload
  s!"Payload too large: {length} bytes (max {limit})"

/-- An endpoint whose link has been brought up. -/
def new : Endpoint :=
  ⟨(Link.new .passive {}).bringUp⟩

/-- Completes all bytes that are being sent and returns them. -/
def flush (endpoint : Endpoint) : Bytes × Endpoint :=
  let (_, link) := endpoint.link.drain
  let (sent, link) := link.collectRecord
  (sent, ⟨link⟩)

def encodeFrame (endpoint : Endpoint) (payload : Bytes) :
    Except PayloadTooLong (Bytes × Endpoint) :=
  if Frame.largestPayload < payload.length then .error ⟨payload.length⟩
  else .ok (flush ⟨endpoint.link.send payload⟩)

/-- Sends pieces of raw data, each of which fits into the outbound queue. -/
def sendPieces (endpoint : Endpoint) : List Bytes → Bytes × Endpoint
  | [] => ([], endpoint)
  | piece :: pieces =>
      let (sent, endpoint) := flush ⟨endpoint.link.sendRaw piece⟩
      let (sentLater, endpoint) := sendPieces endpoint pieces
      (sent ++ sentLater, endpoint)

/-- Data to be sent as it is, without framing. -/
def encodeRaw (endpoint : Endpoint) (data : Bytes) : Bytes × Endpoint :=
  endpoint.sendPieces (data.pieces sizes.outbox (by decide))

/-- Takes in received bytes.  Returns how far the count of dropped bytes has
moved, as a difference of words. -/
def pushBytes (endpoint : Endpoint) (data : Bytes) : UInt32 × Endpoint :=
  let link := endpoint.link.followAll (data.map .arrive)
  (link.inbox.bytesDropped.since endpoint.link.inbox.bytesDropped, ⟨link⟩)

def nextFrame (endpoint : Endpoint) : Option Bytes × Endpoint :=
  match endpoint.link.receive (List.replicate Frame.largestPayload 0) with
  | (0, _, link) => (none, ⟨link⟩)
  | (length + 1, buffer, link) => (some (buffer.take (length + 1)), ⟨link⟩)

def drainFrames (endpoint : Endpoint) : List Bytes × Endpoint :=
  let (frames, link) := endpoint.link.receiveAll Frame.largestPayload
  (frames, ⟨link⟩)

/-- Up to `limit` received bytes as they are, without framing. -/
def readRaw (endpoint : Endpoint) (limit : Nat) : Bytes × Endpoint :=
  let link := endpoint.link
  let (taken, queue) := link.inbox.queue.popMany limit
  (taken, ⟨{ link with inbox := { link.inbox with queue := queue } }⟩)

/-- The statistics of the link, and the number of received bytes not yet read. -/
def members (endpoint : Endpoint) : List (String × Nat) :=
  endpoint.link.statistics.members ++ [("pending_rx", endpoint.link.pendingInbound)]

def renderStatistics (endpoint : Endpoint) : String :=
  Json.renderObject endpoint.members

end Endpoint

end FramedSerial
