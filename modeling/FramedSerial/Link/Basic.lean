import FramedSerial.Link.Device
import FramedSerial.Link.Inbox
import FramedSerial.Link.Journal
import FramedSerial.Link.Receiver
import FramedSerial.Link.Settings
import FramedSerial.Link.Sizes
import FramedSerial.Link.Statistics
import FramedSerial.Link.Transmitter

/-!
# Links

A link joins a device, which knows single bytes, to tasks, which know frames.
This module holds the state of a link, what can be asked about it, and the
operations that concern the link as a whole; sending and receiving have modules
of their own.
-/

namespace FramedSerial

structure Link (sizes : Link.Sizes) where
  device : Link.Device := {}
  transmitter : Link.Transmitter sizes.outbox := {}
  inbox : Link.Inbox sizes.inbox := {}
  receiver : Link.Receiver sizes.frame := {}
  settings : Link.Settings := {}
  /-- What was noted since the journal was last collected. -/
  journal : Array Link.Entry := #[]
deriving DecidableEq

namespace Link

variable {sizes : Sizes}

/-- A link that has not been brought up. -/
def new (behaviour : Behaviour) (settings : Settings) : Link sizes :=
  { device := { behaviour := behaviour }, settings := settings }

/-- Whether a burst is being sent. -/
def busy (link : Link sizes) : Bool :=
  link.transmitter.busy

/-- The number of bytes that wait to be sent. -/
def pendingOutbound (link : Link sizes) : Nat :=
  link.transmitter.queue.length

/-- The number of received bytes that wait to be read. -/
def pendingInbound (link : Link sizes) : Nat :=
  link.inbox.queue.length

def statistics (link : Link sizes) : Statistics where
  framesSent := link.transmitter.framesSent
  framesReceived := link.receiver.framesReceived
  badChecksums := link.receiver.badChecksums
  framesTooLong := link.receiver.framesTooLong
  framesWithoutRoom := link.receiver.framesWithoutRoom
  inboundBytesDropped := link.inbox.bytesDropped
  outboundBytesDropped := link.transmitter.bytesDropped

def note (link : Link sizes) (entry : Entry) : Link sizes :=
  { link with journal := link.journal.push entry }

/-- Hands the journal out and starts a new one. -/
def collectJournal (link : Link sizes) : List Entry × Link sizes :=
  (link.journal.toList, { link with journal := #[] })

/-- Hands out the bytes that the device has recorded. -/
def collectRecord (link : Link sizes) : Bytes × Link sizes :=
  let (record, device) := link.device.collect
  (record, { link with device := device })

/-- Forgets the queues, the burst and the frame under way; the counters stay. -/
def clear (link : Link sizes) : Link sizes :=
  { link with
    transmitter := link.transmitter.clear
    inbox := link.inbox.clear
    receiver := link.receiver.clear }

/-- Switches the device on, and does nothing else. -/
def powerUp (link : Link sizes) : Link sizes :=
  { link with device := link.device.powerUp }

/-- Starts afresh and switches the device on. -/
def bringUp (link : Link sizes) : Link sizes :=
  link.clear.powerUp.note .broughtUp

/-- Switches the device off and forgets what was under way. -/
def shutDown (link : Link sizes) : Link sizes :=
  { link.clear with device := link.device.powerDown }.note .shutDown

/-- Asks the device to reset, after the settling time that the settings give.
Nothing but the passing of that time depends on it. -/
def reset (link : Link sizes) : Link sizes :=
  let link := link.note (.resetRequested link.settings.settleSpins)
  { link with device := link.device.reset }

end Link

end FramedSerial
