import FramedSerial.ByteQueue
import FramedSerial.Bytes
import FramedSerial.Checksum
import FramedSerial.Counter
import FramedSerial.Endpoint
import FramedSerial.Frame.Deframer
import FramedSerial.Frame.Encoding
import FramedSerial.Frame.Fault
import FramedSerial.Frame.Line
import FramedSerial.Hexadecimal
import FramedSerial.Json.Numeral
import FramedSerial.Json.Object
import FramedSerial.Json.Quoted
import FramedSerial.Json.Reading
import FramedSerial.Json.Skipping
import FramedSerial.Json.Word
import FramedSerial.Link.Basic
import FramedSerial.Link.Device
import FramedSerial.Link.Inbox
import FramedSerial.Link.Journal
import FramedSerial.Link.Loss
import FramedSerial.Link.Receiver
import FramedSerial.Link.Reception
import FramedSerial.Link.Settings
import FramedSerial.Link.Sizes
import FramedSerial.Link.Statistics
import FramedSerial.Link.Transmission
import FramedSerial.Link.Transmitter
import FramedSerial.Proofs.Checksum.Register
import FramedSerial.Proofs.Frame.Stuffing
import FramedSerial.Proofs.Frame.Confinement
import FramedSerial.Proofs.Frame.Segments
import FramedSerial.Proofs.Frame.Trains
import FramedSerial.Proofs.QueueRefinement
import FramedSerial.Proofs.Link.Handover
import FramedSerial.Proofs.Link.Delivery
import FramedSerial.Proofs.Link.Following
import FramedSerial.Proofs.Link.Outlet
import FramedSerial.Proofs.Link.Intake
import FramedSerial.Proofs.Link.Reads
import FramedSerial.Proofs.Link.Discipline
import FramedSerial.Proofs.Link.Conservation
import FramedSerial.Proofs.Checksum.Residue
import FramedSerial.Proofs.Frame.Enclosure
import FramedSerial.Proofs.Checksum.Sums
import FramedSerial.Proofs.Frame.Corruption
import FramedSerial.Proofs.Checksum.Errors
import FramedSerial.Proofs.Checksum.Period
import FramedSerial.Proofs.Frame.Detection
import FramedSerial.Proofs.Link.Draining
import FramedSerial.Proofs.Endpoint.Requests
import FramedSerial.Proofs.Endpoint.Sending
import FramedSerial.Proofs.Frame.Acceptance
import FramedSerial.Proofs.Link.Accounting
import FramedSerial.Proofs.Link.Repetition
import FramedSerial.Proofs.Link.Renewal
import FramedSerial.Proofs.Frame.Payloads
import FramedSerial.Proofs.Endpoint.Receiving
import FramedSerial.Proofs.Frame.WireForm
import FramedSerial.Proofs.Frame.Reencoding
import FramedSerial.Proofs.Checksum.Accumulation
import FramedSerial.Proofs.Frame.Sessions
import FramedSerial.Proofs.Link.Completions
import FramedSerial.Proofs.Link.Overflow
import FramedSerial.Proofs.Endpoint.Dropping
import FramedSerial.Proofs.Link.Termination
import FramedSerial.Proofs.Link.Nesting
import FramedSerial.Proofs.Link.Promptness
import FramedSerial.Proofs.Frame.Representation
import FramedSerial.Proofs.Json.Rendered
import FramedSerial.Proofs.Link.SettingsText
