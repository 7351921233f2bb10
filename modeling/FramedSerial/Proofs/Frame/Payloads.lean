import FramedSerial.Proofs.Frame.Storage
import FramedSerial.Proofs.Frame.Trailer

/-!
# The payloads of a stream

Of the events of a stream its frames alone are handed over, and `payloads` lists
what they carry.  Like the events they may be taken piece by piece.

What a deframer holds of a stream never outgrows its capacity, so every payload
leaves room for a trailer in it.
-/

namespace FramedSerial

namespace Deframer

variable {capacity : Nat}

def Event.payload? : Event → Option Bytes
  | .frame payload => some payload
  | .dropped _ => none

/-- What the frames of a stream carry. -/
def payloads (deframer : Deframer capacity) (stream : Bytes) : List Bytes :=
  (deframer.events stream).filterMap Event.payload?

theorem payloads_append (deframer : Deframer capacity) (front back : Bytes) :
    deframer.payloads (front ++ back) =
      deframer.payloads front ++ (deframer.after front).payloads back := by
  rw [payloads, events_append, List.filterMap_append]
  rfl

/-- A payload that comes out of a stream is never empty. -/
theorem payload_ne_nil {deframer : Deframer capacity} {byte : UInt8} {payload : Bytes}
    (brought : (deframer.push byte).1 = some (.frame payload)) : payload ≠ [] := by
  obtain ⟨longer, accepted⟩ := push_eq_frame brought
  have length := length_of_verdict accepted
  apply List.length_pos_iff.mp
  unfold fill at longer
  omega

/-- Where no more is held than there is room for, a payload leaves room for a trailer. -/
theorem length_payload_le_of_fits {deframer : Deframer capacity}
    (fits : deframer.fill ≤ capacity) {byte : UInt8} {payload : Bytes}
    (brought : (deframer.push byte).1 = some (.frame payload)) :
    payload.length + Frame.trailerLength ≤ capacity := by
  obtain ⟨longer, accepted⟩ := push_eq_frame brought
  have length := length_of_verdict accepted
  unfold fill at fits longer
  omega

theorem fill_after_new_le (stream : Bytes) :
    ((new : Deframer capacity).after stream).fill ≤ capacity := by
  have stored := Stored.after_contents (Stored.new : Stored capacity) stream
  rw [Stored.contents_new] at stored
  rw [← stored, Stored.fill_contents]
  exact Stored.fill_le_capacity _

theorem length_payload_le {stream payload : Bytes} {byte : UInt8}
    (brought : (((new : Deframer capacity).after stream).push byte).1 =
      some (.frame payload)) :
    payload.length + Frame.trailerLength ≤ capacity := by
  apply length_payload_le_of_fits
  · exact fill_after_new_le stream
  · exact brought

end Deframer

end FramedSerial
