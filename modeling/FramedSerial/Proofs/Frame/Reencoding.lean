import FramedSerial.Proofs.Frame.Acceptance
import FramedSerial.Proofs.Frame.Payloads
import FramedSerial.Proofs.Frame.WireForm

/-!
# Encoding again what was received

A deframer reads more than a sender writes: it takes escapes that nothing needed,
repeated ones, and one at the end.  What it delivers can be encoded again and is
delivered again, and the new frame is the old one if the old one was canonical, and
only then.  So among canonical segments there is one for each payload.
-/

namespace FramedSerial

namespace Frame

theorem enclose_injective : Function.Injective enclose := by
  intro left right same
  exact (List.cons.inj (List.append_cancel_right same)).2

/-- A frame tells its payload. -/
theorem encode_injective : Function.Injective encode := by
  intro left right same
  have insides : inside left = inside right := enclose_injective same
  have bodies := congrArg unstuff insides
  rw [inside, inside, unstuff_stuff, unstuff_stuff] at bodies
  exact (List.append_inj' bodies rfl).1

end Frame

namespace Deframer

variable {capacity : Nat}

/-- The flag behind a segment brings the payload, where a flag stands in front of
the segment too. -/
def Delivers (deframer : Deframer capacity) (segment payload : Bytes) : Prop :=
  ((deframer.after (Frame.flag :: segment)).push Frame.flag).1 = some (.frame payload)

instance (deframer : Deframer capacity) (segment payload : Bytes) :
    Decidable (deframer.Delivers segment payload) :=
  inferInstanceAs (Decidable (_ = _))

/-- An accepted frame is its payload and the trailer of that payload. -/
theorem frame_eq_of_verdict {frame payload : Bytes}
    (longer : Frame.trailerLength ≤ frame.length)
    (accepted : verdict frame = .frame payload) :
    frame = payload ++ Frame.trailer payload := by
  obtain ⟨message, trailer, rfl, length⟩ := Frame.exists_trailer longer
  rw [verdict_append message trailer length] at accepted
  split at accepted
  · next same =>
      cases accepted
      match trailer, length with
      | [low, high], _ =>
          obtain ⟨rfl, rfl⟩ := (Checksum.ofLittleEndian_eq_iff _ low high).mp same.symm
          rfl
  · cases accepted

/-- What came in front of the first flag does not matter. -/
theorem Delivers.after_begun {deframer : Deframer capacity} {segment payload : Bytes}
    (delivers : deframer.Delivers segment payload) :
    (((begun : Deframer capacity).after segment).push Frame.flag).1 =
      some (.frame payload) := by
  rwa [Delivers, after_cons, push_flag_snd] at delivers

theorem Delivers.fits {deframer : Deframer capacity} {segment payload : Bytes}
    (delivers : deframer.Delivers segment payload) :
    payload.length + Frame.trailerLength ≤ capacity := by
  have fromNew : (((new : Deframer capacity).after (Frame.flag :: segment)).push
      Frame.flag).1 = some (.frame payload) := delivers.after_begun
  exact length_payload_le fromNew

/-- The segment stores the payload and its trailer. -/
theorem Delivers.unstuff_eq {deframer : Deframer capacity} {segment payload : Bytes}
    (delivers : deframer.Delivers segment payload) (flagFree : Frame.flag ∉ segment) :
    Frame.unstuff segment = payload ++ Frame.trailer payload := by
  have brought : closing capacity segment = some (.frame payload) := by
    have behind := delivers.after_begun
    rwa [Deframer.after_begun flagFree, push_flag_within segment flagFree] at behind
  obtain ⟨accepted, length⟩ := closing_eq_frame brought
  apply frame_eq_of_verdict _ accepted
  omega

/-- The canonical segment that brings a payload is what a sender puts between the
flags. -/
theorem Delivers.canonical_iff {deframer : Deframer capacity} {segment payload : Bytes}
    (delivers : deframer.Delivers segment payload) (flagFree : Frame.flag ∉ segment) :
    Frame.Canonical segment ↔ segment = Frame.inside payload := by
  have restored := Frame.canonical_iff_stuff_unstuff flagFree
  rw [delivers.unstuff_eq flagFree] at restored
  exact restored.trans eq_comm

/-- The frame of a payload that fits brings it at its last byte, and nothing before;
only its first flag may still end what came before it. -/
theorem outcomes_encode (deframer : Deframer capacity) {payload : Bytes}
    (notEmpty : payload ≠ []) (fits : payload.length + Frame.trailerLength ≤ capacity) :
    deframer.outcomes (Frame.encode payload) =
      (deframer.push Frame.flag).1 ::
        (List.replicate (Frame.inside payload).length none ++ [some (.frame payload)]) := by
  have notTooLong : ¬capacity < payload.length + Frame.trailerLength := Nat.not_lt.mpr fits
  have form : Frame.encode payload =
      Frame.flag :: (Frame.inside payload ++ [Frame.flag]) := rfl
  rw [form, outcomes_cons, push_flag_snd, outcomes_frame, answer, if_neg notTooLong,
    if_neg notEmpty]

theorem events_encode {deframer : Deframer capacity} {payload : Bytes}
    (silent : (deframer.push Frame.flag).1 = none) (notEmpty : payload ≠ [])
    (fits : payload.length + Frame.trailerLength ≤ capacity) :
    deframer.events (Frame.encode payload) = [.frame payload] := by
  rw [events, outcomes_encode deframer notEmpty fits, silent]
  simp

/-- A delivered payload that is encoded again is delivered again: a fresh deframer
makes nothing else of the new frame, nor does one behind a flag, and in any state only
the first flag may still end something older.  The new frame is the segment between
its flags exactly if the segment is canonical.  So no two canonical segments bring the
same payload, whatever deframers read them, and no two payloads have the same frame. -/
theorem encode_restores_canonical :
    (∀ capacity (deframer other : Deframer capacity) segment payload,
      Frame.flag ∉ segment → deframer.Delivers segment payload →
        (new : Deframer capacity).events (Frame.encode payload) = [.frame payload] ∧
          (other.push Frame.flag).2.events (Frame.encode payload) = [.frame payload] ∧
          other.outcomes (Frame.encode payload) =
            (other.push Frame.flag).1 ::
              (List.replicate (Frame.inside payload).length none ++
                [some (.frame payload)]) ∧
          (Frame.enclose segment = Frame.encode payload ↔ Frame.Canonical segment)) ∧
      (∀ capacity otherCapacity (deframer : Deframer capacity)
          (other : Deframer otherCapacity) segment otherSegment payload,
        Frame.flag ∉ segment → Frame.flag ∉ otherSegment →
        Frame.Canonical segment → Frame.Canonical otherSegment →
        deframer.Delivers segment payload → other.Delivers otherSegment payload →
        segment = otherSegment) ∧
      Function.Injective Frame.encode := by
  refine ⟨?_, ?_, Frame.encode_injective⟩
  · intro capacity deframer other segment payload flagFree delivers
    have notEmpty := payload_ne_nil delivers
    have fits := delivers.fits
    have behindFlag : ((other.push Frame.flag).2.push Frame.flag).1 = none := by
      rw [push_flag_snd]
      rfl
    have sameInside : Frame.enclose segment = Frame.encode payload ↔
        segment = Frame.inside payload := Frame.enclose_injective.eq_iff
    exact ⟨events_encode rfl notEmpty fits, events_encode behindFlag notEmpty fits,
      outcomes_encode other notEmpty fits,
      sameInside.trans (delivers.canonical_iff flagFree).symm⟩
  · intro capacity otherCapacity deframer other segment otherSegment payload
      flagFree otherFree canonical otherCanonical delivers otherDelivers
    have first := (delivers.canonical_iff flagFree).mp canonical
    have second := (otherDelivers.canonical_iff otherFree).mp otherCanonical
    exact first.trans second.symm

/-- An escape that nothing needed is accepted, but no sender puts it on the line; an
escaped flag is what every sender writes. -/
theorem needless_escape_is_not_restored :
    Frame.flag ∉ ([0x41, 0x7D, 0xD5, 0xA3] : Bytes) ∧
      (new : Deframer 3).Delivers [0x41, 0x7D, 0xD5, 0xA3] [0x41] ∧
      Frame.enclose [0x41, 0x7D, 0xD5, 0xA3] ≠ Frame.encode [0x41] ∧
      Frame.flag ∉ ([0x7D, 0x5E, 0x81, 0x6A] : Bytes) ∧
      Frame.Canonical [0x7D, 0x5E, 0x81, 0x6A] ∧
      (new : Deframer 3).Delivers [0x7D, 0x5E, 0x81, 0x6A] [0x7E] ∧
      (begun : Deframer 200).Delivers (Frame.inside [0x7E]) [0x7E] ∧
      [0x7D, 0x5E, 0x81, 0x6A] = Frame.inside [0x7E] := by
  have needlessFree : Frame.flag ∉ ([0x41, 0x7D, 0xD5, 0xA3] : Bytes) := by decide
  have needless : (new : Deframer 3).Delivers [0x41, 0x7D, 0xD5, 0xA3] [0x41] := by
    decide +kernel
  have notCanonical : ¬Frame.Canonical [0x41, 0x7D, 0xD5, 0xA3] := by decide
  have flagFree : Frame.flag ∉ ([0x7D, 0x5E, 0x81, 0x6A] : Bytes) := by decide
  have canonical : Frame.Canonical [0x7D, 0x5E, 0x81, 0x6A] := by decide
  have delivers : (new : Deframer 3).Delivers [0x7D, 0x5E, 0x81, 0x6A] [0x7E] := by
    decide +kernel
  have written : (begun : Deframer 200).Delivers (Frame.inside [0x7E]) [0x7E] := by
    decide +kernel
  obtain ⟨restored, unique, _⟩ := encode_restores_canonical
  refine ⟨needlessFree, needless, ?_, flagFree, canonical, delivers, written, ?_⟩
  · intro same
    obtain ⟨_, _, _, unchanged⟩ := restored 3 new new _ _ needlessFree needless
    exact notCanonical (unchanged.mp same)
  · exact unique 3 200 new begun _ _ _ flagFree (Frame.flag_not_mem_inside _) canonical
      (Frame.canonical_stuff _) delivers written

end Deframer

end FramedSerial
