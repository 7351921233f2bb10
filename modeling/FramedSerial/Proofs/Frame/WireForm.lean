import FramedSerial.Proofs.Frame.Trains
import Mathlib.Data.List.Induction

/-!
# What a stuffed run looks like

In a stuffed run every escape stands in front of one of two bytes, the flag and
the escape with one bit turned.  A run with this property is called canonical.
Among the runs without flags the canonical ones are all that stuffing makes: the
bytes of a run without its escapes, stuffed again, are the run if it is canonical,
and only then.

The frame of a payload is canonical, with a flag at either end and none between,
and its length can be read off the payload and its checksum.
-/

namespace FramedSerial

namespace Frame

/-- What may stand behind an escape. -/
def EscapedForm (byte? : Option UInt8) : Prop :=
  byte? = some 0x5E ∨ byte? = some 0x5D

instance (byte? : Option UInt8) : Decidable (EscapedForm byte?) :=
  inferInstanceAs (Decidable (_ ∨ _))

/-- Every escape stands directly in front of an escaped flag or an escaped escape. -/
def Canonical (data : Bytes) : Prop :=
  ∀ front back, data = front ++ escape :: back → EscapedForm back.head?

theorem canonical_nil : Canonical [] := by
  intro front back split
  cases front with
  | nil => cases split
  | cons _ _ => cases split

theorem canonical_cons_iff (byte : UInt8) (rest : Bytes) :
    Canonical (byte :: rest) ↔ (byte = escape → EscapedForm rest.head?) ∧ Canonical rest := by
  constructor
  · intro canonical
    refine ⟨?_, ?_⟩
    · rintro rfl
      exact canonical [] rest rfl
    · rintro front back rfl
      exact canonical (byte :: front) back rfl
  · rintro ⟨first, later⟩ front back split
    cases front with
    | nil =>
        cases split
        exact first rfl
    | cons _ front =>
        cases split
        exact later front back rfl

instance decidableCanonical : (data : Bytes) → Decidable (Canonical data)
  | [] => isTrue canonical_nil
  | byte :: rest =>
      have := decidableCanonical rest
      decidable_of_iff' _ (canonical_cons_iff byte rest)

theorem canonical_cons_of_ne {byte : UInt8} {rest : Bytes} (different : byte ≠ escape) :
    Canonical (byte :: rest) ↔ Canonical rest := by
  simp [canonical_cons_iff, different]

theorem Canonical.stuffByte_append {rest : Bytes} (canonical : Canonical rest)
    (byte : UInt8) : Canonical (stuffByte byte ++ rest) := by
  by_cases isReserved : reserved byte = true
  · have behind : byte ^^^ escapeMask ≠ escape ∧
        EscapedForm (some (byte ^^^ escapeMask)) := by
      rcases reserved_cases isReserved with rfl | rfl
      · exact ⟨by decide, .inl rfl⟩
      · exact ⟨by decide, .inr rfl⟩
    have later := (canonical_cons_of_ne behind.1).mpr canonical
    have both := (canonical_cons_iff escape ((byte ^^^ escapeMask) :: rest)).mpr
      ⟨fun _ => behind.2, later⟩
    simpa [stuffByte, isReserved] using both
  · have alone := (canonical_cons_of_ne (plain_cases isReserved).2).mpr canonical
    simpa [stuffByte, isReserved] using alone

theorem Canonical.stuff_append {rest : Bytes} (canonical : Canonical rest)
    (data : Bytes) : Canonical (stuff data ++ rest) := by
  induction data with
  | nil => exact canonical
  | cons byte data induction =>
      have first := induction.stuffByte_append byte
      simpa using first

theorem canonical_stuff (data : Bytes) : Canonical (stuff data) := by
  simpa using canonical_nil.stuff_append data

theorem canonical_encode (payload : Bytes) : Canonical (encode payload) := by
  have last : Canonical [flag] := (canonical_cons_of_ne (by decide)).mpr canonical_nil
  have behind := last.stuff_append (payload ++ trailer payload)
  exact (canonical_cons_of_ne (by decide)).mpr behind

theorem unstuff_cons_of_ne {byte : UInt8} (different : byte ≠ escape) (rest : Bytes) :
    unstuff (byte :: rest) = byte :: unstuff rest := by
  simp [unstuff, unstuffFrom, different]

theorem unstuff_escape_cons {byte : UInt8} (different : byte ≠ escape) (rest : Bytes) :
    unstuff (escape :: byte :: rest) = (byte ^^^ escapeMask) :: unstuff rest := by
  simp [unstuff, unstuffFrom, different]

/-- The bytes of a canonical run determine it. -/
theorem Canonical.stuff_unstuff {data : Bytes} (canonical : Canonical data)
    (flagFree : flag ∉ data) : stuff (unstuff data) = data := by
  -- An escape and the byte behind it become one byte, so the induction goes by two.
  induction data using List.twoStepInduction with
  | nil => rfl
  | singleton byte =>
      by_cases isEscape : byte = escape
      · have behind := (canonical_cons_iff byte []).mp canonical |>.1 isEscape
        simp [EscapedForm] at behind
      · have notFlag : byte ≠ flag := by
          rintro rfl
          exact flagFree List.mem_cons_self
        simp [unstuff_cons_of_ne isEscape, stuffByte, reserved, isEscape, notFlag]
  | cons_cons byte next rest induction inductionNext =>
      have restFree : flag ∉ next :: rest := fun member =>
        flagFree (List.mem_cons_of_mem byte member)
      obtain ⟨behind, later⟩ := (canonical_cons_iff byte (next :: rest)).mp canonical
      by_cases isEscape : byte = escape
      · have forms : next = 0x5E ∨ next = 0x5D := by
          simpa [EscapedForm] using behind isEscape
        have nextPlain : next ≠ escape := by
          rcases forms with rfl | rfl
          · decide
          · decide
        have restored : stuffByte (next ^^^ escapeMask) = [escape, next] := by
          rcases forms with rfl | rfl
          · decide
          · decide
        have restCanonical := (canonical_cons_of_ne nextPlain).mp later
        have rest := induction restCanonical fun member =>
          restFree (List.mem_cons_of_mem next member)
        rw [isEscape, unstuff_escape_cons nextPlain, stuff_cons, restored, rest]
        rfl
      · have notFlag : byte ≠ flag := by
          rintro rfl
          exact flagFree List.mem_cons_self
        have rest := inductionNext next later restFree
        simp [unstuff_cons_of_ne isEscape, rest, stuffByte, reserved, isEscape, notFlag]

theorem canonical_iff_stuff_unstuff {data : Bytes} (flagFree : flag ∉ data) :
    Canonical data ↔ stuff (unstuff data) = data := by
  constructor
  · intro canonical
    exact canonical.stuff_unstuff flagFree
  · intro restored
    have canonical := canonical_stuff (unstuff data)
    rwa [restored] at canonical

theorem length_encode (payload : Bytes) :
    (encode payload).length =
      4 + payload.length + (payload ++ trailer payload).countP reserved := by
  have body : (payload ++ trailer payload).length = payload.length + trailerLength :=
    List.length_append
  have inside := length_stuff (payload ++ trailer payload)
  simp only [encode, List.length_append, List.length_cons, List.length_nil, trailerLength]
    at body inside ⊢
  omega

/-- The frame of every payload has a flag at either end and no other flag, and what
stands behind an escape in it is an escaped flag or an escaped escape.  It takes
four bytes and one for each byte of the payload, and one more for each reserved
byte of the payload and its checksum; so the worst length is reached if all of
these are reserved, and only then. -/
theorem encode_wire_form (payload : Bytes) :
    (∃ inside, encode payload = flag :: inside ++ [flag] ∧ flag ∉ inside) ∧
      Canonical (encode payload) ∧
      (encode payload).length =
        4 + payload.length + (payload ++ trailer payload).countP reserved ∧
      payload.length + 4 ≤ (encode payload).length ∧
      (encode payload).length ≤ maxEncodedLength payload.length ∧
      ((encode payload).length = maxEncodedLength payload.length ↔
        ∀ byte ∈ payload ++ trailer payload, reserved byte = true) := by
  have length := length_encode payload
  have body : (payload ++ trailer payload).length = payload.length + 2 :=
    List.length_append
  refine ⟨?_, canonical_encode payload, length, by omega, length_encode_le payload, ?_⟩
  · exact ⟨inside payload, rfl, flag_not_mem_inside payload⟩
  · have allReserved : (payload ++ trailer payload).countP reserved =
        (payload ++ trailer payload).length ↔
          ∀ byte ∈ payload ++ trailer payload, reserved byte = true :=
      List.countP_eq_length
    have worst : maxEncodedLength payload.length =
        4 + payload.length + (payload ++ trailer payload).length := by
      simp only [maxEncodedLength, trailerLength]
      omega
    rw [← allReserved, length, worst]
    omega

end Frame

end FramedSerial
