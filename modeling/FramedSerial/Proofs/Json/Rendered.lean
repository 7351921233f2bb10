import FramedSerial.Json.Object
import FramedSerial.Json.Skipping
import FramedSerial.Json.Word

/-!
# Reading what has been written

A number is written with its decimal digits and no zeros in front of them, a name with
bytes that need no escapes.  Both are read back to the byte behind them, whatever comes
there as long as a number could not go on with it.
-/

namespace FramedSerial

namespace Json

section

variable {α β : Type} {bound limit : Nat} {value : α} {rest left : Bytes}

/-- A value is read, and this is what is left of the text. -/
def Reads (outcome : Except Fault (Taken α bound)) (value : α) (rest : Bytes) : Prop :=
  ∃ shorter, outcome = .ok ⟨value, rest, shorter⟩

theorem reads_ok {found : α} {shorter : left.length < bound} (sameValue : found = value)
    (sameRest : left = rest) :
    Reads (.ok ⟨found, left, shorter⟩ : Except Fault (Taken α bound)) value rest := by
  subst sameValue sameRest
  exact ⟨shorter, rfl⟩

variable {outcome : Except Fault (Taken α bound)} {later : β}

/-- What comes next goes on with what is left. -/
theorem Reads.bind (reads : Reads outcome value rest)
    {next : Taken α bound → Except Fault (Taken β limit)}
    (continues : ∀ shorter, Reads (next ⟨value, rest, shorter⟩) later left) :
    Reads (outcome >>= next) later left := by
  obtain ⟨shorter, rfl⟩ := reads
  exact continues shorter

theorem Reads.map (reads : Reads outcome value rest)
    {function : Taken α bound → Taken β limit}
    (carried : ∀ shorter, (function ⟨value, rest, shorter⟩).value = later ∧
      (function ⟨value, rest, shorter⟩).rest = rest) :
    Reads (outcome.map function) later rest := by
  obtain ⟨shorter, rfl⟩ := reads
  obtain ⟨sameValue, sameRest⟩ := carried shorter
  exact reads_ok sameValue sameRest

end

/-! ### The bytes of a text -/

def bytes (text : String) : Bytes :=
  text.toUTF8.toList

theorem toList_loop (array : ByteArray) (index : Nat) (front : Bytes) :
    ByteArray.toList.loop array index front =
      front.reverse ++ array.data.toList.drop index := by
  fun_induction ByteArray.toList.loop array index front with
  | case1 index front inside induction =>
      have below : index < array.data.toList.length := by simpa using inside
      have first : array.get! index = array.data.toList[index] :=
        getElem!_pos array.data index inside
      rw [induction, List.drop_eq_getElem_cons below, first, List.reverse_cons,
        List.append_assoc, List.singleton_append]
  | case2 index front outside =>
      have none : array.data.toList.drop index = [] :=
        List.drop_eq_nil_of_le (by simpa using outside)
      rw [none, List.append_nil]

theorem bytes_eq (text : String) : bytes text = text.toByteArray.data.toList := by
  rw [bytes, ByteArray.toList, toList_loop]
  rfl

theorem bytes_injective {first second : String} (same : bytes first = bytes second) :
    first = second := by
  rw [bytes_eq, bytes_eq] at same
  exact String.toByteArray_inj.mp (ByteArray.ext (Array.toList_inj.mp same))

theorem bytes_append (front back : String) :
    bytes (front ++ back) = bytes front ++ bytes back := by
  rw [bytes_eq, bytes_eq, bytes_eq, String.toByteArray_append,
    ByteArray.toList_data_append]

theorem bytes_ofList (letters : List Char) :
    bytes (String.ofList letters) = letters.flatMap String.utf8EncodeChar := by
  rw [bytes_eq, String.toByteArray_ofList, List.utf8Encode, List.toList_data_toByteArray]

/-! ### Digits -/

def digit (value : Nat) : UInt8 :=
  0x30 + UInt8.ofNat value

/-- The digits with which a number is written. -/
def digits (number : Nat) : Bytes :=
  bytes (toString number)

theorem utf8EncodeChar_digitChar :
    ∀ value < 10, String.utf8EncodeChar (Nat.digitChar value) = [digit value] := by
  decide

theorem digits_eq (number : Nat) :
    digits number =
      if number < 10 then [digit number]
      else digits (number / 10) ++ [digit (number % 10)] := by
  have written : ∀ number, digits number =
      (Nat.toDigits 10 number).flatMap String.utf8EncodeChar := fun number =>
    bytes_ofList (Nat.toDigits 10 number)
  rw [written, written, Nat.toDigits_eq_if (by decide)]
  split
  · next small => simp [utf8EncodeChar_digitChar number small]
  · have last := utf8EncodeChar_digitChar (number % 10) (Nat.mod_lt _ (by decide))
    simp [last]

/-- A number of one digit, or one digit behind those of a smaller number. -/
theorem digits_induction {motive : Nat → Bytes → Prop}
    (single : ∀ number, number < 10 → motive number [digit number])
    (longer : ∀ number, 10 ≤ number → motive (number / 10) (digits (number / 10)) →
      motive number (digits (number / 10) ++ [digit (number % 10)]))
    (number : Nat) : motive number (digits number) := by
  induction number using Nat.strongRecOn with
  | ind number induction =>
      rw [digits_eq]
      split
      · next small => exact single number small
      · next large =>
          have atLeast : 10 ≤ number := Nat.le_of_not_lt large
          exact longer number atLeast (induction _ (by omega))

theorem isDigit_digit : ∀ value < 10, isDigit (digit value) = true := by
  decide

theorem toNat_digit : ∀ value < 10, (digit value).toNat - 0x30 = value := by
  decide

theorem ne_of_isDigit {byte mark : UInt8} (isDigitByte : isDigit byte = true)
    (noDigit : isDigit mark = false) : byte ≠ mark := by
  intro same
  rw [same, noDigit] at isDigitByte
  cases isDigitByte

theorem not_blank_of_isDigit {byte : UInt8} (isDigitByte : isDigit byte = true) :
    isBlank byte = false := by
  simp [isBlank, ne_of_isDigit isDigitByte (show isDigit 0x20 = false by decide),
    ne_of_isDigit isDigitByte (show isDigit 0x09 = false by decide),
    ne_of_isDigit isDigitByte (show isDigit 0x0A = false by decide),
    ne_of_isDigit isDigitByte (show isDigit 0x0D = false by decide)]

theorem not_opened_of_isDigit {byte : UInt8} (isDigitByte : isDigit byte = true) :
    Bracket.opened? byte = none := by
  rw [Bracket.opened?, if_neg (ne_of_isDigit isDigitByte (by decide)),
    if_neg (ne_of_isDigit isDigitByte (by decide))]

theorem startsNumeral_of_isDigit {byte : UInt8} (isDigitByte : isDigit byte = true) :
    startsNumeral byte = true := by
  rw [startsNumeral, isDigitByte, Bool.or_true]

theorem isDigit_of_mem_digits (number : Nat) : ∀ byte ∈ digits number, isDigit byte := by
  apply digits_induction (motive := fun _ digits => ∀ byte ∈ digits, isDigit byte)
  · intro number small byte member
    rw [List.mem_singleton.mp member]
    exact isDigit_digit number small
  · intro number _ induction byte member
    rcases List.mem_append.mp member with inFront | last
    · exact induction byte inFront
    · rw [List.mem_singleton.mp last]
      exact isDigit_digit _ (Nat.mod_lt _ (by decide))

theorem decimalValue_digits (number : Nat) : decimalValue (digits number) = number := by
  apply digits_induction (motive := fun number digits => decimalValue digits = number)
  · intro number small
    rw [decimalValue, List.foldl_cons, List.foldl_nil, toNat_digit number small,
      Nat.zero_mul, Nat.zero_add]
  · intro number _ induction
    have last := toNat_digit (number % 10) (Nat.mod_lt _ (by decide))
    rw [decimalValue] at induction ⊢
    rw [List.foldl_append, induction, List.foldl_cons, List.foldl_nil, last]
    exact Nat.div_add_mod' number 10

theorem exists_first_digit (number : Nat) :
    ∃ first rest, digits number = first :: rest ∧ (first = 0x30 → number = 0) := by
  apply digits_induction (motive := fun number digits =>
    ∃ first rest, digits = first :: rest ∧ (first = 0x30 → number = 0))
  · intro number small
    refine ⟨digit number, [], rfl, fun isZero => ?_⟩
    rw [← toNat_digit number small, isZero]
    rfl
  · intro number large ⟨first, rest, written, zero⟩
    refine ⟨first, rest ++ [digit (number % 10)], ?_, fun isZero => ?_⟩
    · rw [written]
      rfl
    · have smaller := zero isZero
      omega

/-- No other digit stands behind a zero in front. -/
theorem digits_eq_cons (number : Nat) :
    ∃ first rest, digits number = first :: rest ∧ isDigit first = true ∧
      (first = 0x30 → rest = []) := by
  obtain ⟨first, rest, written, zero⟩ := exists_first_digit number
  refine ⟨first, rest, written, ?_, fun isZero => ?_⟩
  · apply isDigit_of_mem_digits number
    rw [written]
    exact .head rest
  · have single : digits number = [0x30] := by
      rw [zero isZero, digits_eq, if_pos (by decide)]
      rfl
    rw [single] at written
    exact (List.cons.inj written).2.symm

/-! ### Reading numbers -/

/-- A number cannot go on with what comes next. -/
def EndsNumber (later : Bytes) : Prop :=
  ∀ byte rest, later = byte :: rest →
    isDigit byte = false ∧ byte ≠ 0x2E ∧ byte ≠ 0x65 ∧ byte ≠ 0x45

section

variable {later : Bytes}

theorem EndsNumber.noDigits (ends : EndsNumber later) :
    later.takeWhile isDigit = [] ∧ later.dropWhile isDigit = later := by
  cases later with
  | nil => exact ⟨rfl, rfl⟩
  | cons byte rest =>
      obtain ⟨noDigit, _⟩ := ends byte rest rfl
      simp [noDigit]

theorem readDigits_reads (atEnd : Fault) (number : Nat) (ends : EndsNumber later) :
    Reads (readDigits atEnd (digits number ++ later)) (digits number) later := by
  obtain ⟨first, rest, written, isFirst, _⟩ := digits_eq_cons number
  have allDigits : ∀ byte ∈ rest, isDigit byte := by
    intro byte member
    apply isDigit_of_mem_digits number
    rw [written]
    exact .tail first member
  obtain ⟨noneTaken, allLeft⟩ := ends.noDigits
  rw [written, List.cons_append, readDigits, if_pos isFirst]
  apply reads_ok
  · rw [List.takeWhile_append_of_pos allDigits, noneTaken, List.append_nil]
  · rw [List.dropWhile_append_of_pos allDigits, allLeft]

theorem readWhole_reads (atEnd : Fault) (number : Nat) (ends : EndsNumber later) :
    Reads (readWhole atEnd (digits number ++ later)) (digits number) later := by
  obtain ⟨first, rest, written, _, zero⟩ := digits_eq_cons number
  rw [readWhole]
  apply (readDigits_reads atEnd number ends).bind
  intro shorter
  dsimp only
  split
  · next second more zeroFirst =>
      rw [written] at zeroFirst
      obtain ⟨isZero, others⟩ := List.cons.inj zeroFirst
      cases (zero isZero).symm.trans others
  · exact ⟨shorter, rfl⟩

theorem readFraction_reads (atEnd : Fault) (ends : EndsNumber later) :
    Reads (readFraction atEnd later) none later := by
  unfold readFraction
  split
  · next rest =>
      obtain ⟨_, noPoint, _⟩ := ends _ rest rfl
      exact absurd rfl noPoint
  · exact ⟨_, rfl⟩

theorem readExponent_reads (atEnd : Fault) (ends : EndsNumber later) :
    Reads (readExponent atEnd later) none later := by
  unfold readExponent
  split
  · exact ⟨_, rfl⟩
  · next first rest =>
      obtain ⟨_, _, noSmall, noLarge⟩ := ends first rest rfl
      rw [if_neg (not_or.mpr ⟨noSmall, noLarge⟩)]
      exact ⟨_, rfl⟩

/-- A number as it is written: without sign, point and exponent. -/
def plain (number : Nat) : Numeral :=
  ⟨false, digits number, none, none⟩

theorem readUnsigned_reads (atEnd : Fault) (number : Nat) (ends : EndsNumber later) :
    Reads (readUnsigned atEnd false (digits number ++ later)) (plain number) later := by
  rw [readUnsigned]
  apply (readWhole_reads atEnd number ends).bind
  intro _
  apply (readFraction_reads atEnd ends).bind
  intro _
  apply (readExponent_reads atEnd ends).bind
  intro _
  exact ⟨_, rfl⟩

theorem readLiteral_of_unsigned {atEnd : Fault} {text : Bytes} {numeral : Numeral}
    (noMinus : ∀ rest, text ≠ 0x2D :: rest)
    (unsigned : Reads (readUnsigned atEnd false text) numeral later) :
    Reads (readLiteral atEnd text) numeral later := by
  unfold readLiteral
  split
  · next rest => exact absurd rfl (noMinus rest)
  · exact unsigned

theorem readLiteral_reads (atEnd : Fault) (number : Nat) (ends : EndsNumber later) :
    Reads (readLiteral atEnd (digits number ++ later)) (plain number) later := by
  apply readLiteral_of_unsigned
  · intro rest minus
    obtain ⟨first, others, written, isFirst, _⟩ := digits_eq_cons number
    rw [written] at minus
    exact ne_of_isDigit isFirst (by decide) (List.cons.inj minus).1
  · exact readUnsigned_reads atEnd number ends

theorem skipNumeral_reads (number : Nat) (ends : EndsNumber later) :
    Reads (skipNumeral (digits number ++ later)) () later :=
  (readLiteral_reads .malformed number ends).map fun _ => ⟨rfl, rfl⟩

/-- The value that digits lead to behind others of the given value. -/
def valueBehind (front : Nat) (digits : Bytes) : Nat :=
  digits.foldl (fun value digit => value * 10 + (digit.toNat - 0x30)) front

theorem le_valueBehind (front : Nat) (digits : Bytes) : front ≤ valueBehind front digits := by
  induction digits generalizing front with
  | nil => exact Nat.le_refl front
  | cons digit rest induction =>
      have further := induction (front * 10 + (digit.toNat - 0x30))
      rw [valueBehind, List.foldl_cons]
      rw [valueBehind] at further
      omega

/-- No digit is left over from a number that the significand can hold. -/
theorem appendDigits_of_le {front : Nat} {digits : Bytes}
    (fits : valueBehind front digits ≤ Numeral.significandLimit) :
    Numeral.appendDigits front digits = (valueBehind front digits, 0) := by
  induction digits generalizing front with
  | nil => rfl
  | cons digit rest induction =>
      rw [valueBehind, List.foldl_cons] at fits ⊢
      have within := Nat.le_trans (le_valueBehind _ rest) fits
      rw [Numeral.appendDigits, if_pos within]
      exact induction fits

theorem scientific_plain {number : Nat} (fits : number ≤ Numeral.significandLimit) :
    (plain number).scientific = (number, 0) := by
  have value : valueBehind 0 (digits number) = number := decimalValue_digits number
  have appended : Numeral.appendDigits 0 (digits number) = (number, 0) := by
    rw [← value] at fits
    rw [appendDigits_of_le fits, value]
  simp [Numeral.scientific, plain, appended, Numeral.appendDigits]

theorem overflows_plain {number : Nat} (small : number < Nat.pow 2 32) :
    (plain number).overflows = false := by
  have significand : Nat.pow 2 32 ≤ Numeral.significandLimit := by decide
  have mantissa : Nat.pow 2 32 ≤ Nat.pow 2 53 := by decide
  have threshold : Nat.pow 2 32 ≤ Numeral.overflowThreshold := by
    decide +kernel
  have rounded : Numeral.roundToDouble number = number :=
    if_pos (Nat.lt_of_lt_of_le small mantissa)
  have one : Numeral.roundToDouble (Nat.pow 10 0) = 1 := by decide
  have below : ¬Numeral.overflowThreshold ≤ number :=
    Nat.not_le_of_lt (Nat.lt_of_lt_of_le small threshold)
  have scientific :=
    scientific_plain (Nat.le_of_lt (Nat.lt_of_lt_of_le small significand))
  have noPower : decide (Numeral.largestPower < 0) = false := rfl
  simp only [Numeral.overflows, scientific, Int.toNat_zero, rounded, one, Nat.mul_one,
    decide_eq_false below, noPower, Bool.or_false, Bool.and_false]

theorem word?_plain {number : Nat} (small : number < Nat.pow 2 32) :
    (plain number).word? = some (UInt32.ofNat number) := by
  simp [Numeral.word?, plain, decimalValue_digits, small]

theorem readNext_reads {byte : UInt8} (notBlank : isBlank byte = false) (rest : Bytes) :
    Reads (readNext (byte :: rest)) byte rest := by
  have same : dropBlanks (byte :: rest) = byte :: rest := by
    rw [dropBlanks, List.dropWhile_cons_of_neg (by simp [notBlank])]
  unfold readNext
  split
  · next none => cases same.symm.trans none
  · next next left blanks =>
      obtain ⟨rfl, rfl⟩ := List.cons.inj (same.symm.trans blanks)
      exact ⟨_, rfl⟩

theorem readNumeral_reads {number : Nat} (small : number < Nat.pow 2 32)
    (ends : EndsNumber later) :
    Reads (readNumeral (digits number ++ later)) (plain number) later := by
  rw [readNumeral]
  apply (readLiteral_reads .truncated number ends).bind
  intro shorter
  dsimp only
  rw [overflows_plain small]
  exact ⟨shorter, rfl⟩

theorem readWord_reads {number : Nat} (small : number < Nat.pow 2 32)
    (ends : EndsNumber later) :
    Reads (readWord (digits number ++ later)) (UInt32.ofNat number) later := by
  obtain ⟨first, rest, written, isFirst, _⟩ := digits_eq_cons number
  have numeral := readNumeral_reads small ends
  rw [written, List.cons_append] at numeral ⊢
  rw [readWord]
  apply (readNext_reads (not_blank_of_isDigit isFirst) _).bind
  intro _
  rw [if_pos (startsNumeral_of_isDigit isFirst)]
  apply numeral.bind
  intro shorter
  dsimp only
  rw [word?_plain small]
  exact ⟨_, rfl⟩

theorem skipValue_reads (number : Nat) (ends : EndsNumber later) :
    Reads (skipValue (digits number ++ later)) () later := by
  obtain ⟨first, rest, written, isFirst, _⟩ := digits_eq_cons number
  have numeral := skipNumeral_reads number ends
  rw [written, List.cons_append] at numeral ⊢
  have scalar : Reads (skipScalar first (rest ++ later)) () later := by
    rw [skipScalar, if_neg (ne_of_isDigit isFirst (by decide)),
      if_pos (startsNumeral_of_isDigit isFirst)]
    exact numeral
  rw [skipValue, skipFrom]
  apply (readNext_reads (not_blank_of_isDigit isFirst) _).bind
  intro _
  dsimp only
  rw [not_opened_of_isDigit isFirst]
  apply scalar.bind
  intro _
  rw [skipFrom]
  exact ⟨_, rfl⟩

end

/-! ### Reading names -/

/-- A name that is written as it is. -/
def NeedsNoEscapes (name : Bytes) : Prop :=
  ∀ byte ∈ name, byte ≠ quote ∧ byte ≠ backslash ∧ ¬byte < 0x20

instance (name : Bytes) : Decidable (NeedsNoEscapes name) :=
  List.decidableBAll _ name

theorem readQuoted_reads {name : Bytes} (needsNoEscapes : NeedsNoEscapes name)
    (later : Bytes) : Reads (readQuoted (name ++ quote :: later)) name later := by
  induction name with
  | nil =>
      rw [List.nil_append, readQuoted, if_pos rfl]
      exact ⟨_, rfl⟩
  | cons byte name induction =>
      obtain ⟨noQuote, noBackslash, noControl⟩ := needsNoEscapes byte (.head name)
      have tail := induction fun other member => needsNoEscapes other (.tail byte member)
      rw [List.cons_append, readQuoted, if_neg noQuote, if_neg noBackslash,
        if_neg noControl]
      apply tail.bind
      intro _
      exact ⟨_, rfl⟩

theorem readColon_reads (later : Bytes) : Reads (readColon (colon :: later)) () later := by
  rw [readColon]
  apply (readNext_reads (by decide) later).bind
  intro _
  exact ⟨_, rfl⟩

/-! ### Members of objects -/

/-- What stands behind the value of a member: the other members and the bracket. -/
def behindMember : List (String × Nat) → Bytes
  | [] => [Bracket.curly.closing]
  | (name, number) :: rest =>
      comma :: quote :: (bytes name ++ quote :: colon :: (digits number ++ behindMember rest))

theorem endsNumber_behindMember (members : List (String × Nat)) :
    EndsNumber (behindMember members) := by
  intro byte rest first
  cases members with
  | nil =>
      cases first
      decide
  | cons member members =>
      cases first
      decide

theorem bytes_renderMember (name : String) (number : Nat) :
    bytes (renderMember (name, number)) =
      quote :: (bytes name ++ quote :: colon :: digits number) := by
  have opening : bytes "\"" = [quote] := bytes_eq _
  have behind : bytes "\":" = [quote, colon] := bytes_eq _
  rw [renderMember, bytes_append, bytes_append, bytes_append, opening, behind]
  simp [digits]

theorem bytes_renderObject (name : String) (number : Nat) (rest : List (String × Nat)) :
    bytes (renderObject ((name, number) :: rest)) =
      Bracket.curly.opening :: quote ::
        (bytes name ++ quote :: colon :: (digits number ++ behindMember rest)) := by
  have opening : bytes "\x7b" = [Bracket.curly.opening] := bytes_eq _
  have closing : bytes "\x7d" = [Bracket.curly.closing] := bytes_eq _
  have mark : bytes "," = [comma] := bytes_eq _
  have members : bytes (",".intercalate (((name, number) :: rest).map renderMember)) ++
      [Bracket.curly.closing] =
        quote :: (bytes name ++ quote :: colon :: (digits number ++ behindMember rest)) := by
    induction rest generalizing name number with
    | nil =>
        rw [List.map_cons, List.map_nil, String.intercalate_singleton, bytes_renderMember]
        simp [behindMember]
    | cons member rest induction =>
        obtain ⟨otherName, otherNumber⟩ := member
        have later := induction otherName otherNumber
        rw [List.map_cons] at later
        rw [List.map_cons, List.map_cons, String.intercalate_cons_cons, bytes_append,
          bytes_append, List.append_assoc, later, bytes_renderMember, mark]
        simp [behindMember]
  rw [renderObject, bytes_append, bytes_append, opening, closing, List.append_assoc,
    members]
  rfl

end Json

end FramedSerial
