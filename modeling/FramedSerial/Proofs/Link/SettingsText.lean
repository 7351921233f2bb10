import FramedSerial.Link.Settings
import FramedSerial.Proofs.Json.Rendered

/-!
# Settings are read back

The settings of a link are read back from the text that they are written as.  More than
that, the settling time may stand in an object among any other members, as long as it
stands there once; the other members are skipped, whatever numbers they hold.
-/

namespace FramedSerial

namespace Link

namespace Settings

open Json

/-- The numbers that an object gives for the settling time. -/
def settlingTimes (members : List (String × Nat)) : List Nat :=
  (members.filter fun member => member.1 = settleSpinsName).map Prod.snd

theorem settlingTimes_cons_of_known (number : Nat) (rest : List (String × Nat)) :
    settlingTimes ((settleSpinsName, number) :: rest) = number :: settlingTimes rest := by
  simp [settlingTimes]

theorem settlingTimes_cons_of_unknown {name : String} (unknown : name ≠ settleSpinsName)
    (number : Nat) (rest : List (String × Nat)) :
    settlingTimes ((name, number) :: rest) = settlingTimes rest := by
  simp [settlingTimes, unknown]

theorem beq_settleSpinsName (name : String) :
    (bytes name == settleSpinsName.toUTF8.toList) = decide (name = settleSpinsName) := by
  rw [Bool.eq_iff_iff, beq_iff_eq, decide_eq_true_iff]
  constructor
  · intro same
    exact bytes_injective same
  · intro same
    rw [same]
    rfl

/-- What is known of the settling time behind a member. -/
inductive Keeps (found : Option UInt32) (name : String) (number : Nat) :
    Option UInt32 → Prop where
  | settles : name = settleSpinsName → found = none → number < Nat.pow 2 32 →
      Keeps found name number (some (UInt32.ofNat number))
  | skips : name ≠ settleSpinsName → Keeps found name number found

section

variable {found kept : Option UInt32} {name : String} {number : Nat} {later : Bytes}
  {rest : List (String × Nat)} {spins : UInt32}

theorem Keeps.goesOn (keeps : Keeps found name number kept) :
    ¬(decide (name = settleSpinsName) && found.isSome) = true := by
  cases keeps with
  | settles _ noneFound _ => simp [noneFound]
  | skips unknown => simp [unknown]

theorem Keeps.reads (keeps : Keeps found name number kept) (ends : EndsNumber later) :
    Reads
      (readMemberValue (decide (name = settleSpinsName)) found (digits number ++ later))
      kept later := by
  cases keeps with
  | settles known _ small =>
      rw [readMemberValue, if_pos (decide_eq_true known)]
      exact (readWord_reads small ends).map fun _ => ⟨rfl, rfl⟩
  | skips unknown =>
      rw [readMemberValue, if_neg (by simp [unknown])]
      exact (skipValue_reads number ends).map fun _ => ⟨rfl, rfl⟩

/-- Where the settling time is given once, it is still known or given once behind each
member. -/
theorem exists_keeps
    (once : found.toList.map UInt32.toNat ++ settlingTimes ((name, number) :: rest) =
      [spins.toNat]) :
    ∃ kept, Keeps found name number kept ∧
      kept.toList.map UInt32.toNat ++ settlingTimes rest = [spins.toNat] := by
  by_cases known : name = settleSpinsName
  · rw [known, settlingTimes_cons_of_known] at once
    cases found with
    | some earlier => simp at once
    | none =>
        obtain ⟨isNumber, noOther⟩ := List.cons.inj once
        have small : number < Nat.pow 2 32 := by
          rw [isNumber]
          exact spins.toNat_lt
        refine ⟨_, .settles known rfl small, ?_⟩
        rw [noOther, isNumber, UInt32.ofNat_toNat]
        rfl
  · rw [settlingTimes_cons_of_unknown known] at once
    exact ⟨found, .skips known, once⟩

theorem eq_some_of_once (once : kept.toList.map UInt32.toNat ++ settlingTimes [] =
    [spins.toNat]) : kept = some spins := by
  cases kept with
  | none => cases once
  | some last => rw [UInt32.toNat_inj.mp (List.cons.inj once).1]

end

theorem readMembers_reads {found : Option UInt32} {name : String} {number : Nat}
    {rest : List (String × Nat)} {spins : UInt32}
    (names : ∀ member ∈ (name, number) :: rest, NeedsNoEscapes (bytes member.1))
    (once : found.toList.map UInt32.toNat ++ settlingTimes ((name, number) :: rest) =
      [spins.toNat]) :
    Reads
      (readMembers found
        (bytes name ++ quote :: colon :: (digits number ++ behindMember rest)))
      ⟨spins⟩ [] := by
  obtain ⟨kept, keeps, onceLater⟩ := exists_keeps once
  rw [readMembers]
  apply (readQuoted_reads (names _ (.head _)) _).bind
  intro _
  dsimp only
  rw [beq_settleSpinsName, if_neg keeps.goesOn]
  apply (readColon_reads _).bind
  intro _
  apply (keeps.reads (endsNumber_behindMember rest)).bind
  intro _
  -- What follows is the closing bracket, or a comma and another member.
  cases rest with
  | nil =>
      obtain rfl := eq_some_of_once onceLater
      apply (readNext_reads (by decide) _).bind
      intro _
      exact ⟨_, rfl⟩
  | cons other rest =>
      have later := readMembers_reads (fun member among => names member (.tail _ among))
        onceLater
      apply (readNext_reads (by decide) _).bind
      intro _
      dsimp only
      rw [if_neg (by decide), if_pos rfl]
      apply (readNext_reads (by decide) _).bind
      intro _
      rw [if_pos rfl]
      apply later.bind
      intro _
      exact ⟨_, rfl⟩
termination_by rest

section

variable {name : String} {number : Nat} {rest : List (String × Nat)} {spins : UInt32}

theorem readObject_reads
    (names : ∀ member ∈ (name, number) :: rest, NeedsNoEscapes (bytes member.1))
    (once : settlingTimes ((name, number) :: rest) = [spins.toNat]) :
    Reads
      (readObject
        (quote :: (bytes name ++ quote :: colon :: (digits number ++ behindMember rest))))
      ⟨spins⟩ [] := by
  have noneFound : (none : Option UInt32).toList.map UInt32.toNat ++
      settlingTimes ((name, number) :: rest) = [spins.toNat] := once
  have members := readMembers_reads names noneFound
  rw [readObject]
  apply (readNext_reads (by decide) _).bind
  intro _
  dsimp only
  rw [if_neg (by decide), if_pos rfl]
  apply members.bind
  intro _
  exact ⟨_, rfl⟩

theorem readValue_reads
    (names : ∀ member ∈ (name, number) :: rest, NeedsNoEscapes (bytes member.1))
    (once : settlingTimes ((name, number) :: rest) = [spins.toNat]) :
    Reads (readValue (bytes (renderObject ((name, number) :: rest)))) ⟨spins⟩ [] := by
  rw [bytes_renderObject, readValue]
  apply (readNext_reads (by decide) _).bind
  intro _
  dsimp only
  rw [if_neg (by decide), if_pos rfl]
  apply (readObject_reads names once).bind
  intro _
  exact ⟨_, rfl⟩

end

/-- An object that gives the settling time once, among whatever other numbers, is read
as the settings with this time. -/
theorem parse_renderObject {members : List (String × Nat)} {spins : UInt32}
    (names : ∀ member ∈ members, NeedsNoEscapes (bytes member.1))
    (once : settlingTimes members = [spins.toNat]) :
    parse (renderObject members) = .ok ⟨spins⟩ := by
  cases members with
  | nil => cases once
  | cons member rest =>
      obtain ⟨shorter, read⟩ := readValue_reads names once
      rw [parse]
      change (readValue (bytes _) >>= _) = _
      rw [read]
      rfl

/-- Settings are read back from what they are written as. -/
theorem parse_render (settings : Settings) : parse settings.render = .ok settings := by
  have plain : NeedsNoEscapes (bytes settleSpinsName) := by
    rw [bytes_eq]
    decide
  apply parse_renderObject
  · intro member among
    rw [List.mem_singleton.mp among]
    exact plain
  · exact settlingTimes_cons_of_known _ []

end Settings

end Link

end FramedSerial
