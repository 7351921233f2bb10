import FramedSerial.Proofs.Link.Handover
import Mathlib.Logic.Function.Basic

/-!
# Sending from many contexts

Tasks and interrupts share one transmitter.  Each of its steps is indivisible,
and a context that a step has given a byte must hand it to the device and then
end the handing over; anything may happen in between, in any context, and also
in the same one if the device calls back.  The device reports each byte that it
was given complete, once and at any moment, even before the call that gave it
the byte returns.

`Scene` is the transmitter together with what every context has still to do and
with a record of the bytes, and `Step` is the relation of all these moves.  At
every moment a scene is at one of five stages, by where the byte is that is on
its way to the device; `Agrees` ties the flags, the duties and the record to the
stage, and each step leads from stage to stage.
-/

namespace FramedSerial

namespace Link

/-- What a context has to do before it may go on. -/
inductive Duty where
  | write (byte : UInt8)
  | finish
deriving DecidableEq, Repr

structure Scene (Context : Type) (capacity : Nat) where
  transmitter : Transmitter capacity
  /-- The duties of each context, the innermost call first. -/
  duties : Context → List Duty := fun _ => []
  /-- The number of bytes that the device has not reported complete. -/
  inFlight : Nat := 0
  /-- The bytes that were not dropped when they were submitted. -/
  accepted : Bytes := []
  /-- The bytes handed to the device. -/
  written : Bytes := []

inductive Move (Context : Type) where
  | submit (context : Context) (byte : UInt8)
  | complete (context : Context)
  | write (context : Context)
  | finish (context : Context)

def Move.isSubmission {Context : Type} : Move Context → Bool
  | .submit _ _ => true
  | _ => false

namespace Scene

variable {Context : Type} {capacity : Nat}

/-- A context that was given a byte does nothing else before it hands it over. -/
def Free (scene : Scene Context capacity) (context : Context) : Prop :=
  ∀ byte rest, scene.duties context ≠ .write byte :: rest

section

variable [DecidableEq Context]

/-- The steps that the contexts and the device may take. -/
inductive Step : Scene Context capacity → Move Context → Scene Context capacity → Prop where
  | begin {scene : Scene Context capacity} {context : Context} {byte : UInt8}
      {transmitter : Transmitter capacity} :
      scene.Free context →
      scene.transmitter.submit byte = (.write, transmitter) →
      Step scene (.submit context byte) { scene with
        transmitter := transmitter
        duties := Function.update scene.duties context
          (.write byte :: scene.duties context)
        accepted := scene.accepted ++ [byte] }
  | queue {scene : Scene Context capacity} {context : Context} {byte : UInt8}
      {transmitter : Transmitter capacity} :
      scene.Free context →
      scene.transmitter.submit byte = (.queued, transmitter) →
      Step scene (.submit context byte) { scene with
        transmitter := transmitter
        accepted := scene.accepted ++ [byte] }
  | drop {scene : Scene Context capacity} {context : Context} {byte : UInt8}
      {transmitter : Transmitter capacity} :
      scene.Free context →
      scene.transmitter.submit byte = (.dropped, transmitter) →
      Step scene (.submit context byte) { scene with transmitter := transmitter }
  | complete {scene : Scene Context capacity} {context : Context}
      {next : Option UInt8} {transmitter : Transmitter capacity} :
      scene.Free context →
      0 < scene.inFlight →
      scene.transmitter.complete = (next, transmitter) →
      Step scene (.complete context) { scene with
        transmitter := transmitter
        duties := Function.update scene.duties context
          (next.toList.map .write ++ scene.duties context)
        inFlight := scene.inFlight - 1 }
  | write {scene : Scene Context capacity} {context : Context} {byte : UInt8}
      {rest : List Duty} :
      scene.duties context = .write byte :: rest →
      Step scene (.write context) { scene with
        duties := Function.update scene.duties context (.finish :: rest)
        inFlight := scene.inFlight + 1
        written := scene.written ++ [byte] }
  | finish {scene : Scene Context capacity} {context : Context} {rest : List Duty}
      {next : Option UInt8} {transmitter : Transmitter capacity} :
      scene.duties context = .finish :: rest →
      scene.transmitter.written = (next, transmitter) →
      Step scene (.finish context) { scene with
        transmitter := transmitter
        duties := Function.update scene.duties context (next.toList.map .write ++ rest) }

/-- What can come about from a transmitter without a burst. -/
inductive Reachable : Scene Context capacity → Prop where
  | start {transmitter : Transmitter capacity} :
      transmitter.busy = false → transmitter.writing = false →
      transmitter.completionNoted = false → transmitter.queue.toList = [] →
      Reachable { transmitter := transmitter }
  | step {scene later : Scene Context capacity} {move : Move Context} :
      Reachable scene → Step scene move later → Reachable later

/-- Where the only byte on its way to the device is. -/
inductive Stage (Context : Type) where
  /-- There is none. -/
  | idle
  /-- A context has it and will hand it over. -/
  | told (context : Context) (byte : UInt8)
  /-- A context is handing it over. -/
  | handing (context : Context)
  /-- It was reported complete before the context ended the handing over. -/
  | reported (context : Context)
  /-- The device has it, from this context. -/
  | waiting (context : Context)

namespace Stage

def alone (context : Context) (duties : List Duty) : Context → List Duty :=
  Function.update (fun _ => []) context duties

theorem alone_self (context : Context) (duties : List Duty) :
    alone context duties context = duties :=
  Function.update_self _ _ _

theorem alone_of_ne {context other : Context} (different : other ≠ context)
    (duties : List Duty) : alone context duties other = [] :=
  Function.update_of_ne different _ _

theorem alone_nil (context : Context) : alone context [] = fun _ => [] :=
  Function.update_eq_self context _

theorem update_alone (context : Context) (before after : List Duty) :
    Function.update (alone context before) context after = alone context after :=
  Function.update_idem _ _ _

theorem eq_of_alone_ne_nil {context other : Context} {duties : List Duty}
    (notFree : alone context duties other ≠ []) : other = context := by
  by_contra different
  exact notFree (alone_of_ne different duties)

theorem alone_eq_cons {context other : Context} {duty first : Duty} {rest : List Duty}
    (equality : alone context [duty] other = first :: rest) :
    other = context ∧ first = duty ∧ rest = [] := by
  have notFree : alone context [duty] other ≠ [] := by
    rw [equality]
    exact List.cons_ne_nil _ _
  obtain rfl := eq_of_alone_ne_nil notFree
  rw [alone_self] at equality
  cases equality
  exact ⟨rfl, rfl, rfl⟩

theorem length_alone_le (context other : Context) (duty : Duty) :
    (alone context [duty] other).length ≤ 1 := by
  by_cases same : other = context
  · rw [same, alone_self, List.length_singleton]
  · rw [alone_of_ne same]
    exact Nat.zero_le 1

def duties : Stage Context → Context → List Duty
  | .told context byte => alone context [.write byte]
  | .handing context | .reported context => alone context [.finish]
  | .idle | .waiting _ => fun _ => []

def inFlight : Stage Context → Nat
  | .handing _ | .waiting _ => 1
  | .idle | .told _ _ | .reported _ => 0

def told? : Stage Context → Option UInt8
  | .told _ byte => some byte
  | _ => none

def busy : Stage Context → Bool
  | .idle => false
  | _ => true

def writing : Stage Context → Bool
  | .told _ _ | .handing _ | .reported _ => true
  | .idle | .waiting _ => false

def completionNoted : Stage Context → Bool
  | .reported _ => true
  | _ => false

/-- How many steps the byte has before it until the next byte can follow. -/
def distance : Stage Context → Nat
  | .idle => 0
  | .told _ _ => 3
  | .handing _ => 2
  | .reported _ | .waiting _ => 1

end Stage

/-- The flags, the duties and the record of a scene agree on the stage. -/
structure Agrees (scene : Scene Context capacity) (stage : Stage Context) : Prop where
  busy : scene.transmitter.busy = stage.busy
  writing : scene.transmitter.writing = stage.writing
  completionNoted : scene.transmitter.completionNoted = stage.completionNoted
  duties : scene.duties = stage.duties
  inFlight : scene.inFlight = stage.inFlight
  order : scene.written ++ stage.told?.toList ++ scene.transmitter.queue.toList =
    scene.accepted
  emptyWhenIdle : scene.transmitter.busy = false → scene.transmitter.queue.toList = []

/-- The steps that are left if no byte is submitted any more. -/
def stepsLeft (scene : Scene Context capacity) (stage : Stage Context) : Nat :=
  3 * scene.transmitter.queue.length + stage.distance

/-- Only a context that was told a byte is not free. -/
theorem Agrees.cases_of_write {scene : Scene Context capacity} {stage : Stage Context}
    (agrees : Agrees scene stage) {context : Context} {byte : UInt8} {rest : List Duty}
    (duty : scene.duties context = .write byte :: rest) :
    stage = .told context byte ∧ rest = [] := by
  rw [agrees.duties] at duty
  cases stage with
  | idle => simp [Stage.duties] at duty
  | waiting holder => simp [Stage.duties] at duty
  | told holder held =>
      obtain ⟨rfl, same, rfl⟩ := Stage.alone_eq_cons duty
      cases same
      exact ⟨rfl, rfl⟩
  | handing holder =>
      obtain ⟨_, different, _⟩ := Stage.alone_eq_cons duty
      cases different
  | reported holder =>
      obtain ⟨_, different, _⟩ := Stage.alone_eq_cons duty
      cases different

theorem Agrees.cases_of_finish {scene : Scene Context capacity} {stage : Stage Context}
    (agrees : Agrees scene stage) {context : Context} {rest : List Duty}
    (duty : scene.duties context = .finish :: rest) :
    (stage = .handing context ∨ stage = .reported context) ∧ rest = [] := by
  rw [agrees.duties] at duty
  cases stage with
  | idle => simp [Stage.duties] at duty
  | waiting holder => simp [Stage.duties] at duty
  | told holder held =>
      obtain ⟨_, different, _⟩ := Stage.alone_eq_cons duty
      cases different
  | handing holder =>
      obtain ⟨rfl, _, rfl⟩ := Stage.alone_eq_cons duty
      exact ⟨.inl rfl, rfl⟩
  | reported holder =>
      obtain ⟨rfl, _, rfl⟩ := Stage.alone_eq_cons duty
      exact ⟨.inr rfl, rfl⟩

/-- The stage that going on leads to: the context is told the next byte, or the
burst is over. -/
def Stage.following (context : Context) : Option UInt8 → Stage Context
  | some byte => .told context byte
  | none => .idle

/-- Going on hands the oldest byte of the queue to a context without duties, or
ends the burst. -/
theorem agrees_next (scene : Scene Context capacity) (context : Context)
    {next : Option UInt8} {transmitter : Transmitter capacity}
    (order : scene.written ++ scene.transmitter.queue.toList = scene.accepted)
    (busy : scene.transmitter.busy = true)
    (notNoted : scene.transmitter.completionNoted = false)
    (result : scene.transmitter.next = (next, transmitter)) (inFlight : Nat)
    (none : inFlight = 0) :
    Agrees { scene with
      transmitter := transmitter
      duties := Stage.alone context (next.toList.map .write)
      inFlight := inFlight } (Stage.following context next) ∧
    3 * transmitter.queue.length + (Stage.following context next).distance ≤
      3 * scene.transmitter.queue.length := by
  subst none
  rcases Transmitter.cases_of_next result with ⟨rfl, isEmpty, rfl⟩ |
    ⟨byte, shorter, rfl, contents, rfl⟩
  · rw [isEmpty] at order
    refine ⟨⟨rfl, rfl, notNoted, Stage.alone_nil context, rfl, ?_, fun _ => isEmpty⟩, ?_⟩
    · simpa [Stage.following, Stage.told?, isEmpty] using order
    · simp [Stage.following, Stage.distance]
  · have length : scene.transmitter.queue.length = shorter.length + 1 := by
      rw [← ByteQueue.length_toList, contents, List.length_cons, ByteQueue.length_toList]
    rw [contents] at order
    refine ⟨⟨busy, rfl, notNoted, rfl, rfl, ?_, ?_⟩, ?_⟩
    · simpa [Stage.following, Stage.told?] using order
    · intro notBusy
      simp [busy] at notBusy
    · simp only [Stage.following, Stage.distance, length]
      omega

variable {scene : Scene Context capacity} {stage : Stage Context} {context : Context}

theorem Agrees.begin {byte : UInt8} {transmitter : Transmitter capacity}
    (agrees : Agrees scene stage)
    (result : scene.transmitter.submit byte = (.write, transmitter)) :
    Agrees { scene with
      transmitter := transmitter
      duties := Function.update scene.duties context (.write byte :: scene.duties context)
      accepted := scene.accepted ++ [byte] } (.told context byte) := by
  obtain ⟨_, notBusy, rfl⟩ | ⟨⟨⟩, _⟩ | ⟨⟨⟩, _⟩ := Transmitter.cases_of_submit result
  have isIdle : stage = .idle := by
    have same := agrees.busy
    rw [notBusy] at same
    cases stage with
    | idle => rfl
    | _ => cases same
  subst isIdle
  have isEmpty := agrees.emptyWhenIdle notBusy
  have order := agrees.order
  rw [isEmpty] at order
  refine ⟨rfl, rfl, agrees.completionNoted, ?_, agrees.inFlight, ?_, ?_⟩
  · rw [agrees.duties]
    rfl
  · simpa [Stage.told?, isEmpty] using order
  · intro impossible
    cases impossible

theorem Agrees.queue {byte : UInt8} {transmitter : Transmitter capacity}
    (agrees : Agrees scene stage)
    (result : scene.transmitter.submit byte = (.queued, transmitter)) :
    Agrees { scene with
      transmitter := transmitter
      accepted := scene.accepted ++ [byte] } stage := by
  obtain ⟨⟨⟩, _⟩ | ⟨_, busy, longer, contents, rfl⟩ | ⟨⟨⟩, _⟩ :=
    Transmitter.cases_of_submit result
  refine ⟨agrees.busy, agrees.writing, agrees.completionNoted, agrees.duties,
    agrees.inFlight, ?_, ?_⟩
  · simp only [contents, ← agrees.order, List.append_assoc]
  · intro notBusy
    simp [busy] at notBusy

theorem Agrees.drop {byte : UInt8} {transmitter : Transmitter capacity}
    (agrees : Agrees scene stage)
    (result : scene.transmitter.submit byte = (.dropped, transmitter)) :
    Agrees { scene with transmitter := transmitter } stage := by
  obtain ⟨⟨⟩, _⟩ | ⟨⟨⟩, _⟩ | ⟨_, _, rfl⟩ := Transmitter.cases_of_submit result
  exact ⟨agrees.busy, agrees.writing, agrees.completionNoted, agrees.duties,
    agrees.inFlight, agrees.order, agrees.emptyWhenIdle⟩

theorem Agrees.write {byte : UInt8} {rest : List Duty} (agrees : Agrees scene stage)
    (duty : scene.duties context = .write byte :: rest) :
    Agrees { scene with
      duties := Function.update scene.duties context (.finish :: rest)
      inFlight := scene.inFlight + 1
      written := scene.written ++ [byte] } (.handing context) ∧
    stage.distance = 3 := by
  obtain ⟨rfl, rfl⟩ := agrees.cases_of_write duty
  refine ⟨⟨agrees.busy, agrees.writing, agrees.completionNoted, ?_, ?_, ?_,
    agrees.emptyWhenIdle⟩, rfl⟩
  · simp only [agrees.duties]
    exact Stage.update_alone _ _ _
  · simp only [agrees.inFlight]
    rfl
  · simpa [Stage.told?] using agrees.order

theorem Agrees.complete {next : Option UInt8} {transmitter : Transmitter capacity}
    (agrees : Agrees scene stage) (positive : 0 < scene.inFlight)
    (result : scene.transmitter.complete = (next, transmitter)) :
    ∃ after, Agrees { scene with
      transmitter := transmitter
      duties := Function.update scene.duties context
        (next.toList.map .write ++ scene.duties context)
      inFlight := scene.inFlight - 1 } after ∧
    3 * transmitter.queue.length + after.distance < scene.stepsLeft stage := by
  rw [agrees.inFlight] at positive
  cases stage with
  | idle => simp [Stage.inFlight] at positive
  | told holder byte => simp [Stage.inFlight] at positive
  | reported holder => simp [Stage.inFlight] at positive
  | handing holder =>
      rw [Transmitter.complete_of_writing agrees.writing] at result
      cases result
      refine ⟨.reported holder, ⟨agrees.busy, agrees.writing, rfl, ?_, ?_, agrees.order,
        agrees.emptyWhenIdle⟩, ?_⟩
      · have unchanged : Function.update scene.duties context (scene.duties context) =
            scene.duties := Function.update_eq_self context scene.duties
        exact unchanged.trans agrees.duties
      · simp only [agrees.inFlight]
        rfl
      · have left : scene.stepsLeft (.handing holder) =
            3 * scene.transmitter.queue.length + 2 := rfl
        rw [left]
        exact Nat.lt_succ_self _
  | waiting holder =>
      rw [Transmitter.complete_of_not_writing agrees.writing] at result
      have noDuties : Function.update scene.duties context
          (next.toList.map .write ++ scene.duties context) =
          Stage.alone context (next.toList.map .write) := by
        rw [agrees.duties]
        simp only [Stage.duties, Stage.alone, List.append_nil]
      have order : scene.written ++ scene.transmitter.queue.toList = scene.accepted := by
        simpa [Stage.told?] using agrees.order
      have noneLeft : scene.inFlight - 1 = 0 := by
        rw [agrees.inFlight]
        rfl
      obtain ⟨agreesAfter, fewer⟩ := scene.agrees_next context order agrees.busy
        agrees.completionNoted result (scene.inFlight - 1) noneLeft
      rw [noDuties]
      refine ⟨_, agreesAfter, ?_⟩
      have left : scene.stepsLeft (.waiting holder) =
          3 * scene.transmitter.queue.length + 1 := rfl
      omega

theorem Agrees.finish {rest : List Duty} {next : Option UInt8}
    {transmitter : Transmitter capacity} (agrees : Agrees scene stage)
    (duty : scene.duties context = .finish :: rest)
    (result : scene.transmitter.written = (next, transmitter)) :
    ∃ after, Agrees { scene with
      transmitter := transmitter
      duties := Function.update scene.duties context
        (next.toList.map .write ++ rest) } after ∧
    3 * transmitter.queue.length + after.distance < scene.stepsLeft stage := by
  obtain ⟨isStage, rfl⟩ := agrees.cases_of_finish duty
  have duties : Function.update scene.duties context (next.toList.map .write ++ []) =
      Stage.alone context (next.toList.map .write) := by
    rw [agrees.duties, List.append_nil]
    rcases isStage with rfl | rfl
    · exact Stage.update_alone _ _ _
    · exact Stage.update_alone _ _ _
  rw [duties]
  rcases isStage with rfl | rfl
  · rw [Transmitter.written_of_not_noted agrees.completionNoted] at result
    cases result
    refine ⟨.waiting context, ⟨agrees.busy, rfl, agrees.completionNoted, Stage.alone_nil context,
      agrees.inFlight, agrees.order, agrees.emptyWhenIdle⟩, ?_⟩
    have left : scene.stepsLeft (.handing context) =
        3 * scene.transmitter.queue.length + 2 := rfl
    rw [left]
    exact Nat.lt_succ_self _
  · rw [Transmitter.written_of_noted agrees.completionNoted] at result
    have order : scene.written ++ scene.transmitter.queue.toList = scene.accepted := by
      simpa [Stage.told?] using agrees.order
    -- Going on happens with the note already taken back.
    let cleared : Scene Context capacity := { scene with
      transmitter := { scene.transmitter with completionNoted := false } }
    obtain ⟨agreesAfter, fewer⟩ := cleared.agrees_next context order agrees.busy rfl result
      scene.inFlight agrees.inFlight
    refine ⟨_, agreesAfter, ?_⟩
    have left : scene.stepsLeft (.reported context) =
        3 * cleared.transmitter.queue.length + 1 := rfl
    omega

/-- A step leads from stage to stage, and closer to the end of the burst unless
it submits a byte. -/
theorem Agrees.step {later : Scene Context capacity} {move : Move Context}
    (agrees : Agrees scene stage) (step : Step scene move later) :
    ∃ after, Agrees later after ∧
      (move.isSubmission = false → later.stepsLeft after < scene.stepsLeft stage) := by
  cases step with
  | begin free result =>
      refine ⟨_, agrees.begin result, ?_⟩
      intro impossible
      cases impossible
  | queue free result =>
      refine ⟨_, agrees.queue result, ?_⟩
      intro impossible
      cases impossible
  | drop free result =>
      refine ⟨_, agrees.drop result, ?_⟩
      intro impossible
      cases impossible
  | complete free positive result =>
      obtain ⟨after, agreesAfter, fewer⟩ := agrees.complete positive result
      exact ⟨after, agreesAfter, fun _ => fewer⟩
  | write duty =>
      obtain ⟨agreesAfter, distance⟩ := agrees.write duty
      refine ⟨_, agreesAfter, fun _ => ?_⟩
      rw [stepsLeft, stepsLeft, distance]
      exact Nat.lt_succ_self _
  | finish duty result =>
      obtain ⟨after, agreesAfter, fewer⟩ := agrees.finish duty result
      exact ⟨after, agreesAfter, fun _ => fewer⟩

theorem Reachable.agrees (reached : Reachable scene) : ∃ stage, Agrees scene stage := by
  induction reached with
  | start notBusy notWriting notNoted isEmpty =>
      refine ⟨.idle, notBusy, notWriting, notNoted, rfl, rfl, ?_, fun _ => isEmpty⟩
      simp [Stage.told?, isEmpty]
  | step _ step induction =>
      obtain ⟨stage, agrees⟩ := induction
      obtain ⟨after, agreesAfter, _⟩ := agrees.step step
      exact ⟨after, agreesAfter⟩

end

end Scene

end Link

end FramedSerial
