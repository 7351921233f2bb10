import FramedSerial.Proofs.Link.Interleaving

/-!
# The discipline of sending

However many contexts there are and however they are interleaved, one at a time
hands a byte over, the device never gets a byte before the last one is complete,
all accepted bytes keep their order, and a burst never stalls: as long as it is
on something can be done, and without new bytes it ends after a number of steps
that the queue bounds.
-/

namespace FramedSerial

namespace Link

namespace Scene

variable {Context : Type} {capacity : Nat} [DecidableEq Context]

/-- A number of steps without new bytes. -/
inductive Drains : Scene Context capacity → Nat → Scene Context capacity → Prop where
  | none {scene : Scene Context capacity} : Drains scene 0 scene
  | step {scene between last : Scene Context capacity} {move : Move Context}
      {count : Nat} :
      Step scene move between → move.isSubmission = false →
      Drains between count last → Drains scene (count + 1) last

/-- What holds of the sending side at every moment. -/
structure Disciplined (scene : Scene Context capacity) : Prop where
  oneContext : ∀ first second, scene.duties first ≠ [] → scene.duties second ≠ [] →
    first = second
  oneDuty : ∀ context, (scene.duties context).length ≤ 1
  oneInFlight : scene.inFlight ≤ 1
  /-- No byte is handed over while an earlier one is not complete. -/
  noOverrun : ∀ context byte rest, scene.duties context = .write byte :: rest →
    scene.inFlight = 0
  orderWithByte : ∀ context byte rest, scene.duties context = .write byte :: rest →
    scene.written ++ byte :: scene.transmitter.queue.toList = scene.accepted
  orderWithoutByte : (∀ context, scene.Free context) →
    scene.written ++ scene.transmitter.queue.toList = scene.accepted
  /-- A burst goes on exactly as long as somebody will carry it on. -/
  busy_iff : scene.transmitter.busy = true ↔
    0 < scene.inFlight ∨ ∃ context, scene.duties context ≠ []
  emptyWhenIdle : scene.transmitter.busy = false → scene.transmitter.queue.toList = []
  /-- As long as not all is done, something other than a submission can happen. -/
  noStall : (∀ move later, Step scene move later → move.isSubmission = true) →
    scene.transmitter.busy = false ∧ scene.written = scene.accepted
  drains : ∀ count last, Drains scene count last →
    count ≤ 3 * scene.transmitter.queue.length + 3

variable {scene : Scene Context capacity} {stage : Stage Context}

theorem Stage.oneContext (stage : Stage Context) {first second : Context}
    (firstDuty : stage.duties first ≠ []) (secondDuty : stage.duties second ≠ []) :
    first = second := by
  cases stage with
  | idle => exact absurd rfl firstDuty
  | waiting holder => exact absurd rfl firstDuty
  | told holder byte =>
      exact (eq_of_alone_ne_nil firstDuty).trans (eq_of_alone_ne_nil secondDuty).symm
  | handing holder =>
      exact (eq_of_alone_ne_nil firstDuty).trans (eq_of_alone_ne_nil secondDuty).symm
  | reported holder =>
      exact (eq_of_alone_ne_nil firstDuty).trans (eq_of_alone_ne_nil secondDuty).symm

theorem Stage.oneDuty (stage : Stage Context) (context : Context) :
    (stage.duties context).length ≤ 1 := by
  cases stage with
  | idle => exact Nat.zero_le 1
  | waiting holder => exact Nat.zero_le 1
  | told holder byte => exact length_alone_le holder context _
  | handing holder => exact length_alone_le holder context _
  | reported holder => exact length_alone_le holder context _

/-- A burst is on exactly if the device has a byte or a context has a duty. -/
theorem Stage.busy_iff (stage : Stage Context) :
    stage.busy = true ↔ 0 < stage.inFlight ∨ ∃ context, stage.duties context ≠ [] := by
  cases stage with
  | idle => simp [Stage.busy, Stage.inFlight, Stage.duties]
  | waiting holder => simp [Stage.busy, Stage.inFlight]
  | handing holder => simp [Stage.busy, Stage.inFlight]
  | told holder byte =>
      simp only [Stage.busy, true_iff]
      exact .inr ⟨holder, by simp [Stage.duties, alone_self]⟩
  | reported holder =>
      simp only [Stage.busy, true_iff]
      exact .inr ⟨holder, by simp [Stage.duties, alone_self]⟩

/-- Whatever stage has been reached but the first, some context can go on. -/
theorem Agrees.idle_of_stuck (agrees : Agrees scene stage)
    (stuck : ∀ move later, Step scene move later → move.isSubmission = true) :
    stage = .idle := by
  cases stage with
  | idle => rfl
  | told holder byte =>
      have duty : scene.duties holder = [.write byte] := by
        rw [agrees.duties]
        exact Stage.alone_self _ _
      exact absurd (stuck _ _ (.write duty)) Bool.false_ne_true
  | handing holder =>
      have duty : scene.duties holder = [.finish] := by
        rw [agrees.duties]
        exact Stage.alone_self _ _
      exact absurd (stuck _ _ (.finish duty rfl)) Bool.false_ne_true
  | reported holder =>
      have duty : scene.duties holder = [.finish] := by
        rw [agrees.duties]
        exact Stage.alone_self _ _
      exact absurd (stuck _ _ (.finish duty rfl)) Bool.false_ne_true
  | waiting holder =>
      have free : scene.Free holder := by
        intro byte rest duty
        rw [agrees.duties] at duty
        cases duty
      have positive : 0 < scene.inFlight := by
        rw [agrees.inFlight]
        exact Nat.zero_lt_one
      exact absurd (stuck _ _ (.complete free positive rfl)) Bool.false_ne_true

theorem Agrees.drains {count : Nat} {last : Scene Context capacity}
    (agrees : Agrees scene stage) (drains : Drains scene count last) :
    count ≤ scene.stepsLeft stage := by
  induction drains generalizing stage with
  | none => exact Nat.zero_le _
  | step step noSubmission _ induction =>
      obtain ⟨after, agreesAfter, fewer⟩ := agrees.step step
      have bounded := induction agreesAfter
      have less := fewer noSubmission
      omega

omit [DecidableEq Context] in
theorem Stage.distance_le (stage : Stage Context) : stage.distance ≤ 3 := by
  cases stage with
  | idle => exact Nat.zero_le 3
  | told holder byte => exact Nat.le_refl 3
  | handing holder => exact Nat.le_succ 2
  | reported holder => exact Nat.le_add_right 1 2
  | waiting holder => exact Nat.le_add_right 1 2

/-- However the contexts and the device are interleaved, at every moment one
context at most hands a byte over, the device has at most one, the bytes written
and waiting are those accepted, in order, and the burst goes on to its end. -/
theorem reachable_disciplined (reached : Reachable scene) : Disciplined scene := by
  obtain ⟨stage, agrees⟩ := reached.agrees
  constructor
  case oneContext =>
    intro first second firstDuty secondDuty
    rw [agrees.duties] at firstDuty secondDuty
    exact stage.oneContext firstDuty secondDuty
  case oneDuty =>
    intro context
    rw [agrees.duties]
    exact stage.oneDuty context
  case oneInFlight =>
    rw [agrees.inFlight]
    cases stage with
    | idle => exact Nat.zero_le 1
    | told holder byte => exact Nat.zero_le 1
    | reported holder => exact Nat.zero_le 1
    | handing holder => exact Nat.le_refl 1
    | waiting holder => exact Nat.le_refl 1
  case noOverrun =>
    intro context byte rest duty
    obtain ⟨rfl, _⟩ := agrees.cases_of_write duty
    exact agrees.inFlight
  case orderWithByte =>
    intro context byte rest duty
    obtain ⟨rfl, _⟩ := agrees.cases_of_write duty
    simpa [Stage.told?] using agrees.order
  case orderWithoutByte =>
    intro free
    have order := agrees.order
    cases stage with
    | told holder byte =>
        have duty : scene.duties holder = [.write byte] := by
          rw [agrees.duties]
          exact Stage.alone_self _ _
        exact absurd duty (free holder byte [])
    | idle => simpa [Stage.told?] using order
    | handing holder => simpa [Stage.told?] using order
    | reported holder => simpa [Stage.told?] using order
    | waiting holder => simpa [Stage.told?] using order
  case busy_iff =>
    rw [agrees.busy, agrees.inFlight, agrees.duties]
    exact stage.busy_iff
  case emptyWhenIdle => exact agrees.emptyWhenIdle
  case noStall =>
    intro stuck
    have isIdle := agrees.idle_of_stuck stuck
    subst isIdle
    have order := agrees.order
    rw [agrees.emptyWhenIdle agrees.busy] at order
    exact ⟨agrees.busy, by simpa [Stage.told?] using order⟩
  case drains =>
    intro count last drains
    have bounded := agrees.drains drains
    have near := stage.distance_le
    unfold stepsLeft at bounded
    omega

/-- A completion may overtake the call that handed its byte over.  It is noted,
and the context that ends the handing over is told the next byte. -/
theorem overtaken_disciplined :
    ∃ scene : Scene Bool 2, Reachable scene ∧ Disciplined scene ∧
      scene.duties false = [.write 2] ∧ scene.written = [1] := by
  have started : Reachable ({ transmitter := {} } : Scene Bool 2) :=
    .start rfl rfl rfl ByteQueue.toList_empty
  have free : ∀ byte rest, ([] : List Duty) ≠ .write byte :: rest := by
    intro byte rest equality
    cases equality
  have told := started.step (@Step.begin Bool 2 _ _ false 1 _ free rfl)
  have queued := told.step (@Step.queue Bool 2 _ _ true 2 _ free rfl)
  have handing := queued.step (@Step.write Bool 2 _ _ false 1 [] rfl)
  have reported := handing.step (@Step.complete Bool 2 _ _ true _ _ free Nat.one_pos rfl)
  have toldNext := reported.step (@Step.finish Bool 2 _ _ false [] _ _ rfl rfl)
  exact ⟨_, toldNext, reachable_disciplined toldNext, rfl, rfl⟩

end Scene

end Link

end FramedSerial
