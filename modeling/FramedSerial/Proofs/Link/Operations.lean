import FramedSerial.Link.Transmission
import FramedSerial.Proofs.Link.Reads

/-!
# Operations of a link

All that can be asked of a link from outside, as one type, so that a run of a
link is a list of operations.

An operation may make the device call its link back, and the agenda that comes
of it is carried out task by task.  `moments` lists the links and the agendas on
the way, and `accepted` the bytes that were submitted on the way and not dropped,
by whomever.
-/

namespace FramedSerial

namespace Link

variable {sizes : Sizes}

inductive Operation where
  | bringUp
  | shutDown
  | reset
  | send (payload : Bytes)
  | sendRaw (data : Bytes)
  | follow (call : Call)
  | tryReceive (buffer : Bytes)
  | receive (buffer : Bytes)
  | receiveRaw (buffer : Bytes)
deriving DecidableEq, Repr

def operate (link : Link sizes) : Operation → Link sizes
  | .bringUp => link.bringUp
  | .shutDown => link.shutDown
  | .reset => link.reset
  | .send payload => link.send payload
  | .sendRaw data => link.sendRaw data
  | .follow call => link.follow call
  | .tryReceive buffer => (link.tryReceive buffer).2.2
  | .receive buffer => (link.receive buffer).2.2
  | .receiveRaw buffer => (link.receiveRaw buffer).2.2

/-- The calls that an operation follows, one after the other. -/
def Operation.calls : Operation → List Call
  | .send payload => (Frame.encode payload).map .submit
  | .sendRaw data => data.map .submit
  | .follow call => [call]
  | _ => []

/-- A link with the tasks that it still has to carry out. -/
structure Moment (sizes : Sizes) where
  link : Link sizes
  agenda : List Task

/-- The byte that the next task gets accepted, if there is one. -/
def Moment.admitted (moment : Moment sizes) : Bytes :=
  match moment.agenda with
  | .follow (.submit byte) :: _ =>
      if (moment.link.transmitter.submit byte).1 = .dropped then [] else [byte]
  | _ => []

/-- All moments while an agenda is carried out. -/
def course (link : Link sizes) : List Task → List (Moment sizes)
  | [] => [⟨link, []⟩]
  | task :: later =>
      let outcome := link.step task
      ⟨link, task :: later⟩ :: course outcome.2 (outcome.1 ++ later)
termination_by agenda => (outstanding link agenda, effort agenda)
decreasing_by
  rcases link.step_decreases task later with fewer | ⟨same, less⟩
  · exact .left _ _ fewer
  · rw [same]
    exact .right _ less

def callsCourse (link : Link sizes) : List Call → List (Moment sizes)
  | [] => []
  | call :: later => link.course [.follow call] ++ (link.follow call).callsCourse later

def moments (link : Link sizes) (operation : Operation) : List (Moment sizes) :=
  link.callsCourse operation.calls

/-- The bytes that are accepted in the course of an operation, in order. -/
def accepted (link : Link sizes) (operation : Operation) : Bytes :=
  (link.moments operation).flatMap Moment.admitted

theorem perform_nil (link : Link sizes) : link.perform [] = link := by
  rw [perform]

theorem perform_cons (link : Link sizes) (task : Task) (later : List Task) :
    link.perform (task :: later) =
      (link.step task).2.perform ((link.step task).1 ++ later) := by
  rw [perform]

theorem course_nil (link : Link sizes) : link.course [] = [⟨link, []⟩] := by
  rw [course]

theorem course_cons (link : Link sizes) (task : Task) (later : List Task) :
    link.course (task :: later) =
      ⟨link, task :: later⟩ :: (link.step task).2.course ((link.step task).1 ++ later) := by
  rw [course]

/-- The last moment of a course is the one that carrying the agenda out leads
to. -/
theorem course_getLast? (link : Link sizes) (agenda : List Task) :
    (link.course agenda).getLast? = some ⟨link.perform agenda, []⟩ := by
  induction link, agenda using perform.induct with
  | case1 link =>
      rw [course_nil, perform_nil]
      rfl
  | case2 link task later outcome =>
      rename_i induction
      rw [course_cons, perform_cons, List.getLast?_cons, induction]
      rfl

/-- Reading moves bytes on the receiving side only. -/
theorem tryReceive_keeps (link : Link sizes) (buffer : Bytes) :
    (link.tryReceive buffer).2.2.transmitter = link.transmitter ∧
      (link.tryReceive buffer).2.2.device = link.device := by
  unfold tryReceive watchedRead
  by_cases claimed : link.receiver.claimed = true
  · simp [claimed]
  · simp only [claimed, if_false, Bool.false_eq_true]
    rcases outcome : link.claim.advance with ⟨event?, later⟩
    have same : later.transmitter = link.transmitter ∧ later.device = link.device := by
      have second : link.claim.advance.2 = later := congrArg Prod.snd outcome
      rw [← second]
      exact ⟨rfl, rfl⟩
    cases event? with
    | none => exact same
    | some event =>
        cases event with
        | dropped fault => exact same
        | frame payload =>
            unfold settle
            dsimp only
            split
            · exact same
            · exact same

/-- A read past faulty frames preserves what single reads preserve. -/
theorem receive_preserves (kept : Link sizes → Bytes → Prop)
    (single : ∀ link buffer, kept link buffer →
      kept (link.tryReceive buffer).2.2 (link.tryReceive buffer).2.1)
    {link : Link sizes} {buffer : Bytes} (holds : kept link buffer) :
    kept (link.receive buffer).2.2 (link.receive buffer).2.1 := by
  induction link, buffer using receive_induction with
  | ends link buffer reading filled later read notFaulty =>
      have holdsLater := single link buffer holds
      rw [read] at holdsLater
      rw [receive_of_end read notFaulty]
      exact holdsLater
  | goesOn link buffer fault filled later read induction =>
      have holdsLater := single link buffer holds
      rw [read] at holdsLater
      rw [receive_of_faulty read]
      exact induction holdsLater

theorem receive_keeps (link : Link sizes) (buffer : Bytes) :
    (link.receive buffer).2.2.transmitter = link.transmitter ∧
      (link.receive buffer).2.2.device = link.device := by
  apply receive_preserves fun later _ =>
    later.transmitter = link.transmitter ∧ later.device = link.device
  · intro later filled sofar
    obtain ⟨transmitter, device⟩ := later.tryReceive_keeps filled
    exact ⟨transmitter.trans sofar.1, device.trans sofar.2⟩
  · exact ⟨rfl, rfl⟩

end Link

end FramedSerial
