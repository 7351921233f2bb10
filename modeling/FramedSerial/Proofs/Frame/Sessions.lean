import FramedSerial.Frame.Line

/-!
# Frames that share a line

While a frame is open on a line, whole frames may be sent between its pieces; it may
be finished, given up, or pushed aside by the next one.  Here every action is put
down together with the frame it belongs to and the bytes that it sent.  Taken by
themselves, the bytes of each frame are those of a frame written at once, as far as
it got: a finished frame is the encoding of all that was pushed into it, and any
other one is that encoding without its end.
-/

namespace FramedSerial

namespace Frame

/-- The payload bytes that an action adds to the open frame. -/
def Action.data : Action → Bytes
  | .push byte => [byte]
  | .extend data => data
  | .openFrame | .finish | .abandon | .send _ => []

namespace OpenFrame

/-- The frame into which a payload has been pushed. -/
def holding (payload : Bytes) : OpenFrame :=
  ⟨Checksum.new.extend payload⟩

theorem extend_eq (frame : OpenFrame) (data : Bytes) :
    frame.extend data = (stuff data, ⟨frame.checksum.extend data⟩) := by
  induction data generalizing frame with
  | nil => rfl
  | cons byte rest induction => simp [extend, push, induction]

theorem extend_holding (payload data : Bytes) :
    (holding payload).extend data = (stuff data, holding (payload ++ data)) := by
  simp [extend_eq, holding, Checksum.extend_append]

theorem push_holding (payload : Bytes) (byte : UInt8) :
    (holding payload).push byte = (stuff [byte], holding (payload ++ [byte])) := by
  simp [push, holding, Checksum.extend_append]

theorem finish_holding (payload : Bytes) :
    (holding payload).finish = stuff (trailer payload) ++ [flag] := rfl

end OpenFrame

/-- What the frame of a payload has put on the line before it is finished. -/
def unfinished (payload : Bytes) : Bytes :=
  flag :: stuff payload

theorem unfinished_append (payload data : Bytes) :
    unfinished (payload ++ data) = unfinished payload ++ stuff data := by
  simp [unfinished]

theorem encode_eq_unfinished_append (payload : Bytes) :
    encode payload = unfinished payload ++ (OpenFrame.holding payload).finish := by
  simp [encode, unfinished, OpenFrame.finish_holding]

theorem OpenFrame.start_extend_finish (payload : Bytes) :
    start.1 ++ (start.2.extend payload).1 ++ (start.2.extend payload).2.finish =
      encode payload := by
  have begun : start.2 = holding [] := rfl
  rw [begun, extend_holding, encode_eq_unfinished_append]
  rfl

/-- An action, the number of the frame it belongs to, and the bytes that it sent. -/
structure Entry where
  frame? : Option Nat
  action : Action
  sent : Bytes
deriving DecidableEq, Repr

namespace Entry

variable {entries : List Entry} {entry : Entry}

def bytes (entries : List Entry) : Bytes :=
  entries.flatMap sent

def payload (entries : List Entry) : Bytes :=
  entries.flatMap fun entry => entry.action.data

def finished (entries : List Entry) : Bool :=
  entries.any fun entry => entry.action = .finish

/-- The bytes of a frame are those of its payload, up to the end if there is one. -/
def Assembled (entries : List Entry) : Prop :=
  bytes entries =
    if finished entries then encode (payload entries) else unfinished (payload entries)

@[simp] theorem bytes_concat (entries : List Entry) (entry : Entry) :
    bytes (entries ++ [entry]) = bytes entries ++ entry.sent := by
  simp [bytes]

@[simp] theorem payload_concat (entries : List Entry) (entry : Entry) :
    payload (entries ++ [entry]) = payload entries ++ entry.action.data := by
  simp [payload]

@[simp] theorem finished_concat (entries : List Entry) (entry : Entry) :
    finished (entries ++ [entry]) = (finished entries || entry.action = .finish) := by
  simp [finished]

theorem Assembled.grow (assembled : Assembled entries) (isOpen : finished entries = false)
    (notEnd : entry.action ≠ .finish) (sent : entry.sent = stuff entry.action.data) :
    Assembled (entries ++ [entry]) := by
  simp only [Assembled, isOpen] at assembled
  simp [Assembled, isOpen, notEnd, assembled, sent, unfinished_append]

theorem Assembled.finish (assembled : Assembled entries) (isOpen : finished entries = false)
    (isEnd : entry.action = .finish)
    (sent : entry.sent = (OpenFrame.holding (payload entries)).finish) :
    Assembled (entries ++ [entry]) := by
  simp only [Assembled, isOpen] at assembled
  simp [Assembled, isEnd, assembled, sent, encode_eq_unfinished_append, Action.data]

end Entry

/-- A line and what has been done on it.  The frames are numbered as they are begun. -/
structure Session where
  line : Line := {}
  begun : Nat := 0
  /-- The number of the frame that is open. -/
  current : Option Nat := none
  entries : List Entry := []

namespace Session

variable {session : Session} {action : Action} {frame : Nat}

/-- The frame to which an action belongs; a whole frame that is sent is none of these. -/
def owner (session : Session) : Action → Option Nat
  | .openFrame => some session.begun
  | .push _ | .extend _ | .finish | .abandon => session.current
  | .send _ => none

/-- The frame that is open behind an action. -/
def next (session : Session) : Action → Option Nat
  | .openFrame => some session.begun
  | .push _ | .extend _ | .send _ => session.current
  | .finish | .abandon => none

def entry (session : Session) (action : Action) : Entry :=
  ⟨session.owner action, action, (session.line.perform action).1⟩

def act (session : Session) (action : Action) : Session where
  line := (session.line.perform action).2
  begun := if action = .openFrame then session.begun + 1 else session.begun
  current := session.next action
  entries := session.entries ++ [session.entry action]

def actAll (session : Session) (history : List Action) : Session :=
  history.foldl act session

/-- What has been done for one of the frames. -/
def ofFrame (session : Session) (frame : Nat) : List Entry :=
  session.entries.filter fun entry => entry.frame? = some frame

/-- The bytes pushed into one of the frames so far. -/
def pushed (session : Session) (frame : Nat) : Bytes :=
  Entry.payload (session.ofFrame frame)

/-- The bytes that one of the frames has put on the line. -/
def sentFor (session : Session) (frame : Nat) : Bytes :=
  Entry.bytes (session.ofFrame frame)

def isFinished (session : Session) (frame : Nat) : Bool :=
  Entry.finished (session.ofFrame frame)

/-- All that the line carried. -/
def sent (session : Session) : Bytes :=
  Entry.bytes session.entries

theorem ofFrame_act (owns : session.owner action = some frame) :
    (session.act action).ofFrame frame = session.ofFrame frame ++ [session.entry action] := by
  simp [ofFrame, act, entry, owns]

theorem ofFrame_act_of_ne (other : session.owner action ≠ some frame) :
    (session.act action).ofFrame frame = session.ofFrame frame := by
  simp [ofFrame, act, entry, other]

theorem pushed_act (owns : session.owner action = some frame) :
    (session.act action).pushed frame = session.pushed frame ++ action.data := by
  simp [pushed, ofFrame_act owns, entry]

theorem pushed_act_of_ne (other : session.owner action ≠ some frame) :
    (session.act action).pushed frame = session.pushed frame := by
  rw [pushed, ofFrame_act_of_ne other, pushed]

theorem sentFor_act (owns : session.owner action = some frame) :
    (session.act action).sentFor frame =
      session.sentFor frame ++ (session.line.perform action).1 := by
  simp [sentFor, ofFrame_act owns, entry]

theorem sentFor_act_of_ne (other : session.owner action ≠ some frame) :
    (session.act action).sentFor frame = session.sentFor frame := by
  rw [sentFor, ofFrame_act_of_ne other, sentFor]

theorem sent_act (session : Session) (action : Action) :
    (session.act action).sent = session.sent ++ (session.line.perform action).1 := by
  simp [sent, act, entry]

theorem sent_prefix_actAll (session : Session) (later : List Action) :
    session.sent <+: (session.actAll later).sent := by
  induction later generalizing session with
  | nil => exact List.prefix_rfl
  | cons action later induction =>
      have first : session.sent <+: (session.act action).sent := by simp [sent_act]
      exact first.trans (induction (session.act action))

theorem begun_act_of_ne (notFirst : action ≠ .openFrame) :
    (session.act action).begun = session.begun := by
  simp [act, notFirst]

theorem begun_le_act (session : Session) (action : Action) :
    session.begun ≤ (session.act action).begun := by
  by_cases isFirst : action = .openFrame
  · simp [act, isFirst]
  · exact Nat.le_of_eq (begun_act_of_ne isFirst).symm

/-- Every frame begun so far is assembled from its own pieces, and there are no
pieces of others. -/
structure Sorted (session : Session) : Prop where
  unbegun : ∀ frame, session.begun ≤ frame → session.ofFrame frame = []
  assembled : ∀ frame, frame < session.begun → Entry.Assembled (session.ofFrame frame)

theorem Sorted.act (sorted : session.Sorted)
    (owned : ∀ frame, session.owner action = some frame →
      frame < (session.act action).begun ∧
        Entry.Assembled (session.ofFrame frame ++ [session.entry action])) :
    (session.act action).Sorted := by
  constructor
  · intro frame above
    have foreign : session.owner action ≠ some frame := by
      intro owns
      exact absurd (owned frame owns).1 (Nat.not_lt.mpr above)
    rw [ofFrame_act_of_ne foreign]
    exact sorted.unbegun frame (Nat.le_trans (session.begun_le_act action) above)
  · intro frame below
    by_cases owns : session.owner action = some frame
    · rw [ofFrame_act owns]
      exact (owned frame owns).2
    · rw [ofFrame_act_of_ne owns]
      apply sorted.assembled
      by_cases isFirst : action = .openFrame
      · have different : session.begun ≠ frame := by simpa [owner, isFirst] using owns
        simp only [Session.act, isFirst, if_true] at below
        omega
      · exact begun_act_of_ne isFirst ▸ below

/-- The frames are sorted, and all that the line knows is what was pushed into the
frame that is open. -/
structure Consistent (session : Session) : Prop extends session.Sorted where
  isOpen : ∀ frame, session.current = some frame →
    frame < session.begun ∧ Entry.finished (session.ofFrame frame) = false
  line : session.line =
    ⟨session.current.map fun frame => OpenFrame.holding (session.pushed frame)⟩

theorem consistent_new : ({} : Session).Consistent where
  unbegun _ _ := rfl
  assembled _ below := absurd below (Nat.not_lt_zero _)
  isOpen _ same := by cases same
  line := rfl

/-- An action of no frame, after which the line is as it was. -/
theorem Consistent.aside (consistent : session.Consistent)
    (foreign : session.owner action = none)
    (sameLine : (session.line.perform action).2 = session.line)
    (sameCurrent : session.next action = session.current) :
    (session.act action).Consistent := by
  have notOwned (frame : Nat) : session.owner action ≠ some frame := by simp [foreign]
  have sorted := consistent.toSorted.act fun frame owns => absurd owns (notOwned frame)
  have current : (session.act action).current = session.current := sameCurrent
  have line : (session.act action).line = session.line := sameLine
  refine ⟨sorted, fun frame isCurrent => ?_, ?_⟩
  · obtain ⟨below, isOpen⟩ := consistent.isOpen frame (current ▸ isCurrent)
    rw [ofFrame_act_of_ne (notOwned frame)]
    exact ⟨Nat.lt_of_lt_of_le below (session.begun_le_act action), isOpen⟩
  · simp only [current, line, pushed_act_of_ne (notOwned _)]
    exact consistent.line

/-- The first piece of a frame. -/
theorem Consistent.first (consistent : session.Consistent) :
    (session.act .openFrame).Consistent := by
  have fresh : session.ofFrame session.begun = [] := consistent.unbegun _ (Nat.le_refl _)
  have owns : session.owner .openFrame = some session.begun := rfl
  have below : session.begun < (session.act .openFrame).begun := Nat.lt_succ_self _
  have sorted : (session.act .openFrame).Sorted := by
    apply consistent.toSorted.act
    rintro frame ⟨⟩
    refine ⟨below, ?_⟩
    rw [fresh]
    rfl
  refine ⟨sorted, ?_, ?_⟩
  · rintro frame ⟨⟩
    refine ⟨below, ?_⟩
    rw [ofFrame_act owns, fresh]
    rfl
  · have nothing : (session.act .openFrame).pushed session.begun = [] := by
      rw [pushed, ofFrame_act owns, fresh]
      rfl
    have current : (session.act .openFrame).current = some session.begun := rfl
    rw [current, Option.map_some, nothing]
    rfl

/-- A piece that adds to what was pushed into the open frame. -/
theorem Consistent.grow (consistent : session.Consistent)
    (isCurrent : session.current = some frame) (notEnd : action ≠ .finish)
    (owns : session.owner action = some frame) (keeps : session.next action = some frame)
    (performs : session.line.perform action =
      (stuff action.data, ⟨some (OpenFrame.holding (session.pushed frame ++ action.data))⟩)) :
    (session.act action).Consistent := by
  obtain ⟨begun, isOpen⟩ := consistent.isOpen frame isCurrent
  have below := Nat.lt_of_lt_of_le begun (session.begun_le_act action)
  have sorted : (session.act action).Sorted := by
    apply consistent.toSorted.act
    intro other ownsOther
    cases owns.symm.trans ownsOther
    have sent : (session.entry action).sent = stuff action.data := by simp [entry, performs]
    exact ⟨below, (consistent.assembled frame begun).grow isOpen notEnd sent⟩
  have current : (session.act action).current = some frame := keeps
  refine ⟨sorted, fun other isOther => ?_, ?_⟩
  · cases current.symm.trans isOther
    refine ⟨below, ?_⟩
    rw [ofFrame_act owns]
    simpa [isOpen, entry] using notEnd
  · rw [current, Option.map_some, pushed_act owns]
    simp [act, performs]

/-- A last piece of the open frame, or none. -/
theorem Consistent.close (consistent : session.Consistent)
    (isCurrent : session.current = some frame)
    (owns : session.owner action = some frame) (closes : session.next action = none)
    (performs : (session.line.perform action).2 = {})
    (assembled : Entry.Assembled (session.ofFrame frame ++ [session.entry action])) :
    (session.act action).Consistent := by
  have begun := (consistent.isOpen frame isCurrent).1
  have below := Nat.lt_of_lt_of_le begun (session.begun_le_act action)
  have sorted : (session.act action).Sorted := by
    apply consistent.toSorted.act
    intro other ownsOther
    cases owns.symm.trans ownsOther
    exact ⟨below, assembled⟩
  have current : (session.act action).current = none := closes
  refine ⟨sorted, fun other isOther => ?_, ?_⟩
  · cases current.symm.trans isOther
  · rw [current]
    exact performs

theorem Consistent.line_of_current (consistent : session.Consistent)
    (isCurrent : session.current = some frame) :
    session.line = ⟨some (OpenFrame.holding (session.pushed frame))⟩ := by
  rw [consistent.line, isCurrent, Option.map_some]

theorem Consistent.line_of_none (consistent : session.Consistent)
    (isCurrent : session.current = none) : session.line = {} := by
  rw [consistent.line, isCurrent, Option.map_none]

theorem Consistent.act_of_none (consistent : session.Consistent)
    (isCurrent : session.current = none) (action : Action) :
    (session.act action).Consistent := by
  have line := consistent.line_of_none isCurrent
  cases action with
  | openFrame => exact consistent.first
  | push _ | extend _ => exact consistent.aside isCurrent (by rw [line]; rfl) rfl
  | finish | abandon => exact consistent.aside isCurrent (by rw [line]; rfl) isCurrent.symm
  | send _ => exact consistent.aside rfl rfl rfl

theorem Consistent.act_of_current (consistent : session.Consistent)
    (isCurrent : session.current = some frame) (action : Action) :
    (session.act action).Consistent := by
  have line := consistent.line_of_current isCurrent
  obtain ⟨begun, isOpen⟩ := consistent.isOpen frame isCurrent
  have assembled := consistent.assembled frame begun
  cases action with
  | openFrame => exact consistent.first
  | push byte =>
      have performs : session.line.perform (.push byte) =
          (stuff [byte], ⟨some (OpenFrame.holding (session.pushed frame ++ [byte]))⟩) := by
        simp only [line, Line.perform, OpenFrame.push_holding]
      exact consistent.grow isCurrent (by simp) isCurrent isCurrent performs
  | extend data =>
      have performs : session.line.perform (.extend data) =
          (stuff data, ⟨some (OpenFrame.holding (session.pushed frame ++ data))⟩) := by
        simp only [line, Line.perform, OpenFrame.extend_holding]
      exact consistent.grow isCurrent (by simp) isCurrent isCurrent performs
  | finish =>
      have sent : (session.entry .finish).sent =
          (OpenFrame.holding (session.pushed frame)).finish := by
        simp only [entry, line, Line.perform]
      have whole := assembled.finish isOpen rfl sent
      exact consistent.close isCurrent isCurrent rfl (by rw [line]; rfl) whole
  | abandon =>
      have asFar : Entry.Assembled (session.ofFrame frame ++ [session.entry .abandon]) :=
        assembled.grow isOpen (by simp [entry]) rfl
      exact consistent.close isCurrent isCurrent rfl rfl asFar
  | send _ => exact consistent.aside rfl rfl rfl

theorem Consistent.act (consistent : session.Consistent) (action : Action) :
    (session.act action).Consistent := by
  cases isCurrent : session.current with
  | none => exact consistent.act_of_none isCurrent action
  | some _ => exact consistent.act_of_current isCurrent action

theorem Consistent.actAll (consistent : session.Consistent) (history : List Action) :
    (session.actAll history).Consistent := by
  induction history generalizing session with
  | nil => exact consistent
  | cons action history induction => exact induction (consistent.act action)

/-- A frame that has been begun and is no longer open. -/
def Left (session : Session) (frame : Nat) : Prop :=
  frame < session.begun ∧ session.current ≠ some frame

theorem Left.owner_ne (left : session.Left frame) (action : Action) :
    session.owner action ≠ some frame := by
  obtain ⟨begun, notCurrent⟩ := left
  cases action with
  | openFrame =>
      simp only [owner, ne_eq, Option.some.injEq]
      exact Nat.ne_of_gt begun
  | push _ | extend _ | finish | abandon => exact notCurrent
  | send _ => simp [owner]

theorem Left.act (left : session.Left frame) (action : Action) :
    (session.act action).Left frame := by
  have begun := Nat.lt_of_lt_of_le left.1 (session.begun_le_act action)
  refine ⟨begun, ?_⟩
  cases action with
  | openFrame => exact left.owner_ne .openFrame
  | push _ | extend _ | send _ => exact left.2
  | finish | abandon => simp [Session.act, next]

theorem Left.ofFrame_actAll (left : session.Left frame) (later : List Action) :
    (session.actAll later).ofFrame frame = session.ofFrame frame := by
  induction later generalizing session with
  | nil => rfl
  | cons action later induction =>
      have rest := induction (left.act action)
      exact rest.trans (ofFrame_act_of_ne (left.owner_ne action))

theorem Consistent.left (consistent : session.Consistent)
    (isCurrent : session.current = some frame) (action : Action)
    (givesUp : session.next action ≠ some frame) : (session.act action).Left frame := by
  have begun := (consistent.isOpen frame isCurrent).1
  exact ⟨Nat.lt_of_lt_of_le begun (session.begun_le_act action), givesUp⟩

theorem Consistent.sentFor_current (consistent : session.Consistent)
    (isCurrent : session.current = some frame) :
    session.sentFor frame = unfinished (session.pushed frame) := by
  obtain ⟨begun, isOpen⟩ := consistent.isOpen frame isCurrent
  have assembled := consistent.assembled frame begun
  rw [Entry.Assembled, isOpen] at assembled
  exact assembled

theorem Left.sentFor_actAll (left : session.Left frame) (later : List Action) :
    (session.actAll later).sentFor frame = session.sentFor frame := by
  rw [sentFor, left.ofFrame_actAll later, sentFor]

/-- What is missing from the encoding of the open frame is what finishing it adds. -/
theorem Consistent.encode_pushed (consistent : session.Consistent)
    (isCurrent : session.current = some frame) :
    encode (session.pushed frame) =
      session.sentFor frame ++ (session.line.perform .finish).1 := by
  have ending : (session.line.perform .finish).1 =
      (OpenFrame.holding (session.pushed frame)).finish := by
    simp only [consistent.line_of_current isCurrent, Line.perform]
  rw [consistent.sentFor_current isCurrent, ending, encode_eq_unfinished_append]

/-- With its last action the open frame has all the bytes that it will ever have. -/
theorem Consistent.sentFor_behind (consistent : session.Consistent)
    (isCurrent : session.current = some frame) (owns : session.owner action = some frame)
    (givesUp : session.next action ≠ some frame) (later : List Action) :
    ((session.act action).actAll later).sentFor frame =
      session.sentFor frame ++ (session.line.perform action).1 := by
  have left := consistent.left isCurrent action givesUp
  exact (left.sentFor_actAll later).trans (sentFor_act owns)

/-- A frame that the next one pushes aside has them already. -/
theorem Consistent.sentFor_behind_openFrame (consistent : session.Consistent)
    (isCurrent : session.current = some frame) (later : List Action) :
    ((session.act .openFrame).actAll later).sentFor frame = session.sentFor frame := by
  have begun := (consistent.isOpen frame isCurrent).1
  have foreign : session.owner .openFrame ≠ some frame := by
    simp only [owner, ne_eq, Option.some.injEq]
    exact Nat.ne_of_gt begun
  have left := consistent.left isCurrent .openFrame foreign
  exact (left.sentFor_actAll later).trans (sentFor_act_of_ne foreign)

/-- Whatever is done on a fresh line, the bytes of each frame by themselves are those
of its payload written at once: all of them if it was finished, and those before the
checksum if not.  The line knows nothing but what was pushed into the open frame.
Finishing that frame adds just what is missing from its encoding; giving it up, or
starting the next one, adds nothing to it, and neither does anything done later.  A
whole frame that is sent in between stays in one piece and leaves the line as it was,
and it is the frame begun, filled and finished with its payload. -/
theorem frames_stay_apart (history : List Action) :
    let session := ({} : Session).actAll history
    (∀ frame, frame < session.begun →
      session.sentFor frame =
        if session.isFinished frame then encode (session.pushed frame)
        else flag :: stuff (session.pushed frame)) ∧
      session.line =
        ⟨session.current.map fun frame => OpenFrame.holding (session.pushed frame)⟩ ∧
      (∀ frame, session.current = some frame →
        session.sentFor frame = flag :: stuff (session.pushed frame) ∧
          encode (session.pushed frame) =
            session.sentFor frame ++ (session.line.perform .finish).1 ∧
          ∀ later,
            ((session.act .finish).actAll later).sentFor frame =
                encode (session.pushed frame) ∧
              ((session.act .abandon).actAll later).sentFor frame = session.sentFor frame ∧
              ((session.act .openFrame).actAll later).sentFor frame =
                session.sentFor frame) ∧
      ∀ payload,
        (session.act (.send payload)).line = session.line ∧
          (∀ frame,
            (session.act (.send payload)).sentFor frame = session.sentFor frame) ∧
          (∀ later,
            session.sent ++ encode payload <+:
              ((session.act (.send payload)).actAll later).sent) ∧
          encode payload =
            OpenFrame.start.1 ++ (OpenFrame.start.2.extend payload).1 ++
              (OpenFrame.start.2.extend payload).2.finish := by
  intro session
  have consistent : session.Consistent := consistent_new.actAll history
  refine ⟨consistent.assembled, consistent.line, fun frame isCurrent => ?_, fun payload => ?_⟩
  · have far := consistent.sentFor_current isCurrent
    have whole := consistent.encode_pushed isCurrent
    refine ⟨far, whole, fun later => ⟨?_, ?_, ?_⟩⟩
    · have owns : session.owner .finish = some frame := isCurrent
      have all := consistent.sentFor_behind isCurrent owns (by simp [next]) later
      exact all.trans whole.symm
    · have owns : session.owner .abandon = some frame := isCurrent
      have all := consistent.sentFor_behind isCurrent owns (by simp [next]) later
      exact all.trans (List.append_nil _)
    · exact consistent.sentFor_behind_openFrame isCurrent later
  · have stepwise := OpenFrame.start_extend_finish payload
    refine ⟨rfl, fun frame => ?_, fun later => ?_, stepwise.symm⟩
    · exact sentFor_act_of_ne (by simp [owner])
    · have sent : (session.act (.send payload)).sent = session.sent ++ encode payload :=
        session.sent_act (.send payload)
      exact sent ▸ (session.act (.send payload)).sent_prefix_actAll later

/-- A frame into which a whole one is sent, one that the next pushes aside, and that
next one, still open. -/
theorem interrupted_frame_is_whole :
    let session := ({} : Session).actAll
      [.openFrame, .push 0x7E, .send [0x7D], .extend [], .extend [0x01, 0x7D], .finish,
        .openFrame, .push 0x02, .openFrame, .push 0x03, .send []]
    session.sentFor 0 = encode [0x7E, 0x01, 0x7D] ∧
      session.sentFor 1 = [0x7E, 0x02] ∧
      (session.act .finish).sentFor 2 = encode [0x03] := by
  intro session
  obtain ⟨frames, -, current, -⟩ := frames_stay_apart
    [.openFrame, .push 0x7E, .send [0x7D], .extend [], .extend [0x01, 0x7D], .finish,
      .openFrame, .push 0x02, .openFrame, .push 0x03, .send []]
  obtain ⟨-, -, later⟩ := current 2 rfl
  exact ⟨frames 0 (by decide), frames 1 (by decide), (later []).1⟩

end Session

end Frame

end FramedSerial
