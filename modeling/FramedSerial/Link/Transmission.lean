import FramedSerial.Frame.Encoding
import FramedSerial.Link.Basic

/-!
# Sending

A device may call its link back while it takes a byte, and what it asks for then
may lead to the next byte.  So a call is carried out by an agenda of tasks: one
step takes the first task off and puts what follows from it in front, the
device's own calls before everything else.

The agenda runs empty.  Every byte that is handed to the device was waiting in
the queue, was on the agenda, or is one of the finitely many that the device
injects, and the tasks between two such bytes are bounded.
-/

namespace FramedSerial

namespace Link

variable {sizes : Sizes}

/-- Something that a link still has to do. -/
inductive Task where
  /-- Follow a call. -/
  | follow (call : Call)
  /-- Hand a byte to the device. -/
  | write (byte : UInt8)
  /-- Go on after the device has taken a byte. -/
  | written
deriving DecidableEq, Repr

/-- Carries out one task; returns the tasks that follow from it. -/
def step (link : Link sizes) : Task → List Task × Link sizes
  | .follow (.submit byte) =>
      match link.transmitter.submit byte with
      | (.write, transmitter) => ([.write byte], { link with transmitter := transmitter })
      | (.queued, transmitter) => ([], { link with transmitter := transmitter })
      | (.dropped, transmitter) =>
          ([], { link with transmitter := transmitter }.note (.outboundFull byte))
  | .follow .complete =>
      let (next, transmitter) := link.transmitter.complete
      (next.toList.map .write, { link with transmitter := transmitter })
  | .follow (.arrive byte) => ([], { link with inbox := link.inbox.accept byte })
  | .write byte =>
      ((link.device.reactions byte).map .follow ++ [.written],
        { link with device := link.device.take byte })
  | .written =>
      let (next, transmitter) := link.transmitter.written
      (next.toList.map .write, { link with transmitter := transmitter })

/-- How many bytes a task may hand to the device by itself. -/
def Task.bytes : Task → Nat
  | .follow (.submit _) | .write _ => 1
  | _ => 0

/-- How many tasks a task may bring about without a byte reaching the device. -/
def Task.effort : Task → Nat
  | .follow (.arrive _) | .write _ => 1
  | _ => 2

/-- How many bytes the tasks of an agenda may hand to the device by themselves. -/
def agendaBytes : List Task → Nat
  | [] => 0
  | task :: later => task.bytes + agendaBytes later

/-- How many tasks may be carried out before the next byte is handed over. -/
def effort : List Task → Nat
  | [] => 0
  | task :: later => task.effort + effort later

/-- How many bytes may still be handed to the device while the agenda is
carried out. -/
def outstanding (link : Link sizes) (agenda : List Task) : Nat :=
  link.pendingOutbound + link.device.injectionsLeft + agendaBytes agenda

@[simp] theorem agendaBytes_append (first second : List Task) :
    agendaBytes (first ++ second) = agendaBytes first + agendaBytes second := by
  induction first with
  | nil => simp [agendaBytes]
  | cons task later induction => simp [agendaBytes, induction, Nat.add_assoc]

@[simp] theorem effort_append (first second : List Task) :
    effort (first ++ second) = effort first + effort second := by
  induction first with
  | nil => simp [effort]
  | cons task later induction => simp [effort, induction, Nat.add_assoc]

@[simp] theorem agendaBytes_writes (next : Option UInt8) :
    agendaBytes (next.toList.map .write) = next.toList.length := by
  cases next <;> rfl

@[simp] theorem effort_writes (next : Option UInt8) :
    effort (next.toList.map .write) = next.toList.length := by
  cases next <;> rfl

theorem agendaBytes_submits (data : Bytes) :
    agendaBytes ((data.map Call.submit).map .follow) = data.length := by
  induction data with
  | nil => rfl
  | cons byte rest induction =>
      simp only [List.map_cons, agendaBytes, Task.bytes, induction, List.length_cons]
      omega

private theorem agendaBytes_completions (count : Nat) :
    agendaBytes ((List.replicate count Call.complete).map .follow) = 0 := by
  induction count with
  | zero => rfl
  | succ count induction =>
      simpa [List.replicate_succ, agendaBytes, Task.bytes] using induction

private theorem toList_length_le {α : Type} (item : Option α) : item.toList.length ≤ 1 := by
  cases item <;> simp

/-- The bytes that a device submits while it takes one are those that it will
not inject later. -/
theorem agendaBytes_reactions (device : Device) (byte : UInt8) :
    agendaBytes ((device.reactions byte).map .follow) + (device.take byte).injectionsLeft =
      device.injectionsLeft := by
  have echoed : agendaBytes ((if device.behaviour.script.echoes = true then
      [Call.arrive byte] else []).map .follow) = 0 := by
    split <;> rfl
  simp only [Device.injectionsLeft, Device.take, Device.reactions, Script.reactions,
    List.map_append, agendaBytes_append, echoed, agendaBytes_submits,
    agendaBytes_completions]
  rw [Script.injectionsFrom_eq _ device.taken]
  omega

/-- Each step hands over an outstanding byte, or leaves less to do before the
next one. -/
theorem step_decreases (link : Link sizes) (task : Task) (later : List Task) :
    outstanding (link.step task).2 ((link.step task).1 ++ later) <
        outstanding link (task :: later) ∨
      outstanding (link.step task).2 ((link.step task).1 ++ later) =
          outstanding link (task :: later) ∧
        effort ((link.step task).1 ++ later) < effort (task :: later) := by
  simp only [outstanding, pendingOutbound, agendaBytes_append, effort_append, agendaBytes,
    effort]
  match task with
  | .follow (.submit byte) =>
      have queued := link.transmitter.length_submit byte
      rcases outcome : link.transmitter.submit byte with ⟨admission, transmitter⟩
      rw [outcome] at queued
      cases admission <;>
        simp [step, outcome, agendaBytes, effort, Task.bytes, Task.effort, note]
          at queued ⊢ <;> omega
  | .follow .complete =>
      have taken := link.transmitter.length_complete
      have single := toList_length_le link.transmitter.complete.1
      right
      simp only [step, agendaBytes_writes, effort_writes, Task.bytes, Task.effort]
      omega
  | .follow (.arrive byte) =>
      right
      simp [step, agendaBytes, effort, Task.effort, Task.bytes]
  | .write byte =>
      have injected := agendaBytes_reactions link.device byte
      left
      simp only [step, agendaBytes_append, agendaBytes, Task.bytes]
      omega
  | .written =>
      have taken := link.transmitter.length_written
      have single := toList_length_le link.transmitter.written.1
      right
      simp only [step, agendaBytes_writes, effort_writes, Task.bytes, Task.effort]
      omega

def perform (link : Link sizes) : List Task → Link sizes
  | [] => link
  | task :: later =>
      let outcome := link.step task
      perform outcome.2 (outcome.1 ++ later)
termination_by agenda => (outstanding link agenda, effort agenda)
decreasing_by
  rcases link.step_decreases task later with fewer | ⟨same, less⟩
  · exact .left _ _ fewer
  · rw [same]
    exact .right _ less

/-- Follows one call, with everything that the device asks for in the course of
it. -/
def follow (link : Link sizes) (call : Call) : Link sizes :=
  link.perform [.follow call]

def followAll (link : Link sizes) (calls : List Call) : Link sizes :=
  calls.foldl follow link

/-- Sends bytes as they are, without framing. -/
def sendRaw (link : Link sizes) (data : Bytes) : Link sizes :=
  link.followAll (data.map .submit)

/-- Sends a payload as one frame.  Bytes that find the queue full are dropped,
and the frame counts as sent all the same. -/
def send (link : Link sizes) (payload : Bytes) : Link sizes :=
  let link := link.sendRaw (Frame.encode payload)
  { link with transmitter := link.transmitter.countFrame }

/-- Reports completions while the link is busy, at most `limit` of them; returns
how many were reported. -/
def completeUpTo (link : Link sizes) : (limit : Nat) → Nat × Link sizes
  | 0 => (0, link)
  | limit + 1 =>
      if link.busy then
        let (reported, link) := completeUpTo (link.follow .complete) limit
        (reported + 1, link)
      else (0, link)

/-- Reports completions until the link is idle.  Each of them but the last makes
the link hand over a byte of the queue or one that the device injects. -/
def drain (link : Link sizes) : Nat × Link sizes :=
  link.completeUpTo (link.pendingOutbound + link.device.injectionsLeft + 1)

end Link

end FramedSerial
