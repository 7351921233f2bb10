import FramedSerial.Proofs.Link.Draining
import FramedSerial.Proofs.Link.Intake
import FramedSerial.Proofs.Link.Reachability
import Mathlib.Data.List.GetD

/-!
# Devices that never make a byte wait

A device may report a byte as sent while it still takes it.  The report is only noted
at that moment, and made up for when the byte has been handed over.  If the device does
so with every byte, and submits none by itself, no byte ever waits: what is submitted is
handed on at once, and the link is idle again before the next byte comes.

With a passive device the same comes about if completions are reported until the link is
idle, each time a byte has been submitted.  The two ways of submitting a byte differ in
what goes on inside the link, and agree in what becomes of its sending half.
-/

namespace FramedSerial

namespace Link

variable {sizes : Sizes}

/-- A script by which every byte is reported as sent while it is taken, once or more
often, and nothing is submitted. -/
structure Script.Prompt (script : Script) : Prop where
  reports : ∀ index, 0 < script.completionsAt index
  submitsNothing : ∀ index, script.injected index = []

theorem Script.prompt_of_lists {script : Script} (notEmpty : script.completions ≠ [])
    (positive : ∀ count ∈ script.completions, 0 < count)
    (noInjections : script.injections = []) : script.Prompt where
  reports := by
    intro index
    have inside : index % script.completions.length < script.completions.length :=
      Nat.mod_lt _ (List.length_pos_iff.mpr notEmpty)
    rw [completionsAt, List.getD_eq_getElem _ _ inside]
    exact positive _ (List.getElem_mem inside)
  submitsNothing := by
    intro index
    rw [injected, noInjections]
    rfl

theorem Script.Prompt.reactions {script : Script} (prompt : script.Prompt) (index : Nat)
    (byte : UInt8) :
    ∃ further, script.reactions index byte =
      (if script.echoes then [.arrive byte] else []) ++
        List.replicate (further + 1) .complete := by
  obtain ⟨further, count⟩ := Nat.exists_eq_add_one.mpr (prompt.reports index)
  refine ⟨further, ?_⟩
  rw [Script.reactions, prompt.submitsNothing, count, List.map_nil, List.append_nil]

/-- Where received bytes go when the device has taken a byte under the script. -/
def echo (script : Script) (link : Link sizes) (byte : UInt8) : Inbox sizes.inbox :=
  if script.echoes then link.inbox.accept byte else link.inbox

theorem perform_echo (script : Script) (link : Link sizes) (byte : UInt8)
    (later : List Task) :
    link.perform (((if script.echoes then [.arrive byte] else []).map .follow) ++ later) =
      { link with inbox := link.echo script byte }.perform later := by
  unfold echo
  split
  · exact link.perform_cons _ later
  · rfl

/-- Completions that come while a byte is handed over are noted once, however many
there are. -/
theorem perform_completions {link : Link sizes} (writing : link.transmitter.writing = true)
    (further : Nat) (later : List Task) :
    link.perform ((List.replicate (further + 1) .complete).map .follow ++ later) =
      { link with transmitter := { link.transmitter with completionNoted := true } }.perform
        later := by
  induction further generalizing link with
  | zero =>
      refine (link.perform_cons _ later).trans ?_
      simp only [step, Transmitter.complete_of_writing writing]
      rfl
  | succ further induction =>
      refine (link.perform_cons _ _).trans ?_
      simp only [step, Transmitter.complete_of_writing writing]
      exact induction writing

theorem Transmitter.eq_of_flags_down {capacity : Nat} {transmitter : Transmitter capacity}
    (notBusy : transmitter.busy = false) (notWriting : transmitter.writing = false)
    (notNoted : transmitter.completionNoted = false) :
    { transmitter with busy := false, writing := false, completionNoted := false } =
      transmitter := by
  obtain ⟨busy, writing, noted, queue, framesSent, bytesDropped⟩ := transmitter
  obtain rfl : busy = false := notBusy
  obtain rfl : writing = false := notWriting
  obtain rfl : noted = false := notNoted
  rfl

/-- A byte goes straight through an idle link with a prompt device. -/
theorem follow_submit_of_prompt {link : Link sizes} {script : Script}
    (prompt : script.Prompt) (scripted : link.device.behaviour = .scripted script)
    (resting : link.Resting) (idle : link.busy = false) (byte : UInt8) :
    link.follow (.submit byte) =
      { link with device := link.device.take byte, inbox := link.echo script byte } := by
  have noneWaits := (ByteQueue.pop?_eq_none_iff_toList _).mpr (resting.emptyWhenIdle idle)
  obtain ⟨further, calls⟩ := prompt.reactions link.device.taken byte
  have reactions : link.device.reactions byte =
      (if script.echoes then [.arrive byte] else []) ++
        List.replicate (further + 1) .complete := by
    rw [Device.reactions, scripted]
    exact calls
  rw [follow, perform_cons]
  simp only [step, Transmitter.submit_of_idle idle]
  rw [List.singleton_append, perform_cons]
  simp only [step, reactions]
  rw [List.map_append, List.append_assoc, List.append_assoc, perform_echo,
    perform_completions rfl, List.singleton_append, perform_cons]
  simp only [step, Transmitter.written_of_noted, Transmitter.next, noneWaits]
  have same := Transmitter.eq_of_flags_down idle resting.notWriting resting.notNoted
  refine (perform_nil _).trans ?_
  simp only [same, echo]

/-- The bytes that an operation submits by itself. -/
def Operation.submitted : Operation → Bytes
  | .send payload => Frame.encode payload
  | .sendRaw data => data
  | .follow (.submit byte) => [byte]
  | _ => []

/-- An operation whose bytes are submitted in a way of its own. -/
def operateBy (submit : Link sizes → UInt8 → Link sizes) (link : Link sizes) :
    Operation → Link sizes
  | .send payload =>
      let last := (Frame.encode payload).foldl submit link
      { last with transmitter := last.transmitter.countFrame }
  | .sendRaw data => data.foldl submit link
  | .follow (.submit byte) => submit link byte
  | operation => link.operate operation

def operateAllBy (submit : Link sizes → UInt8 → Link sizes) (link : Link sizes)
    (history : List Operation) : Link sizes :=
  history.foldl (operateBy submit) link

/-- Submits a byte, and does nothing else. -/
def submitOnly (link : Link sizes) (byte : UInt8) : Link sizes :=
  link.follow (.submit byte)

/-- Submits a byte, and reports completions until the link is idle. -/
def submitAndDrain (link : Link sizes) (byte : UInt8) : Link sizes :=
  (link.follow (.submit byte)).drain.2

theorem followAll_submits (link : Link sizes) (data : Bytes) :
    link.followAll (data.map .submit) = data.foldl submitOnly link := by
  rw [followAll, List.foldl_map]
  rfl

theorem operateBy_submitOnly (link : Link sizes) (operation : Operation) :
    link.operateBy submitOnly operation = link.operate operation := by
  cases operation with
  | send payload =>
      rw [operateBy, ← followAll_submits]
      rfl
  | sendRaw data =>
      rw [operateBy, ← followAll_submits]
      rfl
  | follow call =>
      cases call with
      | submit byte => rfl
      | complete => rfl
      | arrive byte => rfl
  | _ => rfl

theorem operateAllBy_submitOnly (link : Link sizes) (history : List Operation) :
    link.operateAllBy submitOnly history = link.operateAll history := by
  induction history generalizing link with
  | nil => rfl
  | cons operation history induction =>
      rw [operateAllBy, List.foldl_cons, operateBy_submitOnly]
      exact induction (link.operate operation)

/-- Starting afresh costs what waits, and nothing else of the sending half. -/
theorem outlet_of_cleared {link later : Link sizes}
    (cleared : later.transmitter = link.transmitter.clear)
    (sameRecord : later.device.record = link.device.record) :
    later.outlet = { link.outlet with waiting := [], busy := false } := by
  have noneWaits : link.transmitter.clear.queue.toList = [] := ByteQueue.toList_clear _
  rw [outlet, cleared, sameRecord, noneWaits]
  rfl

theorem outlet_of_same {link later : Link sizes}
    (same : later.transmitter = link.transmitter ∧ later.device = link.device) :
    later.outlet = link.outlet := by
  rw [outlet, same.1, same.2]
  rfl

/-- A link, with a device of the given kind, that has handed on all bytes that were
submitted and is idle. -/
structure Forwarding (behaviour : Behaviour) (sent : Bytes) (link : Link sizes) : Prop where
  sameKind : link.device.behaviour = behaviour
  resting : link.Resting
  outlet : link.outlet = ⟨sent, [], false, .zero⟩

section

variable {behaviour : Behaviour} {sent : Bytes} {link : Link sizes}

theorem forwarding_new (behaviour : Behaviour) (settings : Settings) :
    (new behaviour settings : Link sizes).Forwarding behaviour [] where
  sameKind := rfl
  resting := (keeps_new behaviour settings).1
  outlet := by
    have noneWaits : (ByteQueue.empty : ByteQueue sizes.outbox).toList = [] :=
      ByteQueue.toList_empty
    simp [Link.outlet, new, noneWaits]

theorem Forwarding.idle (forwarding : link.Forwarding behaviour sent) :
    link.busy = false :=
  congrArg Outlet.busy forwarding.outlet

theorem Forwarding.countFrame (forwarding : link.Forwarding behaviour sent) :
    Forwarding behaviour sent
      { link with transmitter := link.transmitter.countFrame } where
  sameKind := forwarding.sameKind
  resting :=
    ⟨forwarding.resting.notWriting, forwarding.resting.notNoted,
      forwarding.resting.emptyWhenIdle⟩
  outlet := forwarding.outlet

theorem Forwarding.of_outlet (forwarding : link.Forwarding behaviour sent)
    (operation : Operation) (same : (link.operate operation).outlet = link.outlet) :
    (link.operate operation).Forwarding behaviour sent where
  sameKind := (link.operate_behaviour operation).trans forwarding.sameKind
  resting := forwarding.resting.operate operation
  outlet := same.trans forwarding.outlet

/-- A way of submitting bytes by which each goes straight to a device of the given
kind. -/
def PassesOn (behaviour : Behaviour) (submit : Link sizes → UInt8 → Link sizes) : Prop :=
  ∀ link sent byte, link.Forwarding behaviour sent →
    (submit link byte).Forwarding behaviour (sent ++ [byte])

variable {submit : Link sizes → UInt8 → Link sizes}

theorem PassesOn.foldl (passesOn : PassesOn behaviour submit)
    (forwarding : link.Forwarding behaviour sent) (data : Bytes) :
    (data.foldl submit link).Forwarding behaviour (sent ++ data) := by
  induction data generalizing link sent with
  | nil =>
      rw [List.append_nil]
      exact forwarding
  | cons byte rest induction =>
      have later := induction (passesOn _ _ byte forwarding)
      rw [List.append_assoc, List.singleton_append] at later
      exact later

theorem PassesOn.operateBy (passesOn : PassesOn behaviour submit)
    (forwarding : link.Forwarding behaviour sent) (operation : Operation) :
    (link.operateBy submit operation).Forwarding behaviour
      (sent ++ operation.submitted) := by
  have nothing : ∀ {later : Link sizes}, later.Forwarding behaviour sent →
      later.Forwarding behaviour (sent ++ []) := by
    intro later still
    rw [List.append_nil]
    exact still
  have unchanged : { link.outlet with waiting := [], busy := false } = link.outlet := by
    rw [forwarding.outlet]
  cases operation with
  | send payload => exact (passesOn.foldl forwarding (Frame.encode payload)).countFrame
  | sendRaw data => exact passesOn.foldl forwarding data
  | follow call =>
      cases call with
      | submit byte => exact passesOn _ _ byte forwarding
      | complete =>
          apply nothing
          apply forwarding.of_outlet (.follow .complete)
          exact congrArg Link.outlet (forwarding.resting.complete_of_idle forwarding.idle)
      | arrive byte =>
          apply nothing
          apply forwarding.of_outlet (.follow (.arrive byte))
          exact (congrArg Link.outlet (link.follow_arrive byte)).trans rfl
  | bringUp =>
      have afresh : link.bringUp.outlet = { link.outlet with waiting := [], busy := false } :=
        outlet_of_cleared rfl (powerUp_record link.device)
      apply nothing
      apply forwarding.of_outlet .bringUp
      exact afresh.trans unchanged
  | shutDown =>
      have afresh : link.shutDown.outlet = { link.outlet with waiting := [], busy := false } :=
        outlet_of_cleared rfl (powerDown_record link.device)
      apply nothing
      apply forwarding.of_outlet .shutDown
      exact afresh.trans unchanged
  | reset => exact nothing (forwarding.of_outlet .reset rfl)
  | tryReceive buffer =>
      apply nothing
      apply forwarding.of_outlet (.tryReceive buffer)
      exact outlet_of_same (link.tryReceive_keeps buffer)
  | receive buffer =>
      apply nothing
      apply forwarding.of_outlet (.receive buffer)
      exact outlet_of_same (link.receive_keeps buffer)
  | receiveRaw buffer => exact nothing (forwarding.of_outlet (.receiveRaw buffer) rfl)

theorem PassesOn.operateAllBy (passesOn : PassesOn behaviour submit)
    (forwarding : link.Forwarding behaviour sent) (history : List Operation) :
    (link.operateAllBy submit history).Forwarding behaviour
      (sent ++ history.flatMap Operation.submitted) := by
  induction history generalizing link sent with
  | nil =>
      rw [List.flatMap_nil, List.append_nil]
      exact forwarding
  | cons operation history induction =>
      have later := induction (passesOn.operateBy forwarding operation)
      rw [List.append_assoc] at later
      exact later

end

/-- A prompt device lets every byte pass on. -/
theorem Script.Prompt.passesOn {script : Script} (prompt : script.Prompt) :
    PassesOn (.scripted script) (submitOnly : Link sizes → UInt8 → Link sizes) := by
  intro link sent byte forwarding
  have followed := follow_submit_of_prompt prompt forwarding.sameKind forwarding.resting
    forwarding.idle byte
  have resting := forwarding.resting.follow (.submit byte)
  rw [submitOnly]
  rw [followed] at resting ⊢
  refine ⟨forwarding.sameKind, resting, ?_⟩
  have before := forwarding.outlet
  simp only [Link.outlet, Outlet.mk.injEq] at before
  simp [Link.outlet, Device.take, before]

/-- So does draining a link with a passive device behind every byte. -/
theorem submitAndDrain_passesOn :
    PassesOn .passive (submitAndDrain : Link sizes → UInt8 → Link sizes) := by
  intro link sent byte forwarding
  have quiet : link.Quiet := ⟨forwarding.sameKind, forwarding.resting⟩
  obtain ⟨quietNext, submitted⟩ := quiet.submit byte
  obtain ⟨_, quietLater, drained, _⟩ := quietNext.drain
  refine ⟨quietLater.passive, quietLater.resting, ?_⟩
  rw [submitAndDrain, drained, submitted, forwarding.outlet]
  simp [Outlet.submit, Outlet.drained, Outlet.bytes]

/-- Behind every history of a link with a prompt device the link is idle, nothing waits,
no byte has been dropped, and the device has taken exactly what was submitted, in order.
The sending half is then that of a link with a passive device on which completions have
been reported until it was idle, behind every byte. -/
theorem prompt_device_keeps_up {script : Script} (prompt : script.Prompt)
    (settings : Settings) (history : List Operation) :
    let link : Link sizes := (new (.scripted script) settings).operateAll history
    let deferred : Link sizes := (new .passive settings).operateAllBy submitAndDrain history
    link.busy = false ∧ link.pendingOutbound = 0 ∧
      link.statistics.outboundBytesDropped = .zero ∧
      link.device.record.toList = history.flatMap Operation.submitted ∧
      deferred.outlet = link.outlet := by
  intro link deferred
  have atOnce : (operateAllBy submitOnly (new (.scripted script) settings) history :
      Link sizes).Forwarding (.scripted script) (history.flatMap Operation.submitted) :=
    prompt.passesOn.operateAllBy (forwarding_new _ settings) history
  have later : deferred.Forwarding .passive (history.flatMap Operation.submitted) :=
    submitAndDrain_passesOn.operateAllBy (forwarding_new _ settings) history
  rw [operateAllBy_submitOnly] at atOnce
  refine ⟨atOnce.idle, ?_, ?_, ?_, later.outlet.trans atOnce.outlet.symm⟩
  · rw [← length_waiting, atOnce.outlet]
    rfl
  · exact congrArg Outlet.bytesDropped atOnce.outlet
  · exact congrArg Outlet.taken atOnce.outlet

/-- Reports every other byte once and the ones between them three times. -/
def echoingScript : Script where
  echoes := true
  completions := [1, 3]

theorem echoingScript_prompt : echoingScript.Prompt :=
  Script.prompt_of_lists (by decide) (by decide) rfl

/-- More bytes at a time than a queue of one byte would hold, and a completion that
nobody waits for. -/
def mixedHistory : List Operation :=
  [.bringUp, .sendRaw [0x41, 0x42, 0x43], .follow .complete, .send [0x7e], .shutDown,
    .follow (.submit 0x44)]

theorem echoingScript_keeps_up :
    let link : Link { inbox := 4, outbox := 1, frame := 8 } :=
      (new (.scripted echoingScript) {}).operateAll mixedHistory
    let deferred : Link { inbox := 4, outbox := 1, frame := 8 } :=
      (new .passive {}).operateAllBy submitAndDrain mixedHistory
    echoingScript.Prompt ∧ link.busy = false ∧ link.pendingOutbound = 0 ∧
      link.statistics.outboundBytesDropped = .zero ∧
      link.device.record.toList =
        [0x41, 0x42, 0x43] ++ Frame.encode [0x7e] ++ [0x44] ∧
      deferred.device.record.toList = link.device.record.toList := by
  intro link deferred
  obtain ⟨idle, noneWaits, undropped, record, same⟩ :=
    @prompt_device_keeps_up { inbox := 4, outbox := 1, frame := 8 } echoingScript
      echoingScript_prompt {} mixedHistory
  exact ⟨echoingScript_prompt, idle, noneWaits, undropped, record.trans rfl,
    congrArg Outlet.taken same⟩

end Link

end FramedSerial
