import FramedSerial.Proofs.Link.Operations
import FramedSerial.Proofs.Link.Reads

/-!
# Histories of a link

A history of a link is a list of operations.  The counts that it leaves can be
asked for one by one: each of them belongs to one kind of event.

Between two operations nobody reads from a link with a passive device, its settings
are those that it was made with, and its device is powered if it was brought up
after it was last shut down.
-/

namespace FramedSerial

namespace Link

variable {sizes : Sizes}

/-- A kind of event that a link counts. -/
inductive Statistic where
  | framesSent
  | framesReceived
  | badChecksums
  | framesTooLong
  | framesWithoutRoom
  | inboundBytesDropped
  | outboundBytesDropped
deriving DecidableEq, Repr

namespace Statistics

def of (statistics : Statistics) : Statistic → Counter
  | .framesSent => statistics.framesSent
  | .framesReceived => statistics.framesReceived
  | .badChecksums => statistics.badChecksums
  | .framesTooLong => statistics.framesTooLong
  | .framesWithoutRoom => statistics.framesWithoutRoom
  | .inboundBytesDropped => statistics.inboundBytesDropped
  | .outboundBytesDropped => statistics.outboundBytesDropped

/-- The statistics with one more event counted. -/
def increment (statistics : Statistics) : Statistic → Statistics
  | .framesSent => { statistics with framesSent := statistics.framesSent.increment }
  | .framesReceived =>
      { statistics with framesReceived := statistics.framesReceived.increment }
  | .badChecksums => { statistics with badChecksums := statistics.badChecksums.increment }
  | .framesTooLong =>
      { statistics with framesTooLong := statistics.framesTooLong.increment }
  | .framesWithoutRoom =>
      { statistics with framesWithoutRoom := statistics.framesWithoutRoom.increment }
  | .inboundBytesDropped =>
      { statistics with inboundBytesDropped := statistics.inboundBytesDropped.increment }
  | .outboundBytesDropped =>
      { statistics with outboundBytesDropped := statistics.outboundBytesDropped.increment }

theorem of_increment (statistics : Statistics) (counted asked : Statistic) :
    (statistics.increment counted).of asked =
      if counted = asked then (statistics.of asked).increment else statistics.of asked := by
  cases counted <;> cases asked <;> rfl

theorem toNat_framesDropped (statistics : Statistics) :
    statistics.framesDropped.toNat =
      min (statistics.badChecksums.toNat + statistics.framesTooLong.toNat +
        statistics.framesWithoutRoom.toNat) Counter.ceiling := by
  rw [framesDropped, Counter.toNat_add, Counter.toNat_add, Counter.capped_add]

end Statistics

def operateAll (link : Link sizes) (history : List Operation) : Link sizes :=
  history.foldl operate link

/-- A later state of a link in the course of calls, which have nothing to do with
the receiver and leave the device switched on or off. -/
structure Spares (link later : Link sizes) : Prop where
  receiver : later.receiver = link.receiver
  settings : later.settings = link.settings
  behaviour : later.device.behaviour = link.device.behaviour
  powered : later.device.powered = link.device.powered

theorem Spares.refl (link : Link sizes) : link.Spares link :=
  ⟨rfl, rfl, rfl, rfl⟩

theorem Spares.trans {first second third : Link sizes} (begins : first.Spares second)
    (continues : second.Spares third) : first.Spares third where
  receiver := continues.receiver.trans begins.receiver
  settings := continues.settings.trans begins.settings
  behaviour := continues.behaviour.trans begins.behaviour
  powered := continues.powered.trans begins.powered

theorem step_spares (link : Link sizes) (task : Task) :
    link.Spares (link.step task).2 := by
  match task with
  | .follow (.submit byte) =>
      rcases outcome : link.transmitter.submit byte with ⟨_ | _ | _, transmitter⟩
      all_goals
        simp only [step, outcome]
        exact ⟨rfl, rfl, rfl, rfl⟩
  | .follow .complete => exact ⟨rfl, rfl, rfl, rfl⟩
  | .follow (.arrive byte) => exact ⟨rfl, rfl, rfl, rfl⟩
  | .write byte => exact ⟨rfl, rfl, rfl, rfl⟩
  | .written => exact ⟨rfl, rfl, rfl, rfl⟩

theorem perform_spares (link : Link sizes) (agenda : List Task) :
    link.Spares (link.perform agenda) := by
  induction link, agenda using perform.induct with
  | case1 link =>
      rw [perform_nil]
      exact .refl link
  | case2 link task agenda outcome =>
      rename_i induction
      rw [perform_cons]
      exact (link.step_spares task).trans induction

theorem followAll_spares (link : Link sizes) (calls : List Call) :
    link.Spares (link.followAll calls) := by
  induction calls generalizing link with
  | nil => exact .refl link
  | cons call calls induction =>
      exact (link.perform_spares [.follow call]).trans (induction (link.follow call))

theorem powerUp_behaviour (device : Device) :
    device.powerUp.behaviour = device.behaviour := by
  unfold Device.powerUp
  split
  · rfl
  · rfl

theorem powerDown_behaviour (device : Device) :
    device.powerDown.behaviour = device.behaviour := by
  unfold Device.powerDown
  split
  · rfl
  · rfl

theorem powerUp_powered {device : Device} (passive : device.behaviour = .passive) :
    device.powerUp.powered = true := by
  simp [Device.powerUp, passive]

theorem powerDown_powered {device : Device} (passive : device.behaviour = .passive) :
    device.powerDown.powered = false := by
  simp [Device.powerDown, passive]

/-- Whether a passive device is powered behind an operation. -/
def Operation.powers : Bool → Operation → Bool
  | _, .bringUp => true
  | _, .shutDown => false
  | powered, _ => powered

/-- A link with a passive device, made with the given settings and powered or not,
that nobody reads from. -/
structure Ready (settings : Settings) (powered : Bool) (link : Link sizes) : Prop where
  passive : link.device.behaviour = .passive
  unclaimed : link.receiver.claimed = false
  settings : link.settings = settings
  powered : link.device.powered = powered

theorem ready_new (settings : Settings) :
    (new .passive settings : Link sizes).Ready settings false :=
  ⟨rfl, rfl, rfl, rfl⟩

section

variable {settings : Settings} {powered : Bool} {link later : Link sizes}

theorem Ready.spares (ready : link.Ready settings powered) (spares : link.Spares later) :
    later.Ready settings powered where
  passive := spares.behaviour.trans ready.passive
  unclaimed := (congrArg Receiver.claimed spares.receiver).trans ready.unclaimed
  settings := spares.settings.trans ready.settings
  powered := spares.powered.trans ready.powered

theorem Ready.bringUp (ready : link.Ready settings powered) :
    link.bringUp.Ready settings true where
  passive := (powerUp_behaviour link.device).trans ready.passive
  unclaimed := ready.unclaimed
  settings := ready.settings
  powered := powerUp_powered ready.passive

theorem Ready.shutDown (ready : link.Ready settings powered) :
    link.shutDown.Ready settings false where
  passive := (powerDown_behaviour link.device).trans ready.passive
  unclaimed := ready.unclaimed
  settings := ready.settings
  powered := powerDown_powered ready.passive

theorem Ready.tryReceive (ready : link.Ready settings powered) (buffer : Bytes) :
    (link.tryReceive buffer).2.2.Ready settings powered := by
  obtain ⟨event?, consumed, queue, journal, _, result⟩ :=
    tryReceive_finds ready.unclaimed buffer
  rw [result]
  exact ⟨ready.passive, rfl, ready.settings, ready.powered⟩

theorem Ready.receive (ready : link.Ready settings powered) (buffer : Bytes) :
    (link.receive buffer).2.2.Ready settings powered := by
  apply receive_preserves fun later _ => later.Ready settings powered
  · intro later filled readyLater
    exact readyLater.tryReceive filled
  · exact ready

theorem Ready.operate (ready : link.Ready settings powered) (operation : Operation) :
    (link.operate operation).Ready settings (operation.powers powered) := by
  cases operation with
  | bringUp => exact ready.bringUp
  | shutDown => exact ready.shutDown
  | reset => exact ⟨ready.passive, ready.unclaimed, ready.settings, ready.powered⟩
  | send payload =>
      obtain ⟨passive, unclaimed, kept, stillPowered⟩ :=
        ready.spares (link.followAll_spares ((Frame.encode payload).map .submit))
      exact ⟨passive, unclaimed, kept, stillPowered⟩
  | sendRaw data => exact ready.spares (link.followAll_spares (data.map .submit))
  | follow call => exact ready.spares (link.perform_spares [.follow call])
  | tryReceive buffer => exact ready.tryReceive buffer
  | receive buffer => exact ready.receive buffer
  | receiveRaw buffer =>
      exact ⟨ready.passive, ready.unclaimed, ready.settings, ready.powered⟩

theorem Ready.operateAll (ready : link.Ready settings powered) (history : List Operation) :
    (link.operateAll history).Ready settings (history.foldl Operation.powers powered) := by
  induction history generalizing link powered with
  | nil => exact ready
  | cons operation later induction => exact induction (ready.operate operation)

end

end Link

end FramedSerial
