import FramedSerial.Proofs.Link.Histories
import FramedSerial.Proofs.Link.Outlet

/-!
# The states of a link

A link is reachable if it was made with a device and settings and has since then
been used in any way: by operations, by whoever has access to its device and does
there what he likes, and by collecting its journal.  A reachable link has the device
that it was made with, and between two uses its sending half is at rest.
-/

namespace FramedSerial

namespace Link

variable {sizes : Sizes}

inductive Reachable (behaviour : Behaviour) (settings : Settings) : Link sizes → Prop where
  | new : Reachable behaviour settings (new behaviour settings)
  | operate {link : Link sizes} (operation : Operation) :
      Reachable behaviour settings link →
      Reachable behaviour settings (link.operate operation)
  /-- The device is switched on or off, its record is collected, or anything else is done
  to it that leaves it a device of its kind. -/
  | access {link : Link sizes} (device : Device) : device.behaviour = behaviour →
      Reachable behaviour settings link →
      Reachable behaviour settings { link with device := device }
  | collectJournal {link : Link sizes} :
      Reachable behaviour settings link →
      Reachable behaviour settings link.collectJournal.2

theorem operate_behaviour (link : Link sizes) (operation : Operation) :
    (link.operate operation).device.behaviour = link.device.behaviour := by
  cases operation with
  | bringUp => exact powerUp_behaviour link.device
  | shutDown => exact powerDown_behaviour link.device
  | reset => rfl
  | send payload => exact (link.followAll_spares ((Frame.encode payload).map .submit)).behaviour
  | sendRaw data => exact (link.followAll_spares (data.map .submit)).behaviour
  | follow call => exact (link.perform_spares [.follow call]).behaviour
  | tryReceive buffer => exact congrArg Device.behaviour (link.tryReceive_keeps buffer).2
  | receive buffer => exact congrArg Device.behaviour (link.receive_keeps buffer).2
  | receiveRaw buffer => rfl

theorem Resting.operate {link : Link sizes} (resting : link.Resting)
    (operation : Operation) : (link.operate operation).Resting := by
  let ledger : Ledger sizes := { link := link, kept := link.outgoing }
  have keeps : ledger.link.Keeps ledger.kept := ⟨resting, rfl⟩
  exact (keeps.enter operation).2.1

namespace Reachable

variable {behaviour : Behaviour} {settings : Settings} {link : Link sizes}

theorem operateAll (reachable : Reachable behaviour settings link)
    (history : List Operation) : Reachable behaviour settings (link.operateAll history) := by
  induction history generalizing link with
  | nil => exact reachable
  | cons operation later induction => exact induction (reachable.operate operation)

theorem behaviour_eq (reachable : Reachable behaviour settings link) :
    link.device.behaviour = behaviour := by
  induction reachable with
  | new => rfl
  | operate operation _ induction => exact (operate_behaviour _ operation).trans induction
  | access device sameKind _ _ => exact sameKind
  | collectJournal _ induction => exact induction

theorem resting (reachable : Reachable behaviour settings link) : link.Resting := by
  induction reachable with
  | new => exact (keeps_new behaviour settings).1
  | operate operation _ induction => exact induction.operate operation
  | access device _ _ induction =>
      exact ⟨induction.notWriting, induction.notNoted, induction.emptyWhenIdle⟩
  | collectJournal _ induction =>
      exact ⟨induction.notWriting, induction.notNoted, induction.emptyWhenIdle⟩

theorem quiet (reachable : Reachable .passive settings link) : link.Quiet where
  passive := reachable.behaviour_eq
  resting := reachable.resting

end Reachable

end Link

end FramedSerial
