import FramedSerial.Proofs.Link.Following

/-!
# The two halves of a link

The device and the transmitter make up the sending half of a link; the rest
receives.  Reading does not look at the sending half: the receiving half of one
link may be joined to the sending half of another, and everything that is read
stays the same.  Sending in turn may leave all else of a link as it was, which
`OnlySends` says of two states of a link.
-/

namespace FramedSerial

namespace Link

variable {sizes : Sizes}

/-- A link whose sending half is that of another one. -/
def withSender (link sender : Link sizes) : Link sizes :=
  { link with device := sender.device, transmitter := sender.transmitter }

@[simp] theorem withSender_withSender (link first second : Link sizes) :
    (link.withSender first).withSender second = link.withSender second := rfl

theorem followAll_arrive_withSender (link sender : Link sizes) (bytes : Bytes) :
    (link.withSender sender).followAll (bytes.map .arrive) =
      (link.followAll (bytes.map .arrive)).withSender sender := by
  rw [followAll_arrive, followAll_arrive]
  rfl

theorem advance_withSender (link sender : Link sizes) :
    (link.withSender sender).advance =
      (link.advance.1, link.advance.2.withSender sender) := rfl

theorem settle_withSender (link sender : Link sizes) (buffer : Bytes)
    (event : Deframer.Event) :
    (link.withSender sender).settle unwatched buffer event =
      ((link.settle unwatched buffer event).1,
        (link.settle unwatched buffer event).2.withSender sender) := by
  cases event with
  | dropped fault => rfl
  | frame payload =>
      unfold settle
      dsimp only
      split
      · rfl
      · rfl

theorem tryReceive_withSender (link sender : Link sizes) (buffer : Bytes) :
    (link.withSender sender).tryReceive buffer =
      ((link.tryReceive buffer).1, (link.tryReceive buffer).2.1,
        (link.tryReceive buffer).2.2.withSender sender) := by
  have claims : (link.withSender sender).claim = link.claim.withSender sender := rfl
  have sameReceiver : (link.withSender sender).receiver = link.receiver := rfl
  unfold tryReceive watchedRead
  rw [claims, advance_withSender, sameReceiver]
  by_cases claimed : link.receiver.claimed = true
  · rw [if_pos claimed, if_pos claimed]
  · rw [if_neg claimed, if_neg claimed]
    rcases link.claim.advance with ⟨none | event, later⟩
    · rfl
    · dsimp only
      rw [settle_withSender]
      rfl

theorem receive_withSender (link sender : Link sizes) (buffer : Bytes) :
    (link.withSender sender).receive buffer =
      ((link.receive buffer).1, (link.receive buffer).2.1,
        (link.receive buffer).2.2.withSender sender) := by
  induction link, buffer using receive_induction with
  | ends link buffer reading filled later read notFaulty =>
      have moved := link.tryReceive_withSender sender buffer
      rw [read] at moved
      rw [receive_of_end read notFaulty, receive_of_end moved notFaulty]
  | goesOn link buffer fault filled later read induction =>
      have moved := link.tryReceive_withSender sender buffer
      rw [read] at moved
      rw [receive_of_faulty read, receive_of_faulty moved]
      exact induction

theorem receiveAll_of_none {link later : Link sizes} {capacity : Nat} {filled : Bytes}
    (received : link.receive (List.replicate capacity 0) = (0, filled, later)) :
    link.receiveAll capacity = ([], later) := by
  rw [receiveAll]
  split
  · simp_all
  · simp_all

theorem receiveAll_of_frame {link later : Link sizes} {capacity length : Nat}
    {filled : Bytes}
    (received : link.receive (List.replicate capacity 0) = (length + 1, filled, later)) :
    link.receiveAll capacity =
      (filled.take (length + 1) :: (later.receiveAll capacity).1,
        (later.receiveAll capacity).2) := by
  rw [receiveAll]
  split
  · simp_all
  · simp_all

theorem receiveAll_withSender (link sender : Link sizes) (capacity : Nat) :
    (link.withSender sender).receiveAll capacity =
      ((link.receiveAll capacity).1, (link.receiveAll capacity).2.withSender sender) := by
  induction link using receiveAll.induct capacity with
  | case1 link filled later received =>
      have moved := link.receive_withSender sender (List.replicate capacity 0)
      rw [received] at moved
      rw [receiveAll_of_none received, receiveAll_of_none moved]
  | case2 link length filled later received frames last rest induction =>
      have moved := link.receive_withSender sender (List.replicate capacity 0)
      rw [received] at moved
      rw [receiveAll_of_frame received, receiveAll_of_frame moved, induction]

/-- A later state of a link in which nothing differs but the device and what the
transmitter has at hand: no frame has been counted and no entry made. -/
structure OnlySends (link later : Link sizes) : Prop where
  sender : later = link.withSender later
  framesSent : later.transmitter.framesSent = link.transmitter.framesSent

theorem OnlySends.refl (link : Link sizes) : link.OnlySends link where
  sender := rfl
  framesSent := rfl

theorem OnlySends.trans {first second third : Link sizes} (begins : first.OnlySends second)
    (continues : second.OnlySends third) : first.OnlySends third where
  sender := by
    have step := continues.sender
    rw [begins.sender, withSender_withSender] at step
    exact step
  framesSent := continues.framesSent.trans begins.framesSent

theorem OnlySends.symm {link later : Link sizes} (only : link.OnlySends later) :
    later.OnlySends link where
  sender := by
    rw [only.sender]
    rfl
  framesSent := only.framesSent.symm

end Link

end FramedSerial
