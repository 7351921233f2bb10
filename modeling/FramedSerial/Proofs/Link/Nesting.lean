import FramedSerial.Link.Reception

/-!
# Reads inside reads

A read that has come to something makes an entry in the journal while the receiver is
still claimed, and whoever sees the entry may start another read of the same link at
that moment.  The inner read finds the receiver claimed and comes to nothing: it makes
no entry, so that nothing is set off in turn, and it leaves the link as it was.  The
outer read ends as if nobody had looked on.
-/

namespace FramedSerial

namespace Link

variable {sizes : Sizes} {α : Type}

section

variable {link later : Link sizes}

theorem watchedRead_of_claimed (claimed : link.receiver.claimed = true)
    (watch : Link sizes → α × Link sizes) (buffer : Bytes) :
    link.watchedRead watch buffer = (⟨.nothing, buffer, []⟩, link) := by
  rw [watchedRead, if_pos claimed]

theorem watchedRead_of_none (unclaimed : link.receiver.claimed = false)
    (outcome : link.claim.advance = (none, later))
    (watch : Link sizes → α × Link sizes) (buffer : Bytes) :
    link.watchedRead watch buffer = (⟨.nothing, buffer, []⟩, later.release) := by
  simp [watchedRead, unclaimed, outcome]

theorem watchedRead_of_event (unclaimed : link.receiver.claimed = false)
    {event : Deframer.Event} (outcome : link.claim.advance = (some event, later))
    (watch : Link sizes → α × Link sizes) (buffer : Bytes) :
    link.watchedRead watch buffer =
      ((later.settle watch buffer event).1,
        (later.settle watch buffer event).2.release) := by
  simp [watchedRead, unclaimed, outcome]

end

/-- The watcher runs once, on the link that is left when everything else is done. -/
theorem settle_watched (watch : Link sizes → α × Link sizes) (link : Link sizes)
    (buffer : Bytes) (event : Deframer.Event) :
    link.settle watch buffer event =
      (⟨(link.settle unwatched buffer event).1.reading,
          (link.settle unwatched buffer event).1.buffer,
          [(watch (link.settle unwatched buffer event).2).1]⟩,
        (watch (link.settle unwatched buffer event).2).2) := by
  cases event with
  | frame payload =>
      unfold settle
      dsimp only
      split
      · rfl
      · rfl
  | dropped fault => rfl

theorem reading_settle_ne_nothing (link : Link sizes) (buffer : Bytes)
    (event : Deframer.Event) :
    (link.settle unwatched buffer event).1.reading ≠ .nothing := by
  cases event with
  | frame payload =>
      unfold settle
      dsimp only
      split
      · exact Reading.noConfusion
      · exact Reading.noConfusion
  | dropped fault => exact Reading.noConfusion

theorem claimed_settle (link : Link sizes) (buffer : Bytes) (event : Deframer.Event) :
    (link.settle unwatched buffer event).2.receiver.claimed = link.receiver.claimed := by
  cases event with
  | frame payload =>
      unfold settle
      dsimp only
      split
      · rfl
      · rfl
  | dropped fault =>
      cases fault with
      | badChecksum computed received => rfl
      | tooLong capacity => rfl

/-- What a watcher has returned in the course of a read: nothing if the read comes to
nothing, and otherwise what it returns for the link that is released at the end. -/
inductive Observes (watch : Link sizes → α × Link sizes) (last : Link sizes) :
    Reading → List α → Prop where
  | nothing : Observes watch last .nothing []
  | once {reading : Reading} {inner : Link sizes} :
      reading ≠ .nothing → inner.receiver.claimed = true → last = inner.release →
      Observes watch last reading [(watch inner).1]

/-- A watcher that leaves claimed links alone has no influence on a read. -/
theorem watchedRead_of_still {watch : Link sizes → α × Link sizes}
    (still : ∀ inner : Link sizes, inner.receiver.claimed = true → (watch inner).2 = inner)
    {link last : Link sizes} {buffer filled : Bytes} {reading : Reading}
    (plain : link.tryReceive buffer = (reading, filled, last)) :
    ∃ observed, link.watchedRead watch buffer = (⟨reading, filled, observed⟩, last) ∧
      Observes watch last reading observed := by
  cases claims : link.receiver.claimed with
  | true =>
      rw [tryReceive, watchedRead_of_claimed claims] at plain
      cases plain
      exact ⟨[], watchedRead_of_claimed claims watch buffer, .nothing⟩
  | false =>
      rcases outcome : link.claim.advance with ⟨none | event, later⟩
      · rw [tryReceive, watchedRead_of_none claims outcome] at plain
        cases plain
        exact ⟨[], watchedRead_of_none claims outcome watch buffer, .nothing⟩
      · have claimedLater : later.receiver.claimed = true := by
          have reached : link.claim.advance.2 = later := congrArg Prod.snd outcome
          rw [← reached]
          rfl
        have claimed := (later.claimed_settle buffer event).trans claimedLater
        have comesTo := later.reading_settle_ne_nothing buffer event
        have undisturbed := still _ claimed
        rw [tryReceive, watchedRead_of_event claims outcome] at plain
        cases plain
        refine ⟨_, ?_, .once comesTo claimed rfl⟩
        rw [watchedRead_of_event claims outcome, settle_watched, undisturbed]

theorem Observes.length {watch : Link sizes → α × Link sizes} {last : Link sizes}
    {reading : Reading} {observed : List α} (observes : Observes watch last reading observed) :
    observed.length = if reading = .nothing then 0 else 1 := by
  cases observes with
  | nothing => rfl
  | once comesTo _ _ => rw [if_neg comesTo, List.length_singleton]

theorem Observes.of_mem {watch : Link sizes → α × Link sizes} {last : Link sizes}
    {reading : Reading} {observed : List α} (observes : Observes watch last reading observed)
    {seen : α} (member : seen ∈ observed) :
    ∃ inner : Link sizes, inner.receiver.claimed = true ∧ last = inner.release ∧
      seen = (watch inner).1 := by
  cases observes with
  | nothing => cases member
  | once _ claimed released =>
      exact ⟨_, claimed, released, List.mem_singleton.mp member⟩

/-- A read that was started in the course of another one: the link in front of it, what
it came to, and the link behind it. -/
structure Inner (sizes : Sizes) (α : Type) where
  before : Link sizes
  read : Read α
  after : Link sizes

/-- Starts another read, which is watched as well, and puts it down. -/
def readAgain (watch : Link sizes → α × Link sizes) (innerBuffer : Bytes)
    (link : Link sizes) : Inner sizes α × Link sizes :=
  let (read, later) := link.watchedRead watch innerBuffer
  (⟨link, read, later⟩, later)

theorem readAgain_of_claimed {link : Link sizes} (claimed : link.receiver.claimed = true)
    (watch : Link sizes → α × Link sizes) (innerBuffer : Bytes) :
    link.readAgain watch innerBuffer =
      (⟨link, ⟨.nothing, innerBuffer, []⟩, link⟩, link) := by
  rw [readAgain, watchedRead_of_claimed claimed]

theorem nestedReceive_eq {link last : Link sizes} {buffer filled : Bytes}
    {reading : Reading} (plain : link.tryReceive buffer = (reading, filled, last))
    (innerBuffer : Bytes) :
    link.nestedReceive buffer innerBuffer =
      (⟨reading, filled,
        List.replicate (if reading = .nothing then 0 else 1) ⟨.nothing, innerBuffer, []⟩⟩,
        last) := by
  have inside : ∀ inner : Link sizes, inner.receiver.claimed = true →
      inner.watchedRead unwatched innerBuffer = (⟨.nothing, innerBuffer, []⟩, inner) :=
    fun inner claimed => watchedRead_of_claimed claimed unwatched innerBuffer
  obtain ⟨observed, read, observes⟩ := watchedRead_of_still
    (fun inner claimed => congrArg Prod.snd (inside inner claimed)) plain
  rw [nestedReceive, read]
  cases observes with
  | nothing => rfl
  | @once _ inner comesTo claimed _ =>
      rw [if_neg comesTo, inside inner claimed]
      rfl

/-- Whatever the link and the buffers, the reads that are started inside a read come to
nothing and leave their buffer and the link as they were, which is the final link but
for the claim; there is one if the outer read comes to something and none otherwise; and
the outer read is the plain one.  This holds whatever the inner reads would set off if
they made an entry themselves. -/
theorem inner_reads_are_harmless (watch : Link sizes → α × Link sizes) (link : Link sizes)
    (buffer innerBuffer : Bytes) :
    let plain := link.tryReceive buffer
    let times := if plain.1 = .nothing then 0 else 1
    (∃ observed : List (Inner sizes α),
      link.watchedRead (readAgain watch innerBuffer) buffer =
          (⟨plain.1, plain.2.1, observed⟩, plain.2.2) ∧
        observed.length = times ∧
        ∀ inner ∈ observed, inner.read = ⟨.nothing, innerBuffer, []⟩ ∧
          inner.after = inner.before ∧ plain.2.2 = inner.before.release) ∧
      link.nestedReceive buffer innerBuffer =
        (⟨plain.1, plain.2.1, List.replicate times ⟨.nothing, innerBuffer, []⟩⟩,
          plain.2.2) := by
  intro plain times
  have inside := fun (inner : Link sizes) (claimed : inner.receiver.claimed = true) =>
    readAgain_of_claimed claimed watch innerBuffer
  obtain ⟨observed, read, observes⟩ := watchedRead_of_still
    (fun inner claimed => congrArg Prod.snd (inside inner claimed))
    (show link.tryReceive buffer = (plain.1, plain.2.1, plain.2.2) from rfl)
  refine ⟨⟨observed, read, observes.length, ?_⟩, nestedReceive_eq rfl innerBuffer⟩
  intro inner member
  obtain ⟨before, claimed, released, rfl⟩ := observes.of_mem member
  rw [inside before claimed]
  exact ⟨rfl, rfl, released⟩

end Link

end FramedSerial
