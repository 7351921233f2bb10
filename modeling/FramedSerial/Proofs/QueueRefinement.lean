import FramedSerial.Proofs.QueueContents

/-!
# A queue answers as a bounded list

Everything that can be asked of a queue is a request, and a request has a reply.
`serve` carries a request out on the ring of slots, `serveList` on the plain
list of the bytes held.  Whatever is asked, and however often the positions have
gone around the ring, the replies are the same and so is all that the queue
tells about its filling.
-/

namespace FramedSerial

namespace ByteQueue

variable {capacity : Nat}

inductive Request where
  | push (byte : UInt8)
  | pop
  | peek
  | popInto (buffer : Bytes)
  | clear
deriving DecidableEq, Repr

inductive Reply where
  | stored
  | handedBack (byte : UInt8)
  | oldest (byte? : Option UInt8)
  | filled (count : Nat) (buffer : Bytes)
  | cleared
deriving DecidableEq, Repr

def serve (queue : ByteQueue capacity) : Request → Reply × ByteQueue capacity
  | .push byte =>
      match queue.push byte with
      | .ok longer => (.stored, longer)
      | .error rejected => (.handedBack rejected, queue)
  | .pop =>
      match queue.pop? with
      | some (byte, shorter) => (.oldest (some byte), shorter)
      | none => (.oldest none, queue)
  | .peek => (.oldest queue.peek?, queue)
  | .popInto buffer =>
      let (count, filled, shorter) := queue.popInto buffer
      (.filled count filled, shorter)
  | .clear => (.cleared, queue.clear)

/-- The reply to a request, and the bytes held afterwards, if a list of at most
`capacity` bytes is all there is. -/
def serveList (capacity : Nat) (held : Bytes) : Request → Reply × Bytes
  | .push byte =>
      if held.length < capacity then (.stored, held ++ [byte]) else (.handedBack byte, held)
  | .pop => (.oldest held.head?, held.tail)
  | .peek => (.oldest held.head?, held)
  | .popInto buffer =>
      let count := min buffer.length held.length
      (.filled count (held.take count ++ buffer.drop count), held.drop count)
  | .clear => (.cleared, [])

def serveAll (queue : ByteQueue capacity) : List Request → List Reply × ByteQueue capacity
  | [] => ([], queue)
  | request :: later =>
      let (reply, next) := queue.serve request
      let (replies, last) := next.serveAll later
      (reply :: replies, last)

def serveListAll (capacity : Nat) (held : Bytes) : List Request → List Reply × Bytes
  | [] => ([], held)
  | request :: later =>
      let (reply, next) := serveList capacity held request
      let (replies, last) := serveListAll capacity next later
      (reply :: replies, last)

/-- What a queue tells about itself is what a list of bytes tells.  The number
of bytes is the distance of the positions around the ring, and as both positions
lie inside the ring no difference in it falls below zero. -/
structure Mirrors (queue : ByteQueue capacity) (held : Bytes) : Prop where
  contents : queue.toList = held
  readInside : queue.readAt.val < capacity + 1
  writeInside : queue.writeAt.val < capacity + 1
  distance : queue.length =
    (queue.writeAt.val + (capacity + 1) - queue.readAt.val) % (capacity + 1)
  length : queue.length = held.length
  bounded : held.length ≤ capacity
  free : queue.free + held.length = capacity
  isEmpty : queue.isEmpty = true ↔ held = []
  isFull : queue.isFull = true ↔ held.length = capacity
  oldest : queue.peek? = held.head?

theorem isEmpty_iff (queue : ByteQueue capacity) :
    queue.isEmpty = true ↔ queue.toList = [] := by
  rw [← pop?_eq_none_iff_toList, pop?]
  simp

theorem peek?_eq_head? (queue : ByteQueue capacity) :
    queue.peek? = queue.toList.head? := by
  have sameFront : queue.peek? = queue.pop?.map Prod.fst := by
    unfold peek? pop?
    split
    · rfl
    · rfl
  rw [sameFront]
  cases popped : queue.pop? with
  | none =>
      rw [pop?_eq_none_iff_toList] at popped
      rw [popped]
      rfl
  | some outcome =>
      obtain ⟨byte, shorter⟩ := outcome
      rw [toList_of_pop? popped]
      rfl

theorem length_eq_mod (queue : ByteQueue capacity) :
    queue.length =
      (queue.writeAt.val + (capacity + 1) - queue.readAt.val) % (capacity + 1) := by
  have readBelow := queue.readAt.isLt
  have forward : queue.writeAt.val + (capacity + 1) - queue.readAt.val =
      capacity + 1 - queue.readAt.val + queue.writeAt.val := by omega
  rw [forward, length, Fin.sub_def]

theorem mirrors_toList (queue : ByteQueue capacity) : queue.Mirrors queue.toList := by
  have bounded := queue.length_le_capacity
  constructor
  case contents => rfl
  case readInside => exact queue.readAt.isLt
  case writeInside => exact queue.writeAt.isLt
  case distance => exact queue.length_eq_mod
  case length => rw [length_toList]
  case bounded =>
    rw [length_toList]
    exact bounded
  case free =>
    rw [length_toList, ByteQueue.free]
    omega
  case isEmpty => exact queue.isEmpty_iff
  case isFull =>
    rw [length_toList]
    exact queue.isFull_iff
  case oldest => exact queue.peek?_eq_head?

/-- Taking bytes out into a buffer touches as much of its front as there are
bytes to take. -/
theorem popInto_eq (queue : ByteQueue capacity) (buffer : Bytes) :
    let count := min buffer.length queue.toList.length
    (queue.popInto buffer).1 = count ∧
      (queue.popInto buffer).2.1 = queue.toList.take count ++ buffer.drop count ∧
      (queue.popInto buffer).2.2.toList = queue.toList.drop count := by
  intro count
  obtain ⟨taken, left⟩ := queue.toList_popMany buffer.length
  have sameTaken : queue.toList.take count = queue.toList.take buffer.length := by
    rw [← List.take_take, List.take_of_length_le (Nat.le_refl queue.toList.length)]
  have sameLeft : queue.toList.drop count = queue.toList.drop buffer.length := by
    by_cases enough : buffer.length ≤ queue.toList.length
    · rw [show count = buffer.length from Nat.min_eq_left enough]
    · rw [List.drop_eq_nil_of_le (by omega), List.drop_eq_nil_of_le (by omega)]
  have length : (queue.popMany buffer.length).1.length = count := by
    rw [taken, List.length_take]
  refine ⟨length, ?_, ?_⟩
  · have overwritten : (queue.popInto buffer).2.1 =
        (queue.popMany buffer.length).1 ++
          buffer.drop (queue.popMany buffer.length).1.length := rfl
    rw [overwritten, length, taken, sameTaken]
  · rw [sameLeft]
    exact left

/-- One request has the same reply on the ring and on the list, and leaves the
same bytes. -/
theorem serve_eq_serveList (queue : ByteQueue capacity) (request : Request) :
    ((queue.serve request).1, (queue.serve request).2.toList) =
      serveList capacity queue.toList request := by
  cases request with
  | push byte =>
      rw [serveList, length_toList, serve]
      by_cases room : queue.length < capacity
      · obtain ⟨longer, accepted, contents⟩ := push_of_room room byte
        rw [accepted, if_pos room, ← contents]
      · have bounded := queue.length_le_capacity
        have full : queue.length = capacity := by omega
        rw [push_of_full full byte, if_neg room]
  | pop =>
      rw [serveList, serve]
      cases popped : queue.pop? with
      | none =>
          rw [pop?_eq_none_iff_toList] at popped
          rw [popped]
          rfl
      | some outcome =>
          obtain ⟨byte, shorter⟩ := outcome
          rw [toList_of_pop? popped]
          rfl
  | peek =>
      rw [serveList, ← peek?_eq_head?]
      rfl
  | popInto buffer =>
      obtain ⟨count, filled, left⟩ := queue.popInto_eq buffer
      rw [serveList, ← filled, ← left, ← count]
      rfl
  | clear =>
      rw [serveList, ← toList_clear queue]
      rfl

theorem serveAll_eq_serveListAll (queue : ByteQueue capacity) (requests : List Request) :
    ((queue.serveAll requests).1, (queue.serveAll requests).2.toList) =
      serveListAll capacity queue.toList requests := by
  induction requests generalizing queue with
  | nil => rfl
  | cons request later induction =>
      have first := queue.serve_eq_serveList request
      have last := induction (queue.serve request).2
      rw [serveListAll, ← first]
      dsimp only
      rw [← last]
      rfl

/-- From an empty queue every sequence of requests has the replies of a bounded
list, and afterwards the queue tells of itself what the list tells. -/
theorem serves_bounded_list (capacity : Nat) (requests : List Request) :
    ((empty : ByteQueue capacity).serveAll requests).1 =
        (serveListAll capacity [] requests).1 ∧
      ((empty : ByteQueue capacity).serveAll requests).2.Mirrors
        (serveListAll capacity [] requests).2 := by
  have same := (empty : ByteQueue capacity).serveAll_eq_serveListAll requests
  rw [toList_empty] at same
  rw [← same]
  exact ⟨rfl, mirrors_toList _⟩

/-- Two slots hold one byte; the positions have gone around twice. -/
example : ((empty : ByteQueue 1).serveAll
    [.push 1, .push 2, .pop, .push 3, .popInto [7, 8], .push 4, .pop, .pop]).1 =
    [.stored, .handedBack 2, .oldest (some 1), .stored, .filled 1 [3, 8], .stored,
      .oldest (some 4), .oldest none] := by
  decide

end ByteQueue

end FramedSerial
