import SignalBox.Notice

/-!
# The notice channel

Notices are published without waiting for anyone. The channel keeps as many of the latest ones as
its ring holds; an observer that has fallen further behind is told how many it missed and goes on
with the oldest one that is kept.
-/

namespace SignalBox

/-- The state of the channel. -/
structure Channel where
  /-- The number of notices that are kept. -/
  ring : Nat
  /-- Every notice published so far, oldest first; those before the ring are lost to observers. -/
  published : List Notice
  deriving DecidableEq

namespace Channel

/-- The size of the ring for a wanted capacity: at least one, rounded up to a power of two. -/
def ringFor (capacity : Nat) : Nat :=
  (max 1 capacity).nextPowerOfTwo

/-- A channel without notices. -/
def ofCapacity (capacity : Nat) : Channel :=
  { ring := ringFor capacity, published := [] }

/-- Publishes a notice. -/
def publish (c : Channel) (n : Notice) : Channel :=
  { c with published := c.published ++ [n] }

/-- The number of notices published so far. -/
def tail (c : Channel) : Nat := c.published.length

end Channel

/-- An observer: the number of notices it has read or missed. -/
structure Observer where
  next : Nat
  deriving DecidableEq

/-- What an observer receives: a notice, or the number of notices that it missed. -/
inductive Received
  | notice (notice : Notice)
  | lagged (missed : Nat)
  deriving DecidableEq

namespace Channel

/-- An observer of everything published from now on. -/
def subscribe (c : Channel) : Observer := ⟨c.tail⟩

/-- Where an observer goes on reading: nothing older than the ring is kept. -/
def resume (c : Channel) (o : Observer) : Nat :=
  max o.next (c.tail - c.ring)

/-- Everything that waits for an observer. -/
def pending (c : Channel) (o : Observer) : List Received :=
  let kept := (c.published.drop (c.resume o)).map Received.notice
  if o.next < c.resume o then .lagged (c.resume o - o.next) :: kept else kept

/-- The observer after it has read everything that waits. -/
def caughtUp (c : Channel) : Observer := ⟨c.tail⟩

end Channel

end SignalBox
