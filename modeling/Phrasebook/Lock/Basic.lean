import Phrasebook.Number.Layout
import Phrasebook.Table

/-!
# Readers and a writer

A lock that many threads hold for reading or one thread for writing.

**Nesting.**  A thread that reads may read again at once.  Whoever writes may neither read nor
write, and whoever reads may not write.
**Preference.**  A thread that does not read yet waits while a writer is queued.
**Timeouts** are not negative, and no longer than time can be measured.
-/

namespace Phrasebook

universe u

/-- The two ways to hold a lock. -/
inductive Side
  | read
  | write
deriving DecidableEq, Repr

/-- The name of a side. -/
def Side.name : Side → String
  | .read => "read"
  | .write => "write"

/-- How many seconds a thread is willing to wait. -/
inductive Timeout
  | whole (seconds : Int)
  | real (seconds : Binary64)
deriving DecidableEq, Repr

namespace Timeout

/-- Is it less than no time? -/
def isNegative : Timeout → Bool
  | .whole n => n < 0
  | .real (.finite negative mantissa _) => negative && mantissa != 0
  | .real (.infinite negative) => negative
  | .real .nan => false

/-- The text of a time. -/
def toText : Timeout → Text
  | .whole n => integerText n
  | .real x => shortestText x

/-- Is it too large for the format in which time is measured? -/
def isUnmeasurable : Timeout → Bool
  | .whole n => (Binary64.ofInt? n).isNone
  | .real _ => false

/-- The first number of nanoseconds that no thread can wait for. -/
def waitLimit : Nat := Nat.pow 2 63

/-- Is it longer than a thread can wait? -/
def isEndless : Timeout → Bool
  | .whole n => decide (waitLimit ≤ n * 1000000000)
  | .real (.finite negative mantissa exponent) =>
      let r := Binary64.magnitude mantissa exponent
      !negative && decide (waitLimit * r.2 ≤ r.1 * 1000000000)
  | .real (.infinite negative) => !negative
  | .real .nan => false

end Timeout

/-- Why a thread does not get a lock. -/
inductive LockError
  | negativeTimeout (t : Timeout)
  | numeral (e : NumeralError)
  | unmeasurableTimeout
  | readWhileWriting
  | writeWhileReading
  | writeWhileWriting
  | timedOut (side : Side)
  | endlessTimeout
deriving DecidableEq, Repr

/-- The words for a lock that is not got. -/
def LockError.message : LockError → String
  | .negativeTimeout t =>
      let seconds := String.ofList t.toText
      s!"Timeout must be non-negative, got {seconds}"
  | .numeral e => e.message
  | .unmeasurableTimeout => "int too large to convert to float"
  | .readWhileWriting => "Cannot take read lock while holding write lock"
  | .writeWhileReading => "Cannot upgrade read lock to write lock"
  | .writeWhileWriting => "Cannot take write lock: already holding it"
  | .timedOut side =>
      let name := side.name
      s!"Timed out waiting for {name} lock"
  | .endlessTimeout => "timestamp out of range for platform time_t"

/-- Why a time cannot be a timeout; the message of a negative one has to show it. -/
def Timeout.refusal? (t : Timeout) : Option LockError :=
  if t.isNegative then
    match t with
    | .whole n =>
        match writeNumeral n with
        | .ok _ => some (.negativeTimeout t)
        | .error e => some (.numeral e)
    | .real _ => some (.negativeTimeout t)
  else if t.isUnmeasurable then some .unmeasurableTimeout
  else none

/-- The error that ends a wait for a side. -/
def Timeout.expiry (t : Timeout) (side : Side) : LockError :=
  if t.isEndless then .endlessTimeout else .timedOut side

/-- How deep each reading thread has nested its reads, the thread that writes, and the number
of threads that wait to write. -/
structure Lock (τ : Type u) where
  depths : Table τ Nat
  writer : Option τ
  queued : Nat
deriving DecidableEq

namespace Lock

variable {τ : Type u}

/-- The lock that nobody holds. -/
def free : Lock τ where
  depths := Table.empty
  writer := none
  queued := 0

/-- The number of threads that read. -/
def readers (l : Lock τ) : Nat :=
  l.depths.size

/-- Does a thread write? -/
def isWritten (l : Lock τ) : Bool :=
  l.writer.isSome

/-- A lock in one line. -/
def describe (l : Lock τ) : String :=
  let readers := l.readers
  let writer := String.ofList (Text.ofTruth l.isWritten)
  let queued := l.queued
  s!"RWLock(readers={readers}, writer={writer}, queued={queued})"

variable [DecidableEq τ]

/-- How deep a thread has nested its reads. -/
def depth (l : Lock τ) (t : τ) : Nat :=
  (l.depths.get? t).getD 0

/-- Why a thread may not even wait for a side. -/
def refusal? (l : Lock τ) (t : τ) : Side → Option LockError
  | .read => if l.writer = some t then some .readWhileWriting else none
  | .write =>
      if l.depths.has t then some .writeWhileReading
      else if l.writer = some t then some .writeWhileWriting
      else none

/-- Can a thread get a side now? -/
def admits (l : Lock τ) (t : τ) : Side → Bool
  | .read => l.depths.has t || (l.writer.isNone && l.queued == 0)
  | .write => l.writer.isNone && l.readers == 0

/-- The lock with a thread in the queue for a side; only writers are counted. -/
def enqueue (l : Lock τ) : Side → Lock τ
  | .read => l
  | .write => { l with queued := l.queued + 1 }

/-- The lock with a thread out of the queue for a side. -/
def dequeue (l : Lock τ) : Side → Lock τ
  | .read => l
  | .write => { l with queued := l.queued - 1 }

/-- The lock held by one more thread, or once more by the same one. -/
def acquire (l : Lock τ) (t : τ) : Side → Lock τ
  | .read => { l with depths := l.depths.modify t (fun old => old.getD 0 + 1) }
  | .write => { l with writer := some t }

/-- The lock without the innermost hold of a thread. -/
def release (l : Lock τ) (t : τ) : Side → Lock τ
  | .read =>
      if l.depth t ≤ 1 then { l with depths := l.depths.erase t }
      else { l with depths := l.depths.modify t (fun old => old.getD 0 - 1) }
  | .write => { l with writer := none }

end Lock
end Phrasebook
