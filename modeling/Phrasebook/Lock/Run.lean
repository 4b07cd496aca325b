import Phrasebook.Lock.Step

/-!
# Calls at a lock

A call of a thread, followed by everything that the call makes possible for threads that wait.

**Time.**  A call with a timeout that cannot be admitted at once gives up before anything else
happens.  A call without one waits for as long as it takes.
**Settling.**  `Threads.settle` lets threads go on while there is one that the lock admits; as
at most one thread is waiting to write, their order does not matter.
-/

namespace Phrasebook

universe u

/-- What a thread asks of a lock. -/
inductive LockCall
  | enter (side : Side) (timeout : Option Timeout)
  | leave
deriving DecidableEq, Repr

/-- A call that has come to its end; `entered` is the side that was asked for, unless a block
was left. -/
structure Finished (τ : Type u) where
  thread : τ
  entered : Option Side
  answer : Except LockError Side

namespace Threads

variable {τ : Type u} [DecidableEq τ]

/-- The first thread in order that can go on, and what that leads to. -/
def resumable? (s : Threads τ) : Option (τ × Side × Threads τ) :=
  s.callers.keys.findSome? fun t =>
    match s.step t .resume with
    | some ⟨next, .acquired side, _⟩ => some (t, side, next)
    | _ => none

/-- Lets up to `fuel` waiting threads go on, and tells which did. -/
def settle : Nat → Threads τ → Threads τ × List (Finished τ)
  | 0, s => (s, [])
  | fuel + 1, s =>
      match s.resumable? with
      | none => (s, [])
      | some (t, side, next) =>
          let rest := settle fuel next
          (rest.1, ⟨t, some side, .ok side⟩ :: rest.2)

/-- The calls that have come to their end when nothing can go on any more. -/
def settled (s : Threads τ) (done : List (Finished τ)) : Threads τ × List (Finished τ) :=
  let rest := settle s.callers.size s
  (rest.1, done ++ rest.2)

/-- A call of a thread that tries to enter a side. -/
def enterWithin (s : Threads τ) (t : τ) (side : Side) (timeout : Option Timeout) :
    Option (Threads τ × List (Finished τ)) :=
  match s.step t (.enter side) with
  | none => none
  | some e =>
      match timeout.bind Timeout.refusal? with
      | some error => some (s, [⟨t, some side, .error error⟩])
      | none =>
          match e.outcome, timeout with
          | .refused error, _ => some (s, [⟨t, some side, .error error⟩])
          | .waits _, none => some (e.threads, [])
          | .waits _, some time =>
              (e.threads.step t .giveUp).map fun given =>
                given.threads.settled [⟨t, some side, .error (time.expiry side)⟩]
          | _, _ => some (e.threads.settled [⟨t, some side, .ok side⟩])

/-- What a call leads to; a thread that waits, or has nothing to leave, cannot make it. -/
def perform (s : Threads τ) (t : τ) (call : LockCall) :
    Option (Threads τ × List (Finished τ)) :=
  match call with
  | .enter side timeout => s.enterWithin t side timeout
  | .leave =>
      match s.step t .leave with
      | some ⟨next, .left side, _⟩ => some (next.settled [⟨t, none, .ok side⟩])
      | _ => none

end Threads
end Phrasebook
