import Phrasebook.Lock.Basic

/-!
# Threads at a lock

The threads that use a lock and what each of them does with it.

**Steps.**  `Threads.step` is one section of the lock's code that nothing interrupts.  A thread
enters a side, goes on after a wait, gives a wait up, or leaves its innermost block.  The step
also tells whether it wakes the threads that wait.
**Runs.**  `Threads.Reachable` is what any interleaving of steps leads to.
**Waiting.**  A thread that waits does nothing else.  It goes on only if the lock admits it,
and gives up only if not.
-/

namespace Phrasebook

universe u

/-- What a thread has to do with a lock: its open blocks, the innermost one first, and the side
that it waits for. -/
structure Caller where
  blocks : List Side
  waiting : Option Side
deriving DecidableEq, Repr

/-- A thread that has nothing to do with the lock. -/
def Caller.idle : Caller :=
  ⟨[], none⟩

/-- A lock and the threads that use it. -/
structure Threads (τ : Type u) where
  lock : Lock τ
  callers : Table τ Caller
deriving DecidableEq

/-- What a thread can do. -/
inductive Move
  | enter (side : Side)
  | resume
  | giveUp
  | leave
deriving DecidableEq, Repr

/-- What became of it. -/
inductive Outcome
  | refused (e : LockError)
  | acquired (side : Side)
  | waits (side : Side)
  | gaveUp (side : Side)
  | left (side : Side)
deriving DecidableEq, Repr

/-- The threads behind a step, what became of the move, and whether the step wakes the threads
that wait. -/
structure Effect (τ : Type u) where
  threads : Threads τ
  outcome : Outcome
  wakes : Bool
deriving DecidableEq

namespace Threads

variable {τ : Type u}

/-- A free lock that no thread uses yet. -/
def start : Threads τ where
  lock := Lock.free
  callers := Table.empty

variable [DecidableEq τ]

/-- What a thread has to do with the lock. -/
def caller (s : Threads τ) (t : τ) : Caller :=
  (s.callers.get? t).getD .idle

/-- The threads with the lock and one thread changed. -/
def update (s : Threads τ) (t : τ) (lock : Lock τ) (c : Caller) : Threads τ where
  lock := lock
  callers := s.callers.set t c

/-- The side that a thread waits for. -/
def waiting? (s : Threads τ) (t : τ) : Option Side :=
  (s.caller t).waiting

/-- A thread begins a block. -/
def enter (s : Threads τ) (t : τ) (side : Side) : Effect τ :=
  let c := s.caller t
  match s.lock.refusal? t side with
  | some e => ⟨s, .refused e, false⟩
  | none =>
      if s.lock.admits t side then
        ⟨s.update t (s.lock.acquire t side) { c with blocks := side :: c.blocks },
          .acquired side, side == .write⟩
      else
        ⟨s.update t (s.lock.enqueue side) { c with waiting := some side }, .waits side, false⟩

/-- A thread begins the block that it has waited for. -/
def resume (s : Threads τ) (t : τ) (side : Side) : Effect τ :=
  ⟨s.update t ((s.lock.dequeue side).acquire t side)
      ⟨side :: (s.caller t).blocks, none⟩,
    .acquired side, side == .write⟩

/-- A thread waits no longer. -/
def giveUp (s : Threads τ) (t : τ) (side : Side) : Effect τ :=
  ⟨s.update t (s.lock.dequeue side) { s.caller t with waiting := none },
    .gaveUp side, side == .write⟩

/-- A thread ends its innermost block. -/
def leave (s : Threads τ) (t : τ) (side : Side) (blocks : List Side) : Effect τ :=
  let lock := s.lock.release t side
  ⟨s.update t lock { s.caller t with blocks := blocks }, .left side,
    side == .write || lock.readers == 0⟩

/-- What a move of a thread leads to, if the thread can make it. -/
def step (s : Threads τ) (t : τ) (move : Move) : Option (Effect τ) :=
  match move, s.caller t with
  | .enter side, ⟨_, none⟩ => some (s.enter t side)
  | .leave, ⟨side :: blocks, none⟩ => some (s.leave t side blocks)
  | .resume, ⟨_, some side⟩ => if s.lock.admits t side then some (s.resume t side) else none
  | .giveUp, ⟨_, some side⟩ => if s.lock.admits t side then none else some (s.giveUp t side)
  | _, _ => none

/-- The threads that steps lead to from the start, in whatever order the threads move. -/
inductive Reachable : Threads τ → Prop
  | start : Reachable start
  | step {s : Threads τ} {t : τ} {move : Move} {e : Effect τ} :
      Reachable s → s.step t move = some e → Reachable e.threads

end Threads
end Phrasebook
