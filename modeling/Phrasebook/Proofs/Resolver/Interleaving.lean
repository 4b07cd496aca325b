import Mathlib.Logic.Function.Basic
import Phrasebook.Proofs.Lock.Holding
import Phrasebook.Proofs.Resolver.Blocks

/-!
# Threads that share a resolver

Any number of threads do operations on one resolver, in whatever order their steps come.

**Steps.**  A thread takes one step of a program at a time: one section of the lock, what a block
does inside, or one section of the index.  It begins an operation when it does nothing else, or
when the operation at hand has come to its ending; who is called back then may ask the resolver
again.
**Runs.**  A `Run` keeps what happened, step by step, and leads to a system.
**Blocks.**  `Program.Fits` says that the lock records the blocks that a program has open, and
`Stacked` says so of all that a thread is at.
**Results.**  `Program.Step.fits`: a step keeps a program to its blocks.
`Program.Step.selection_eq_of_block`: what is installed stays while another thread is in a block.
-/

namespace Phrasebook

universe u

/-- An operation that a thread is at, the number of steps that came before its beginning, and what
is still to be done. -/
structure Task where
  op : Operation
  start : Nat
  program : Program

/-- What threads share. -/
structure Shared (τ : Type u) where
  resolver : Resolver
  threads : Threads τ

/-- What threads share, and what each of them is at, the latest operation first. -/
structure System (τ : Type u) extends Shared τ where
  tasks : τ → List Task

/-- What happens in a step. -/
inductive Occurrence
  | begun (op : Operation)
  | locked (outcome : Outcome)
  | looked
  | installed (selection : Option Selection)
  | indexed
  | ended (op : Operation) (start : Nat) (ending : Except Mishap Reply)

/-- What happened, and in which thread. -/
structure Entry (τ : Type u) where
  thread : τ
  what : Occurrence

/-- What is left of a program that wants to enter a side, behind the outcome. -/
@[simp] def Program.behind (rest : Program) (side : Side) : Outcome → Program
  | .acquired _ => rest
  | .refused e => .done (.error (.lock e))
  | _ => .enter side rest

section Steps

variable {τ : Type u} [DecidableEq τ]

/-- What the next step of a program does to what the threads share. -/
inductive Program.Step (t : τ) (a : Shared τ) :
    Program → Occurrence → Shared τ → Program → Prop
  | enter {side : Side} {rest : Program} {move : Move} {threads : Threads τ} {outcome : Outcome}
      {wakes : Bool} (hmove : move = .enter side ∨ move = .resume)
      (h : a.threads.step t move = some ⟨threads, outcome, wakes⟩) :
      Step t a (.enter side rest) (.locked outcome) { a with threads := threads }
        (rest.behind side outcome)
  | leave {rest : Program} {threads : Threads τ} {outcome : Outcome} {wakes : Bool}
      (h : a.threads.step t .leave = some ⟨threads, outcome, wakes⟩) :
      Step t a (.leave rest) (.locked outcome) { a with threads := threads } rest
  | look {next : Option Selection → Program} :
      Step t a (.look next) .looked a (next a.resolver.selection)
  | install {selection : Option Selection} {rest : Program} :
      Step t a (.install selection rest) (.installed selection)
        { a with resolver := { a.resolver with selection := selection } } rest
  | renew {index : Option Index → Option Index} {next : Option Index → Program} :
      Step t a (.renew index next) .indexed
        { a with resolver := { a.resolver with index := index a.resolver.index } }
        (next a.resolver.index)

/-- The system of a resolver that no thread uses yet. -/
def System.start (r : Resolver) : System τ where
  resolver := r
  threads := Threads.start
  tasks _ := []

variable [Machine]

/-- What a thread can do when so many steps came before. -/
inductive System.Step (now : Nat) (s : System τ) (t : τ) : Occurrence → System τ → Prop
  | begin (op : Operation)
      (hfree : ∀ task ∈ (s.tasks t).head?, ∃ ending, task.program = .done ending) :
      Step now s t (.begun op)
        { s with
          tasks := Function.update s.tasks t
            (⟨op, now, op.program s.resolver.config⟩ :: s.tasks t) }
  | advance {task : Task} {below : List Task} {what : Occurrence} {a : Shared τ}
      {program : Program} (htasks : s.tasks t = task :: below)
      (h : task.program.Step t s.toShared what a program) :
      Step now s t what
        { a with
          tasks := Function.update s.tasks t ({ task with program := program } :: below) }
  | finish {op : Operation} {start : Nat} {ending : Except Mishap Reply} {below : List Task}
      (htasks : s.tasks t = ⟨op, start, .done ending⟩ :: below) :
      Step now s t (.ended op start ending)
        { s with tasks := Function.update s.tasks t below }

/-- The histories of a resolver that threads share, and the systems that they lead to. -/
inductive Run (r : Resolver) : List (Entry τ) → System τ → Prop
  | start : Run r [] (.start r)
  | step {past : List (Entry τ)} {s s' : System τ} {t : τ} {what : Occurrence}
      (h : Run r past s) (hstep : s.Step past.length t what s') :
      Run r (past ++ [⟨t, what⟩]) s'

end Steps

section Blocks

variable {τ : Type u}

/-- Can a thread that has this to do with the lock be here in a program? -/
structure Program.Fits (p : Program) (c : Caller) : Prop where
  bracketed : p.Bracketed c.blocks
  waiting : ∀ side, c.waiting = some side → ∃ rest, p = .enter side rest

/-- Can a thread that has this to do with the lock be at these tasks?  All but the latest are
done. -/
inductive Stacked (c : Caller) : List Task → Prop
  | empty (h : c = .idle) : Stacked c []
  | push {task : Task} {below : List Task} (hfits : task.program.Fits c)
      (hdone : ∀ other ∈ below, ∃ ending, other.program = .done ending) :
      Stacked c (task :: below)

variable {c : Caller} {p p' : Program} {t u : τ} {a a' : Shared τ} {what : Occurrence}

theorem Program.Fits.eq_idle {ending : Except Mishap Reply} (h : (Program.done ending).Fits c) :
    c = .idle := by
  obtain ⟨blocks, waiting⟩ := c
  obtain ⟨hbracketed, hwaiting⟩ := h
  cases hbracketed with
  | done => cases waiting with
    | none => rfl
    | some side =>
        obtain ⟨rest, hrest⟩ := hwaiting side rfl
        cases hrest

/-- A program that does not want to enter a side does not wait. -/
theorem Program.Fits.of_bracketed {blocks : List Side} (h : p.Bracketed blocks) :
    p.Fits ⟨blocks, none⟩ :=
  ⟨h, nofun⟩

theorem Stacked.of_cons {task : Task} {below : List Task} (h : Stacked c (task :: below)) :
    task.program.Fits c ∧ ∀ other ∈ below, ∃ ending, other.program = .done ending := by
  cases h with
  | push hfits hdone => exact ⟨hfits, hdone⟩

/-- A thread whose latest task is done has nothing to do with the lock, and no other task. -/
theorem Stacked.idle_and_done {tasks : List Task} (h : Stacked c tasks)
    (hfree : ∀ task ∈ tasks.head?, ∃ ending, task.program = .done ending) :
    c = .idle ∧ ∀ task ∈ tasks, ∃ ending, task.program = .done ending := by
  cases h with
  | empty hc => exact ⟨hc, List.forall_mem_nil _⟩
  | @push task below hfits hdone =>
      obtain ⟨ending, hending⟩ := hfree task rfl
      exact ⟨(hending ▸ hfits).eq_idle, List.forall_mem_cons.2 ⟨⟨ending, hending⟩, hdone⟩⟩

theorem stacked_of_done {tasks : List Task}
    (hdone : ∀ task ∈ tasks, ∃ ending, task.program = .done ending) : Stacked .idle tasks := by
  cases tasks with
  | nil => exact .empty rfl
  | cons task below =>
      obtain ⟨⟨ending, hending⟩, hbelow⟩ := List.forall_mem_cons.1 hdone
      exact .push (hending ▸ .of_bracketed (.done ending)) hbelow

variable [DecidableEq τ]

theorem Program.Fits.enter {s : Threads τ} {side : Side} {rest : Program} {move : Move}
    {e : Effect τ} (hfits : (Program.enter side rest).Fits (s.caller t))
    (hmove : move = .enter side ∨ move = .resume) (h : s.step t move = some e) :
    (rest.behind side e.outcome).Fits (e.threads.caller t) := by
  obtain ⟨hbracketed, hwaiting⟩ := hfits
  generalize hblocks : (s.caller t).blocks = blocks at hbracketed
  have htransition := Threads.transition_of_step h
  generalize e.outcome = outcome, e.threads = s' at htransition
  cases hbracketed with
  | enter hrest =>
      cases htransition with
      | refused hidle _ =>
          refine ⟨hblocks ▸ .done _, fun side hside => ?_⟩
          rw [hidle] at hside
          cases hside
      | entered _ _ _ =>
          obtain ⟨⟨⟩⟩ | ⟨⟨⟩⟩ := hmove
          simpa [hblocks] using Program.Fits.of_bracketed hrest
      | waits _ _ _ =>
          obtain ⟨⟨⟩⟩ | ⟨⟨⟩⟩ := hmove
          have hwaits : (Program.enter side rest).Fits ⟨[], some side⟩ :=
            ⟨.enter hrest, fun _ hside => ⟨rest, Option.some.inj hside ▸ rfl⟩⟩
          simpa [hblocks] using hwaits
      | resumed hside _ =>
          -- the side that a thread waits for is the one that its program enters
          obtain ⟨rest', hrest'⟩ := hwaiting _ hside
          cases hrest'
          simpa [hblocks] using Program.Fits.of_bracketed hrest
      | gaveUp => rcases hmove with hmove | hmove <;> cases hmove
      | left => rcases hmove with hmove | hmove <;> cases hmove

theorem Program.Fits.leave {s : Threads τ} {rest : Program} {e : Effect τ}
    (hfits : (Program.leave rest).Fits (s.caller t)) (h : s.step t .leave = some e) :
    rest.Fits (e.threads.caller t) := by
  obtain ⟨hbracketed, -⟩ := hfits
  have htransition := Threads.transition_of_step h
  generalize e.outcome = outcome, e.threads = s' at htransition
  cases htransition with
  | left hcaller =>
      rw [hcaller] at hbracketed
      cases hbracketed with
      | leave hrest => simpa using Program.Fits.of_bracketed hrest

/-- A program that does not want to enter a side goes on in the blocks that it has open. -/
theorem Program.Fits.next (hfits : p.Fits c) (hp : ∀ side rest, p ≠ .enter side rest)
    (hnext : ∀ blocks, p.Bracketed blocks → p'.Bracketed blocks) : p'.Fits c := by
  refine ⟨hnext _ hfits.bracketed, fun side hside => ?_⟩
  obtain ⟨rest, hrest⟩ := hfits.waiting side hside
  exact absurd hrest (hp side rest)

/-- A step keeps a program to its blocks. -/
theorem Program.Step.fits (h : p.Step t a what a' p') (hfits : p.Fits (a.threads.caller t)) :
    p'.Fits (a'.threads.caller t) := by
  cases h with
  | enter hmove hstep => exact hfits.enter hmove hstep
  | leave hstep => exact hfits.leave hstep
  | look =>
      refine hfits.next nofun fun blocks hblocks => ?_
      cases hblocks with
      | look hnext => exact hnext _
  | install =>
      refine hfits.next nofun fun blocks hblocks => ?_
      cases hblocks with
      | install hrest => exact hrest
  | renew =>
      refine hfits.next nofun fun blocks hblocks => ?_
      cases hblocks with
      | renew hnext => exact hnext _

theorem Program.Step.isSafe (h : p.Step t a what a' p') (hsafe : a.threads.IsSafe) :
    a'.threads.IsSafe := by
  cases h with
  | enter _ hstep => exact hsafe.step hstep
  | leave hstep => exact hsafe.step hstep
  | look => exact hsafe
  | install => exact hsafe
  | renew => exact hsafe

theorem Program.Step.caller_eq (h : p.Step t a what a' p') (hne : u ≠ t) :
    a'.threads.caller u = a.threads.caller u := by
  cases h with
  | enter _ hstep => exact Threads.caller_of_step hstep hne
  | leave hstep => exact Threads.caller_of_step hstep hne
  | look => rfl
  | install => rfl
  | renew => rfl

theorem Program.Step.config_eq (h : p.Step t a what a' p') :
    a'.resolver.config = a.resolver.config := by
  cases h <;> rfl

theorem Program.Step.what_ne_ended (h : p.Step t a what a' p') (op : Operation) (start : Nat)
    (ending : Except Mishap Reply) : what ≠ .ended op start ending := by
  cases h <;> exact nofun

/-- What is installed stays while another thread is in a block. -/
theorem Program.Step.selection_eq_of_block (h : p.Step t a what a' p')
    (hsafe : a.threads.IsSafe) (hfits : p.Fits (a.threads.caller t))
    (hblock : (a.threads.caller u).blocks ≠ []) (hne : u ≠ t) :
    a'.resolver.selection = a.resolver.selection := by
  cases h with
  | install =>
      have hwrite : .write ∈ (a.threads.caller t).blocks := by
        rw [hfits.bracketed.eq_write]
        exact List.mem_singleton_self _
      exact absurd (hsafe.eq_of_write hwrite hblock) hne
  | enter => rfl
  | leave => rfl
  | look => rfl
  | renew => rfl

end Blocks

end Phrasebook
