import Phrasebook.Proofs.Po.Stepping

/-!
# Exchanging lines

Lines of a file may take the place of others if they lead every state to the same outcome.

**Numbers.**  The number of a line shows in errors and junk alone, so that lines which move are the
same lines with other numbers (`run_renumbered`).
**Readable lines.**  `Reads` says where lines lead that are no junk; comments among them do not
show (`Reads.run_append`).
**Result.**  `parse_exchange`: the file is the same but for the numbers of the lines behind.
-/

namespace Phrasebook
namespace Po

open Plural (Formula FormulaError)

section Numbers

/-- The error with the number of its line changed. -/
def ParseError.renumbered (f : Nat → Nat) (e : ParseError) : ParseError :=
  { e with lineNumber := f e.lineNumber }

/-- The junk with the number of its line changed. -/
def JunkLine.renumbered (f : Nat → Nat) (j : JunkLine) : JunkLine :=
  { j with lineNumber := f j.lineNumber, error := j.error.renumbered f }

/-- The failure with the number of its line changed, if it is about a line. -/
def ReadError.renumbered (f : Nat → Nat) : ReadError → ReadError
  | .malformed e => .malformed (e.renumbered f)
  | .stopped e => .stopped e

/-- The outcome of some lines with the numbers of the lines changed. -/
def renumberedRun (f : Nat → Nat) :
    Except ReadError (State × List JunkLine) → Except ReadError (State × List JunkLine)
  | .error e => .error (e.renumbered f)
  | .ok (s, junk) => .ok (s, junk.map (JunkLine.renumbered f))

/-- The outcome of a file with the numbers of the lines changed. -/
def renumberedParse (f : Nat → Nat) : Except ReadError File → Except ReadError File
  | .error e => .error (e.renumbered f)
  | .ok file => .ok { file with junk := file.junk.map (JunkLine.renumbered f) }

/-- The numbers of lines, those behind the given one moved on. -/
def movedBehind (last distance number : Nat) : Nat :=
  if last < number then number + distance else number

variable {r : Reading} {f : Nat → Nat} {number number' : Nat} {s : State} {content : Text}
  {lines lines' : List Text}

variable [Machine]

/-- A line in front changes no more than its own number. -/
theorem run_cons_renumbered (hnumber : f number = number')
    (h : ∀ next, r.run (number' + 1) next lines' =
      renumberedRun f (r.run (number + 1) next lines)) :
    r.run number' s (content :: lines') = renumberedRun f (r.run number s (content :: lines)) := by
  rw [Reading.run, Reading.run]
  simp only
  cases s.step (Text.trim content) with
  | error e => rfl
  | ok result =>
      obtain ⟨next, problem⟩ := result
      cases problem with
      | none => exact h next
      | some problem =>
          subst hnumber
          simp only
          split
          · rfl
          · rw [h next.interrupted]
            cases r.run (number + 1) next.interrupted lines <;> rfl

theorem run_renumbered (hf : ∀ i < lines.length, f (number + i) = number' + i) :
    r.run number' s lines = renumberedRun f (r.run number s lines) := by
  induction lines generalizing number number' s with
  | nil => rfl
  | cons content lines ih =>
      refine run_cons_renumbered (hf 0 (Nat.succ_pos _)) fun next => ih fun i hi => ?_
      have hnext := hf (i + 1) (Nat.succ_lt_succ hi)
      rwa [Nat.add_right_comm, Nat.add_assoc, Nat.add_right_comm, Nat.add_assoc]

end Numbers

section Readable

variable {r : Reading} {s t : State} {lines lines' contents contents' : List Text}

/-- The second list has the lines of the first one, perhaps with blanks at their ends, and comments
among them. -/
inductive Annotated : List Text → List Text → Prop
  | nil : Annotated [] []
  | line {line content : Text} {lines contents : List Text} :
      Text.trim content = line → Annotated lines contents →
      Annotated (line :: lines) (content :: contents)
  | comment {content : Text} {lines contents : List Text} :
      (Text.trim content).head? = some '#' → Annotated lines contents →
      Annotated lines (content :: contents)

theorem Annotated.of_trim (h : ∀ line ∈ lines, Text.trim line = line) : Annotated lines lines := by
  induction lines with
  | nil => exact .nil
  | cons line lines ih =>
      obtain ⟨hline, hlines⟩ := List.forall_mem_cons.1 h
      exact .line hline (ih hlines)

theorem Annotated.length_le (h : Annotated lines contents) : lines.length ≤ contents.length := by
  induction h with
  | nil => exact Nat.le_refl 0
  | line _ _ ih => exact Nat.succ_le_succ ih
  | comment _ _ ih => exact Nat.le_succ_of_le ih

variable [Machine] {outcome : Except FormulaError State}

/-- The lines, without blanks at their ends, lead from the state to the outcome and are no junk. -/
inductive Reads : State → List Text → Except FormulaError State → Prop
  | nil (s : State) : Reads s [] (.ok s)
  | line {s t : State} {line : Text} {lines : List Text} {outcome : Except FormulaError State} :
      s.step line = .ok (t, none) → Reads t lines outcome → Reads s (line :: lines) outcome
  | stopped {s : State} {line : Text} {e : FormulaError} (lines : List Text) :
      s.step line = .error e → Reads s (line :: lines) (.error e)

theorem Reads.append (h : Reads s lines (.ok t)) (hrest : Reads t lines' outcome) :
    Reads s (lines ++ lines') outcome := by
  generalize hfirst : Except.ok t = first at h
  induction h with
  | nil =>
      cases hfirst
      exact hrest
  | line hstep _ ih => exact .line hstep (ih hfirst)
  | stopped => cases hfirst

theorem Reads.append_error {e : FormulaError} (h : Reads s lines (.error e))
    (lines' : List Text) : Reads s (lines ++ lines') (.error e) := by
  generalize hfirst : Except.error e = first at h
  induction h with
  | nil => cases hfirst
  | line hstep _ ih => exact .line hstep (ih hfirst)
  | stopped lines hstep => exact .stopped (lines ++ lines') hstep

theorem State.step_comment {line : Text} (h : line.head? = some '#') :
    s.step line = .ok (s, none) := by
  have hempty : line.isEmpty = false := by
    cases line with
    | nil => cases h
    | cons => rfl
  rw [step, if_neg (by simp [hempty]), if_pos h]
  rfl

/-- The lines behind those that have the given outcome. -/
def Reading.runBehind (r : Reading) (number : Nat) (lines : List Text) :
    Except FormulaError State → Except ReadError (State × List JunkLine)
  | .error e => .error (.stopped e)
  | .ok s => r.run number s lines

/-- Readable lines in front of others, with comments among them. -/
theorem Reads.run_append (h : Reads s lines outcome) (hcontents : Annotated lines contents)
    (number : Nat) (behind : List Text) :
    r.run number s (contents ++ behind) =
      r.runBehind (number + contents.length) behind outcome := by
  induction hcontents generalizing s number with
  | nil =>
      cases h
      rfl
  | @line line content lines contents htrim hcontents ih =>
      rw [List.cons_append, Reading.run, htrim]
      cases h with
      | line hstep hrest =>
          simp only [hstep, List.length_cons]
          rw [ih hrest, Nat.add_right_comm, Nat.add_assoc]
      | stopped _ hstep =>
          simp only [hstep]
          rfl
  | @comment content lines contents hcomment _ ih =>
      rw [List.cons_append, Reading.run, State.step_comment hcomment]
      simp only [List.length_cons]
      rw [ih h, Nat.add_right_comm, Nat.add_assoc]

/-- Do two lists of readable lines lead from the state to one outcome? -/
def Agree (s : State) (lines lines' : List Text) : Prop :=
  ∃ outcome, Reads s lines outcome ∧ Reads s lines' outcome

theorem Agree.behind {front front' : List Text} (hfront : Reads s front (.ok t))
    (hfront' : Reads s front' (.ok t)) (h : Agree t lines lines') :
    Agree s (front ++ lines) (front' ++ lines') := by
  obtain ⟨outcome, hreads, hreads'⟩ := h
  exact ⟨outcome, hfront.append hreads, hfront'.append hreads'⟩

theorem run_exchange {f : Nat → Nat} (hagree : ∀ s, Agree s lines lines')
    (hcontents : Annotated lines contents) (hcontents' : Annotated lines' contents')
    {front behind : List Text} {number : Nat}
    (hfront : ∀ i < front.length, f (number + i) = number + i)
    (hbehind : ∀ i < behind.length,
      f (number + front.length + contents'.length + i) =
        number + front.length + contents.length + i) :
    r.run number s (front ++ (contents ++ behind)) =
      renumberedRun f (r.run number s (front ++ (contents' ++ behind))) := by
  induction front generalizing number s with
  | nil =>
      obtain ⟨outcome, hreads, hreads'⟩ := hagree s
      rw [List.nil_append, List.nil_append, hreads.run_append hcontents,
        hreads'.run_append hcontents']
      cases outcome with
      | error e => rfl
      | ok t => exact run_renumbered hbehind
  | cons content front ih =>
      refine run_cons_renumbered (hfront 0 (Nat.succ_pos _)) fun next => ih (fun i hi => ?_) ?_
      · have hnext := hfront (i + 1) (Nat.succ_lt_succ hi)
        rwa [Nat.add_assoc, Nat.add_comm 1 i]
      · rwa [List.length_cons, Nat.add_comm front.length 1, ← Nat.add_assoc] at hbehind

/-- Lines that agree with others take their place; no more than the numbers of the lines behind
tell the files apart. -/
theorem parse_exchange (r : Reading) (formula : Formula) (hagree : ∀ s, Agree s lines lines')
    (hcontents : Annotated lines contents) (hcontents' : Annotated lines' contents')
    (hlength : contents'.length ≤ contents.length) (front behind : List Text) :
    File.parse r formula (front ++ (contents ++ behind)) =
      renumberedParse
        (movedBehind (front.length + contents'.length) (contents.length - contents'.length))
        (File.parse r formula (front ++ (contents' ++ behind))) := by
  have hrun : r.run 1 (State.initial formula) (front ++ (contents ++ behind)) =
      renumberedRun
        (movedBehind (front.length + contents'.length) (contents.length - contents'.length))
        (r.run 1 (State.initial formula) (front ++ (contents' ++ behind))) := by
    refine run_exchange hagree hcontents hcontents' (fun i hi => ?_) (fun i hi => ?_)
    · exact if_neg (by omega)
    · exact (if_pos (by omega)).trans (by omega)
  rw [File.parse, File.parse, hrun]
  cases r.run 1 (State.initial formula) (front ++ (contents' ++ behind)) <;> rfl

end Readable

end Po
end Phrasebook
