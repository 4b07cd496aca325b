import Phrasebook.Printf.Directive
import Phrasebook.Printf.Format

/-!
# Templates

A template is a text with directives that take arguments, in order or by number.

**Without arguments** only `%%` and `%n` are replaced; every other directive stays as it is,
so that a text which is not meant as a template comes through.
**With arguments** every directive is assigned its argument first.  What the directives become
is a format without argument numbers, and `applyFormat` puts the assigned arguments into it.
A percent sign that begins no directive is still a part of that format.
-/

namespace Phrasebook
namespace Printf

/-- Why a template cannot be filled. -/
inductive TemplateError
  | missingArgument (template : Text) (needed given : Nat)
  | misfit (template shownArguments : Text) (cause : ConversionError)
  | tooLarge (cause : ConversionError)
  | numeral (cause : NumeralError)
deriving DecidableEq, Repr

/-- The words for an error. -/
def TemplateError.message : TemplateError → String
  | .missingArgument template needed given =>
      let shown := String.ofList (Text.quoted template)
      s!"Template {shown} needs argument {needed}, got {given}"
  | .misfit template args cause =>
      let shown := String.ofList (Text.quoted template)
      let shownArgs := String.ofList args
      let reason := cause.message
      s!"Cannot format {shown} with {shownArgs}: {reason}"
  | .tooLarge cause => cause.message
  | .numeral cause => cause.message

/-- A piece of a template that has no arguments. -/
def Piece.unfilled : Piece → Text
  | .literal c => [c]
  | .directive d =>
      if d.index = none ∧ d.spec = ['%'] then ['%']
      else if d.index = none ∧ d.spec = ['n'] then ['\n']
      else d.toText

/-- The position of the argument that a directive takes, counted from zero, and the position
of the next argument in order. -/
def Directive.position (d : Directive) (next : Nat) : Except NumeralError (Nat × Nat) :=
  match d.index with
  | none => .ok (next, next + 1)
  | some digits => (readNumeral digits).map (fun k => (k - 1, next))

/-- The format that pieces become and the arguments in the order in which it takes them. -/
def assign (template : Text) (args : List Argument) :
    List Piece → Nat → Except TemplateError (Text × List Argument)
  | [], _ => .ok ([], [])
  | .literal c :: pieces, next => do
      let (format, taken) ← assign template args pieces next
      pure (c :: format, taken)
  | .directive d :: pieces, next =>
      if d.conversion = '%' then do
        let (format, taken) ← assign template args pieces next
        pure ('%' :: '%' :: format, taken)
      else if d.conversion = 'n' then do
        let (format, taken) ← assign template args pieces next
        pure ('\n' :: format, taken)
      else
        match d.position next with
        | .error e => .error (.numeral e)
        | .ok (position, next) =>
            match args[position]? with
            | none => .error (.missingArgument template (position + 1) args.length)
            | some a => do
                let (format, taken) ← assign template args pieces next
                pure ('%' :: d.spec ++ format, a :: taken)

/-- What becomes of an error in the format of a template: an argument of the wrong kind or
value is shown with the other arguments, if these can be written. -/
def explain (template : Text) (args : List Argument) (e : ConversionError) : TemplateError :=
  match e.family with
  | .overflow | .memory => .tooLarge e
  | .kind | .value =>
      match Argument.listLiteral args with
      | .ok shown => .misfit template shown e
      | .error n => .numeral n

/-- A template with its arguments put in. -/
def formatTemplate [Machine] (template : Text) (args : List Argument) : Except TemplateError Text :=
  match args with
  | [] => .ok ((Piece.ofText template).flatMap Piece.unfilled)
  | _ :: _ =>
      match assign template args (Piece.ofText template) 0 with
      | .error e => .error e
      | .ok (format, taken) =>
          match applyFormat format taken with
          | .ok t => .ok t
          | .error e => .error (explain template args e)

end Printf
end Phrasebook
