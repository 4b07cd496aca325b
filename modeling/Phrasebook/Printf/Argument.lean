import Phrasebook.Number.Layout

/-!
# Arguments

The values that a template can be given, and the texts that stand for them: `display` in a
result, `literal` in a message.  Both fail on a whole number that has too many digits.
-/

namespace Phrasebook

/-- A value to be put into a template. -/
inductive Argument
  | text (t : Text)
  | integer (i : Int)
  | truth (b : Bool)
  | real (x : Binary64)
  | nothing
deriving DecidableEq, Repr

namespace Argument

/-- The word for the kind of an argument. -/
def kind : Argument → String
  | .text _ => "str"
  | .integer _ => "int"
  | .truth _ => "bool"
  | .real _ => "float"
  | .nothing => "NoneType"

/-- The value of an argument that counts as a whole number. -/
def toInt? : Argument → Option Int
  | .integer i => some i
  | .truth b => some (if b then 1 else 0)
  | _ => none

/-- The text of an argument, with the given text for a text. -/
def textWith (ofText : Text → Text) : Argument → Except NumeralError Text
  | .text t => .ok (ofText t)
  | .integer i => writeNumeral i
  | .truth b => .ok (Text.ofTruth b)
  | .real x => .ok (shortestText x)
  | .nothing => .ok "None".toList

/-- The text of an argument in a result. -/
def display : Argument → Except NumeralError Text :=
  textWith (fun t => t)

/-- The text of an argument in a message. -/
def literal : Argument → Except NumeralError Text :=
  textWith Text.quoted

/-- The text of an argument in a message that must be ASCII. -/
def asciiLiteral : Argument → Except NumeralError Text :=
  textWith Text.quotedAscii

/-- Texts with a comma and a space between them. -/
def commaSeparated : List Text → Text
  | [] => []
  | [t] => t
  | t :: rest => t ++ ',' :: ' ' :: commaSeparated rest

/-- The text of an argument list in a message; a single argument has a comma behind it. -/
def listLiteral (args : List Argument) : Except NumeralError Text := do
  let texts ← args.mapM literal
  match texts with
  | [t] => pure ('(' :: t ++ [',', ')'])
  | _ => pure ('(' :: commaSeparated texts ++ [')'])

end Argument
end Phrasebook
