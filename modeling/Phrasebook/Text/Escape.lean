import Phrasebook.Text.Basic

/-!
# Escapes

Payloads are written with the escapes of C: a backslash and a letter for the nine characters
that cannot stand for themselves.

**Reading.**  `unescape` resolves the escapes from left to right.  An escape that has no
meaning of its own stands for its second character, and a backslash in front of a line feed
or at the end of the payload stands for itself.
**Writing.**  `escape` writes the nine characters as escapes and keeps every other one.
-/

namespace Phrasebook
namespace Text

/-- The character that an escape with the given second character stands for. -/
def escapeMeaning (c : Char) : Char :=
  if c = 'n' then '\n'
  else if c = 't' then '\t'
  else if c = 'r' then '\r'
  else if c = 'a' then '\x07'
  else if c = 'b' then '\x08'
  else if c = 'f' then '\x0c'
  else if c = 'v' then '\x0b'
  else c

/-- The payload with its escapes resolved. -/
def unescape : Text → Text
  | [] => []
  | [c] => [c]
  | c :: d :: rest =>
      if c = '\\' ∧ d ≠ '\n' then escapeMeaning d :: unescape rest
      else c :: unescape (d :: rest)

/-- One character as a payload shows it. -/
def escapeChar (c : Char) : Text :=
  if c = '\\' ∨ c = '"' then ['\\', c]
  else if c = '\n' then ['\\', 'n']
  else if c = '\t' then ['\\', 't']
  else if c = '\r' then ['\\', 'r']
  else if c = '\x07' then ['\\', 'a']
  else if c = '\x08' then ['\\', 'b']
  else if c = '\x0c' then ['\\', 'f']
  else if c = '\x0b' then ['\\', 'v']
  else [c]

/-- A text as a payload. -/
def escape (t : Text) : Text :=
  t.flatMap escapeChar

@[simp] theorem escape_nil : escape [] = [] := rfl

@[simp] theorem escape_cons (c : Char) (t : Text) : escape (c :: t) = escapeChar c ++ escape t := by
  simp [escape]

@[simp] theorem escape_append (s t : Text) : escape (s ++ t) = escape s ++ escape t := by
  simp [escape]

end Text
end Phrasebook
