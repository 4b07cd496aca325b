import Phrasebook.Text.Basic

/-!
# Lines

A line ends at a line feed, at a carriage return, or at the pair of both.  The last line may
lack its end; a text that ends with the end of a line has no empty line behind it.
-/

namespace Phrasebook
namespace Text

/-- The text with every end of line as one line feed. -/
def normalizeLineEnds : Text → Text
  | [] => []
  | '\r' :: '\n' :: rest => '\n' :: normalizeLineEnds rest
  | c :: rest => (if c = '\r' then '\n' else c) :: normalizeLineEnds rest

/-- The lines of a text in which a line feed ends a line. -/
def feedLines : Text → List Text
  | [] => []
  | c :: rest =>
      if c = '\n' then [] :: feedLines rest
      else
        match feedLines rest with
        | [] => [[c]]
        | line :: lines => (c :: line) :: lines

/-- The lines of a text, without their ends. -/
def lines (t : Text) : List Text :=
  feedLines (normalizeLineEnds t)

end Text
end Phrasebook
