/-!
# Ranges of code points

A class of characters is given by an ascending list of ranges with both ends included.
-/

namespace Phrasebook
namespace Text

/-- Does a code point lie in one of the ascending ranges? -/
def inRanges (n : Nat) : List (Nat × Nat) → Bool
  | [] => false
  | (low, high) :: rest =>
      if n < low then false
      else if n ≤ high then true
      else inRanges n rest

end Text
end Phrasebook
