/-!
# The machine

Bounds that no part of the library sets itself: how deep calls may be nested, and how much memory
there is.

The definitions that depend on them take a `Machine` as an instance, and what is proved of them
holds on every machine.  `Machine.usual` stands for the machine of closed statements and of the
running program.
-/

namespace Phrasebook

/-- The bounds of a machine. -/
class Machine where
  /-- How deep chains of plural rules may stand one in the other. -/
  chainDepth : Nat
  hundred_le_chainDepth : 100 ≤ chainDepth
  /-- How many folders, one in the other, a search may go down. -/
  folderDepth : Nat
  /-- How wide a field of a text may be. -/
  fieldWidth : Nat

/-- A machine of the usual size. -/
instance Machine.usual : Machine where
  chainDepth := 480
  hundred_le_chainDepth := by decide
  folderDepth := 960
  fieldWidth := Nat.pow 2 40

end Phrasebook
