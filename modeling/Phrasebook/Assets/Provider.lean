import Phrasebook.Machine
import Phrasebook.Text.Basic

/-!
# Asset providers

A provider answers two questions about paths: which entries a folder has, and which lines a
file has.  Either answer may be a fault, and the lines of a file may end in one.

**Contained faults.**  A fault of the file system or of a value concerns one path, and whoever
reads many paths goes on with the others.  Any other fault is passed on, also that the machine
has given up on folders or on chains of plural rules that stand too deep one in the other.
**Interruptions.**  A provider can be given faults of its own, in listings and in readings; what
the file itself fails with on the way to the interruption comes first.
**Reach.**  A search asks for a path, for its entries, for theirs and so on; it comes to the end
of at most `reach` entries, each below the one before.
-/

namespace Phrasebook

/-- What a fault means for the reader of many paths. -/
inductive FaultCategory
  | missing
  | system
  | value
  | other
deriving DecidableEq, Repr

/-- Why a provider cannot answer. -/
inductive Fault
  | noSuchAsset (path : Text)
  | missing
  | isDirectory
  | notDirectory
  | nameTooLong
  | undecodable
  | absolutePath (path : Text)
  | parentSegment (path : Text)
  | escapesRoot (path : Text)
  | nullCharacter
  | tooManyLinks
  | foldersTooDeep
  | chainsTooDeep
  | external (kind : String) (category : FaultCategory) (message : String)
deriving DecidableEq, Repr

namespace Fault

/-- The category of a fault. -/
def category : Fault → FaultCategory
  | .noSuchAsset _ | .missing => .missing
  | .isDirectory | .notDirectory | .nameTooLong | .tooManyLinks => .system
  | .undecodable | .absolutePath _ | .parentSegment _ | .escapesRoot _ | .nullCharacter => .value
  | .foldersTooDeep | .chainsTooDeep => .other
  | .external _ category _ => category

/-- Does the fault concern one path only? -/
def isContained (f : Fault) : Bool :=
  f.category != .other

/-- The words for a fault, unless the system words it. -/
def message? : Fault → Option String
  | .noSuchAsset path =>
      let shown := String.ofList path
      some s!"No such asset: '{shown}'"
  | .absolutePath path =>
      let shown := String.ofList path
      some s!"Absolute paths not allowed in asset path: '{shown}'"
  | .parentSegment path =>
      let shown := String.ofList path
      some s!"Path traversal sequences not allowed in asset path: '{shown}'"
  | .escapesRoot path =>
      let shown := String.ofList path
      some s!"Path traversal detected: '{shown}' escapes root directory"
  | .nullCharacter => some "embedded null byte"
  | .external _ _ message => some message
  | .missing | .isDirectory | .notDirectory | .nameTooLong | .undecodable => none
  | .tooManyLinks | .foldersTooDeep | .chainsTooDeep => none

end Fault

/-- The lines of a file up to its end or to a fault. -/
structure Delivery where
  lines : List Text
  fault : Option Fault
deriving DecidableEq, Repr

namespace Delivery

/-- All lines of a file. -/
def complete (lines : List Text) : Delivery :=
  ⟨lines, none⟩

/-- A file that cannot be read at all. -/
def failed (f : Fault) : Delivery :=
  ⟨[], some f⟩

/-- All lines, or the fault that cuts them short. -/
def toExcept (d : Delivery) : Except Fault (List Text) :=
  match d.fault with
  | none => .ok d.lines
  | some f => .error f

/-- The delivery cut short by a fault behind the given number of lines, or at its end.  A fault
that the delivery meets on the way to the next line comes first. -/
def interruptedAfter (d : Delivery) (count : Nat) (f : Fault) : Delivery :=
  if count < d.lines.length ∨ d.fault = none then ⟨d.lines.take count, some f⟩ else d

end Delivery

/-- A fault that is put into the reading of a file: in place of it, or behind a number of
lines. -/
structure Interruption where
  after : Option Nat
  fault : Fault
deriving DecidableEq, Repr

/-- A delivery with an interruption. -/
def Delivery.interrupted (d : Delivery) (i : Interruption) : Delivery :=
  match i.after with
  | none => .failed i.fault
  | some count => d.interruptedAfter count i.fault

/-- The answers about all paths. -/
structure Provider where
  description : String
  list : Text → Except Fault (List Text)
  read : Text → Delivery
  reach : Nat

namespace Provider

/-- The provider with faults in listings; of several for one path the first one counts. -/
def withListFaults (p : Provider) (faults : List (Text × Fault)) : Provider :=
  { p with
    list := fun path =>
      match faults.lookup path with
      | some f => .error f
      | none => p.list path }

/-- The provider with interruptions in readings; of several for one path the first one
counts. -/
def withInterruptions (p : Provider) (interruptions : List (Text × Interruption)) : Provider :=
  { p with
    read := fun path =>
      match interruptions.lookup path with
      | some i => (p.read path).interrupted i
      | none => p.read path }

end Provider
end Phrasebook
