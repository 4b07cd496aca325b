import Phrasebook.Assets.Provider
import Phrasebook.Po.File

/-!
# Load results

What came of the files of a catalog, one result per file.

**Results.**  A `LoadResult` tells the tag that a file was read for, its path, how it fared,
and the lines that could not be read.
**Summaries.**  A `Summary` is a list of results; counts and selections are functions of it.
-/

namespace Phrasebook

/-- How a file fared. -/
inductive LoadStatus
  | success
  | notFound
  | error
deriving DecidableEq, Repr

/-- A name that is no status. -/
structure UnknownStatus where
  name : Text
deriving DecidableEq, Repr

/-- The words for an unknown status. -/
def UnknownStatus.message (e : UnknownStatus) : String :=
  let shown := String.ofList (Text.quoted e.name)
  s!"{shown} is not a valid LoadStatus"

namespace LoadStatus

/-- The name of a status. -/
def name : LoadStatus → String
  | .success => "success"
  | .notFound => "not_found"
  | .error => "error"

/-- The status of a name. -/
def ofName (name : Text) : Except UnknownStatus LoadStatus :=
  match [success, notFound, error].find? (fun s => s.name.toList == name) with
  | some s => .ok s
  | none => .error ⟨name⟩

@[simp] theorem ofName_name (s : LoadStatus) : ofName s.name.toList = .ok s := by
  cases s <;> rfl

end LoadStatus

/-- Why a file was not loaded. -/
inductive LoadError
  | fault (f : Fault)
  | content (e : Po.ReadError)
deriving DecidableEq, Repr

/-- What came of one file. -/
structure LoadResult where
  locale : Text
  path : Text
  status : LoadStatus
  error : Option LoadError
  junk : List Po.JunkLine
deriving DecidableEq, Repr

/-- Were there lines that could not be read? -/
def LoadResult.hasJunk (r : LoadResult) : Bool :=
  !r.junk.isEmpty

/-- The results of several files in order. -/
structure Summary where
  results : List LoadResult
deriving DecidableEq, Repr

namespace Summary

/-- No results. -/
def empty : Summary :=
  ⟨[]⟩

/-- The results of one summary and then those of another. -/
def append (s t : Summary) : Summary :=
  ⟨s.results ++ t.results⟩

instance : Append Summary := ⟨append⟩

/-- The results with a status. -/
def withStatus (s : Summary) (status : LoadStatus) : List LoadResult :=
  s.results.filter (fun r => r.status == status)

/-- The number of files with a status. -/
def count (s : Summary) (status : LoadStatus) : Nat :=
  (s.withStatus status).length

/-- The number of files. -/
def total (s : Summary) : Nat :=
  s.results.length

/-- The number of lines that could not be read. -/
def junkCount (s : Summary) : Nat :=
  (s.results.flatMap LoadResult.junk).length

/-- The results for the text of a tag. -/
def ofLocale (s : Summary) (locale : Text) : List LoadResult :=
  s.results.filter (fun r => r.locale == locale)

/-- The results with lines that could not be read. -/
def withJunk (s : Summary) : List LoadResult :=
  s.results.filter LoadResult.hasJunk

/-- Did a file fail? -/
def hasErrors (s : Summary) : Bool :=
  0 < s.count .error

/-- Did no file fail or go missing? -/
def allSuccessful (s : Summary) : Bool :=
  s.count .error == 0 && s.count .notFound == 0

/-- Were all lines of all files read? -/
def allClean (s : Summary) : Bool :=
  s.allSuccessful && s.junkCount == 0

/-- A summary in one line. -/
def describe (s : Summary) : String :=
  let total := s.total
  let loaded := s.count .success
  let absent := s.count .notFound
  let failed := s.count .error
  let junk := s.junkCount
  s!"LoadSummary(total={total}, ok={loaded}, not_found={absent}, errors={failed}, junk={junk})"

@[simp] theorem results_append (s t : Summary) : (s ++ t).results = s.results ++ t.results := rfl

theorem count_append (s t : Summary) (status : LoadStatus) :
    (s ++ t).count status = s.count status + t.count status := by
  simp [count, withStatus]

theorem junkCount_append (s t : Summary) : (s ++ t).junkCount = s.junkCount + t.junkCount := by
  simp [junkCount]

end Summary
end Phrasebook
