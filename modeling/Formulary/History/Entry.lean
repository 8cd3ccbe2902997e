import Formulary.History.Computation
import Formulary.History.Timestamp
import Formulary.Text.Lowercase
import Formulary.Text.Occurrence

/-! Entries of the history: what was computed, when it was saved, and the script of its result. -/
namespace Formulary.History
open Json (Value Source Record)

structure Entry where
  id : String
  timestamp : Timestamp
  computation : Computation
  script : String

namespace Entry

def kind (e : Entry) : Kind :=
  e.computation.kind

/-- The text that a search looks at. -/
def searchText (e : Entry) : String :=
  e.kind.label ++ " " ++ e.computation.summary ++ " " ++ e.script

/-- Whether a query occurs in an entry, the case of letters and blanks around the query aside. A
blank query occurs in every entry. -/
def isMatch (e : Entry) (query : String) : Bool :=
  let wanted := lowercase (trimmed query)
  wanted.isEmpty || Text.occurs wanted.toList (lowercase e.searchText).toList

def value (e : Entry) : Value :=
  .object [("id",.string e.id),("timestamp",.string e.timestamp.zuluText),
    ("data",e.computation.value),("script",.string e.script)]

/-- Reads the four parts of an entry, given how to read a text and a computation. -/
def ofRecord? {α : Type} (text : α → Option String) (computation : α → Option Computation)
    (r : Record α) : Option Entry := do
  return ⟨← r.required? 0 "id" text,
    ← r.required? 1 "timestamp" fun a => (text a).bind Timestamp.read?,
    ← r.required? 2 "data" computation,← r.required? 3 "script" text⟩

def ofValue? (v : Value) : Option Entry := do
  ofRecord? Value.toString? Computation.ofValue? (← v.record? 4)

def sourceText? : Source → Option String
  | .string s => s
  | _ => none

/-- A computation that stands inside an entry of a list. -/
def sourceComputation? (s : Source) : Option Computation := do
  Computation.ofValue? (← s.value? (Json.deepest - 2))

def ofSource? (s : Source) : Option Entry := do
  ofRecord? sourceText? sourceComputation? (← s.record? 4)

end Entry

/-- The text of a list of entries. -/
def entriesText (entries : List Entry) : String :=
  (Value.array (entries.map Entry.value)).text .pretty

/-- Reads a list of entries. -/
def readEntries? (text : String) : Option (List Entry) := do
  match ← Source.read? text with
  | .array items => items.mapM Entry.ofSource?
  | _ => none

end Formulary.History
