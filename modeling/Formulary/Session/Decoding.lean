import Formulary.Json.Record
import Formulary.Sets.FiniteSet

/-! Finite sets from JSON. A set is an array of elements, each a record of its kind and its value. Any
list of elements is accepted: one whose text has come before is passed over. -/
namespace Formulary.Session
open Json (Value Source Record)
open Sets (Element FiniteSet)

/-- The word for a kind: a string, or the only name of an object that holds `null`. -/
def kindOfValue? : Value → Option String
  | .string word => some word
  | .object [(word,.null)] => some word
  | _ => none

def kindOfSource? : Source → Option String
  | .string word => word
  | .object [(word,.null)] => word
  | _ => none

/-- Reads the two parts of an element, given how to read a kind and the value behind it. -/
def elementOfRecord? {α : Type} (kind : α → Option String) (value : α → Option Value)
    (r : Record α) : Option Element := do
  match ← r.required? 0 "kind" kind with
  | "numeric" => return .numeric (← r.required? 1 "value" fun a => (value a).bind Value.toFloat?)
  | "symbolic" => return .symbolic (← r.required? 1 "value" fun a => (value a).bind Value.toString?)
  | _ => none

def elementOfValue? (v : Value) : Option Element := do
  elementOfRecord? kindOfValue? some (← v.record? 2)

def elementOfSource? (s : Source) : Option Element := do
  elementOfRecord? kindOfSource? (fun part => part.value? Json.deepest) (← s.record? 2)

/-- The elements that a value lists. -/
def elementsOfValue? : Value → Option (List Element)
  | .array items => items.mapM elementOfValue?
  | _ => none

def elementsOfSource? : Source → Option (List Element)
  | .array items => items.mapM elementOfSource?
  | _ => none

/-- The elements that a text lists. -/
def readElements? (text : String) : Option (List Element) := do
  elementsOfSource? (← Source.read? text)

/-- The set of the elements that a value lists. -/
def setOfValue? (v : Value) : Option FiniteSet :=
  (elementsOfValue? v).map .ofList

/-- The set of the elements that a text lists. -/
def readSet? (text : String) : Option FiniteSet :=
  (readElements? text).map .ofList

end Formulary.Session
