import Formulary.Kind
import Formulary.Json.Record
import Formulary.Json.Writer
import Formulary.Calculus.Analysis

/-! What a computation starts from. The history stores this and never a result, so an entry is
replayed by computing it again. -/
namespace Formulary.History
open Json (Value Record)

/-- The inputs of a computation of each kind; a size is the number of letters that are declared. -/
inductive Computation
  | truthTable (expression : String) (size : UInt8)
  | equivalence (left right : String) (size : UInt8)
  | setOperation (a b operation : String)
  | complements (whole a b : String)
  | function (expression : String) (parameters : Calculus.Parameters)

namespace Computation

def kind : Computation → Kind
  | truthTable _ _ => .truthTable
  | equivalence _ _ _ => .equivalence
  | setOperation _ _ _ => .setOperation
  | complements _ _ _ => .complements
  | function _ _ => .function

/-- One line that tells computations apart in a list. -/
def summary : Computation → String
  | truthTable expression _ => expression
  | equivalence left right _ => left ++ "  ||  " ++ right
  | setOperation a b operation => a ++ "  |  " ++ operation ++ "  |  " ++ b
  | complements whole a b => "U=" ++ whole ++ "  A=" ++ a ++ "  B=" ++ b
  | function expression p =>
    "f(x)=" ++ expression ++ "  [" ++ Decimal.Layout.plain.text p.xMin ++ "," ++
      Decimal.Layout.plain.text p.xMax ++ "]"

def sizeValue (size : UInt8) : Value :=
  .natural size.toNat

/-- The fields of a computation apart from its tag. -/
def fields : Computation → List (String × Value)
  | truthTable expression size =>
    [("expression",.string expression),("variableCount",sizeValue size)]
  | equivalence left right size =>
    [("left",.string left),("right",.string right),("variableCount",sizeValue size)]
  | setOperation a b operation =>
    [("a",.string a),("b",.string b),("operation",.string operation)]
  | complements whole a b =>
    [("universe",.string whole),("a",.string a),("b",.string b)]
  | function expression p =>
    [("expression",.string expression),("xMin",.float p.xMin),("xMax",.float p.xMax),
      ("points",.natural p.points),("x0",.float p.x0),("a",.float p.a),("b",.float p.b),
      ("showTangent",.bool p.showTangent),("showArea",.bool p.showArea)]

/-- The name of the field that holds the tag. -/
def tagField : String := "type"

def value (c : Computation) : Value :=
  .object ((tagField,.string c.kind.tag) :: c.fields)

/-- A number of letters, whether an alphabet has so many or not. -/
def toSize? (v : Value) : Option UInt8 :=
  (v.toNatural? 256).map UInt8.ofNat

/-- Reads the parts of a computation of a known kind. -/
def ofRecord? (kind : Kind) (r : Record Value) : Option Computation :=
  match kind with
  | .truthTable => do
    return truthTable (← r.required? 0 "expression" Value.toString?)
      (← r.required? 1 "variableCount" toSize?)
  | .equivalence => do
    return equivalence (← r.required? 0 "left" Value.toString?)
      (← r.required? 1 "right" Value.toString?) (← r.required? 2 "variableCount" toSize?)
  | .setOperation => do
    return setOperation (← r.required? 0 "a" Value.toString?) (← r.required? 1 "b" Value.toString?)
      (← r.required? 2 "operation" Value.toString?)
  | .complements => do
    return complements (← r.required? 0 "universe" Value.toString?)
      (← r.required? 1 "a" Value.toString?) (← r.required? 2 "b" Value.toString?)
  | .function => do
    return function (← r.required? 0 "expression" Value.toString?)
      ⟨← r.required? 1 "xMin" Value.toFloat?,← r.required? 2 "xMax" Value.toFloat?,
        ← r.required? 3 "points" Value.toCount?,← r.required? 4 "x0" Value.toFloat?,
        ← r.required? 5 "a" Value.toFloat?,← r.required? 6 "b" Value.toFloat?,
        ← r.required? 7 "showTangent" Value.toBool?,← r.required? 8 "showArea" Value.toBool?⟩

/-- How many parts a computation of a kind has. -/
def partCount : Kind → Nat
  | .truthTable => 2
  | .equivalence => 3
  | .setOperation => 3
  | .complements => 3
  | .function => 9

/-- The kind that a tag names. -/
def toKind? (v : Value) : Option Kind := do
  Kind.ofTag? (← v.toString?)

/-- Reads a computation whose tag stands in one field of an object, or at the front of an array. -/
def ofValue? : Value → Option Computation
  | .object fields =>
    match fields.filter (·.1 == tagField) with
    | [tag] => do
      ofRecord? (← toKind? tag.2) (.named (fields.filter (·.1 != tagField)))
    | _ => none
  | .array (tag :: items) => do
    let kind ← toKind? tag
    ofRecord? kind (← (Value.array items).record? (partCount kind))
  | _ => none

end Computation
end Formulary.History
