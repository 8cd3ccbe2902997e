import Formulary.Script.Logic
import Formulary.Script.Sets
import Formulary.Script.Function
import Formulary.Session.Check
import Formulary.Session.Encoding

/-! Answers to computations. An answer depends on the configuration and the inputs alone, so
computing again what was saved gives the same answer and the same script. -/
namespace Formulary.Session
open Json (Value)
open History (Computation)

/-- A function that was analysed. -/
structure Analysed where
  function : Calculus.Compiled
  analysis : Calculus.Analysis

inductive Answer
  | table (t : Logic.Table)
  | equivalence (e : Logic.Equivalence)
  | operation (r : Sets.OperationResult)
  | complements (c : Sets.Complements)
  | analysis (l : Analysed)

/-! Computing -/

def tableOf (expression : String) (size : Nat) : Except Fault Logic.Table := do
  let _ ← (requireText "expression" expression).mapError .rejected
  let alphabet ← (requireAlphabet size).mapError .rejected
  (Logic.Table.ofText alphabet expression).mapError .logic

def equivalenceOf (left right : String) (size : Nat) : Except Fault Logic.Equivalence := do
  let _ ← (requireText "expression 1" left).mapError .rejected
  let _ ← (requireText "expression 2" right).mapError .rejected
  let alphabet ← (requireAlphabet size).mapError .rejected
  (Logic.Equivalence.ofTexts alphabet left right).mapError .logic

/-- A word that selects no operation means the union. -/
def operationOf (a b operation : String) : Except Fault Sets.OperationResult := do
  (requireOperands a b).mapError .rejected
  return Sets.OperationResult.ofTexts a b (Sets.Operation.ofSelector operation)

def complementsOf (whole a b : String) : Except Fault Sets.Complements := do
  (requireUniverse whole).mapError .rejected
  return Sets.Complements.ofTexts whole a b

def analysedOf (config : Config) (expression : String) (p : Calculus.Parameters) :
    Except Fault Analysed := do
  let text ← (requireText "f(x)" expression).mapError .rejected
  (requireParameters config.leastPoints config.mostPoints p).mapError .rejected
  let f ← (Calculus.Compiled.ofText text).mapError .calculus
  let analysis ← (f.analyze p config.settings).mapError .calculus
  return ⟨f,analysis⟩

/-- Where the analysis of a function comes to a grid that there is no room for, if it does. -/
def shortageOf? (config : Config) (room : Nat) (expression : String) (p : Calculus.Parameters) :
    Option Calculus.Shortage := do
  let text ← (requireText "f(x)" expression).toOption
  (requireParameters config.leastPoints config.mostPoints p).toOption
  let f ← (Calculus.Compiled.ofText text).toOption
  f.shortage? p config.settings room

/-- The answer to a computation. -/
def answerTo (config : Config) : Computation → Except Fault Answer
  | .truthTable expression size => (tableOf expression size.toNat).map .table
  | .equivalence left right size => (equivalenceOf left right size.toNat).map .equivalence
  | .setOperation a b operation => (operationOf a b operation).map .operation
  | .complements whole a b => (complementsOf whole a b).map .complements
  | .function expression p => (analysedOf config expression p).map .analysis

/-! Showing -/

/-- Six decimals, or the mark of an undefined value. -/
def numberText : Option Float → String
  | some v => Decimal.fixed 6 v
  | none => "NaN"

def verdict (e : Logic.Equivalence) : String :=
  if e.holds then "Equivalent" else "Not equivalent"

def cardinality (r : Sets.OperationResult) : String :=
  s!"{r.a.size}, {r.b.size}"

/-- The elements that the universe lacks, on one line. -/
def outsideText (c : Sets.Complements) : String :=
  ", ".intercalate c.outsideTexts

def warning (c : Sets.Complements) : Option String :=
  if c.leavesUniverse then some ("Warning: elements outside U (" ++ outsideText c ++ ")") else none

namespace Answer

def kind : Answer → Kind
  | table _ => .truthTable
  | equivalence _ => .equivalence
  | operation _ => .setOperation
  | complements _ => .complements
  | analysis _ => .function

def script (settings : Calculus.Settings) : Answer → Script.Document
  | table t => Script.ofTable t
  | equivalence e => Script.ofEquivalence e
  | operation r => Script.ofOperation r
  | complements c => Script.ofComplements c
  | analysis l => Script.ofFunction l.function l.analysis.parameters settings

def parts : Answer → List (String × Value)
  | table t => [("table",tableValue t)]
  | equivalence e =>
    [("result",equivalenceValue e),("verdict",.string (verdict e)),
      ("counterexampleText",.option (fun c => .string c.text) e.counterexample)]
  | operation r =>
    [("result",operationValue r),("aDisplay",.string r.a.text),("bDisplay",.string r.b.text),
      ("resultDisplay",.string r.result.text),("cardinality",.string (cardinality r)),
      ("regions",.object [("aOnly",.string r.regions.leftOnly.text),
        ("intersection",.string r.regions.both.text),
        ("bOnly",.string r.regions.rightOnly.text)])]
  | complements c =>
    [("result",complementsValue c),("universeDisplay",.string c.whole.text),
      ("aDisplay",.string c.a.text),("bDisplay",.string c.b.text),
      ("aComplementDisplay",.string c.aComplement.text),
      ("bComplementDisplay",.string c.bComplement.text),
      ("warning",.option .string (warning c))]
  | analysis l =>
    [("analysis",analysisValue l.analysis),("valueText",.string (numberText l.analysis.value)),
      ("derivativeText",.string (numberText l.analysis.slope)),
      ("integralText",.string (numberText l.analysis.area))]

/-- The result, its texts and its script. -/
def value (settings : Calculus.Settings) (a : Answer) : Value :=
  .object (a.parts ++ [("script",scriptValue (a.script settings))])

/-- The value with the kind of the answer beside it. -/
def taggedValue (settings : Calculus.Settings) (a : Answer) : Value :=
  .object [("type",.string a.kind.name),("response",a.value settings)]

end Answer
end Formulary.Session
