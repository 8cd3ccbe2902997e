import Formulary.Json.Writer
import Formulary.Script.Logic
import Formulary.Script.Sets
import Formulary.Script.Function

/-! Results as JSON values, their fields in a fixed order. Numbers that are not finite become
`null`. -/
namespace Formulary.Session
open Json (Value)

def texts (ts : List String) : Value :=
  .array (ts.map .string)

def lettersValue (alphabet : Logic.Alphabet) : Value :=
  texts (alphabet.letters.map Logic.Letter.text)

def assignmentValue (s : Logic.Assignment) : Value :=
  .object (s.toList.map fun p => (p.1.text,.bool p.2))

def rowValue (r : Logic.Row) : Value :=
  .object [("assignment",assignmentValue r.assignment),("result",.bool r.result)]

def tableValue (t : Logic.Table) : Value :=
  .object [("variables",lettersValue t.alphabet),("expression",.string t.expression),
    ("resultHeader",.string t.resultHeader),("rows",.array (t.rows.map rowValue))]

def counterexampleValue (c : Logic.Counterexample) : Value :=
  .object [("assignment",assignmentValue c.assignment),("left",.bool c.left),
    ("right",.bool c.right)]

def equivalenceValue (e : Logic.Equivalence) : Value :=
  .object [("leftExpression",.string e.left),("rightExpression",.string e.right),
    ("variables",lettersValue e.alphabet),("equivalent",.bool e.holds),
    ("counterexample",.option counterexampleValue e.counterexample)]

def elementValue : Sets.Element → Value
  | .numeric v => .object [("kind",.string "numeric"),("value",.float v)]
  | .symbolic s => .object [("kind",.string "symbolic"),("value",.string s)]

def setValue (s : Sets.FiniteSet) : Value :=
  .array (s.elements.map elementValue)

def regionsValue (r : Sets.Regions) : Value :=
  .object [("aOnly",setValue r.leftOnly),("intersection",setValue r.both),
    ("bOnly",setValue r.rightOnly)]

def operationValue (r : Sets.OperationResult) : Value :=
  .object [("a",setValue r.a),("b",setValue r.b),("operation",.string r.operation.selector),
    ("label",.string r.operation.label),("regions",regionsValue r.regions),
    ("result",setValue r.result)]

def complementsValue (c : Sets.Complements) : Value :=
  .object [("universe",setValue c.whole),("a",setValue c.a),("b",setValue c.b),
    ("aComplement",setValue c.aComplement),("bComplement",setValue c.bComplement),
    ("aOutside",setValue c.aOutside),("bOutside",setValue c.bOutside),
    ("outOfUniverse",.bool c.leavesUniverse)]

def parametersValue (p : Calculus.Parameters) : Value :=
  .object [("xMin",.float p.xMin),("xMax",.float p.xMax),("points",.natural p.points),
    ("x0",.float p.x0),("a",.float p.a),("b",.float p.b),
    ("showTangent",.bool p.showTangent),("showArea",.bool p.showArea)]

def numbersValue (vs : List Float) : Value :=
  .array (vs.map .float)

def windowValue (w : Calculus.Window) : Value :=
  .object [("min",.float w.lo),("max",.float w.hi)]

def analysisValue (a : Calculus.Analysis) : Value :=
  .object [("expression",.string a.expression),("params",parametersValue a.parameters),
    ("xs",numbersValue a.xs),("ys",.array (a.ys.map (.option .float))),
    ("value",.option .float a.value),("derivative",.option .float a.slope),
    ("integral",.option .float a.area),("range",windowValue a.window),
    ("tangent",.option numbersValue a.tangent)]

def scriptValue (d : Script.Document) : Value :=
  .object [("kind",.string d.kind.name),("fileName",.string d.kind.fileName),
    ("text",.string d.text)]

end Formulary.Session
