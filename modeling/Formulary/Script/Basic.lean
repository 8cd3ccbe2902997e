import Formulary.Kind
import Formulary.Sets.Element
import Formulary.Text.Quoted

/-! Scripts that repeat a computation outside the program. A script is a list of lines, each ended
by a line break; its kind fixes the name of its file. -/
namespace Formulary.Script

/-- A script and the blocks of text it consists of. -/
structure Document where
  kind : Kind
  lines : List String

def Document.text (d : Document) : String :=
  "\n".intercalate d.lines ++ "\n"

/-- A number as a literal. -/
def numberLiteral (v : Float) : String :=
  if v.isNaN then "NaN"
  else if v.isFinite then Sets.numberText v
  else if 0.0 < v then "Inf" else "-Inf"

end Formulary.Script
