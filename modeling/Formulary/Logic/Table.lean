import Formulary.Logic.Compile
import Formulary.Logic.Evaluation

/-! Truth tables: the value of one formula in every row of an alphabet. A fault in any row leaves no
table. -/
namespace Formulary.Logic

structure Row where
  assignment : Assignment
  result : Bool

structure Table where
  alphabet : Alphabet
  /-- The formula exactly as it was given. -/
  expression : String
  rows : List Row

namespace Table

/-- The heading of the column of results. -/
def resultHeader (t : Table) : String :=
  "R = " ++ t.expression

def results (t : Table) : List Bool :=
  t.rows.map Row.result

end Table

/-- The value of a program, its fault being one of a formula. -/
def Postfix.evaluate (p : Postfix) (s : Assignment) : Except Error Bool :=
  match p.eval s with
  | .ok b => .ok b
  | .error e => .error (.evaluation e)

/-- The row of an assignment. -/
def Postfix.row (p : Postfix) (s : Assignment) : Except Error Row :=
  (p.evaluate s).map fun b => ⟨s,b⟩

/-- The truth table of a formula over an alphabet. -/
def Table.ofText (alphabet : Alphabet) (expression : String) : Except Error Table := do
  let p ← compileOver alphabet expression
  let rows ← alphabet.assignments.mapM p.row
  return ⟨alphabet,expression,rows⟩

end Formulary.Logic
