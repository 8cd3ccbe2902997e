import Formulary.Script.Basic
import Formulary.Sets.Universe

/-! Scripts for set operations and complements. All operands of one script are number vectors when
every element of every operand is a number, else cell arrays of canonical texts. -/
namespace Formulary.Script
open Sets

/-- Whether operands are written as number vectors. -/
def isNumericMode (operands : List FiniteSet) : Bool :=
  operands.any (!·.isEmpty) && operands.all FiniteSet.isAllNumeric

def vectorLiteral (s : FiniteSet) : String :=
  if s.isEmpty then "zeros(1, 0)"
  else "[" ++ ", ".intercalate ((s.elements.filterMap Element.number?).map numberLiteral) ++ "]"

def cellLiteral (s : FiniteSet) : String :=
  if s.isEmpty then "cell(1, 0)" else "\x7b" ++ ", ".intercalate (s.texts.map quoted) ++ "\x7d"

def operandLiteral (numeric : Bool) (s : FiniteSet) : String :=
  if numeric then vectorLiteral s else cellLiteral s

def operationLine : Operation → String
  | .union => "R = union(A, B, 'stable');"
  | .intersection => "R = intersect(A, B, 'stable');"
  | .differenceAB => "R = setdiff(A, B, 'stable');"
  | .differenceBA => "R = setdiff(B, A, 'stable');"
  | .symmetricDifference => "R = setxor(A, B, 'stable');"

def ofOperation (r : OperationResult) : Document :=
  let numeric := isNumericMode [r.a,r.b]
  ⟨.setOperation,
    ["% ===== Trivium: set operations =====",
      "A = " ++ operandLiteral numeric r.a ++ ";",
      "B = " ++ operandLiteral numeric r.b ++ ";",
      operationLine r.operation,
      "",
      "disp(" ++ quoted (r.operation.label ++ ":") ++ ");",
      "disp(R);",
      "fprintf('|A| = %d, |B| = %d\\n', numel(A), numel(B));"]⟩

def ofComplements (c : Complements) : Document :=
  let numeric := isNumericMode [c.whole,c.a,c.b]
  ⟨.complements,
    ["% ===== Trivium: universe and complements =====",
      "U = " ++ operandLiteral numeric c.whole ++ ";",
      "A = " ++ operandLiteral numeric c.a ++ ";",
      "B = " ++ operandLiteral numeric c.b ++ ";",
      "Ac = setdiff(U, A, 'stable');",
      "Bc = setdiff(U, B, 'stable');",
      "",
      "outside = [setdiff(A, U, 'stable'), setdiff(B, U, 'stable')];",
      "if ~isempty(outside)",
      "    disp('Warning: A or B has elements outside U.');",
      "end",
      "disp('A^c:'); disp(Ac);",
      "disp('B^c:'); disp(Bc);"]⟩

end Formulary.Script
