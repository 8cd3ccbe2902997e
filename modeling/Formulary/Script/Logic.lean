import Formulary.Script.Basic
import Formulary.Script.FormulaHelper
import Formulary.Logic.Equivalence

/-! Scripts for truth tables and equivalence checks. Formulas and the table's heading are carried as
literals; the rows come in the same order as in the table. -/
namespace Formulary.Script
open Logic

/-- The lines that name the letters and build the assignment matrix. -/
def assignmentLines (alphabet : Alphabet) : List String :=
  ["vars = \x7b" ++ ", ".intercalate (alphabet.letters.map fun l => quoted l.text) ++ "\x7d;",
    "N = " ++ toString alphabet.size ++ ";",
    "M = dec2bin(0:2^N-1, N) - '0';"]

/-- The lines that end every logic script. -/
def formulaHelperTail : List String :=
  ["","% ===== Local functions =====",formulaHelper]

def ofTable (t : Table) : Document :=
  ⟨.truthTable,
    ["% ===== Trivium: truth table =====",
      "expr = " ++ quoted t.expression ++ ";",
      "header = " ++ quoted t.resultHeader ++ ";"] ++
    assignmentLines t.alphabet ++
    ["R = eval_logic_expr(expr, vars, M);",
      "",
      "fprintf('%s\\n', strjoin([vars, \x7bheader\x7d], ' | '));",
      "disp([M R]);"] ++
    formulaHelperTail⟩

def ofEquivalence (e : Equivalence) : Document :=
  ⟨.equivalence,
    ["% ===== Trivium: logical equivalence =====",
      "expr1 = " ++ quoted e.left ++ ";",
      "expr2 = " ++ quoted e.right ++ ";"] ++
    assignmentLines e.alphabet ++
    ["R1 = eval_logic_expr(expr1, vars, M);",
      "R2 = eval_logic_expr(expr2, vars, M);",
      "",
      "idx = find(R1 ~= R2, 1);",
      "if isempty(idx)",
      "    disp('Equivalent: R1 and R2 agree on every row.');",
      "else",
      "    disp('Not equivalent. First counterexample:');",
      "    for j = 1:N",
      "        fprintf('%s=%d ', vars\x7bj\x7d, M(idx, j));",
      "    end",
      "    fprintf('(R1=%d, R2=%d)\\n', R1(idx), R2(idx));",
      "end",
      "disp([M R1 R2]);"] ++
    formulaHelperTail⟩

end Formulary.Script
