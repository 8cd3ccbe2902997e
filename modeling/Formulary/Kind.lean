/-! The five kinds of computation, and the names they go by: in data, in the history, on screen and
as files of scripts. -/
namespace Formulary

inductive Kind
  | truthTable
  | equivalence
  | setOperation
  | complements
  | function
  deriving DecidableEq

namespace Kind

def all : List Kind := [truthTable,equivalence,setOperation,complements,function]

/-- The name of a kind in data. -/
def name : Kind → String
  | truthTable => "truthTable"
  | equivalence => "equivalence"
  | setOperation => "setOperation"
  | complements => "universe"
  | function => "function"

/-- The word that marks a kind in the history. -/
def tag : Kind → String
  | truthTable => "logic_tt"
  | equivalence => "logic_eq"
  | setOperation => "sets_core"
  | complements => "sets_uni"
  | function => "fx"

def ofTag? (word : String) : Option Kind :=
  all.find? (·.tag == word)

theorem ofTag?_tag (k : Kind) : ofTag? k.tag = some k := by
  cases k <;> decide

/-- What a reader of the history sees. -/
def label : Kind → String
  | truthTable => "Logic · Truth table"
  | equivalence => "Logic · Equivalence"
  | setOperation => "Sets · Operations"
  | complements => "Sets · Universe"
  | function => "Functions · Analysis"

/-- The name of the file that holds a script. -/
def fileName : Kind → String
  | truthTable => "truth_table.m"
  | equivalence => "logic_equivalence.m"
  | setOperation => "set_operations.m"
  | complements => "universe_complements.m"
  | function => "function_analysis.m"

end Kind
end Formulary
