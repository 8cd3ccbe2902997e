import Formulary.Text.Escaped
import Formulary.Session.Answer

/-! What a computation leaves in the journal: what it was given, what its parts note in detail, and
how it ended. Texts are quoted where they are told as texts. -/
namespace Formulary.Session
open History (Computation)
open Journal (Note)

/-- The note that a command begins; some tell what they were given. -/
def entering (category command told : String) : Note :=
  .told .info category ("ENTER " ++ command ++ (if told.isEmpty then "" else " " ++ told))

/-- The note that a command ends; some tell what they found. -/
def leaving (category command told : String) : Note :=
  .told .info category ("EXIT " ++ command ++ (if told.isEmpty then "" else " " ++ told))

/-- A value that may be missing, as it is told. -/
def optionText {α : Type} (text : α → String) : Option α → String
  | none => "None"
  | some a => "Some(" ++ text a ++ ")"

def boolText (b : Bool) : String :=
  if b then "true" else "false"

/-- A formula that was compiled. -/
def compiledFormula (expression : String) (p : Logic.Postfix) : Note :=
  .detail .debug "parser::parser" ("compiled logic expression " ++ escaped expression ++ " -> [" ++
    p.text ++ "]")

/-- The formulas that were compiled, up to the first that has a fault or an undeclared letter. -/
def compiledFormulas (alphabet : Logic.Alphabet) : List String → List Note
  | [] => []
  | expression :: rest =>
    match Logic.compile expression with
    | .error _ => []
    | .ok p =>
      compiledFormula expression p ::
        (if (Logic.compileOver alphabet expression).toOption.isSome
         then compiledFormulas alphabet rest else [])

def formulaNotes (size : Nat) (expressions : List String) : List Note :=
  match Logic.Alphabet.ofSize? size with
  | some alphabet => compiledFormulas alphabet expressions
  | none => []

def tableNotes (expression : String) (size : Nat) : Except Fault Logic.Table → List Note
  | .error (.logic e) =>
    formulaNotes size [expression] ++ [.told .warn "LOGIC" ("truth table failed: " ++ e.message)]
  | .error _ => []
  | .ok r =>
    formulaNotes size [expression] ++
      [.detail .debug "engine::truth_table"
        ("truth table for " ++ escaped expression ++
          s!": {r.rows.length} rows over {size} variables"),
      leaving "LOGIC" "generate_truth_table" s!"rows={r.rows.length}"]

def equivalenceNotes (left right : String) (size : Nat) :
    Except Fault Logic.Equivalence → List Note
  | .error (.logic e) =>
    formulaNotes size [left,right] ++
      [.told .warn "LOGIC" ("equivalence check failed: " ++ e.message)]
  | .error _ => []
  | .ok e =>
    formulaNotes size [left,right] ++
      [.detail .debug "engine::truth_table"
        ("equivalence " ++ escaped left ++ " vs " ++ escaped right ++ ": " ++ boolText e.holds),
      leaving "LOGIC" "check_equivalence" (verdict e)]

/-- A word that selects no operation. -/
def unknownOperation (operation : String) : List Note :=
  if (Sets.Operation.ofSelector? operation).isSome then []
  else [.detail .debug "engine::sets"
    ("unknown set operation " ++ escaped operation ++ ", using union")]

def operationNotes (operation : String) : Except Fault Sets.OperationResult → List Note
  | .error _ => []
  | .ok r =>
    unknownOperation operation ++
      [.detail .debug "engine::sets"
        (r.operation.label ++ s!" over |A|={r.a.size} |B|={r.b.size} -> " ++ r.result.text),
      leaving "SETS" "compute_set_operation" (r.operation.label ++ " = " ++ r.result.text)]

/-- Elements that the universe lacks. -/
def outsideNotes (c : Sets.Complements) : List Note :=
  if c.leavesUniverse then
    [.detail .debug "engine::sets"
      ("elements outside U: A " ++ c.aOutside.text ++ " B " ++ c.bOutside.text),
    .told .warn "SETS" ("elements outside U: " ++ outsideText c)]
  else []

def complementsNotes : Except Fault Sets.Complements → List Note
  | .error _ => []
  | .ok c =>
    outsideNotes c ++
      [leaving "SETS" "compute_universe"
        ("Ac=" ++ c.aComplement.text ++ " Bc=" ++ c.bComplement.text)]

/-- A function that was compiled, once the form has passed its checks. -/
def compiledFunction (config : Config) (expression : String) (p : Calculus.Parameters) :
    List Note :=
  match requireParameters config.leastPoints config.mostPoints p,Calculus.compile expression with
  | .ok _,.ok f =>
    [.detail .debug "parser::parser"
      ("compiled function " ++ escaped f.source ++ s!" into {f.program.length} instructions")]
  | _,_ => []

def undefinedCount (a : Calculus.Analysis) : Nat :=
  (a.ys.filter Option.isNone).length

/-- A number in the journal. -/
def journalNumber : Option Float → String :=
  optionText Decimal.Layout.journal.text

/-- A function that was sampled. -/
def sampledNote (expression : String) (points undefined : Nat) : Note :=
  .detail .trace "engine::function"
    ("sampled " ++ escaped expression ++ s!" at {points} points, {undefined} undefined")

def analysedNotes (a : Calculus.Analysis) : List Note :=
  [sampledNote a.expression a.parameters.points (undefinedCount a),
  .detail .debug "engine::function"
    ("analyzed " ++ escaped a.expression ++ ": f(x0)=" ++ journalNumber a.value ++ " f'(x0)=" ++
      journalNumber a.slope ++ " integral=" ++ journalNumber a.area)]

def functionNotes (config : Config) (expression : String) (p : Calculus.Parameters) :
    Except Fault Analysed → List Note
  | .error e =>
    compiledFunction config expression p ++
      [.told .warn "FUNCTIONS" ("analysis failed: " ++ e.message)]
  | .ok l =>
    compiledFunction config expression p ++ analysedNotes l.analysis ++
      (if undefinedCount l.analysis = 0 then []
       else [.told .debug "FUNCTIONS" s!"{undefinedCount l.analysis} undefined samples"]) ++
      [leaving "FUNCTIONS" "analyze_function"
        ("f(x0)=" ++ numberText l.analysis.value ++ " f'(x0)=" ++ numberText l.analysis.slope ++
          " area=" ++ numberText l.analysis.area)]

/-- Everything a computation notes. -/
def computationNotes (config : Config) : Computation → List Note
  | .truthTable expression size =>
    entering "LOGIC" "generate_truth_table"
        ("expr=" ++ escaped expression ++ s!" vars={size.toNat}") ::
      tableNotes expression size.toNat (tableOf expression size.toNat)
  | .equivalence left right size =>
    entering "LOGIC" "check_equivalence"
        ("left=" ++ escaped left ++ " right=" ++ escaped right ++ s!" vars={size.toNat}") ::
      equivalenceNotes left right size.toNat (equivalenceOf left right size.toNat)
  | .setOperation a b operation =>
    entering "SETS" "compute_set_operation"
        ("a=" ++ escaped a ++ " b=" ++ escaped b ++ " op=" ++ operation) ::
      operationNotes operation (operationOf a b operation)
  | .complements whole a b =>
    entering "SETS" "compute_universe"
        ("u=" ++ escaped whole ++ " a=" ++ escaped a ++ " b=" ++ escaped b) ::
      complementsNotes (complementsOf whole a b)
  | .function expression p =>
    functionNotes config expression p (analysedOf config expression p)

/-- What an analysis has noted where it comes to a grid that there is no room for. -/
def shortageNotes (config : Config) (expression : String) (p : Calculus.Parameters) :
    Calculus.Shortage → List Note
  | .domain => compiledFunction config expression p
  | .area samples =>
    compiledFunction config expression p ++
      [sampledNote (trimmed expression) p.points samples.undefinedCount]

/-- What a computation has noted where it comes to a grid that there is no room for, if it does. -/
def brokenNotes? (config : Config) (room : Nat) : Computation → Option (List Note)
  | .function expression p =>
    (shortageOf? config room expression p).map (shortageNotes config expression p)
  | _ => none

end Formulary.Session
