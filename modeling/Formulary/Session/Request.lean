import Formulary.Session.Check

/-! Requests: a command by name and its arguments as a JSON value. Commands without arguments take
any value for them. -/
namespace Formulary.Session
open Json (Value Source Record)
open History (Computation)

inductive Request
  /-- One of the computations that are requested by their inputs as they are stored. -/
  | compute (c : Computation)
  | analyze (form : AnalysisForm)
  | overlay (tangent shaded : Option Bool)
  | lastAnalysis
  | exportAnalysis
  | save (c : Computation)
  | list (query kind : String)
  | entry (id : String)
  | replay (id : String)
  | delete (id : String)
  | clear
  | exportAll
  | exportTo (path : String)
  | usage

namespace Request

def formOf? (r : Record Value) : Option AnalysisForm := do
  return ⟨← r.required? 0 "expression" Value.toString?,← r.required? 1 "xMin" Value.toString?,
    ← r.required? 2 "xMax" Value.toString?,← r.required? 3 "points" Value.toString?,
    ← r.required? 4 "x0" Value.toString?,← r.required? 5 "a" Value.toString?,
    ← r.required? 6 "b" Value.toString?,← r.defaulted? 7 "showTangent" false Value.toBool?,
    ← r.defaulted? 8 "showArea" false Value.toBool?⟩

/-- The inputs of a computation of a kind. -/
def computation? (kind : Kind) (args : Value) : Option Request := do
  return compute (← Computation.ofRecord? kind (← args.record? (Computation.partCount kind)))

/-- The only argument of a command. -/
def single? (name : String) (args : Value) : Option String := do
  (← args.record? 1).required? 0 name Value.toString?

/-- The arguments of a command; `none` when no command has the name. -/
def reader? (command : String) : Option (Value → Option Request) :=
  match command with
  | "generate_truth_table" => some (computation? .truthTable)
  | "check_equivalence" => some (computation? .equivalence)
  | "compute_set_operation" => some (computation? .setOperation)
  | "compute_universe" => some (computation? .complements)
  | "analyze_function" => some fun args => do return analyze (← formOf? (← args.record? 9))
  | "update_function_overlays" => some fun args => do
    let r ← args.record? 2
    return overlay (← r.optional? 0 "showTangent" (Value.toOption? Value.toBool?))
      (← r.optional? 1 "showArea" (Value.toOption? Value.toBool?))
  | "get_last_function" => some fun _ => some lastAnalysis
  | "export_last_function" => some fun _ => some exportAnalysis
  | "save_to_history" => some fun args => do return save (← Computation.ofValue? args)
  | "list_history" => some fun args => do
    let r ← args.record? 2
    return list (← r.defaulted? 0 "query" "" Value.toString?)
      (← r.defaulted? 1 "kind" "" Value.toString?)
  | "get_history_entry" => some fun args => do return entry (← single? "id" args)
  | "replay_history_entry" => some fun args => do return replay (← single? "id" args)
  | "delete_history_entry" => some fun args => do return delete (← single? "id" args)
  | "clear_history" => some fun _ => some clear
  | "export_history" => some fun _ => some exportAll
  | "export_history_to" => some fun args => do return exportTo (← single? "path" args)
  | "get_usage_stats" => some fun _ => some usage
  | _ => none

/-- The request that a command and its arguments make. -/
def ofCommand (command : String) (args : Value) : Except Rejection Request :=
  match reader? command with
  | none => .error (.unknownCommand command)
  | some read =>
    match read args with
    | none => .error (.badArguments command)
    | some request => .ok request

end Request

/-- A command with its arguments, not yet understood. -/
structure Invocation where
  command : String
  args : Value

/-- Reads a line that holds an invocation; arguments that are missing are `null`. -/
def Invocation.read? (line : String) : Option Invocation := do
  let r ← (← Source.read? line).record? 2
  let value (s : Source) := s.value? (Json.deepest - 1)
  return ⟨← r.required? 0 "cmd" fun s => (value s).bind Value.toString?,
    (← r.defaulted? 1 "args" .null value).settle⟩

end Formulary.Session
