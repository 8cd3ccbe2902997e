import Formulary.Calculus.Lexer
import Formulary.Calculus.Program

/-! Bringing tokens into postfix order. At every token it is known whether an operand has to begin,
so a minus sign is negation or subtraction, and a text that no expression has is refused at the
first token that cannot be right. A plus sign before an operand leaves no trace. -/
namespace Formulary.Calculus

/-- What waits for its operands or for its closing parenthesis. -/
inductive Pending
  | opening
  | negate
  | binary (o : Operator)
  | routine (r : Routine)
  deriving DecidableEq

namespace Pending

def isOpening : Pending → Bool
  | opening => true
  | _ => false

/-- Whether a waiting entry goes out before a coming operator waits. -/
def goesBefore (coming : Operator) : Pending → Bool
  | opening => false
  | routine _ => false
  | negate => coming.precedence ≤ 3 && !coming.groupsRight
  | binary o =>
    if coming.groupsRight then coming.precedence < o.precedence
    else coming.precedence ≤ o.precedence

/-- What goes out when an entry is released. -/
def instruction? : Pending → Option Instruction
  | opening => none
  | negate => some .negate
  | binary o => some (.binary o)
  | routine r => some (.call r)

end Pending

/-- What the releasing of a parenthesis sends out, and what still waits; `none` without one. -/
def close? (waiting : List Pending) : Option (Program × List Pending) :=
  let out := (waiting.takeWhile (!·.isOpening)).filterMap Pending.instruction?
  match waiting.dropWhile (!·.isOpening) with
  | [] => none
  | _ :: .routine r :: left => some (out ++ [.call r],left)
  | _ :: left => some (out,left)

/-- Whether a list of tokens begins with an opening parenthesis. -/
def beginsOpening : List Placed → Bool
  | ⟨.opening,_⟩ :: _ => true
  | _ => false

/-- The program of the tokens, after `waiting` with the latest entry first. `operandNext` tells that
an operand has to begin, `last` is the operator read last. -/
def reorder (waiting : List Pending) (operandNext : Bool) (last : Option Operator) :
    List Placed → Except SyntaxError Program
  | [] =>
    if operandNext then
      match last with
      | some o => .error (.missingOperand o)
      | none => .error .malformed
    else if waiting.any Pending.isOpening then .error .unbalanced
    else .ok (waiting.filterMap Pending.instruction?)
  | ⟨t,position⟩ :: rest =>
    match t with
    | .number v =>
      if operandNext then (reorder waiting false last rest).map (.number v :: ·)
      else .error (.unexpected t position)
    | .x =>
      if operandNext then (reorder waiting false last rest).map (.x :: ·)
      else .error (.unexpected t position)
    | .pi =>
      if operandNext then (reorder waiting false last rest).map (.pi :: ·)
      else .error (.unexpected t position)
    | .routine r =>
      if !operandNext then .error (.unexpected t position)
      else if beginsOpening rest then reorder (.routine r :: waiting) true last rest
      else .error (.missingArgument r)
    | .opening =>
      if operandNext then reorder (.opening :: waiting) true last rest
      else .error (.unexpected t position)
    | .closing =>
      if operandNext then .error (.unexpected t position)
      else match close? waiting with
        | none => .error .unbalanced
        | some (out,left) => (reorder left false last rest).map (out ++ ·)
    | .operator o =>
      if operandNext then
        match o with
        | .subtract => reorder (.negate :: waiting) true (some o) rest
        | .add => reorder waiting true (some o) rest
        | _ => .error (.missingOperand o)
      else
        let out := (waiting.takeWhile (·.goesBefore o)).filterMap Pending.instruction?
        let left := waiting.dropWhile (·.goesBefore o)
        (reorder (.binary o :: left) true (some o) rest).map (out ++ ·)
    | .comma => .error (.unexpected t position)

/-- The program of a list of tokens. -/
def Program.ofTokens (tokens : List Placed) : Except SyntaxError Program := do
  if tokens.isEmpty then throw .empty
  let p ← reorder [] true none tokens
  if p.isDisciplined then return p else throw .malformed

/-- Compiles the text of a function, the blanks around it aside. -/
def compile (text : String) : Except SyntaxError Compiled := do
  let source := trimmed text
  if source.isEmpty then throw .empty
  let p ← Program.ofTokens (← tokens source)
  return ⟨source,p⟩

end Formulary.Calculus
