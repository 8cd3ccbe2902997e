import Formulary.Logic.Lexer
import Formulary.Logic.Postfix

/-! Bringing tokens into postfix order. Operands go out at once; an operator waits until one that
binds less tightly, a closing parenthesis or the end comes. Only parentheses are checked here:
whether each operator finds its operands shows when the program is run. -/
namespace Formulary.Logic

/-- What waits for its operands or for its closing parenthesis. -/
inductive Pending
  | opening
  | operator (o : Operator)
  deriving DecidableEq

namespace Pending

def isOpening : Pending → Bool
  | opening => true
  | operator _ => false

/-- Whether a waiting entry goes out before a coming operator waits. -/
def goesBefore (coming : Operator) : Pending → Bool
  | opening => false
  | operator o => o.bindsBefore coming

/-- What goes out when an entry is released. -/
def instruction? : Pending → Option Instruction
  | opening => none
  | operator o => some (.operator o)

end Pending

/-- The program of the tokens, after `waiting` with the latest entry first. -/
def reorder : List Pending → List Token → Except SyntaxError Postfix
  | waiting,[] =>
    if waiting.any Pending.isOpening then .error .unbalanced
    else .ok (waiting.filterMap Pending.instruction?)
  | waiting,.letter l :: rest => (reorder waiting rest).map (.letter l :: ·)
  | waiting,.xor l r :: rest => (reorder waiting rest).map (.xor l r :: ·)
  | waiting,.operator o :: rest =>
    let out := waiting.takeWhile (·.goesBefore o)
    let left := waiting.dropWhile (·.goesBefore o)
    (reorder (.operator o :: left) rest).map (out.filterMap Pending.instruction? ++ ·)
  | waiting,.opening :: rest => reorder (.opening :: waiting) rest
  | waiting,.closing :: rest =>
    let out := waiting.takeWhile (!·.isOpening)
    match waiting.dropWhile (!·.isOpening) with
    | [] => .error .unbalanced
    | _ :: left => (reorder left rest).map (out.filterMap Pending.instruction? ++ ·)

/-- The postfix program of a list of tokens. -/
def Postfix.ofTokens (tokens : List Token) : Except SyntaxError Postfix :=
  reorder [] tokens

/-- The postfix program of a text, which must hold at least one token. -/
def compile (text : String) : Except SyntaxError Postfix := do
  let ts ← tokens text
  if ts.isEmpty then throw .empty
  Postfix.ofTokens ts

/-- The program of a text that uses declared letters only. -/
def compileOver (alphabet : Alphabet) (text : String) : Except Error Postfix :=
  match compile text with
  | .error e => .error (.text e)
  | .ok p =>
    match p.letters.find? (!alphabet.letters.contains ·) with
    | some l => .error (.undeclared l alphabet)
    | none => .ok p

end Formulary.Logic
