import Formulary.Calculus.Token

/-! Postfix programs over the reals: numbers, the variable, pi, and operations on the values left
before them. A disciplined program finds its operands at every step and leaves exactly one value. -/
namespace Formulary.Calculus

inductive Instruction
  | number (v : Float)
  | x
  | pi
  | negate
  | binary (o : Operator)
  | call (r : Routine)
  deriving DecidableEq

/-- How many values an instruction takes; every instruction leaves one. -/
def Instruction.arity : Instruction → Nat
  | negate => 1
  | call _ => 1
  | binary _ => 2
  | _ => 0

abbrev Program := List Instruction

namespace Program

/-- How many values lie on the stack after a program, `none` when an operand was missing. -/
def depth? : Program → Nat → Option Nat
  | [],n => some n
  | i :: rest,n => if n < i.arity then none else depth? rest (n - i.arity + 1)

def isDisciplined (p : Program) : Bool :=
  p.depth? 0 == some 1

end Program

/-- A function as it was written, without blanks around it, and its program. -/
structure Compiled where
  source : String
  program : Program
  deriving DecidableEq

end Formulary.Calculus
