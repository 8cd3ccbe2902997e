import Formulary.Calculus.Program

/-! Running a program on a stack of binary64 numbers. Nothing fails: outside its domain an operation
gives an infinity or a value that is no number, and a point with such a value is undefined. -/
namespace Formulary.Calculus

def Operator.apply : Operator → Float → Float → Float
  | add,l,r => l + r
  | subtract,l,r => l - r
  | multiply,l,r => l * r
  | divide,l,r => l / r
  | power,l,r => Float.pow l r

def Routine.apply : Routine → Float → Float
  | sin,v => Float.sin v
  | cos,v => Float.cos v
  | tan,v => Float.tan v
  | exp,v => Float.exp v
  | log,v => Float.log v
  | sqrt,v => Float.sqrt v
  | abs,v => Float.abs v

/-- The number nearest to pi. -/
def piValue : Float := 3.141592653589793

/-- The number that stands for a missing operand. -/
def noNumber : Float := 0.0 / 0.0

/-- The value on top of a stack and what lies below it. -/
def pop : List Float → Float × List Float
  | [] => (noNumber,[])
  | v :: below => (v,below)

/-- Carries out one instruction at `at` on the stack. -/
def Instruction.step (point : Float) : Instruction → List Float → List Float
  | number v,stack => v :: stack
  | x,stack => point :: stack
  | pi,stack => piValue :: stack
  | negate,stack => (-(pop stack).1) :: (pop stack).2
  | call r,stack => r.apply (pop stack).1 :: (pop stack).2
  | binary o,stack =>
    let right := pop stack
    let left := pop right.2
    o.apply left.1 right.1 :: left.2

def Program.run (point : Float) (p : Program) (stack : List Float) : List Float :=
  p.foldl (fun stack i => i.step point stack) stack

/-- The value of a program at a point. -/
def Program.eval (p : Program) (point : Float) : Float :=
  (pop (p.run point [])).1

/-- A number that is finite. -/
def finite? (v : Float) : Option Float :=
  if v.isFinite then some v else none

/-- The value of a function at a point, `none` where it is undefined. -/
def Compiled.value? (f : Compiled) (point : Float) : Option Float :=
  finite? (f.program.eval point)

end Formulary.Calculus
