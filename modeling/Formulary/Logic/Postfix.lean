import Formulary.Logic.Token

/-! Postfix programs: letters, `xor` calls and operators in the order in which they are carried out.
Any list of instructions is a program, also one whose operators lack operands. -/
namespace Formulary.Logic

inductive Instruction
  | letter (l : Letter)
  | xor (l r : Letter)
  | operator (o : Operator)
  deriving DecidableEq

def Instruction.text : Instruction → String
  | letter l => (Token.letter l).text
  | xor l r => (Token.xor l r).text
  | operator o => o.text

/-- The letters an instruction reads. -/
def Instruction.letters : Instruction → List Letter
  | letter l => [l]
  | xor l r => [l,r]
  | operator _ => []

abbrev Postfix := List Instruction

namespace Postfix

/-- Whether some instruction reads the letter. -/
def uses (p : Postfix) (l : Letter) : Bool :=
  p.any fun i => i.letters.contains l

/-- The letters a program reads, each once and in alphabetical order. -/
def letters (p : Postfix) : List Letter :=
  Letter.all.filter p.uses

def text (p : Postfix) : String :=
  " ".intercalate (p.map Instruction.text)

theorem mem_letters {p : Postfix} {l : Letter} : l ∈ p.letters ↔ p.uses l = true := by
  simp [letters,Letter.mem_all]

end Postfix
end Formulary.Logic
