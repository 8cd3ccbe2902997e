/-! The propositional letters A, B, C and the two alphabets that may be declared: the first two
letters or all three. -/
namespace Formulary.Logic

inductive Letter
  | a
  | b
  | c
  deriving DecidableEq, Inhabited

namespace Letter

def all : List Letter := [a,b,c]

def char : Letter → Char
  | a => 'A'
  | b => 'B'
  | c => 'C'

def ofChar? : Char → Option Letter
  | 'A' => some a
  | 'B' => some b
  | 'C' => some c
  | _ => none

/-- The place in the alphabet, from zero. -/
def index : Letter → Nat
  | a => 0
  | b => 1
  | c => 2

def text (l : Letter) : String :=
  String.singleton l.char

theorem mem_all (l : Letter) : l ∈ all := by
  cases l <;> simp [all]

@[simp] theorem ofChar?_char (l : Letter) : ofChar? l.char = some l := by
  cases l <;> rfl

theorem eq_char_of_ofChar? {ch : Char} {l : Letter} (h : ofChar? ch = some l) : ch = l.char := by
  unfold ofChar? at h
  split at h <;> simp_all [char]
  all_goals (subst h; rfl)

end Letter

/-- Which letters are declared: `two` is A and B, `three` is A, B and C. -/
inductive Alphabet
  | two
  | three
  deriving DecidableEq

namespace Alphabet

def size : Alphabet → Nat
  | two => 2
  | three => 3

def letters : Alphabet → List Letter
  | two => [.a,.b]
  | three => [.a,.b,.c]

def ofSize? : Nat → Option Alphabet
  | 2 => some two
  | 3 => some three
  | _ => none

@[simp] theorem length_letters (d : Alphabet) : d.letters.length = d.size := by
  cases d <;> rfl

theorem mem_letters {d : Alphabet} {l : Letter} : l ∈ d.letters ↔ l.index < d.size := by
  cases d <;> cases l <;> simp [letters,size,Letter.index]

end Alphabet
end Formulary.Logic
