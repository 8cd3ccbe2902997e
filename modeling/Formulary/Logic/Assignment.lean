import Formulary.Logic.Letter

/-! Assignments of truth values to letters, possibly to some of them only. Over an alphabet they are
counted in binary, the first letter being the most significant digit. -/
namespace Formulary.Logic

structure Assignment where
  value? : Letter → Option Bool

namespace Assignment

theorem ext_letters {s t : Assignment} (ha : s.value? .a = t.value? .a)
    (hb : s.value? .b = t.value? .b) (hc : s.value? .c = t.value? .c) : s = t := by
  obtain ⟨f⟩ := s
  obtain ⟨g⟩ := t
  congr 1
  funext l
  cases l
  · exact ha
  · exact hb
  · exact hc

instance : DecidableEq Assignment := fun s t =>
  if h : s.value? .a = t.value? .a ∧ s.value? .b = t.value? .b ∧ s.value? .c = t.value? .c
  then isTrue (ext_letters h.1 h.2.1 h.2.2)
  else isFalse fun e => h (by subst e; exact ⟨rfl,rfl,rfl⟩)

/-- The assignment of a list of pairs; the last pair for a letter counts. -/
def ofList (pairs : List (Letter × Bool)) : Assignment :=
  ⟨fun l => (pairs.reverse.find? (·.1 == l)).map (·.2)⟩

/-- The assigned letters with their values, in alphabetical order. -/
def toList (s : Assignment) : List (Letter × Bool) :=
  Letter.all.filterMap fun l => (s.value? l).map (l,·)

def size (s : Assignment) : Nat :=
  s.toList.length

def values (s : Assignment) : List Bool :=
  s.toList.map (·.2)

/-- The assignment as text, such as `A=1, B=0`. -/
def text (s : Assignment) : String :=
  ", ".intercalate (s.toList.map fun p => p.1.text ++ "=" ++ (if p.2 then "1" else "0"))

/-- The assignment whose values are the binary digits of a row number. -/
def ofRow (alphabet : Alphabet) (row : Nat) : Assignment :=
  ⟨fun l => if l.index < alphabet.size then some (row.testBit (alphabet.size - 1 - l.index))
    else none⟩

end Assignment

/-- The number of assignments over an alphabet. -/
def Alphabet.rowCount (alphabet : Alphabet) : Nat :=
  Nat.pow 2 alphabet.size

/-- All assignments over an alphabet, in the order of their row numbers. -/
def Alphabet.assignments (alphabet : Alphabet) : List Assignment :=
  (List.range alphabet.rowCount).map (Assignment.ofRow alphabet)

theorem Alphabet.length_assignments (alphabet : Alphabet) :
    alphabet.assignments.length = Nat.pow 2 alphabet.size := by
  simp [assignments,rowCount]

end Formulary.Logic
