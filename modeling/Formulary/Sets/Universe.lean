import Formulary.Sets.Operation

/-! Complements of two sets in a universe. Elements outside the universe change no complement; they
are only reported. -/
namespace Formulary.Sets

/-- The elements of the universe that are not in a set, in the order of the universe. -/
def complement (whole s : FiniteSet) : FiniteSet :=
  whole.diff s

/-- The elements of a set that the universe lacks. -/
def outside (whole s : FiniteSet) : FiniteSet :=
  s.diff whole

/-- Two sets and the universe they are taken in. -/
structure Complements where
  whole : FiniteSet
  a : FiniteSet
  b : FiniteSet

namespace Complements

def aComplement (c : Complements) : FiniteSet := complement c.whole c.a
def bComplement (c : Complements) : FiniteSet := complement c.whole c.b
def aOutside (c : Complements) : FiniteSet := outside c.whole c.a
def bOutside (c : Complements) : FiniteSet := outside c.whole c.b

/-- Whether a set has an element that the universe lacks. -/
def leavesUniverse (c : Complements) : Bool :=
  !c.aOutside.isEmpty || !c.bOutside.isEmpty

/-- The canonical texts of the elements that the universe lacks. -/
def outsideTexts (c : Complements) : List String :=
  c.aOutside.texts ++ c.bOutside.texts

def ofTexts (whole a b : String) : Complements :=
  ⟨FiniteSet.ofText whole,FiniteSet.ofText a,FiniteSet.ofText b⟩

end Complements
end Formulary.Sets
