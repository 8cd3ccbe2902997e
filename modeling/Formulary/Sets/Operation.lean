import Formulary.Sets.FiniteSet

/-! The algebra of two finite sets: the regions of their diagram and five operations on them. Every
result keeps the order of the first set, then that of the second. -/
namespace Formulary.Sets

/-- The elements of a set that are in another one, or those that are not, collected anew. -/
def FiniteSet.filterBy (s t : FiniteSet) (keepMembers : Bool) : FiniteSet :=
  ofList (s.elements.filter fun e => t.contains e == keepMembers)

def FiniteSet.inter (s t : FiniteSet) : FiniteSet :=
  s.filterBy t true

def FiniteSet.diff (s t : FiniteSet) : FiniteSet :=
  s.filterBy t false

/-- The parts of the diagram of two sets. -/
structure Regions where
  leftOnly : FiniteSet
  both : FiniteSet
  rightOnly : FiniteSet

def Regions.of (a b : FiniteSet) : Regions :=
  ⟨a.diff b,a.inter b,b.diff a⟩

inductive Operation
  | union
  | intersection
  | differenceAB
  | differenceBA
  | symmetricDifference
  deriving DecidableEq

namespace Operation

def all : List Operation := [union,intersection,differenceAB,differenceBA,symmetricDifference]

/-- The word that selects an operation. -/
def selector : Operation → String
  | union => "union"
  | intersection => "intersect"
  | differenceAB => "setdiffAB"
  | differenceBA => "setdiffBA"
  | symmetricDifference => "setxor"

def ofSelector? (word : String) : Option Operation :=
  all.find? (·.selector == word)

/-- The selected operation; a word that selects none means the union. -/
def ofSelector (word : String) : Operation :=
  (ofSelector? word).getD union

def label : Operation → String
  | union => "A ∪ B"
  | intersection => "A ∩ B"
  | differenceAB => "A \\ B"
  | differenceBA => "B \\ A"
  | symmetricDifference => "A △ B"

def apply (o : Operation) (a b : FiniteSet) : FiniteSet :=
  let r := Regions.of a b
  match o with
  | union => FiniteSet.ofList (a.elements ++ r.rightOnly.elements)
  | intersection => r.both
  | differenceAB => r.leftOnly
  | differenceBA => r.rightOnly
  | symmetricDifference => FiniteSet.ofList (r.leftOnly.elements ++ r.rightOnly.elements)

end Operation

/-- Two sets, an operation on them, and what it gives. -/
structure OperationResult where
  a : FiniteSet
  b : FiniteSet
  operation : Operation
  regions : Regions
  result : FiniteSet

/-- Carries out an operation on the sets of two texts. -/
def OperationResult.ofTexts (a b : String) (operation : Operation) : OperationResult :=
  let a := FiniteSet.ofText a
  let b := FiniteSet.ofText b
  ⟨a,b,operation,Regions.of a b,operation.apply a b⟩

end Formulary.Sets
