import Formulary.Sets.Element
import Formulary.Text.Blank
import Formulary.Text.Pieces

/-! Finite sets that keep their elements in the order of first appearance. No two elements of a set
have the same canonical text, and membership is by that text. -/
namespace Formulary.Sets

structure FiniteSet where
  elements : List Element
  distinct : (elements.map Element.canonical).Nodup

namespace FiniteSet

def empty : FiniteSet :=
  ⟨[],List.nodup_nil⟩

/-- The canonical texts of the elements, in order. -/
def texts (s : FiniteSet) : List String :=
  s.elements.map Element.canonical

def contains (s : FiniteSet) (e : Element) : Bool :=
  s.elements.any fun d => d.canonical == e.canonical

theorem contains_iff {s : FiniteSet} {e : Element} :
    s.contains e = true ↔ e.canonical ∈ s.texts := by
  simp [contains,texts]

/-- Puts an element behind the others unless the set contains it. -/
def insert (s : FiniteSet) (e : Element) : FiniteSet :=
  if h : s.contains e = true then s
  else ⟨s.elements ++ [e],by
    rw [List.map_append,List.nodup_append]
    refine ⟨s.distinct,by simp,?_⟩
    intro t ht u hu
    rw [List.map_singleton,List.mem_singleton] at hu
    subst hu
    rintro rfl
    exact h (contains_iff.mpr ht)⟩

/-- Puts an element in and tells whether its text was new to the set. -/
def put (s : FiniteSet) (e : Element) : Bool × FiniteSet :=
  if s.contains e then (false,s) else (true,s.insert e)

/-- The elements of a list, each at its first appearance. -/
def ofList (elements : List Element) : FiniteSet :=
  elements.foldl insert empty

def size (s : FiniteSet) : Nat :=
  s.elements.length

def isEmpty (s : FiniteSet) : Bool :=
  s.elements.isEmpty

/-- Whether no element is a symbol. -/
def isAllNumeric (s : FiniteSet) : Bool :=
  s.elements.all Element.isNumeric

/-- The set of the pieces of a text between commas, without the blanks around them; a piece of
blanks is none. -/
def ofText (raw : String) : FiniteSet :=
  ofList (((Text.pieces ',' raw.toList).map Text.trim).filterMap fun piece =>
    if piece.isEmpty then none else some (Element.ofToken (String.ofList piece)))

/-- The elements that pass a test, in order. -/
def filter (s : FiniteSet) (keep : Element → Bool) : FiniteSet :=
  ⟨s.elements.filter keep,s.distinct.sublist (List.filter_sublist.map _)⟩

/-- The set in braces, or the sign of the empty set. -/
def text (s : FiniteSet) : String :=
  if s.isEmpty then "∅" else "\x7b " ++ ", ".intercalate s.texts ++ " \x7d"

end FiniteSet
end Formulary.Sets
