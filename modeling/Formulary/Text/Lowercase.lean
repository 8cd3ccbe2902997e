import Formulary.Text.Runs
import Formulary.Text.CaseTable

/-! Lower-casing of a whole text. Every character is mapped on its own except two: a capital sigma
depends on whether it ends a word, and a dotted capital I becomes two characters. -/
namespace Formulary
namespace Text

def isCased (c : Char) : Bool :=
  inRuns casedBounds c.toNat

def isCaseIgnorable (c : Char) : Bool :=
  inRuns caseIgnorableBounds c.toNat

/-- The mapping of one run, for a point that is in it. -/
def CaseRun.map? (run : CaseRun) (n : Nat) : Option Char :=
  if run.first ≤ n ∧ n ≤ run.last ∧ (n - run.first) % run.step = 0
  then some (Char.ofNat (n + run.offset).toNat) else none

/-- The lower-case form of a character that has one of a single character, else itself. -/
def lowerChar (c : Char) : Char :=
  if c.toNat < 0x80 then c.toLower
  else (lowerRuns.findSome? (·.map? c.toNat)).getD c

/-- Whether the first character that is not case-ignorable is cased. -/
def meetsCased (s : List Char) : Bool :=
  match s.dropWhile isCaseIgnorable with
  | [] => false
  | c :: _ => isCased c

/-- Lower-cases the rest of a text; `before` holds the characters already read, the last one first.
-/
def lowerAfter (before : List Char) : List Char → List Char
  | [] => []
  | c :: rest =>
    let here :=
      if c = 'Σ' then [if meetsCased before && !meetsCased rest then 'ς' else 'σ']
      else if c = 'İ' then ['i','\u0307']
      else [lowerChar c]
    here ++ lowerAfter (c :: before) rest

def lowerChars (s : List Char) : List Char :=
  lowerAfter [] s

end Text

def lowercase (s : String) : String :=
  String.ofList (Text.lowerChars s.toList)

end Formulary
