import Formulary.Text.Runs
import Formulary.Text.Unprinted

/-! Texts as they are quoted in the journal: between double quotes, with backslash escapes for
quotes, backslashes and whatever is not printed. The quoted form of any text stands on one line. -/
namespace Formulary
namespace Text

/-- A code point in braces. -/
def codePoint (c : Char) : List Char :=
  '\\' :: 'u' :: '\x7b' :: Nat.toDigits 16 c.toNat ++ ['\x7d']

def escapeChar (c : Char) : List Char :=
  if c = '"' ∨ c = '\\' then ['\\',c]
  else if c = '\n' then ['\\','n']
  else if c = '\r' then ['\\','r']
  else if c = '\t' then ['\\','t']
  else if c = '\x00' then ['\\','0']
  else if inRuns unprintedBounds c.toNat then codePoint c
  else [c]

def escape (s : List Char) : List Char :=
  s.flatMap escapeChar

end Text

/-- A text in double quotes, on one line. -/
def escaped (s : String) : String :=
  String.ofList ('"' :: Text.escape s.toList ++ ['"'])

end Formulary
