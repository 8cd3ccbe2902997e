/-! Blank characters are those with the Unicode property White_Space. Stripping removes every blank,
trimming removes the blanks at both ends; no other character is touched. -/
namespace Formulary
namespace Text

/-- The twenty-five code points of White_Space. -/
def isBlank (c : Char) : Bool :=
  let n := c.toNat
  (9 ≤ n && n ≤ 13) || n == 0x20 || n == 0x85 || n == 0xA0 || n == 0x1680 ||
    (0x2000 ≤ n && n ≤ 0x200A) || n == 0x2028 || n == 0x2029 || n == 0x202F || n == 0x205F ||
    n == 0x3000

/-- All characters that are not blank, in order. -/
def strip (s : List Char) : List Char :=
  s.filter fun c => !isBlank c

def trimLeft (s : List Char) : List Char :=
  s.dropWhile isBlank

/-- The text between the first and the last character that is not blank. -/
def trim (s : List Char) : List Char :=
  (trimLeft (trimLeft s).reverse).reverse

theorem strip_eq_self {s : List Char} (h : ∀ c ∈ s, isBlank c = false) : strip s = s := by
  simpa [strip,List.filter_eq_self] using h

end Text

/-- A text without the blanks at its two ends. -/
def trimmed (s : String) : String :=
  String.ofList (Text.trim s.toList)

/-- A text that holds nothing but blanks. -/
def isBlankText (s : String) : Bool :=
  s.toList.all Text.isBlank

end Formulary
