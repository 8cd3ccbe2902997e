/-! Single-quoted literals: a quote inside the text is written twice. Reading a literal stops at the
first quote that no second one follows, so a literal can be read back from the front of any text
that does not begin with a quote. -/
namespace Formulary
namespace Text

/-- Writes each single quote twice. -/
def doubleQuotes : List Char → List Char
  | [] => []
  | c :: rest => if c = '\'' then '\'' :: '\'' :: doubleQuotes rest else c :: doubleQuotes rest

def literal (s : List Char) : List Char :=
  '\'' :: doubleQuotes s ++ ['\'']

/-- Reads the inside of a literal and the quote that ends it, giving what follows too. -/
def readInside? : List Char → Option (List Char × List Char)
  | [] => none
  | '\'' :: '\'' :: rest => (readInside? rest).map fun r => ('\'' :: r.1,r.2)
  | c :: rest =>
    if c = '\'' then some ([],rest) else (readInside? rest).map fun r => (c :: r.1,r.2)

/-- Reads one literal from the front of a text. -/
def readLiteral? : List Char → Option (List Char × List Char)
  | '\'' :: rest => readInside? rest
  | _ => none

end Text

/-- A text with its single quotes doubled. -/
def quotesDoubled (s : String) : String :=
  String.ofList (Text.doubleQuotes s.toList)

/-- A text as a single-quoted literal. -/
def quoted (s : String) : String :=
  String.ofList (Text.literal s.toList)

end Formulary
