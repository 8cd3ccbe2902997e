import Formulary.Json.Value
import Formulary.Json.Quoted
import Formulary.Decimal.Layout

/-! Writing JSON values, on one line or indented by two spaces a level. Fields are written in the
order they have; an empty array or object stays on its line. -/
namespace Formulary.Json

/-- The text of a finite number, or `null`. -/
def floatText (v : Float) : List Char :=
  if v.isFinite then Decimal.Layout.data.chars v else ['n','u','l','l']

def Number.text : Number → List Char
  | .natural n => Decimal.digitsOf n
  | .negative n => '-' :: Decimal.digitsOf n
  | .float v => floatText v

/-- Where a text is broken into lines: nowhere, or before each item at its level. -/
inductive Form
  | compact
  | pretty
  deriving DecidableEq

def Form.break : Form → Nat → List Char
  | .compact,_ => []
  | .pretty,level => '\n' :: List.replicate (2 * level) ' '

def Form.colon : Form → List Char
  | .compact => [':']
  | .pretty => [':',' ']

mutual

/-- The text of a value that starts at a level of nesting. -/
def Value.chars (form : Form) : Value → Nat → List Char
  | .null,_ => ['n','u','l','l']
  | .bool true,_ => ['t','r','u','e']
  | .bool false,_ => ['f','a','l','s','e']
  | .number n,_ => n.text
  | .string s,_ => quote s.toList
  | .array [],_ => ['[',']']
  | .array (v :: rest),level =>
    '[' :: form.break (level + 1) ++ (v.chars form (level + 1) ++
      moreItems form rest level)
  | .object [],_ => ['\x7b','\x7d']
  | .object ((k,v) :: rest),level =>
    '\x7b' :: form.break (level + 1) ++ (quote k.toList ++ form.colon ++
      (v.chars form (level + 1) ++ moreFields form rest level))

/-- The items behind the first, each after a comma, and the closing bracket. -/
def moreItems (form : Form) : List Value → Nat → List Char
  | [],level => form.break level ++ [']']
  | v :: rest,level =>
    ',' :: form.break (level + 1) ++ (v.chars form (level + 1) ++ moreItems form rest level)

/-- The fields behind the first, each after a comma, and the closing brace. -/
def moreFields (form : Form) : List (String × Value) → Nat → List Char
  | [],level => form.break level ++ ['\x7d']
  | (k,v) :: rest,level =>
    ',' :: form.break (level + 1) ++ (quote k.toList ++ form.colon ++
      (v.chars form (level + 1) ++ moreFields form rest level))

end

def Value.text (form : Form) (v : Value) : String :=
  String.ofList (v.chars form 0)

end Formulary.Json
