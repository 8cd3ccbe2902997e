import Formulary.Json.Numeral
import Formulary.Json.Quoted

/-! Reading JSON texts. A text is first read into a tree whose leaves may denote nothing: a number
beyond the greatest, or a string with half a surrogate pair. Only the parts that are used are turned
into values, and those must not nest too deep. -/
namespace Formulary.Json

/-- The tree of a JSON text; a leaf without a value is `none`. -/
inductive Source
  | null
  | bool (b : Bool)
  | number (n : Option Number)
  | string (s : Option String)
  | array (items : List Source)
  | object (fields : List (Option String × Source))
  deriving Inhabited

def isSpace (c : Char) : Bool :=
  c == ' ' || c == '\n' || c == '\t' || c == '\r'

def skipSpace (s : List Char) : List Char :=
  s.dropWhile isSpace

/-- Drops an expected text from the front of another. -/
def drop? : List Char → List Char → Option (List Char)
  | [],s => some s
  | _ :: _,[] => none
  | c :: expected,d :: s => if c = d then drop? expected s else none

/-- Reads a string whose opening quote has been read. -/
def readString? (s : List Char) : Option (Option String × List Char) :=
  (readSpelled? s).map fun r => ((joinUnits? r.1).map String.ofList,r.2)

def readNumber? (negative : Bool) (s : List Char) : Option (Source × List Char) :=
  (readNumeral? negative s).map fun r => (.number r.1.value?,r.2)

mutual

/-- Reads one value at the front of a text. Each level of `fuel` allows for one more character. -/
def readValue? : Nat → List Char → Option (Source × List Char)
  | 0,_ => none
  | fuel + 1,s =>
    match skipSpace s with
    | [] => none
    | '"' :: rest => (readString? rest).map fun r => (.string r.1,r.2)
    | '[' :: rest => readItems? fuel rest
    | '\x7b' :: rest => readFields? fuel rest
    | '-' :: rest => readNumber? true rest
    | 'n' :: rest => (drop? ['u','l','l'] rest).map fun r => (.null,r)
    | 't' :: rest => (drop? ['r','u','e'] rest).map fun r => (.bool true,r)
    | 'f' :: rest => (drop? ['a','l','s','e'] rest).map fun r => (.bool false,r)
    | c :: rest => readNumber? false (c :: rest)

/-- Reads the rest of an array whose opening bracket has been read. -/
def readItems? : Nat → List Char → Option (Source × List Char)
  | 0,_ => none
  | fuel + 1,s =>
    match skipSpace s with
    | ']' :: rest => some (.array [],rest)
    | _ => (readMoreItems? fuel s).map fun r => (.array r.1,r.2)

/-- Reads a value and whatever values follow it behind commas, up to the closing bracket. -/
def readMoreItems? : Nat → List Char → Option (List Source × List Char)
  | 0,_ => none
  | fuel + 1,s => do
    let (item,rest) ← readValue? fuel s
    match skipSpace rest with
    | ',' :: rest => (readMoreItems? fuel rest).map fun r => (item :: r.1,r.2)
    | ']' :: rest => some ([item],rest)
    | _ => none

/-- Reads the rest of an object whose opening brace has been read. -/
def readFields? : Nat → List Char → Option (Source × List Char)
  | 0,_ => none
  | fuel + 1,s =>
    match skipSpace s with
    | '\x7d' :: rest => some (.object [],rest)
    | _ => (readMoreFields? fuel s).map fun r => (.object r.1,r.2)

/-- Reads a field and whatever fields follow it behind commas, up to the closing brace. -/
def readMoreFields? : Nat → List Char → Option (List (Option String × Source) × List Char)
  | 0,_ => none
  | fuel + 1,s =>
    match skipSpace s with
    | '"' :: rest => do
      let (name,rest) ← readString? rest
      match skipSpace rest with
      | ':' :: rest => do
        let (value,rest) ← readValue? fuel rest
        match skipSpace rest with
        | ',' :: rest => (readMoreFields? fuel rest).map fun r => ((name,value) :: r.1,r.2)
        | '\x7d' :: rest => some ([(name,value)],rest)
        | _ => none
      | _ => none
    | _ => none

end

/-- Reads a whole text as one value with nothing but space around it. -/
def Source.read? (text : String) : Option Source := do
  let s := text.toList
  let (source,rest) ← readValue? (2 * s.length + 1) s
  if (skipSpace rest).isEmpty then some source else none

/-- How many arrays and objects may stand inside one another. -/
def deepest : Nat := 127

mutual

/-- The value of a tree whose leaves all have one, with at most `room` levels of nesting. -/
def Source.value? : Source → Nat → Option Value
  | .null,_ => some .null
  | .bool b,_ => some (.bool b)
  | .number n,_ => n.map .number
  | .string s,_ => s.map .string
  | .array items,room =>
    if room = 0 then none else (itemValues? items (room - 1)).map .array
  | .object fields,room =>
    if room = 0 then none else (fieldValues? fields (room - 1)).map .object

def itemValues? : List Source → Nat → Option (List Value)
  | [],_ => some []
  | item :: rest,room => do
    return (← item.value? room) :: (← itemValues? rest room)

def fieldValues? : List (Option String × Source) → Nat → Option (List (String × Value))
  | [],_ => some []
  | (name,value) :: rest,room => do
    return (← name,← value.value? room) :: (← fieldValues? rest room)

end

/-- Reads a whole text, all of whose parts are used. -/
def Value.read? (text : String) : Option Value := do
  (← Source.read? text).value? deepest

end Formulary.Json
