import Formulary.Calculus.Error
import Formulary.Decimal.Reader
import Formulary.Text.Blank

/-! Reading the tokens of a function. The whole text is screened for characters outside the language
before it is cut into lexemes. A point directly before `*`, `/` or `^` belongs to the operator, any
other point to a number. -/
namespace Formulary.Calculus

def isWordStart (c : Char) : Bool :=
  c.isAlpha || c == '_'

def isWordPart (c : Char) : Bool :=
  c.isAlphanum || c == '_'

/-- The characters a text may hold. -/
def isAllowed (c : Char) : Bool :=
  isWordPart c || c == '+' || c == '-' || c == '*' || c == '/' || c == '^' || c == '(' ||
    c == ')' || c == '.' || c == ',' || Text.isBlank c

/-- The first character outside the language. -/
def screen (s : List Char) : Except SyntaxError Unit :=
  match s.dropWhile isAllowed with
  | [] => .ok ()
  | c :: rest => .error (.unsafeCharacter c (s.length - rest.length))

/-- Whether a text goes on with the operator part of a dotted operator. -/
def beginsDotted (s : List Char) : Bool :=
  match s with
  | [] => false
  | c :: _ => (Operator.ofDotted? c).isSome

/-- The point and the places of a number at the front of a text, and what follows. -/
def cutPlaces : List Char → List Char × List Char
  | '.' :: rest =>
    if beginsDotted rest then ([],'.' :: rest)
    else ('.' :: rest.takeWhile Char.isDigit,rest.dropWhile Char.isDigit)
  | s => ([],s)

/-- The sign of an exponent, if there is one, and what follows. -/
def cutSign : List Char → List Char × List Char
  | '+' :: rest => (['+'],rest)
  | '-' :: rest => (['-'],rest)
  | s => ([],s)

/-- The exponent of a number at the front of a text, which needs a digit, and what follows. -/
def cutExponent : List Char → List Char × List Char
  | [] => ([],[])
  | c :: rest =>
    let (sign,digits) := cutSign rest
    if (c == 'e' || c == 'E') && !(digits.takeWhile Char.isDigit).isEmpty
    then (c :: (sign ++ digits.takeWhile Char.isDigit),digits.dropWhile Char.isDigit)
    else ([],c :: rest)

/-- The lexeme of a number and what follows. -/
def cutNumber (s : List Char) : List Char × List Char :=
  let (places,rest) := cutPlaces (s.dropWhile Char.isDigit)
  let (exponent,rest) := cutExponent rest
  (s.takeWhile Char.isDigit ++ places ++ exponent,rest)

/-- The first lexeme of a text that begins with no blank, and what follows. -/
def cut : List Char → List Char × List Char
  | [] => ([],[])
  | c :: rest =>
    if c == '.' && beginsDotted rest then (c :: rest.take 1,rest.drop 1)
    else if c.isDigit || c == '.' then cutNumber (c :: rest)
    else if isWordStart c then (c :: rest.takeWhile isWordPart,rest.dropWhile isWordPart)
    else ([c],rest)

theorem cutPlaces_append (s : List Char) : (cutPlaces s).1 ++ (cutPlaces s).2 = s := by
  unfold cutPlaces
  split
  · split <;> simp [List.takeWhile_append_dropWhile]
  · simp

theorem cutSign_append (s : List Char) : (cutSign s).1 ++ (cutSign s).2 = s := by
  unfold cutSign
  split <;> simp

theorem cutExponent_append (s : List Char) : (cutExponent s).1 ++ (cutExponent s).2 = s := by
  unfold cutExponent
  split
  · simp
  · rename_i c rest
    dsimp only
    split
    · conv => rhs; rw [← cutSign_append rest]
      simp [List.takeWhile_append_dropWhile]
    · simp

theorem cutNumber_append (s : List Char) : (cutNumber s).1 ++ (cutNumber s).2 = s := by
  simp only [cutNumber,List.append_assoc,cutExponent_append,cutPlaces_append,
    List.takeWhile_append_dropWhile]

/-- Cutting loses nothing. -/
theorem cut_append (s : List Char) : (cut s).1 ++ (cut s).2 = s := by
  unfold cut
  split
  · simp
  · split
    · exact congrArg _ (List.take_append_drop 1 _)
    split
    · exact cutNumber_append _
    split
    · simp [List.takeWhile_append_dropWhile]
    · simp

theorem cutNumber_fst_ne_nil {c : Char} {rest : List Char} (h : c.isDigit = true ∨ c = '.')
    (hd : ¬(c = '.' ∧ beginsDotted rest = true)) : (cutNumber (c :: rest)).1 ≠ [] := by
  by_cases hc : c.isDigit = true
  · simp [cutNumber,hc]
  · obtain rfl : c = '.' := by simpa [hc] using h
    have hr : beginsDotted rest = false := by simpa using hd
    simp [cutNumber,cutPlaces,hr,hc]

theorem cut_fst_ne_nil (c : Char) (rest : List Char) : (cut (c :: rest)).1 ≠ [] := by
  simp only [cut]
  split
  · simp
  rename_i hd
  split
  · rename_i hc
    exact cutNumber_fst_ne_nil (by simpa using hc) (by simpa using hd)
  · split <;> simp

theorem length_cut_lt (c : Char) (rest : List Char) :
    (cut (c :: rest)).2.length < (c :: rest).length := by
  have h := congrArg List.length (cut_append (c :: rest))
  have hne := List.length_pos_iff.mpr (cut_fst_ne_nil c rest)
  simp only [List.length_append] at h
  omega

/-- The token of a name. -/
def readWord (position : Nat) (word : List Char) : Except SyntaxError Token :=
  if word = ['x'] then .ok .x
  else if word.map Char.toLower = ['p','i'] then .ok .pi
  else match Routine.ofName? (String.ofList word) with
    | some r => .ok (.routine r)
    | none => .error (.unknownIdentifier (String.ofList word) position)

/-- The token that a lexeme spells. -/
def readLexeme (position : Nat) : List Char → Except SyntaxError Token
  | ['+'] => .ok (.operator .add)
  | ['-'] => .ok (.operator .subtract)
  | ['*'] => .ok (.operator .multiply)
  | ['/'] => .ok (.operator .divide)
  | ['^'] => .ok (.operator .power)
  | ['.','*'] => .ok (.operator .multiply)
  | ['.','/'] => .ok (.operator .divide)
  | ['.','^'] => .ok (.operator .power)
  | ['('] => .ok .opening
  | [')'] => .ok .closing
  | [','] => .ok .comma
  | [] => .error (.invalidSymbol position)
  | c :: rest =>
    if isWordStart c then readWord position (c :: rest)
    else match Decimal.readChars? (c :: rest) with
      | some v => .ok (.number v)
      | none => .error (.invalidSymbol position)

theorem length_dropWhile_le (p : Char → Bool) (s : List Char) :
    (s.dropWhile p).length ≤ s.length := by
  have h := congrArg List.length (List.takeWhile_append_dropWhile (p := p) (l := s))
  simp only [List.length_append] at h
  omega

/-- The tokens up to the end of a screened text or the first fault, after `before` characters. -/
def scan (before : Nat) (s : List Char) : List Placed × Option SyntaxError :=
  match h : s.dropWhile Text.isBlank with
  | [] => ([],none)
  | c :: rest =>
    let position := before + (s.length - (c :: rest).length) + 1
    let lexeme := cut (c :: rest)
    match readLexeme position lexeme.1 with
    | .error e => ([],some e)
    | .ok t =>
      have : lexeme.2.length < s.length := by
        have h1 := length_cut_lt c rest
        have h2 := length_dropWhile_le Text.isBlank s
        rw [h] at h2
        exact Nat.lt_of_lt_of_le h1 h2
      let r := scan (position - 1 + lexeme.1.length) lexeme.2
      (⟨t,position⟩ :: r.1,r.2)
termination_by s.length

/-- The tokens of a text that are read before a fault, and the fault if there is one; a character
outside the language is a fault of the whole text. -/
def scanText (text : String) : Except SyntaxError (List Placed × Option SyntaxError) := do
  screen text.toList
  return scan 0 text.toList

def tokens (text : String) : Except SyntaxError (List Placed) := do
  match ← scanText text with
  | (ts,none) => .ok ts
  | (_,some e) => .error e

end Formulary.Calculus
