/-! JSON strings. Writing escapes quotes, backslashes and control characters; reading also accepts
any code unit as four hexadecimal digits and joins surrogate pairs. Reading gives back what was
written. -/
namespace Formulary.Json

def hexDigit (n : Nat) : Char :=
  Nat.digitChar (n % 16)

def hexValue? (c : Char) : Option Nat :=
  let n := c.toNat
  if 48 ≤ n ∧ n ≤ 57 then some (n - 48)
  else if 97 ≤ n ∧ n ≤ 102 then some (n - 87)
  else if 65 ≤ n ∧ n ≤ 70 then some (n - 55)
  else none

def escapeChar (c : Char) : List Char :=
  if c = '"' ∨ c = '\\' then ['\\',c]
  else if c = '\n' then ['\\','n']
  else if c = '\r' then ['\\','r']
  else if c = '\t' then ['\\','t']
  else if c = '\x08' then ['\\','b']
  else if c = '\x0c' then ['\\','f']
  else if c.toNat < 0x20 then
    ['\\','u','0','0',hexDigit (c.toNat / 16),hexDigit c.toNat]
  else [c]

/-- A text between double quotes. -/
def quote (s : List Char) : List Char :=
  '"' :: s.flatMap escapeChar ++ ['"']

/-- One character, or a code unit given by number. -/
inductive Spelled
  | char (c : Char)
  | unit (n : Nat)

/-- The character behind a backslash, the code unit aside. -/
def unescape? (c : Char) : Option Char :=
  if c = '"' ∨ c = '\\' ∨ c = '/' then some c
  else if c = 'n' then some '\n'
  else if c = 'r' then some '\r'
  else if c = 't' then some '\t'
  else if c = 'b' then some '\x08'
  else if c = 'f' then some '\x0c'
  else none

def readUnit? (a b c d : Char) : Option Nat := do
  return ((← hexValue? a) * 16 + (← hexValue? b)) * 256 + (← hexValue? c) * 16 + (← hexValue? d)

/-- Reads up to the closing quote and gives what follows it. Control characters are refused. -/
def readSpelled? : List Char → Option (List Spelled × List Char)
  | [] => none
  | '\\' :: 'u' :: a :: b :: c :: d :: rest => do
    let n ← readUnit? a b c d
    let (more,rest) ← readSpelled? rest
    return (.unit n :: more,rest)
  | '\\' :: c :: rest => do
    let c ← unescape? c
    let (more,rest) ← readSpelled? rest
    return (.char c :: more,rest)
  | c :: rest =>
    if c = '"' then some ([],rest)
    else if c = '\\' ∨ c.toNat < 0x20 then none
    else do
      let (more,rest) ← readSpelled? rest
      return (.char c :: more,rest)

def isHighSurrogate (n : Nat) : Bool :=
  0xD800 ≤ n && n < 0xDC00

def isLowSurrogate (n : Nat) : Bool :=
  0xDC00 ≤ n && n < 0xE000

/-- Joins surrogate pairs; `none` when a surrogate stands alone. -/
def joinUnits? : List Spelled → Option (List Char)
  | [] => some []
  | .char c :: rest => (joinUnits? rest).map (c :: ·)
  | .unit high :: .unit low :: rest =>
    if isHighSurrogate high then
      if isLowSurrogate low then
        (joinUnits? rest).map
          (Char.ofNat (0x10000 + (high - 0xD800) * 0x400 + (low - 0xDC00)) :: ·)
      else none
    else if isLowSurrogate high then none
    else (joinUnits? (.unit low :: rest)).map (Char.ofNat high :: ·)
  | .unit n :: rest =>
    if isHighSurrogate n || isLowSurrogate n then none
    else (joinUnits? rest).map (Char.ofNat n :: ·)

end Formulary.Json
