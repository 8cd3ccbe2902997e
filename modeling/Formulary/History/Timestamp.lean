import Formulary.Text.Blank
import Formulary.Decimal.Layout
import Formulary.Decimal.Reader

/-! Moments in universal time, to the nanosecond. Reading accepts any offset and blanks around the
parts; writing gives one form, with as many groups of three decimals as are needed. -/
namespace Formulary.History

def isLeap (year : Int) : Bool :=
  year % 4 == 0 && (year % 100 != 0 || year % 400 == 0)

def daysIn (year : Int) (month : Nat) : Nat :=
  if month = 2 then (if isLeap year then 29 else 28)
  else if month = 4 ∨ month = 6 ∨ month = 9 ∨ month = 11 then 30 else 31

/-- A day of the Gregorian calendar, which is extended to all years. -/
structure Date where
  year : Int
  month : Nat
  day : Nat
  deriving DecidableEq

namespace Date

/-- The first and the last year that can be stored. -/
def yearBounds : Int × Int := (-262143,262142)

def isValid (d : Date) : Bool :=
  yearBounds.1 ≤ d.year && d.year ≤ yearBounds.2 && 1 ≤ d.month && d.month ≤ 12 &&
    1 ≤ d.day && d.day ≤ daysIn d.year d.month

def next (d : Date) : Date :=
  if d.day < daysIn d.year d.month then ⟨d.year,d.month,d.day + 1⟩
  else if d.month < 12 then ⟨d.year,d.month + 1,1⟩
  else ⟨d.year + 1,1,1⟩

def previous (d : Date) : Date :=
  if 1 < d.day then ⟨d.year,d.month,d.day - 1⟩
  else if 1 < d.month then ⟨d.year,d.month - 1,daysIn d.year (d.month - 1)⟩
  else ⟨d.year - 1,12,31⟩

/-- The day that comes so many days later. -/
def later : Nat → Date → Date
  | 0,d => d
  | days + 1,d => later days d.next

end Date

/-- The seconds of a day, and the nanoseconds of a second. -/
def daySeconds : Nat := 86400
def secondNanos : Nat := 1000000000

/-- A leap second is the last one of a minute that goes on for a second billion of nanoseconds. -/
def isMoment (date : Date) (second nano : Nat) : Bool :=
  date.isValid && second < daySeconds &&
    (nano < secondNanos || (nano < 2 * secondNanos && second % 60 == 59))

structure Timestamp where
  date : Date
  /-- Seconds since the day began. -/
  second : Nat
  nano : Nat
  isMoment : isMoment date second nano = true
  deriving DecidableEq

namespace Timestamp

def ofParts? (date : Date) (second nano : Nat) : Option Timestamp :=
  if h : History.isMoment date second nano = true then some ⟨date,second,nano,h⟩ else none

/-- The moment at which a clock that is ahead by `offset` seconds shows a local time. -/
def ofLocal? (date : Date) (second nano : Nat) (offset : Int) : Option Timestamp :=
  if History.isMoment date second nano then
    let shifted : Int := second - offset
    if shifted < 0 then ofParts? date.previous (shifted + daySeconds).toNat nano
    else if daySeconds ≤ shifted then ofParts? date.next (shifted - daySeconds).toNat nano
    else ofParts? date shifted.toNat nano
  else none

/-- The moment so many seconds and nanoseconds after the beginning of 1970. -/
def ofUnix? (second nano : Nat) : Option Timestamp :=
  ofParts? (Date.later (second / daySeconds) ⟨1970,1,1⟩) (second % daySeconds) nano

/-! Writing -/

/-- Digits with zeros in front of them. -/
def padded (width n : Nat) : List Char :=
  let digits := Decimal.digitsOf n
  List.replicate (width - digits.length) '0' ++ digits

/-- Years of more than four digits, and those before year zero, have a sign. -/
def yearText (year : Int) : List Char :=
  let sign := if year < 0 then ['-'] else if year ≤ 9999 then [] else ['+']
  sign ++ padded 4 year.natAbs

def fractionText (nano : Nat) : List Char :=
  if nano = 0 then []
  else if nano % 1000000 = 0 then '.' :: padded 3 (nano / 1000000)
  else if nano % 1000 = 0 then '.' :: padded 6 (nano / 1000)
  else '.' :: padded 9 nano

/-- The moment up to its zone. -/
def chars (t : Timestamp) : List Char :=
  let leap := if secondNanos ≤ t.nano then 1 else 0
  yearText t.date.year ++ '-' :: padded 2 t.date.month ++ '-' :: padded 2 t.date.day ++
    'T' :: padded 2 (t.second / 3600) ++ ':' :: padded 2 (t.second / 60 % 60) ++
    ':' :: padded 2 (t.second % 60 + leap) ++ fractionText (t.nano % secondNanos)

/-- The text with the zone as an offset. -/
def offsetText (t : Timestamp) : String :=
  String.ofList (t.chars ++ ['+','0','0',':','0','0'])

/-- The text with the zone as a letter. -/
def zuluText (t : Timestamp) : String :=
  String.ofList (t.chars ++ ['Z'])

/-! Reading -/

/-- At least one digit and at most so many. -/
def readDigits? (most : Nat) (s : List Char) : Option (Nat × List Char) :=
  let digits := (s.takeWhile Char.isDigit).take most
  if digits.isEmpty then none else some (Decimal.digitsValue digits,s.drop digits.length)

/-- A year; only one with a sign may have more than four digits. -/
def readYear? (s : List Char) : Option (Int × List Char) :=
  match Text.trimLeft s with
  | '-' :: rest => (readDigits? rest.length rest).map fun r => (-(r.1 : Int),r.2)
  | '+' :: rest => (readDigits? rest.length rest).map fun r => ((r.1 : Int),r.2)
  | s => (readDigits? 4 s).map fun r => ((r.1 : Int),r.2)

def readPart? (s : List Char) : Option (Nat × List Char) :=
  readDigits? 2 (Text.trimLeft s)

/-- Drops one expected character, and blanks before it. -/
def dropMark? (mark : Char) (s : List Char) : Option (List Char) :=
  match Text.trimLeft s with
  | c :: rest => if c = mark then some rest else none
  | [] => none

/-- Two parts with a mark between them. -/
def readMarked? (mark : Char) (s : List Char) : Option (Nat × Nat × List Char) := do
  let (x,s) ← readPart? s
  let (y,s) ← readPart? (← dropMark? mark s)
  return (x,y,s)

/-- Decimals of a second; those beyond the ninth are passed over. -/
def readNanos? : List Char → Option (Nat × List Char)
  | '.' :: rest =>
    let digits := rest.takeWhile Char.isDigit
    let kept := digits.take 9
    if digits.isEmpty then none
    else some (Decimal.digitsValue kept * Nat.pow 10 (9 - kept.length),rest.drop digits.length)
  | s => some (0,s)

def twoDigits? : List Char → Option (Nat × List Char)
  | c :: d :: rest =>
    if c.isDigit && d.isDigit then some (Decimal.digitsValue [c,d],rest) else none
  | _ => none

/-- The hours and minutes of an offset, with colons or blanks between them or nothing. -/
def readOffset? (s : List Char) : Option (Nat × List Char) := do
  let (hours,s) ← twoDigits? s
  let (minutes,s) ← twoDigits? (s.dropWhile fun c => c == ':' || Text.isBlank c)
  let seconds := hours * 3600 + minutes * 60
  if minutes < 60 ∧ seconds < daySeconds then some (seconds,s) else none

/-- A zone: the letter, the name, or an offset, which may have a typographical minus sign. -/
def readZone? (s : List Char) : Option (Int × List Char) :=
  let s := Text.trimLeft s
  if (s.take 3).map Char.toUpper = ['U','T','C'] then some (0,s.drop 3)
  else match s with
    | 'Z' :: rest => some (0,rest)
    | 'z' :: rest => some (0,rest)
    | '+' :: rest => (readOffset? rest).map fun r => ((r.1 : Int),r.2)
    | '-' :: rest => (readOffset? rest).map fun r => (-(r.1 : Int),r.2)
    | '\u2212' :: rest => (readOffset? rest).map fun r => (-(r.1 : Int),r.2)
    | _ => none

def dropSeparator? : List Char → Option (List Char)
  | c :: rest => if c = 'T' ∨ c = 't' ∨ c = ' ' then some rest else none
  | [] => none

/-- The whole text of a moment. -/
def readChars? (s : List Char) : Option Timestamp := do
  let (year,s) ← readYear? s
  let (month,day,s) ← readMarked? '-' (← dropMark? '-' s)
  let (hour,minute,s) ← readMarked? ':' (← dropSeparator? s)
  let (second,s) ← readPart? (← dropMark? ':' s)
  let (nano,s) ← readNanos? s
  let (offset,s) ← readZone? s
  if hour < 24 ∧ minute < 60 ∧ second ≤ 60 ∧ s.all Text.isBlank then
    let leap := if second = 60 then secondNanos else 0
    ofLocal? ⟨year,month,day⟩ (hour * 3600 + minute * 60 + min second 59) (nano + leap) offset
  else none

def read? (s : String) : Option Timestamp :=
  readChars? s.toList

end Timestamp
end Formulary.History
