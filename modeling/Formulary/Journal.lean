/-! The journal: one record a line, numbered from one. What the parts of the program note in detail
is kept only up to a level; what a session itself notes is always kept. -/
namespace Formulary
namespace Journal

inductive Level
  | error
  | warn
  | info
  | debug
  | trace
  deriving DecidableEq

namespace Level

def all : List Level := [error,warn,info,debug,trace]

def letter : Level → String
  | error => "E"
  | warn => "W"
  | info => "I"
  | debug => "D"
  | trace => "T"

def name : Level → String
  | error => "ERROR"
  | warn => "WARN"
  | info => "INFO"
  | debug => "DEBUG"
  | trace => "TRACE"

/-- More detail has a greater rank. -/
def rank : Level → Nat
  | error => 1
  | warn => 2
  | info => 3
  | debug => 4
  | trace => 5

end Level

/-- The most detailed level that is kept, or nothing at all. -/
inductive Threshold
  | off
  | upTo (l : Level)
  deriving DecidableEq

namespace Threshold

def name : Threshold → String
  | off => "OFF"
  | upTo l => l.name

def all : List Threshold := off :: Level.all.map upTo

/-- The threshold of a name in any case; a text that is none means the middle level. -/
def ofText (text : String) : Threshold :=
  (all.find? (·.name == text.toUpper)).getD (upTo .info)

def admits : Threshold → Level → Bool
  | off,_ => false
  | upTo most,l => l.rank ≤ most.rank

end Threshold

/-- What happened, told by one part of the program. -/
structure Note where
  level : Level
  category : String
  message : String
  /-- Whether it is kept only up to the threshold. -/
  isDetail : Bool
  deriving DecidableEq

namespace Note

/-- A note of a session. -/
def told (level : Level) (category message : String) : Note :=
  ⟨level,category,message,false⟩

/-- A note of one of the parts that a session works with. -/
def detail (level : Level) (category message : String) : Note :=
  ⟨level,category,message,true⟩

/-- The record of a note. -/
def line (n : Note) (number : Nat) : String :=
  toString number ++ "|" ++ n.level.letter ++ "|" ++ n.category ++ "|" ++ n.message

end Note
end Journal

structure Journal where
  threshold : Journal.Threshold
  /-- The number of the last record. -/
  last : Nat

namespace Journal

/-- The journal of a program that has noted nothing. -/
def start : Journal :=
  ⟨.off,0⟩

def admits (j : Journal) (n : Note) : Bool :=
  !n.isDetail || j.threshold.admits n.level

/-- The record of a note, if it is kept, and the journal after it. -/
def keep (j : Journal) (n : Note) : Option String × Journal :=
  if j.admits n then (some (n.line (j.last + 1)),{ j with last := j.last + 1 }) else (none,j)

end Journal
end Formulary
