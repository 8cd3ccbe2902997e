import Formulary.Files.Path
import Formulary.Journal

/-! Work on files as data. A plan says what to read, write, note and reply, in order, and goes on with
the outcome, so the same plan is carried out on a real machine and followed on a model of one. -/
namespace Formulary.Files
open Journal (Note Threshold)

/-- What a path leads to when it is read. A folder, or a file that may not be read, is unreadable for
the reason that the system gives. -/
inductive Reading
  | absent
  | unreadable (reason : String)
  | bytes (content : ByteArray)

/-- Whether something was done, or the reason that the system gives why not. -/
abbrev Attempt := Except String Unit

/-- A plan with a result. A write replaces the whole content of a file; whatever changes the disk
tells whether it succeeded. What lies beyond the disk is asked for. -/
inductive Plan (α : Type)
  | done (result : α)
  | read (path : String) (next : Reading → Plan α)
  | makeFolders (path : String) (next : Attempt → Plan α)
  | write (path text : String) (next : Attempt → Plan α)
  /-- Empties a file, to which records go from now on. -/
  | beginJournal (path : String) (next : Bool → Plan α)
  | limitDetail (threshold : Threshold) (next : Plan α)
  | note (n : Note) (next : Plan α)
  /-- Writes a line to the standard output. -/
  | reply (line : String) (next : Plan α)
  /-- Asks what the JSON reader has to say against a text. -/
  | explain (text : String) (next : String → Plan α)
  /-- Asks how many samples of a function there is room for. -/
  | measure (next : Nat → Plan α)
  /-- Ends the program. -/
  | halt

/-- No machine has room for more samples: a list has less than `2 ^ 63` bytes, and each sample takes
sixteen of them. -/
def mostRoom : Nat := Nat.pow 2 59 - 1

namespace Plan

/-- Goes on with another plan after the result of one. -/
def andThen {α β : Type} : Plan α → (α → Plan β) → Plan β
  | done a,f => f a
  | read path next,f => read path fun r => (next r).andThen f
  | makeFolders path next,f => makeFolders path fun made => (next made).andThen f
  | write path text next,f => write path text fun written => (next written).andThen f
  | beginJournal path next,f => beginJournal path fun ok => (next ok).andThen f
  | limitDetail threshold next,f => limitDetail threshold (next.andThen f)
  | note n next,f => note n (next.andThen f)
  | reply line next,f => reply line (next.andThen f)
  | explain text next,f => explain text fun why => (next why).andThen f
  | measure next,f => measure fun room => (next room).andThen f
  | halt,_ => halt

instance : Monad Plan where
  pure := done
  bind := andThen

def readFile (path : String) : Plan Reading :=
  read path done

def makeAllFolders (path : String) : Plan Attempt :=
  makeFolders path done

def writeFile (path text : String) : Plan Attempt :=
  write path text done

def openJournal (path : String) : Plan Bool :=
  beginJournal path done

def setThreshold (threshold : Threshold) : Plan Unit :=
  limitDetail threshold (done ())

def tell (n : Note) : Plan Unit :=
  note n (done ())

def tellAll : List Note → Plan Unit
  | [] => done ()
  | n :: rest => note n (tellAll rest)

/-- Notes what is left to note and ends the program. -/
def endWith {α : Type} : List Note → Plan α
  | [] => halt
  | n :: rest => note n (endWith rest)

def say (line : String) : Plan Unit :=
  reply line (done ())

def wording (text : String) : Plan String :=
  explain text done

def room : Plan Nat :=
  measure done

/-- Makes the folder that a path lies in, if it names one. -/
def makeParent (path : String) : Plan Attempt :=
  match parent? path with
  | none => return .ok ()
  | some folder => makeAllFolders folder

end Plan
end Formulary.Files
