import Formulary.History.Entry
import Formulary.Files.Plan

/-! The history: entries with the newest first, kept in a file if there is a path. Each operation
changes the entries, writes all of them, and undoes the change if it cannot be written. -/
namespace Formulary.History
open Files (Plan)
open Journal (Note)

inductive Fault
  /-- Something about a file, for the reason that the system gives. -/
  | io (reason : String)
  | notFound (id : String)
  deriving DecidableEq

def Fault.message : Fault → String
  | io reason => "IO error: " ++ reason
  | notFound id => "History entry not found: " ++ id

structure Store where
  /-- The file that holds the entries; without one they are in memory only. -/
  path : Option String
  entries : List Entry

namespace Store

def inMemory : Store :=
  ⟨none,[]⟩

def size (s : Store) : Nat :=
  s.entries.length

def get? (s : Store) (id : String) : Option Entry :=
  s.entries.find? (·.id == id)

/-- The matching entries of one kind or of all kinds. -/
def search (s : Store) (query : String) (kind : Option Kind) : List Entry :=
  s.entries.filter fun e => kind.all (· == e.kind) && e.isMatch query

def exported (s : Store) : String :=
  entriesText s.entries

/-! Reading -/

/-- The entries that a text holds, if it is blank or a list of entries. -/
def entriesOf? (text : String) : Option (List Entry) :=
  if isBlankText text then some [] else readEntries? text

/-- A store read from a file, and the text of the file if it is damaged. A text that cannot be
understood counts as no entries, so the next save replaces it. -/
structure Loaded where
  entries : List Entry
  damaged : Option String

def Loaded.ofText (text : String) : Loaded :=
  match entriesOf? text with
  | some entries => ⟨entries,none⟩
  | none => ⟨[],some text⟩

/-- The fault of bytes that are no text. -/
def noText : Fault :=
  .io "stream did not contain valid UTF-8"

/-- What a file at the path of a history comes to. -/
def Loaded.ofReading : Files.Reading → Except Fault Loaded
  | .absent => .ok ⟨[],none⟩
  | .unreadable reason => .error (.io reason)
  | .bytes content =>
    match String.fromUTF8? content with
    | none => .error noText
    | some text => .ok (ofText text)

/-- Notes that the text of a file is damaged, in the words of the JSON reader. -/
def tellDamage (path : String) : Option String → Plan Unit
  | none => return ()
  | some text => do
    let why ← Plan.wording text
    Plan.tell (.detail .warn "persistence::history"
      ("ignoring unreadable history file " ++ path ++ ": " ++ why))

/-- The note that so many entries were read. -/
def loadedNote (path : String) (count : Nat) : Note :=
  .detail .debug "persistence::history" (s!"loaded {count} history entries from " ++ path)

/-- The history kept at a path. -/
def load (path : String) : Plan (Except Fault Store) := do
  match Loaded.ofReading (← Plan.readFile path) with
  | .error e => return .error e
  | .ok l =>
    tellDamage path l.damaged
    Plan.tell (loadedNote path l.entries.length)
    return .ok ⟨some path,l.entries⟩

/-! Writing -/

/-- Writes the entries to their file, if they have one. -/
def save (s : Store) : Plan (Except Fault Unit) :=
  match s.path with
  | none => return .ok ()
  | some path => do
    match ← Plan.makeParent path with
    | .error reason => return .error (.io reason)
    | .ok () => return (← Plan.writeFile path s.exported).mapError .io

/-- Writes the entries as a change has left them. A change that is not written is undone. -/
def change (s : Store) (entries : List Entry) (undo : List Entry → List Entry) :
    Plan (Except Fault Unit × Store) := do
  let changed := { s with entries := entries }
  match ← changed.save with
  | .ok () => return (.ok (),changed)
  | .error e => return (.error e,{ changed with entries := undo changed.entries })

/-- Puts an entry in front; if it is not written, the entry in front is taken out again. -/
def add (s : Store) (e : Entry) : Plan (Except Fault Unit × Store) :=
  s.change (s.entries.insertIdx 0 e) (·.eraseIdx 0)

/-- Removes the newest entry with an id, and gives it. If that is not written, the entry is put back
in its place. -/
def take (s : Store) (id : String) : Plan (Except Fault Entry × Store) :=
  match s.entries.findFinIdx? (·.id == id) with
  | none => return (.error (.notFound id),s)
  | some i => do
    let (outcome,changed) ← s.change (s.entries.eraseIdx i) (·.insertIdx i s.entries[i])
    return (outcome.map fun _ => s.entries[i],changed)

/-- Removes the newest entry with an id. -/
def remove (s : Store) (id : String) : Plan (Except Fault Unit × Store) := do
  let (outcome,changed) ← s.take id
  return (outcome.map fun _ => (),changed)

def clear (s : Store) : Plan (Except Fault Unit × Store) :=
  s.change [] fun _ => s.entries

/-- Writes the entries to another file, whose folder must be there. -/
def exportTo (s : Store) (path : String) : Plan (Except Fault Unit) := do
  return (← Plan.writeFile path s.exported).mapError .io

end Store
end Formulary.History
