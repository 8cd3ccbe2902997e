import Formulary.Files.Disk
import Formulary.Files.World

/-! A model of the machine that a plan runs on: its disk, and the journal with the file that is open
for it. An open file is written where the last record ended, whatever has become of its content, and
records that have no file are lost but counted. What the system and the JSON reader say is given. -/
namespace Formulary.Files

/-- A file that is open: where it stands, and where in it the next piece goes. -/
structure OpenFile where
  place : Place
  offset : Nat

/-- What a machine answers apart from its files. -/
structure Host where
  /-- The reason that the system gives when it refuses a path. -/
  refusal : String → String
  /-- What the JSON reader has to say against a text. -/
  wording : String → String
  /-- How many samples of a function there is room for. -/
  room : Nat

/-- A machine of few words, with all the room there can be. -/
def Host.terse : Host :=
  ⟨fun _ => "refused",fun _ => "not understood",mostRoom⟩

structure Machine where
  disk : Disk
  journal : Journal
  file : Option OpenFile
  host : Host

namespace Machine

/-- A machine on which nothing has run. -/
def ofDisk (d : Disk) : Machine :=
  ⟨d,.start,none,.terse⟩

def read (m : Machine) (path : String) : Reading :=
  match m.disk.node? path with
  | none => .absent
  | some .folder => .unreadable (m.host.refusal path)
  | some (.file content) => .bytes content

def makeFolders (m : Machine) (path : String) : Attempt × Machine :=
  let made := m.disk.makeFolders path
  (if made.1 then .ok () else .error (m.host.refusal path),{ m with disk := made.2 })

def write (m : Machine) (path text : String) : Attempt × Machine :=
  match m.disk.write? path text with
  | some changed => (.ok (),{ m with disk := changed })
  | none => (.error (m.host.refusal path),m)

/-- Writes a line to the open file, if there is one. -/
def writeLine (m : Machine) (line : String) : Machine :=
  match m.file with
  | none => m
  | some f =>
    let piece := (line ++ "\n").toUTF8
    { m with
      disk := m.disk.patch f.place f.offset piece
      file := some { f with offset := f.offset + piece.size } }

/-- Keeps a note, unless the journal passes it over. -/
def note (m : Machine) (n : Journal.Note) : Machine :=
  let kept := m.journal.keep n
  let counted := { m with journal := kept.2 }
  match kept.1 with
  | none => counted
  | some line => counted.writeLine line

/-- Empties a file and opens it for the records to come. -/
def beginJournal (m : Machine) (path : String) : Bool × Machine :=
  match m.disk.filePlace? path with
  | none => (false,m)
  | some place =>
    (true,{ m with disk := m.disk.put place (.file .empty), file := some ⟨place,0⟩ })

/-- Removes whatever stands at a place or below it. A file that is open there is out of reach from
then on. -/
def remove (m : Machine) (place : Place) : Machine :=
  { m with
    disk := m.disk.remove place
    file := m.file.filter fun f => !place.isPrefixOf f.place }

/-- The machine as a world of plans. -/
def world : World Machine where
  read path m := (m.read path,m)
  makeFolders path m := m.makeFolders path
  write path text m := m.write path text
  beginJournal path m := m.beginJournal path
  limitDetail threshold m := { m with journal := { m.journal with threshold := threshold } }
  note n m := m.note n
  explain text m := m.host.wording text
  room m := m.host.room

end Machine

/-- Runs a plan on a machine. -/
def Plan.run {α : Type} (p : Plan α) (m : Machine) : Ran α Machine :=
  p.runIn Machine.world m

end Formulary.Files
