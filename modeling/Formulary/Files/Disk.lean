import Formulary.Files.Path

/-! A model of a disk. A place is given by the names of the folders that lead to it from the root.
The model has no links, no permissions and no end of space. -/
namespace Formulary.Files

inductive Node
  | file (content : ByteArray)
  | folder

abbrev Place := List String

/-- What stands at each place, if anything. -/
def Disk := Place → Option Node

namespace Disk

/-- The disk that holds the root and nothing else. -/
def empty : Disk := fun place => if place = [] then some .folder else none

def put (d : Disk) (place : Place) (node : Node) : Disk :=
  fun q => if q = place then some node else d q

/-- Removes whatever stands at a place or below it. -/
def remove (d : Disk) (place : Place) : Disk :=
  fun q => if place.isPrefixOf q then none else d q

theorem put_self (d : Disk) (place : Place) (node : Node) : d.put place node place = some node := by
  simp [put]

theorem put_of_ne (d : Disk) {place q : Place} (node : Node) (h : q ≠ place) :
    d.put place node q = d q := by
  simp [put,h]

def isFolder (d : Disk) (place : Place) : Bool :=
  match d place with
  | some .folder => true
  | _ => false

/-- The place that one name leads to. -/
def follow (place : Place) (name : String) : Place :=
  if name = "." then place else if name = ".." then place.dropLast else place ++ [name]

/-- The place that names lead to; whatever they pass through must be a folder. -/
def walk (d : Disk) (place : Place) : List String → Option Place
  | [] => some place
  | name :: rest =>
    if d.isFolder place && isName name then d.walk (follow place name) rest else none

def place? (d : Disk) (path : String) : Option Place :=
  if isPath path then d.walk [] (steps path) else none

/-- A folder at a place, made if nothing stands there. -/
def makeFolder? (d : Disk) (place : Place) : Option Disk :=
  match d place with
  | none => some (d.put place .folder)
  | some .folder => some d
  | some (.file _) => none

/-- Makes a folder at every place that names lead to, as far as that goes. -/
def makeAlong (d : Disk) (place : Place) : List String → Bool × Disk
  | [] => (true,d)
  | name :: rest =>
    match if isName name then d.makeFolder? (follow place name) else none with
    | some changed => changed.makeAlong (follow place name) rest
    | none => (false,d)

def makeFolders (d : Disk) (path : String) : Bool × Disk :=
  if isPath path then d.makeAlong [] (steps path) else (false,d)

/-- What a path leads to. -/
def node? (d : Disk) (path : String) : Option Node :=
  (d.place? path).bind d

/-- The place at which a file is or may be. -/
def filePlace? (d : Disk) (path : String) : Option Place :=
  (d.place? path).bind fun place => if d.isFolder place then none else some place

def write? (d : Disk) (path text : String) : Option Disk :=
  (d.filePlace? path).map fun place => d.put place (.file text.toUTF8)

/-- A content with a piece laid over it; what lies between its end and the start of the piece is
filled with zeros. -/
def overlay (content : ByteArray) (start : Nat) (piece : ByteArray) : ByteArray :=
  content.extract 0 start ++ ⟨Array.replicate (start - content.size) 0⟩ ++ piece ++
    content.extract (start + piece.size) content.size

/-- Lays a piece over the content of a file. -/
def patch (d : Disk) (place : Place) (start : Nat) (piece : ByteArray) : Disk :=
  match d place with
  | some (.file content) => d.put place (.file (overlay content start piece))
  | _ => d

end Disk
end Formulary.Files
