import Formulary.Text.Pieces

/-! Paths as texts. A slash divides the names on the way; an empty name, like `.`, stays where it
is, and `..` goes back to the folder above. -/
namespace Formulary.Files

/-- The names on the way, an empty one being `.`. -/
def steps (path : String) : List String :=
  (Text.pieces '/' path.toList).map fun piece =>
    if piece.isEmpty then "." else String.ofList piece

/-- The names on the way that lead to another place. -/
def moves (path : String) : List String :=
  (steps path).filter (· != ".")

/-- The folder that a path lies in, unless that is where the path starts from. -/
def parent? (path : String) : Option String :=
  match (moves path).dropLast,path.toList with
  | [],'/' :: _ => if (moves path).isEmpty then none else some "/"
  | [],_ => none
  | names,'/' :: _ => some ("/" ++ "/".intercalate names)
  | names,_ => some ("/".intercalate names)

/-- How many bytes a path and one of its names may have. -/
def longestPath : Nat := 4095
def longestName : Nat := 255

/-- Whether a text is a path at all. -/
def isPath (path : String) : Bool :=
  !path.isEmpty && path.utf8ByteSize ≤ longestPath && !path.contains '\x00'

/-- Whether something may have a name. -/
def isName (name : String) : Bool :=
  name.utf8ByteSize ≤ longestName

end Formulary.Files
