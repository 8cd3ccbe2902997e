import Formulary.Json.Reader

/-! Records: values with a fixed list of named parts. A record is spelled as an object, in which
other names are passed over and no part may be named twice, or as an array that holds the parts in
order. -/
namespace Formulary.Json

/-- The parts of a record as they are spelled. -/
inductive Record (α : Type)
  | named (fields : List (String × α))
  | listed (items : List α)

/-- An array with more items than the record has parts is no record. -/
def Value.record? (size : Nat) : Value → Option (Record Value)
  | .object fields => some (.named fields)
  | .array items => if items.length ≤ size then some (.listed items) else none
  | _ => none

/-- Every name must denote a text, also one that is passed over. -/
def Source.record? (size : Nat) : Source → Option (Record Source)
  | .object fields =>
    (fields.mapM fun (f : Option String × Source) => f.1.map (·,f.2)).map .named
  | .array items => if items.length ≤ size then some (.listed items) else none
  | _ => none

namespace Record
variable {α β : Type}

/-- The part with a name and a place: `none` when it is named twice, `some none` when it is missing.
-/
def part? (r : Record α) (place : Nat) (name : String) : Option (Option α) :=
  match r with
  | .named fields =>
    match fields.filter (·.1 == name) with
    | [] => some none
    | [f] => some (some f.2)
    | _ => none
  | .listed items => some items[place]?

/-- A part that must be present. -/
def required? (r : Record α) (place : Nat) (name : String) (decode : α → Option β) : Option β := do
  decode (← (← r.part? place name))

/-- A part that may be missing, in which case it has a default. -/
def defaulted? (r : Record α) (place : Nat) (name : String) (default : β)
    (decode : α → Option β) : Option β := do
  match ← r.part? place name with
  | none => some default
  | some a => decode a

/-- A part that may be missing from an object but not from an array. -/
def optional? (r : Record α) (place : Nat) (name : String) (decode : α → Option (Option β)) :
    Option (Option β) := do
  match r,← r.part? place name with
  | .named _,none => some none
  | .listed _,none => none
  | _,some a => decode a

end Record
end Formulary.Json
