import Formulary.Logic.Error
import Formulary.Calculus.Error
import Formulary.History.Store

/-! What a request can fail with: refused input, or a fault of the part that was to serve it. -/
namespace Formulary.Session

/-- Input that is refused before anything is computed. -/
inductive Rejection
  | blank (field : String)
  | notNumber (field text : String)
  | notWhole (text : String)
  | pointCount (least greatest given : Nat)
  | letterCount (given : Nat)
  | notFinite (field : String)
  | emptyRange (lo hi : Float)
  | noOperands
  | emptyUniverse
  | unknownCommand (name : String)
  | badArguments (command : String)
  | unknownKind (word : String)
  | nothingAnalysed
  | nothingToExport

def Rejection.message : Rejection → String
  | blank field => field ++ " must not be empty"
  | notNumber field text => field ++ " must be a finite number (got '" ++ text ++ "')"
  | notWhole text => "points must be a whole number (got '" ++ text ++ "')"
  | pointCount least greatest given =>
    s!"points must be between {least} and {greatest} (got {given})"
  | letterCount given => s!"variable count must be 2 or 3 (got {given})"
  | notFinite field => field ++ " must be a finite number"
  | emptyRange lo hi =>
    "xMin must be less than xMax (got " ++ Decimal.Layout.plain.text lo ++ " and " ++
      Decimal.Layout.plain.text hi ++ ")"
  | noOperands => "enter elements for A or B"
  | emptyUniverse => "universe U must not be empty"
  | unknownCommand name => "unknown command '" ++ name ++ "'"
  | badArguments command => "invalid arguments for " ++ command
  | unknownKind word => "unknown history kind '" ++ word ++ "'"
  | nothingAnalysed => "run an analysis first"
  | nothingToExport => "nothing to export: run an analysis first"

/-- What keeps a session from being set up. -/
inductive SetupFault
  | unreadable (path : String)
  | invalid (path : String)
  | journalFolder
  | journalFile
  deriving DecidableEq

def SetupFault.message : SetupFault → String
  | unreadable path => "Config error: cannot read " ++ path
  | invalid path => "Config error: invalid " ++ path
  | journalFolder => "Config error: Failed to create log dir"
  | journalFile => "Config error: Failed to create log file"

inductive Fault
  | rejected (r : Rejection)
  | logic (e : Logic.Error)
  | calculus (e : Calculus.Error)
  | history (e : History.Fault)
  /-- A line that is no request. -/
  | notRequest
  | setup (e : SetupFault)

def Fault.message : Fault → String
  | rejected r => r.message
  | logic e => e.message
  | calculus e => e.message
  | history e => e.message
  | notRequest => "Serialization error"
  | setup e => e.message

/-- The faults that the JSON reader finds in a line. -/
def Fault.isReaders : Fault → Bool
  | notRequest => true
  | rejected (.badArguments _) => true
  | _ => false

/-- The message as it is told, followed by what the JSON reader says where it found the fault. -/
def Fault.told (e : Fault) (why : String) : String :=
  if e.isReaders then e.message ++ ": " ++ why else e.message

end Formulary.Session
