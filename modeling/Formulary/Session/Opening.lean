import Formulary.Session.State

/-! Opening a session: the configuration is read, then the journal begins, then the history is read.
A configuration that comes so far rules the journal even when the history then fails. -/
namespace Formulary.Session
open Files (Plan)
open Journal (Note)

/-- Begins an empty journal, if the configuration names a file for it. -/
def beginJournal (path : Option String) : Plan (Except SetupFault Unit) :=
  match path with
  | none => return .ok ()
  | some path => do
    match ← Plan.makeParent path with
    | .error _ => return .error .journalFolder
    | .ok () => if ← Plan.openJournal path then return .ok () else return .error .journalFile

/-- Reads the history that a configuration names. -/
def openHistory (config : Config) : Plan (Except History.Fault History.Store) :=
  match config.historyPath with
  | none => return .ok .inMemory
  | some path => History.Store.load path

/-- What is noted of a session that begins. -/
def openedNote (config : Config) (history : History.Store) : Note :=
  .told .info "SYS" (s!"Creating AppState (history: {history.size} entries, persisted: " ++
    boolText config.historyPath.isSome ++ ")")

def openState (config : Config) : Plan (Except Fault State) := do
  match ← openHistory config with
  | .error e => return .error (.history e)
  | .ok history =>
    Plan.tell (openedNote config history)
    return .ok (.start config history)

/-- Opens a session once its journal has begun. A greeting is noted before any other note. -/
def openNoted (path : String) (greeting : List Note) (config : Config) :
    Plan (Except Fault State) := do
  Plan.tellAll greeting
  Plan.setThreshold config.threshold
  Plan.tell (.told .info "SYS" ("Configuration loaded from " ++ path))
  openState config

/-- Opens a session whose configuration is kept at a path. -/
def openSession (path : String) (greeting : List Note) : Plan (Except Fault State) := do
  match ← Config.load path with
  | .error e => return .error (.setup e)
  | .ok config =>
    match ← beginJournal config.logPath with
    | .error e => return .error (.setup e)
    | .ok () => openNoted path greeting config

/-- What the first session of a program is greeted with. -/
def installed : List Note :=
  [.told .info "LOG" "unified logger installed"]

end Formulary.Session
