import Formulary.Session.Service
import Formulary.Session.Opening
import Std.Time.DateTime.Timestamp

/-! The command line: one request a line on standard input, one reply a line on standard output. The
only argument is the path of the configuration. -/
namespace Formulary.CommandLine
open Session
open Files (Attempt Plan Reading)

/-- Reads a file; what is in the way of looking for it counts as its absence. -/
def readPath (path : String) : IO Reading := do
  try
    return .bytes (← IO.FS.readBinFile path)
  catch
    | .noFileOrDirectory .. => return .absent
    | .invalidArgument .. => return .absent
    | e@(.inappropriateType _ code _) =>
      return if code == 20 then .absent else .unreadable (toString e)
    | e => return .unreadable (toString e)

/-- The journal of the running program and the file that is open for it. -/
structure Live where
  journal : Journal
  file : Option IO.FS.Handle

abbrev Running := StateT Live IO

/-- Tries an action on files. -/
def attempt (action : IO Unit) : IO Attempt := do
  try
    action
    return .ok ()
  catch e => return .error (toString e)

/-- Writes a line to the open file, if there is one. A line that cannot be written is lost. -/
def writeLine (line : String) : Running Unit := do
  if let some file := (← get).file then
    try
      file.putStr (line ++ "\n")
      file.flush
    catch e => (← IO.getStderr).putStrLn ("[LOG_ERROR] Failed to write: " ++ toString e)

/-- Keeps a note, unless the journal passes it over. -/
def record (n : Journal.Note) : Running Unit := do
  let (line,journal) := (← get).journal.keep n
  modify fun live => { live with journal := journal }
  if let some line := line then writeLine line

/-- Empties a file and opens it for the records to come. -/
def beginJournal (path : String) : Running Bool := do
  try
    let file ← IO.FS.Handle.mk path .write
    modify fun live => { live with file := some file }
    return true
  catch _ => return false

/-- Writes a line to the standard output. A line that cannot be written is lost. -/
def say (line : String) : IO Unit := do
  try
    let out ← IO.getStdout
    out.putStrLn line
    out.flush
  catch _ => return ()

/-- Carries out a plan on the files of the machine, up to its result or to the end of the program. -/
def perform {α : Type} : Plan α → Running (Option α)
  | .done a => return some a
  | .read path next => do perform (next (← readPath path))
  | .makeFolders path next => do perform (next (← attempt (IO.FS.createDirAll path)))
  | .write path text next => do perform (next (← attempt (IO.FS.writeFile path text)))
  | .beginJournal path next => do perform (next (← beginJournal path))
  | .limitDetail threshold next => do
    modify fun live => { live with journal := { live.journal with threshold := threshold } }
    perform next
  | .note n next => do
    record n
    perform next
  | .reply line next => do
    say line
    perform next
  | .explain _ next => perform (next "not understood")
  | .measure next => perform (next Files.mostRoom)
  | .halt => return none

/-- A random identifier: thirty-two hexadecimal digits in five groups, of version four. -/
def freshId : IO String := do
  let bytes := (← IO.getRandomBytes 16).toList
  let marked := bytes.mapIdx fun i b =>
    if i = 6 then b &&& 0x0F ||| 0x40 else if i = 8 then b &&& 0x3F ||| 0x80 else b
  let digits := marked.flatMap fun b =>
    [Nat.digitChar (b.toNat / 16),Nat.digitChar (b.toNat % 16)]
  let group (first count : Nat) := String.ofList ((digits.drop first).take count)
  return "-".intercalate [group 0 8,group 8 4,group 12 4,group 16 4,group 20 12]

/-- The present moment and a new identifier. -/
def occasion : IO Occasion := do
  let nanos := (← Std.Time.Timestamp.now).toNanosecondsSinceUnixEpoch.val.toNat
  let id ← freshId
  match History.Timestamp.ofUnix? (nanos / History.secondNanos) (nanos % History.secondNanos) with
  | some time => return ⟨id,time⟩
  | none => throw (IO.userError "the clock is out of range")

/-- Serves the lines of the input until it ends or is no text, and gives the exit code. -/
partial def serveInput (s : State) : Running UInt32 := do
  let chunk ← try (← IO.getStdin).getLine catch _ => pure ""
  if chunk.isEmpty then return 0
  let lines ← (inputLines chunk).mapM fun line => return (← occasion,line)
  match ← perform (s.serveLines lines) with
  | none => return brokenExit.toUInt32
  | some next => serveInput next

/-- Opens a session and serves it. -/
def run (path : String) : Running UInt32 := do
  match ← perform (openSession path installed) with
  | none => return brokenExit.toUInt32
  | some (.error e) =>
    (← IO.getStderr).putStrLn ("[INIT] " ++ e.message)
    return 1
  | some (.ok s) => serveInput s

end Formulary.CommandLine

def main (args : List String) : IO UInt32 :=
  (Formulary.CommandLine.run (args.headD "trivium.json")).run' ⟨.start,none⟩
