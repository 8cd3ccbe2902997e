import Formulary.Session.Archive
import Formulary.Session.Request
import Formulary.Text.Pieces

/-! Serving requests: every request comes to a JSON value or a fault, and every line that is not
blank to one line of reply, unless a request wants a grid that there is no room for. Such a request
ends the program. -/
namespace Formulary.Session
open Json (Value)
open History (Computation)
open Files (Plan)
open Journal (Note)

/-- The counts of a session. -/
def usageValue (s : State) : Value :=
  .object [("runs",.natural s.runs),("saved",.natural s.saved)]

/-- The value of a result that says nothing. -/
def unitValue : Unit → Value := fun _ => .null

namespace State

def serve (s : State) (o : Occasion) : Request → Plan (Turn Value)
  | .compute c => return (← (s.compute c).tell).map (Answer.value s.settings)
  | .analyze form => return (← (s.analyze form).tell).map (Answer.value s.settings)
  | .overlay tangent shaded =>
    return (← (s.overlay tangent shaded).tell).map (Answer.value s.settings)
  | .lastAnalysis => return s.still (.ok (.option (fun l => analysisValue l.analysis) s.last))
  | .exportAnalysis => return (← s.exportAnalysis.tell).map .string
  | .save c => return (← s.save o c).map itemValue
  | .list query kind => (s.list query kind).tell
  | .entry id => return s.still ((s.entry id).map (·.value))
  | .replay id => return (← (s.replay id).tell).map (Answer.taggedValue s.settings)
  | .delete id => return (← s.delete id).map unitValue
  | .clear => return (← s.clear).map unitValue
  | .exportAll => return s.still (.ok (.string s.history.exported))
  | .exportTo path => return (← s.exportTo path).map unitValue
  | .usage => return s.still (.ok (usageValue s))

/-- The computation that serving a request comes to, if any, and what is noted in front of it. -/
def computation? (s : State) : Request → Option (List Note × Computation)
  | .compute c => some ([],c)
  | .analyze form =>
    match form.parameters s.config with
    | .error _ => none
    | .ok p => some ([analyzingNote form],.function form.expression p)
  | .save c => some ([savingNote c],c)
  | .replay id => (s.history.get? id).map fun e => ([replayingNote id],e.computation)
  | _ => none

/-- What serving a request has noted where it comes to a grid that there is no room for, if it does. -/
def brokenNotes? (s : State) (room : Nat) (q : Request) : Option (List Note) := do
  let (before,c) ← s.computation? q
  return before ++ (← Session.brokenNotes? s.config room c)

/-- Serves a request, unless there is no room for it. -/
def serveWithin (s : State) (room : Nat) (o : Occasion) (q : Request) : Plan (Turn Value) :=
  match s.brokenNotes? room q with
  | some notes => Plan.endWith notes
  | none => s.serve o q

/-- Serves a command by name. -/
def dispatch (s : State) (o : Occasion) (i : Invocation) : Plan (Turn Value) := do
  Plan.tell (.told .debug "INVOKE" i.command)
  match Request.ofCommand i.command i.args with
  | .error r => return s.still (.error (.rejected r))
  | .ok request => s.serveWithin (← Plan.room) o request

/-- Serves a line of input. -/
def answerLine (s : State) (o : Occasion) (line : String) : Plan (Turn Value) :=
  match Invocation.read? line with
  | none => return s.still (.error .notRequest)
  | some i => s.dispatch o i

end State

/-- A reply has one field, which tells whether it holds a value or a message. The message may go on
with what the JSON reader says. -/
def replyValue (why : String) : Except Fault Value → Value
  | .ok v => .object [("ok",v)]
  | .error e => .object [("error",.string (e.told why))]

/-- A reply on one line. -/
def replyText (why : String) (outcome : Except Fault Value) : String :=
  (replyValue why outcome).settle.text .compact

/-- Serves a line of input and replies to it, unless it is blank. -/
def State.serveLine (s : State) (o : Occasion) (line : String) : Plan State := do
  if isBlankText line then return s
  else
    let turn ← s.answerLine o line
    let why ← Plan.wording line
    Plan.say (replyText why turn.outcome)
    return turn.state

/-- Serves lines in turn, each with the occasion it may need. -/
def State.serveLines (s : State) : List (Occasion × String) → Plan State
  | [] => return s
  | (o,line) :: rest => do
    let next ← s.serveLine o line
    next.serveLines rest

/-- A line without the carriage return that belongs to its line break. -/
def withoutReturn (line : List Char) : List Char :=
  if line.getLast? = some '\r' then line.dropLast else line

/-- The lines of a text. What stands behind the last line break is a line unless it is empty. -/
def inputLines (text : String) : List String :=
  let pieces := Text.pieces '\n' text.toList
  let ended := pieces.dropLast.map withoutReturn
  (ended ++ pieces.getLast?.toList.filter (· ≠ [])).map String.ofList

/-- The exit code of a program that was ended by a request. -/
def brokenExit : Nat := 101

end Formulary.Session
