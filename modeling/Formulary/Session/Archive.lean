import Formulary.Session.State

/-! The commands on the history. Saving computes first, so an entry that cannot be replayed is never
stored; replaying computes from the inputs of an entry. -/
namespace Formulary.Session
open Json (Value)
open History (Computation Entry)
open Files (Plan)
open Journal (Note)

/-- The name and the time that a new entry gets. -/
structure Occasion where
  id : String
  time : History.Timestamp

/-- An entry as it is listed. -/
def itemValue (e : Entry) : Value :=
  .object [("id",.string e.id),("kind",.string e.kind.tag),("label",.string e.kind.label),
    ("summary",.string e.computation.summary),("timestamp",.string e.timestamp.offsetText),
    ("script",.string e.script)]

/-- The kinds that a word lets through: all of them for a blank one or `all`, else the one it names.
-/
def kindFilter (word : String) : Except Rejection (Option Kind) :=
  let wanted := trimmed word
  if wanted.isEmpty || wanted.toLower == "all" then .ok none
  else match Kind.ofTag? wanted with
    | some kind => .ok (some kind)
    | none => .error (.unknownKind wanted)

/-- A fault of the history, told as what failed. -/
def historyNote (what : String) (e : History.Fault) : Note :=
  .told .error "HISTORY" (what ++ " failed: " ++ e.message)

namespace State

/-- The note that a computation is to be saved. -/
def savingNote (c : Computation) : Note :=
  entering "HISTORY" "save_to_history" ("kind=" ++ c.kind.tag)

/-- The note that an entry is to be replayed. -/
def replayingNote (id : String) : Note :=
  entering "HISTORY" "replay_history_entry" ("id=" ++ id)

/-- Stores the inputs and the script of an answer. -/
def store (s : State) (o : Occasion) (c : Computation) (a : Answer) : Plan (Turn Entry) := do
  let entry : Entry := ⟨o.id,o.time,c,(a.script s.settings).text⟩
  let (outcome,history) ← s.history.add entry
  match outcome with
  | .error e =>
    Plan.tell (.told .error "HISTORY" ("history write failed, entry not saved: " ++ e.message))
    return ⟨.error (.history e),{ s with history := history }⟩
  | .ok () =>
    let saved := s.saved + 1
    Plan.tell (leaving "HISTORY" "save_to_history" ("id=" ++ entry.id ++ s!" saved={saved}"))
    return ⟨.ok entry,{ s with history := history, saved := saved }⟩

/-- Computes and stores. -/
def save (s : State) (o : Occasion) (c : Computation) : Plan (Turn Entry) := do
  Plan.tell (savingNote c)
  let computed ← (s.compute c).tell
  match computed.outcome with
  | .error e => return ⟨.error e,computed.state⟩
  | .ok a => computed.state.store o c a

def list (s : State) (query kind : String) : NotedTurn Value :=
  let given := entering "HISTORY" "list_history" ("q=" ++ escaped query ++ " kind=" ++ escaped kind)
  match kindFilter kind with
  | .error r => ⟨s.still (.error (.rejected r)),[given]⟩
  | .ok wanted =>
    let found := s.history.search query wanted
    ⟨s.still (.ok (.object [("total",.natural s.history.size),
        ("items",.array (found.map itemValue))])),
      [given,leaving "HISTORY" "list_history" s!"{found.length} of {s.history.size}"]⟩

def entry (s : State) (id : String) : Except Fault Entry :=
  match s.history.get? id with
  | some e => .ok e
  | none => .error (.history (.notFound id))

/-- Computes again what an entry holds. -/
def replay (s : State) (id : String) : NotedTurn Answer :=
  match s.entry id with
  | .error e => ⟨s.still (.error e),[replayingNote id]⟩
  | .ok e =>
    let computed := s.compute e.computation
    let ended := match computed.outcome with
      | .ok _ => [leaving "HISTORY" "replay_history_entry" ("kind=" ++ e.kind.tag)]
      | .error _ => []
    ⟨computed.toTurn,replayingNote id :: computed.notes ++ ended⟩

def delete (s : State) (id : String) : Plan (Turn Unit) := do
  Plan.tell (entering "HISTORY" "delete_history_entry" ("id=" ++ id))
  let (outcome,history) ← s.history.remove id
  Plan.tell (match outcome with
    | .error e => historyNote ("delete of " ++ id) e
    | .ok () => leaving "HISTORY" "delete_history_entry" "")
  return ⟨outcome.mapError .history,{ s with history := history }⟩

def clear (s : State) : Plan (Turn Unit) := do
  let (outcome,history) ← s.history.clear
  Plan.tell (match outcome with
    | .error e => historyNote "clear" e
    | .ok () => .told .info "HISTORY" s!"cleared {s.history.size} entries")
  return ⟨outcome.mapError .history,{ s with history := history }⟩

/-- Writes the entries to another file. -/
def exportTo (s : State) (path : String) : Plan (Turn Unit) := do
  Plan.tell (entering "HISTORY" "export_history_to" ("path=" ++ path))
  match ← s.history.exportTo path with
  | .ok () =>
    Plan.tell (leaving "HISTORY" "export_history_to" "")
    return s.still (.ok ())
  | .error e => return s.still (.error (.history e))

end State
end Formulary.Session
