import Formulary.Session.Narration

/-! The state of a session and the computations that change it. The last analysis is kept so that
its overlays can be switched and it can be exported; a failed analysis leaves none. -/
namespace Formulary.Session
open Json (Value)
open History (Computation)
open Files (Plan)
open Journal (Note)

structure State where
  config : Config
  history : History.Store
  /-- The last analysis, unless a later one failed. -/
  last : Option Analysed
  /-- How many computations have succeeded. -/
  runs : Nat
  /-- How many entries have been saved. -/
  saved : Nat

/-- A request served: what it came to and the state it leaves. -/
structure Turn (α : Type) where
  outcome : Except Fault α
  state : State

def Turn.map {α β : Type} (f : α → β) (t : Turn α) : Turn β :=
  ⟨t.outcome.map f,t.state⟩

/-- A turn that needs no file, and what it notes. -/
structure NotedTurn (α : Type) extends Turn α where
  notes : List Note

namespace NotedTurn
variable {α : Type}

/-- Puts notes in front of those of a turn. -/
def after (notes : List Note) (t : NotedTurn α) : NotedTurn α :=
  { t with notes := notes ++ t.notes }

/-- Notes what a turn notes and is left with the turn. -/
def tell (t : NotedTurn α) : Plan (Turn α) := do
  Plan.tellAll t.notes
  return t.toTurn

end NotedTurn

namespace State

/-- A session that has served no request yet. -/
def start (config : Config) (history : History.Store) : State :=
  ⟨config,history,none,0,0⟩

/-- The settings of numeric work. -/
def settings (s : State) : Calculus.Settings :=
  s.config.settings

/-- A turn that changes nothing. -/
def still {α : Type} (s : State) (outcome : Except Fault α) : Turn α :=
  ⟨outcome,s⟩

/-- The state after a computation of a kind. -/
def record (s : State) (kind : Kind) : Except Fault Answer → State
  | .ok (.analysis l) => { s with last := some l, runs := s.runs + 1 }
  | .ok _ => { s with runs := s.runs + 1 }
  | .error _ => if kind = .function then { s with last := none } else s

/-- Computes an answer and keeps account of it. -/
def compute (s : State) (c : Computation) : NotedTurn Answer :=
  ⟨⟨answerTo s.config c,s.record c.kind (answerTo s.config c)⟩,computationNotes s.config c⟩

/-- The note that a function is to be analysed. -/
def analyzingNote (f : AnalysisForm) : Note :=
  entering "FUNCTIONS" "analyze_function"
    ("f(x)=" ++ escaped f.expression ++ " x=[" ++ f.xMin ++ "," ++ f.xMax ++ "] n=" ++ f.points)

/-- Analyses a function from its form. -/
def analyze (s : State) (f : AnalysisForm) : NotedTurn Answer :=
  match f.parameters s.config with
  | .error r =>
    ⟨⟨.error (.rejected r),{ s with last := none }⟩,
      [analyzingNote f,.told .warn "FUNCTIONS" ("rejected input: " ++ r.message)]⟩
  | .ok p => (s.compute (.function f.expression p)).after [analyzingNote f]

/-- Switches overlays of the last analysis; one that is not named stays as it is. -/
def overlay (s : State) (tangent shaded : Option Bool) : NotedTurn Answer :=
  let given := entering "FUNCTIONS" "update_function_overlays"
    ("tangent=" ++ optionText boolText tangent ++ " area=" ++ optionText boolText shaded)
  match s.last with
  | none => ⟨s.still (.error (.rejected .nothingAnalysed)),[given]⟩
  | some l =>
    let shown : Analysed := ⟨l.function,l.analysis.toggle tangent shaded⟩
    let p := shown.analysis.parameters
    ⟨⟨.ok (.analysis shown),{ s with last := some shown }⟩,
      [given,leaving "FUNCTIONS" "update_function_overlays"
        ("tangent=" ++ boolText p.showTangent ++ " area=" ++ boolText p.showArea)]⟩

/-- The text of the last analysis. -/
def exportAnalysis (s : State) : NotedTurn String :=
  let given := entering "FUNCTIONS" "export_last_function" ""
  match s.last with
  | none => ⟨s.still (.error (.rejected .nothingToExport)),[given]⟩
  | some l =>
    let text := (analysisValue l.analysis).text .pretty
    ⟨s.still (.ok text),
      [given,leaving "FUNCTIONS" "export_last_function" s!"{text.utf8ByteSize} bytes"]⟩

end State
end Formulary.Session
