import Formulary.Json.Record
import Formulary.Calculus.Window
import Formulary.Files.Plan
import Formulary.Session.Fault

/-! The configuration of a session. Every part of it may be missing, and so may the whole file. -/
namespace Formulary.Session
open Json (Value Source Record)
open Files (Plan)
open Journal (Threshold)

structure Config where
  /-- The file of the journal; without one there is no journal. -/
  logPath : Option String
  /-- The file of the history; without one it is in memory only. -/
  historyPath : Option String
  logLevel : String
  /-- How few and how many points a request may ask for. -/
  leastPoints : Nat
  mostPoints : Nat
  settings : Calculus.Settings

namespace Config

def standard : Config :=
  ⟨none,none,"info",80,3000,Calculus.Settings.standard⟩

def threshold (c : Config) : Threshold :=
  Threshold.ofText c.logLevel

/-- A part that is a value of its own. -/
def part? {α : Type} (decode : Value → Option α) (s : Source) : Option α :=
  (s.value? Json.deepest).bind decode

/-- Reads the settings of numeric work. -/
def settingsOf? (s : Source) : Option Calculus.Settings := do
  let d := Calculus.Settings.standard
  let r ← s.record? 5
  return ⟨← r.defaulted? 0 "derivative_step" d.derivativeStep (part? Value.toFloat?),
    ← r.defaulted? 1 "integral_samples" d.integralSamples (part? Value.toCount?),
    ← r.defaulted? 2 "max_points" d.maxPoints (part? Value.toCount?),
    ← r.defaulted? 3 "default_range" d.defaultRange (part? Value.toPair?),
    ← r.defaulted? 4 "range_padding" d.rangePadding (part? Value.toFloat?)⟩

def ofSource? (s : Source) : Option Config := do
  let d := standard
  let r ← s.record? 6
  return ⟨← r.defaulted? 0 "log_path" d.logPath (part? (Value.toOption? Value.toString?)),
    ← r.defaulted? 1 "history_path" d.historyPath (part? (Value.toOption? Value.toString?)),
    ← r.defaulted? 2 "log_level" d.logLevel (part? Value.toString?),
    ← r.defaulted? 3 "min_points" d.leastPoints (part? Value.toCount?),
    ← r.defaulted? 4 "max_points" d.mostPoints (part? Value.toCount?),
    ← r.defaulted? 5 "numeric" d.settings settingsOf?⟩

def read? (text : String) : Option Config := do
  ofSource? (← Source.read? text)

/-- The configuration kept at a path, or the standard one. -/
def load (path : String) : Plan (Except SetupFault Config) := do
  match ← Plan.readFile path with
  | .absent => return .ok standard
  | .unreadable _ => return .error (.unreadable path)
  | .bytes content =>
    match String.fromUTF8? content with
    | none => return .error (.unreadable path)
    | some text =>
      match read? text with
      | some config => return .ok config
      | none => return .error (.invalid path)

def settingsValue (s : Calculus.Settings) : Value :=
  .object [("derivative_step",.float s.derivativeStep),
    ("integral_samples",.natural s.integralSamples),("max_points",.natural s.maxPoints),
    ("default_range",.array [.float s.defaultRange.1,.float s.defaultRange.2]),
    ("range_padding",.float s.rangePadding)]

def value (c : Config) : Value :=
  .object [("log_path",.option .string c.logPath),("history_path",.option .string c.historyPath),
    ("log_level",.string c.logLevel),("min_points",.natural c.leastPoints),
    ("max_points",.natural c.mostPoints),("numeric",settingsValue c.settings)]

end Config
end Formulary.Session
