import Formulary.Calculus.Compile
import Formulary.Calculus.Evaluation
import Formulary.Calculus.Grid
import Formulary.Calculus.Window

/-! The analysis of a function: its samples on a grid, value and slope at a point, area between two
bounds, vertical window, and on demand the tangent. What is not finite is undefined; an undefined
sample spoils no other. -/
namespace Formulary.Calculus

/-- The least grid that holds both ends. -/
def leastPoints : Nat := 2

structure Samples where
  xs : List Float
  ys : List (Option Float)

def Samples.undefinedCount (s : Samples) : Nat :=
  s.ys.countP Option.isNone

def requireFinite (name : String) (v : Float) : Except Error Unit :=
  if v.isFinite then .ok () else .error (.notFinite name)

/-- What is asked of a grid before it is made. -/
def requireGrid (lo hi : Float) (points : Nat) (settings : Settings) : Except Error Unit := do
  requireFinite "x_min" lo
  requireFinite "x_max" hi
  if hi ≤ lo then throw (.emptyDomain lo hi)
  if points < leastPoints || settings.maxPoints < points then
    throw (.pointCount points leastPoints settings.maxPoints)

/-- The samples of a function on a grid. -/
def Compiled.samplesOn (f : Compiled) (lo hi : Float) (points : Nat) : Samples :=
  let xs := grid Float.ofNat lo hi points
  ⟨xs,xs.map f.value?⟩

/-- Samples a function on so many points from `lo` to `hi`. -/
def Compiled.sample (f : Compiled) (lo hi : Float) (points : Nat) (settings : Settings) :
    Except Error Samples := do
  requireGrid lo hi points settings
  return f.samplesOn lo hi points

/-- The central difference at a point. -/
def Compiled.slope? (f : Compiled) (point step : Float) : Option Float := do
  let ahead ← f.value? (point + step)
  let behind ← f.value? (point - step)
  finite? ((ahead - behind) / (2.0 * step))

/-- The area between two bounds, negated when they are in falling order. -/
def Compiled.area? (f : Compiled) (a b : Float) (samples : Nat) : Option Float :=
  if a.isFinite && b.isFinite then finite? (area Float.ofNat f.value? a b samples) else none

/-- The tangent over a grid, if the point and the slope are defined. -/
def tangentLine? (xs : List Float) (point : Float) (value slope : Option Float) :
    Option (List Float) := do
  let v ← value
  let d ← slope
  return xs.map fun x => v + d * (x - point)

structure Parameters where
  xMin : Float
  xMax : Float
  points : Nat
  x0 : Float
  a : Float
  b : Float
  showTangent : Bool
  showArea : Bool
  deriving DecidableEq

structure Analysis where
  expression : String
  parameters : Parameters
  xs : List Float
  ys : List (Option Float)
  value : Option Float
  slope : Option Float
  area : Option Float
  window : Window
  tangent : Option (List Float)
  deriving DecidableEq

namespace Analysis

/-- Shows or hides the tangent, which is computed from what is stored. -/
def setTangentVisible (a : Analysis) (visible : Bool) : Analysis :=
  { a with
    parameters := { a.parameters with showTangent := visible }
    tangent := if visible then tangentLine? a.xs a.parameters.x0 a.value a.slope else none }

def setAreaVisible (a : Analysis) (visible : Bool) : Analysis :=
  { a with parameters := { a.parameters with showArea := visible } }

/-- Carries out the toggles that are given. -/
def toggle (a : Analysis) (tangent shaded : Option Bool) : Analysis :=
  let a := match tangent with
    | some visible => a.setTangentVisible visible
    | none => a
  match shaded with
  | some visible => a.setAreaVisible visible
  | none => a

end Analysis

/-- The whole analysis of a function. -/
def Compiled.analyze (f : Compiled) (p : Parameters) (settings : Settings) :
    Except Error Analysis := do
  requireFinite "x0" p.x0
  requireFinite "a" p.a
  requireFinite "b" p.b
  let samples ← f.sample p.xMin p.xMax p.points settings
  let plain : Analysis :=
    { expression := f.source
      parameters := p
      xs := samples.xs
      ys := samples.ys
      value := f.value? p.x0
      slope := f.slope? p.x0 settings.derivativeStep
      area := f.area? p.a p.b settings.integralSamples
      window := Window.ofSamples settings samples.ys
      tangent := none }
  return plain.setTangentVisible p.showTangent

/-! Room: the grid of a function is made as a whole, and so is the one of its area. -/

/-- The points of the grid of an area; between equal bounds there is none. -/
def Parameters.areaPoints (p : Parameters) (settings : Settings) : Nat :=
  if p.a == p.b then 0 else max settings.integralSamples leastPoints

/-- A grid that there is no room for: that of a function, or that of the area after its samples. -/
inductive Shortage
  | domain
  | area (samples : Samples)

/-- Where an analysis comes to a grid that there is no room for, if it does. What is refused before is
not sampled at all. -/
def Compiled.shortage? (f : Compiled) (p : Parameters) (settings : Settings) (room : Nat) :
    Option Shortage := do
  (requireFinite "x0" p.x0).toOption
  (requireFinite "a" p.a).toOption
  (requireFinite "b" p.b).toOption
  (requireGrid p.xMin p.xMax p.points settings).toOption
  if room < p.points then return .domain
  if room < p.areaPoints settings then return .area (f.samplesOn p.xMin p.xMax p.points)
  none

/-- Compiles a text, a fault of it being one of a function. -/
def Compiled.ofText (text : String) : Except Error Compiled :=
  match compile text with
  | .ok f => .ok f
  | .error e => .error (.text e)

end Formulary.Calculus
