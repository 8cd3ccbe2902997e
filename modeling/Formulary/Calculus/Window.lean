import Formulary.Calculus.Error

/-! The settings of numeric work and the vertical window of a curve. A curve without a defined value
takes the window of the settings, and a flat one is padded on both sides. -/
namespace Formulary.Calculus

structure Settings where
  /-- The step of the central difference. -/
  derivativeStep : Float
  /-- How many points an area is computed from. -/
  integralSamples : Nat
  /-- The most points a grid may have. -/
  maxPoints : Nat
  /-- The window of a curve without a defined value. -/
  defaultRange : Float × Float
  /-- What is added on both sides of a flat curve. -/
  rangePadding : Float

def Settings.standard : Settings :=
  ⟨0.0001,1600,100000,(-1.0,1.0),1.0⟩

structure Window where
  lo : Float
  hi : Float
  deriving DecidableEq

/-- The lesser of two numbers; a value that is no number counts for nothing. -/
def lesser (a b : Float) : Float :=
  if a.isNaN then b else if b.isNaN then a else if b < a then b else a

def greater (a b : Float) : Float :=
  if a.isNaN then b else if b.isNaN then a else if a < b then b else a

/-- The least and the greatest of some values. -/
def extent (first : Float) (rest : List Float) : Window :=
  ⟨rest.foldl lesser first,rest.foldl greater first⟩

/-- The vertical window of a list of samples. -/
def Window.ofSamples (settings : Settings) (ys : List (Option Float)) : Window :=
  match ys.filterMap id with
  | [] => ⟨settings.defaultRange.1,settings.defaultRange.2⟩
  | first :: rest =>
    let w := extent first rest
    if w.lo == w.hi then ⟨w.lo - settings.rangePadding,w.hi + settings.rangePadding⟩ else w

end Formulary.Calculus
