/-! Equally spaced points and the trapezoid rule, over any numbers with the four operations. The
span of a grid is never formed, so far ends give a finite grid. A sub-interval with an undefined end
adds nothing to an area. -/
namespace Formulary.Calculus

variable {α : Type} [Add α] [Sub α] [Mul α] [Div α]

/-- The point of index `i` on a grid whose last index is `last`. `cast` embeds the naturals. -/
def gridPoint (cast : Nat → α) (lo hi : α) (last i : Nat) : α :=
  let t := cast i / cast last
  lo * (cast 1 - t) + hi * t

/-- So many equally spaced points, the first of them `lo` and the last, if there are two, `hi`. -/
def grid (cast : Nat → α) (lo hi : α) : Nat → List α
  | 0 => []
  | 1 => [lo]
  | n + 2 => (List.range (n + 1)).map (gridPoint cast lo hi (n + 1)) ++ [hi]

@[simp] theorem length_grid (cast : Nat → α) (lo hi : α) (n : Nat) :
    (grid cast lo hi n).length = n := by
  match n with
  | 0 => rfl
  | 1 => rfl
  | n + 2 => simp [grid]

/-- The area under one chord, nothing when an end is undefined. -/
def chordArea (half : α) (sum : α) : α × Option α → α × Option α → α
  | (x,some y),(x',some y') => sum + half * (y + y') * (x' - x)
  | _,_ => sum

/-- Adds the areas under all chords of a list of points to a sum, from the first chord on. -/
def chordAreas (half : α) (sum : α) : List (α × Option α) → α
  | [] => sum
  | [_] => sum
  | p :: q :: rest => chordAreas half (chordArea half sum p q) (q :: rest)

/-- The area between `a` and `b` by the trapezoid rule on at least two points. -/
def area [BEq α] (cast : Nat → α) (f : α → Option α) (a b : α) (samples : Nat) : α :=
  if a == b then cast 0
  else
    chordAreas (cast 1 / cast 2) (cast 0)
      ((grid cast a b (max samples 2)).map fun x => (x,f x))

end Formulary.Calculus
