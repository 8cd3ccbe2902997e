import Formulary.Calculus.Grid
import Mathlib.Algebra.BigOperators.Intervals
import Mathlib.Tactic.FieldSimp
import Mathlib.Tactic.Ring

/-! The area under a function in exact arithmetic. It is a sum over equal steps, to which a step with an
undefined end adds nothing. The sum changes its sign when it is taken from the other end, whatever is
undefined, and telescopes under a straight line. -/
namespace Formulary.Calculus
open Finset

variable {f : ℚ → Option ℚ} {a b : ℚ} {steps : ℕ}

/-- The point that so many of the equal steps from `a` to `b` lead to. -/
def stepPoint (a b : ℚ) (steps i : ℕ) : ℚ :=
  a + (b - a) * i / steps

/-- The mean height of a chord, nothing when an end is undefined. -/
def meanHeight : Option ℚ → Option ℚ → ℚ
  | some y,some y' => (y + y') / 2
  | _,_ => 0

/-- The trapezoids over the equal steps from `a` to `b`. -/
def trapezoids (f : ℚ → Option ℚ) (a b : ℚ) (steps : ℕ) : ℚ :=
  ∑ i ∈ range steps,
    meanHeight (f (stepPoint a b steps i)) (f (stepPoint a b steps (i + 1))) * ((b - a) / steps)

/-- The function is defined at all of the points, and its values there lie on one straight line. -/
def IsStraightOn (f : ℚ → Option ℚ) (xs : List ℚ) : Prop :=
  ∃ slope level : ℚ, ∀ x ∈ xs, f x = some (slope * x + level)

/-! Steps -/

@[simp] lemma stepPoint_zero : stepPoint a b steps 0 = a := by
  simp [stepPoint]

lemma stepPoint_self (h : steps ≠ 0) : stepPoint a b steps steps = b := by
  have h' : (steps : ℚ) ≠ 0 := Nat.cast_ne_zero.mpr h
  rw [stepPoint]
  field_simp
  ring

lemma stepPoint_succ_sub (i : ℕ) :
    stepPoint a b steps (i + 1) - stepPoint a b steps i = (b - a) / steps := by
  simp only [stepPoint,Nat.cast_add,Nat.cast_one]
  ring

/-- So many steps from one end are the remaining ones from the other. -/
lemma stepPoint_swap {i j : ℕ} (h : steps ≠ 0) (hij : i + j = steps) :
    stepPoint b a steps i = stepPoint a b steps j := by
  have h' : (steps : ℚ) ≠ 0 := Nat.cast_ne_zero.mpr h
  have hij' : (j : ℚ) = steps - i := by
    rw [← hij,Nat.cast_add,add_sub_cancel_left]
  simp only [stepPoint,hij']
  field_simp
  ring

lemma gridPoint_eq_stepPoint (i : ℕ) : gridPoint Nat.cast a b steps i = stepPoint a b steps i := by
  simp only [gridPoint,stepPoint,Nat.cast_one]
  ring

/-- A grid is made of equal steps, the last of which ends in `b` without being set there. -/
lemma grid_eq_map (h : steps ≠ 0) :
    grid Nat.cast a b (steps + 1) = (List.range (steps + 1)).map (stepPoint a b steps) := by
  obtain ⟨m,rfl⟩ := Nat.exists_eq_succ_of_ne_zero h
  rw [grid,List.range_succ (n := m.succ),List.map_append,List.map_singleton,stepPoint_self h]
  exact congrArg (· ++ [b]) (List.map_congr_left fun i _ => gridPoint_eq_stepPoint i)

/-! Chords -/

lemma meanHeight_comm (y y' : Option ℚ) : meanHeight y y' = meanHeight y' y := by
  cases y <;> cases y' <;> simp [meanHeight,add_comm]

lemma chordArea_eq (sum x x' : ℚ) (y y' : Option ℚ) :
    chordArea (1 / 2) sum (x,y) (x',y') = sum + meanHeight y y' * (x' - x) := by
  cases y with
  | none => simp [chordArea,meanHeight]
  | some v =>
    cases y' with
    | none => simp [chordArea,meanHeight]
    | some v' =>
      simp only [chordArea,meanHeight]
      ring

lemma chordAreas_append {α : Type} [Add α] [Sub α] [Mul α] (half sum : α)
    (ps : List (α × Option α)) (p q : α × Option α) :
    chordAreas half sum (ps ++ [p,q]) = chordArea half (chordAreas half sum (ps ++ [p])) p q := by
  -- the sum so far is general, for each chord in front of the last one changes it
  induction ps generalizing sum with
  | nil => rfl
  | cons r ps ih =>
    cases ps with
    | nil => rfl
    | cons s ps => exact ih (chordArea half sum r s)

/-- The chords over a row of points add up one by one. -/
lemma chordAreas_map_range (x : ℕ → ℚ) (y : ℕ → Option ℚ) (n : ℕ) :
    chordAreas (1 / 2) 0 ((List.range (n + 1)).map fun i => (x i,y i)) =
      ∑ i ∈ range n, meanHeight (y i) (y (i + 1)) * (x (i + 1) - x i) := by
  induction n with
  | zero => rfl
  | succ n ih =>
    rw [List.range_succ,List.map_append] at ih
    rw [List.range_succ,List.range_succ,List.append_assoc,List.map_append]
    refine (chordAreas_append _ _ _ _ _).trans ?_
    rw [sum_range_succ,← ih,chordArea_eq]
    rfl

/-- The area is the sum of the trapezoids over one step less than there are points. -/
theorem area_eq_trapezoids (f : ℚ → Option ℚ) (a b : ℚ) (n : ℕ) :
    area Nat.cast f a b n = trapezoids f a b (max n 2 - 1) := by
  have hsteps : max n 2 - 1 ≠ 0 := by omega
  have hpoints : max n 2 = max n 2 - 1 + 1 := by omega
  unfold area
  split_ifs with h
  · -- no step between equal bounds has a width
    obtain rfl : a = b := by simpa using h
    simp [trapezoids]
  · rw [hpoints,grid_eq_map hsteps,List.map_map]
    simp only [Nat.cast_one,Nat.cast_ofNat,Nat.cast_zero,Nat.add_sub_cancel]
    refine (chordAreas_map_range _ _ _).trans (sum_congr rfl fun i _ => ?_)
    rw [stepPoint_succ_sub]

-- of the four steps the two on the left touch a gap
example : area Nat.cast (fun x : ℚ => if x < 0 then none else some x) (-1) 1 5 = 1 / 2 := by
  decide +kernel

/-! Orientation -/

/-- From the other end the same chords are met in reverse, each over a step the other way. -/
lemma trapezoids_swap (f : ℚ → Option ℚ) (a b : ℚ) (steps : ℕ) :
    trapezoids f b a steps = -trapezoids f a b steps := by
  -- the sum from `b` is read backwards, so that its terms stand over the steps from `a`
  rw [trapezoids,trapezoids,← sum_range_reflect,← sum_neg_distrib]
  refine sum_congr rfl fun i hi => ?_
  have hlt := mem_range.mp hi
  have h : steps ≠ 0 := by omega
  have hnear : stepPoint b a steps (steps - 1 - i) = stepPoint a b steps (i + 1) :=
    stepPoint_swap h (by omega)
  have hfar : stepPoint b a steps (steps - 1 - i + 1) = stepPoint a b steps i :=
    stepPoint_swap h (by omega)
  rw [hnear,hfar,meanHeight_comm]
  ring

/-! Straight pieces -/

/-- The parabola through the origin whose slope is the height of a line. -/
def parabola (slope level x : ℚ) : ℚ :=
  slope / 2 * x ^ 2 + level * x

/-- Under a line a trapezoid is the exact area, the difference of the parabola at its two sides. -/
lemma meanHeight_mul_eq_parabola (slope level x x' : ℚ) :
    meanHeight (some (slope * x + level)) (some (slope * x' + level)) * (x' - x) =
      parabola slope level x' - parabola slope level x := by
  simp only [meanHeight,parabola]
  ring

lemma stepPoint_mem_grid {i : ℕ} (h : steps ≠ 0) (hi : i ≤ steps) :
    stepPoint a b steps i ∈ grid Nat.cast a b (steps + 1) := by
  rw [grid_eq_map h]
  exact List.mem_map_of_mem (List.mem_range.mpr (Nat.lt_succ_of_le hi))

lemma trapezoids_of_straight (h : steps ≠ 0) (hf : IsStraightOn f (grid Nat.cast a b (steps + 1))) :
    ∃ ya yb, f a = some ya ∧ f b = some yb ∧ trapezoids f a b steps = (ya + yb) / 2 * (b - a) := by
  obtain ⟨slope,level,hf⟩ := hf
  have hstep {i : ℕ} (hi : i ≤ steps) := hf _ (stepPoint_mem_grid h hi)
  have ha := hstep (Nat.zero_le _)
  have hb := hstep le_rfl
  rw [stepPoint_zero] at ha
  rw [stepPoint_self h] at hb
  refine ⟨_,_,ha,hb,?_⟩
  calc trapezoids f a b steps
      = ∑ i ∈ range steps, (parabola slope level (stepPoint a b steps (i + 1)) -
          parabola slope level (stepPoint a b steps i)) := by
        refine sum_congr rfl fun i hi => ?_
        have hlt := mem_range.mp hi
        rw [hstep hlt.le,hstep hlt,← stepPoint_succ_sub i,meanHeight_mul_eq_parabola]
    _ = parabola slope level (stepPoint a b steps steps) -
          parabola slope level (stepPoint a b steps 0) :=
        sum_range_sub (fun i => parabola slope level (stepPoint a b steps i)) steps
    _ = parabola slope level b - parabola slope level a := by
        rw [stepPoint_self h,stepPoint_zero]
    _ = (slope * a + level + (slope * b + level)) / 2 * (b - a) := by
        simp only [parabola]
        ring

/-- The area is the sum of the trapezoids whose two ends are defined. It is negated when the bounds are
exchanged, wherever the function is undefined, and nothing between equal bounds. Under a straight piece
it is the mean height of the ends times the distance of the bounds. Fewer than two points count as two. -/
theorem area_oriented (f : ℚ → Option ℚ) (a b : ℚ) (n : ℕ) :
    area Nat.cast f a b n = trapezoids f a b (max n 2 - 1) ∧
    area Nat.cast f b a n = -area Nat.cast f a b n ∧
    area Nat.cast f a a n = 0 ∧
    (IsStraightOn f (grid Nat.cast a b (max n 2)) → ∃ ya yb, f a = some ya ∧ f b = some yb ∧
      area Nat.cast f a b n = (ya + yb) / 2 * (b - a)) := by
  have hpoints : max n 2 = max n 2 - 1 + 1 := by omega
  refine ⟨area_eq_trapezoids f a b n,?_,by simp [area],fun hf => ?_⟩
  · rw [area_eq_trapezoids,area_eq_trapezoids,trapezoids_swap]
  · rw [hpoints] at hf
    rw [area_eq_trapezoids]
    exact trapezoids_of_straight (by omega) hf

/-- A straight piece that ends at a bound, from the right to the left and back. -/
theorem area_oriented_falling :
    let f : ℚ → Option ℚ := fun x => if x ≤ 3 then some (2 * x + 1) else none
    IsStraightOn f (grid Nat.cast 3 (-1) 5) ∧ area Nat.cast f 3 (-1) 5 = -12 ∧
      area Nat.cast f (-1) 3 5 = 12 := by
  intro f
  have hf : IsStraightOn f (grid Nat.cast 3 (-1) 5) := ⟨2,1,by decide +kernel⟩
  obtain ⟨-,hswap,-,hstraight⟩ := area_oriented f 3 (-1) 5
  obtain ⟨ya,yb,ha,hb,harea⟩ := hstraight hf
  have hleft : f 3 = some 7 := by decide +kernel
  have hright : f (-1) = some (-1) := by decide +kernel
  obtain rfl : 7 = ya := Option.some.inj (hleft.symm.trans ha)
  obtain rfl : -1 = yb := Option.some.inj (hright.symm.trans hb)
  have hfall : area Nat.cast f 3 (-1) 5 = -12 := by
    rw [harea]
    norm_num
  exact ⟨hf,hfall,by rw [hswap,hfall,neg_neg]⟩

end Formulary.Calculus
