import Formulary.Proofs.Decimal.Arithmetic
import Formulary.Calculus.Analysis

/-! Numbers of an analysis that are not filtered. Every point of a grid is finite; the window of a flat
curve and a tangent are finite as long as no step of their computation leaves the range. -/
namespace Formulary.Calculus
open Decimal

/-! Grids -/

variable {lo hi : Float} {last i n : ℕ}

lemma isFinite_ofNat (h : n ≤ 2 ^ 64) : (Float.ofNat n).isFinite = true := by
  refine (isNearest_ofNat n).isFinite_iff.mpr (inRange_of_abs_le ?_)
  rw [Nat.abs_cast]
  exact le_greatest_of_le h

lemma isFinite_one : (Float.ofNat 1).isFinite = true := isFinite_ofNat (by decide)

lemma rational_one : rational (Float.ofNat 1) = 1 := by
  have h : IsNearest (((1 : ℕ) : ℚ) * 2 ^ (0 : ℤ)) (Float.ofNat 1) := by
    simpa using isNearest_ofNat 1
  simpa using (h.exact (by decide) (by decide) (by simpa using le_greatest_of_le (n := 1) (by decide))).2

/-- How far along a grid a point is. -/
lemma part_of_grid (hi : i < last) (hlast : last ≤ 2 ^ 64) :
    (Float.ofNat i / Float.ofNat last).isFinite = true ∧
      0 ≤ rational (Float.ofNat i / Float.ofNat last) ∧
      rational (Float.ofNat i / Float.ofNat last) ≤ 1 := by
  have hfin := isFinite_ofNat hlast
  have hlt : (i : ℚ) < last := by exact_mod_cast hi
  obtain ⟨hfin',h0,hle⟩ := (isNearest_ofNat i).mono (isNearest_ofNat last) i.cast_nonneg hlt hfin
  have hpos : 0 < rational (Float.ofNat last) :=
    zero_lt_one.trans_le ((isNearest_ofNat last).one_le (by exact_mod_cast by omega) hfin)
  obtain ⟨h,h1,h2,-⟩ := (isNearest_div hfin' hfin hpos.ne').part (div_nonneg h0 hpos.le)
    ((div_le_one hpos).mpr hle)
  exact ⟨h,h1,h2⟩

/-- Each of the two products stays below its part of the greatest number, and the two parts make one,
up to less than half a place. -/
theorem isFinite_gridPoint (hlo : lo.isFinite = true) (hhi : hi.isFinite = true) (hi' : i < last)
    (hlast : last ≤ 2 ^ 64) : (gridPoint Float.ofNat lo hi last i).isFinite = true := by
  obtain ⟨ht,ht0,ht1⟩ := part_of_grid hi' hlast
  set t := Float.ofNat i / Float.ofNat last with htdef
  have hrest := isNearest_sub isFinite_one ht
  rw [rational_one] at hrest
  obtain ⟨hs,hs0,hs1,hsle⟩ := hrest.part (sub_nonneg.mpr ht1) (sub_le_self 1 ht0)
  obtain ⟨hp,hple⟩ := (isNearest_mul hlo hs).abs_le_scaled hlo hs hs0 hs1
  obtain ⟨hq,hqle⟩ := (isNearest_mul hhi ht).abs_le_scaled hhi ht ht0 ht1
  refine (isNearest_add hp hq).isFinite_iff.mpr ?_
  have hg : 0 ≤ greatest := mul_nonneg (by norm_num) (zpow_pos two_pos _).le
  calc |rational (lo * (Float.ofNat 1 - t)) + rational (hi * t)|
      ≤ |rational (lo * (Float.ofNat 1 - t))| + |rational (hi * t)| := abs_add_le _ _
    _ ≤ greatest * rational (Float.ofNat 1 - t) + greatest * rational t := add_le_add hple hqle
    _ = greatest * (rational (Float.ofNat 1 - t) + rational t) := (mul_add _ _ _).symm
    _ ≤ greatest * (1 + 2 ^ (-54 : ℤ)) := mul_le_mul_of_nonneg_left (by linarith) hg
    _ = (2 ^ 53 - 1) * (1 + 2 ^ (-54 : ℤ)) * 2 ^ greatestExponent := by
      rw [greatest]
      ring
    _ < (2 ^ 53 - 1 / 2) * 2 ^ greatestExponent :=
      mul_lt_mul_of_pos_right (by norm_num) (zpow_pos two_pos _)

theorem isFinite_of_mem_grid (hlo : lo.isFinite = true) (hhi : hi.isFinite = true)
    (hn : n ≤ 2 ^ 64) : ∀ x ∈ grid Float.ofNat lo hi n, x.isFinite = true := by
  match n with
  | 0 => simp [grid]
  | 1 => simpa [grid] using hlo
  | n + 2 =>
    intro x hx
    rw [grid,List.mem_append,List.mem_map,List.mem_singleton] at hx
    rcases hx with ⟨i,hi,rfl⟩ | rfl
    · exact isFinite_gridPoint hlo hhi (List.mem_range.mp hi) (by omega)
    · exact hhi

/-! Windows -/

lemma isFinite_of_finite? {v w : Float} (h : finite? v = some w) : w.isFinite = true := by
  unfold finite? at h
  split_ifs at h with hv
  exact Option.some.inj h ▸ hv


lemma lesser_eq_or (v w : Float) : lesser v w = v ∨ lesser v w = w := by
  unfold lesser
  split_ifs <;> simp

lemma greater_eq_or (v w : Float) : greater v w = v ∨ greater v w = w := by
  unfold greater
  split_ifs <;> simp

/-- What is chosen step by step is one of the values. -/
lemma foldl_mem {choose : Float → Float → Float} (h : ∀ v w, choose v w = v ∨ choose v w = w)
    (first : Float) (rest : List Float) : rest.foldl choose first ∈ first :: rest := by
  induction rest generalizing first with
  | nil => exact List.mem_cons_self
  | cons v rest ih =>
    have hmem := ih (choose first v)
    rw [List.foldl_cons]
    rcases h first v with h | h <;> rw [h] at hmem ⊢
    · rcases List.mem_cons.mp hmem with heq | hmem
      · exact List.mem_cons.mpr (.inl heq)
      · exact List.mem_cons_of_mem _ (List.mem_cons_of_mem _ hmem)
    · exact List.mem_cons_of_mem _ hmem

/-- Padding the curve, if it is flat, leads out of the range on neither side. -/
def PadsInRange (settings : Settings) (ys : List (Option Float)) : Prop :=
  match ys.filterMap id with
  | [] => True
  | first :: rest =>
    let w := extent first rest
    (w.lo == w.hi) = true → InRange (rational w.lo - rational settings.rangePadding) ∧
      InRange (rational w.hi + rational settings.rangePadding)

/-- Settings whose numbers are finite. -/
structure Settings.IsFinite (settings : Settings) : Prop where
  step : settings.derivativeStep.isFinite = true
  least : settings.defaultRange.1.isFinite = true
  greatest : settings.defaultRange.2.isFinite = true
  padding : settings.rangePadding.isFinite = true

/-- The window of a curve is finite exactly if padding leads nowhere out of the range. -/
theorem isFinite_ofSamples {settings : Settings} {ys : List (Option Float)}
    (hs : settings.IsFinite) (hys : ∀ y, some y ∈ ys → y.isFinite = true) :
    ((Window.ofSamples settings ys).lo.isFinite = true ∧
      (Window.ofSamples settings ys).hi.isFinite = true) ↔ PadsInRange settings ys := by
  unfold Window.ofSamples PadsInRange
  cases hdefined : ys.filterMap id with
  | nil => simpa using ⟨hs.least,hs.greatest⟩
  | cons first rest =>
    have hall : ∀ y ∈ first :: rest, y.isFinite = true := by
      intro y hy
      rw [← hdefined,List.mem_filterMap] at hy
      obtain ⟨o,ho,rfl⟩ := hy
      exact hys y ho
    have hlo : (extent first rest).lo.isFinite = true := hall _ (foldl_mem lesser_eq_or first rest)
    have hhi : (extent first rest).hi.isFinite = true := hall _ (foldl_mem greater_eq_or first rest)
    dsimp only
    split_ifs with hflat
    · rw [(isNearest_sub hlo hs.padding).isFinite_iff,(isNearest_add hhi hs.padding).isFinite_iff]
      exact ⟨fun h _ => h,fun h => h hflat⟩
    · exact ⟨fun _ h => absurd h hflat,fun _ => ⟨hlo,hhi⟩⟩

/-! Tangents -/

/-- The steps to a point of a tangent do not leave the range. -/
structure ReachesInRange (point value slope x : Float) : Prop where
  offset : InRange (rational x - rational point)
  rise : InRange (rational slope * rational (x - point))
  height : InRange (rational value + rational (slope * (x - point)))

/-- A point of a tangent is finite exactly if no step to it leaves the range. -/
theorem isFinite_tangentPoint {point value slope x : Float} (hpoint : point.isFinite = true)
    (hvalue : value.isFinite = true) (hslope : slope.isFinite = true) (hx : x.isFinite = true) :
    (value + slope * (x - point)).isFinite = true ↔ ReachesInRange point value slope x := by
  constructor
  · intro h
    have hrise := (isFinite_of_add h).2
    have hoffset := (isFinite_of_mul hrise).2
    exact ⟨(isNearest_sub hx hpoint).isFinite_iff.mp hoffset,
      (isNearest_mul hslope hoffset).isFinite_iff.mp hrise,
      (isNearest_add hvalue hrise).isFinite_iff.mp h⟩
  · intro h
    have hoffset := (isNearest_sub hx hpoint).isFinite_iff.mpr h.offset
    have hrise := (isNearest_mul hslope hoffset).isFinite_iff.mpr h.rise
    exact (isNearest_add hvalue hrise).isFinite_iff.mpr h.height

/-- A tangent that is drawn is finite exactly if all its points are reached in range. -/
theorem isFinite_tangentLine {xs : List Float} {point : Float} {value slope : Option Float}
    (hxs : ∀ x ∈ xs, x.isFinite = true) (hpoint : point.isFinite = true)
    (hvalue : ∀ v, value = some v → v.isFinite = true)
    (hslope : ∀ d, slope = some d → d.isFinite = true) :
    (∀ y ∈ (tangentLine? xs point value slope).getD [], y.isFinite = true) ↔
      ∀ v d, value = some v → slope = some d → ∀ x ∈ xs, ReachesInRange point v d x := by
  cases value with
  | none => simp [tangentLine?]
  | some v =>
    cases slope with
    | none => simp [tangentLine?]
    | some d =>
      have hpoints : (tangentLine? xs point (some v) (some d)).getD [] =
          xs.map fun x => v + d * (x - point) := rfl
      have hiff (x : Float) (hx : x ∈ xs) :=
        isFinite_tangentPoint hpoint (hvalue v rfl) (hslope d rfl) (hxs x hx)
      rw [hpoints,List.forall_mem_map]
      constructor
      · rintro h _ _ ⟨⟩ ⟨⟩ x hx
        exact (hiff x hx).mp (h x hx)
      · intro h x hx
        exact (hiff x hx).mpr (h v d rfl rfl x hx)

end Formulary.Calculus
