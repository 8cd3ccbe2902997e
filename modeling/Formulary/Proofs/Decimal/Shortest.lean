import Formulary.Proofs.Decimal.Rounding

/-! The shortest decimal of a number lies in its cell. Among the decimals with seventeen digits there is
always one that does, so the search for a shorter one ends. -/
namespace Formulary.Decimal

variable {m : ℕ} {e : ℤ}

/-! The interval of a number is its cell -/

/-- Quarters of the last place and places of the grid are compared on one scale. -/
lemma exists_scale (e k : ℤ) : ∃ c : ℚ, 0 < c ∧ ∀ a d : ℕ,
    ((a * ((powTwo (e - 2)).1 * (powTen k).2) : ℕ) : ℚ) = a / 4 * 2 ^ e * c ∧
      ((d * ((powTwo (e - 2)).2 * (powTen k).1) : ℕ) : ℚ) = d * 10 ^ k * c := by
  have h2 : (0 : ℚ) < (powTwo (e - 2)).2 := by exact_mod_cast (powTwo_pos _).2
  have h10 : (0 : ℚ) < (powTen k).2 := by exact_mod_cast (powTen_pos _).2
  have hquarter : (2 : ℚ) ^ e = 4 * 2 ^ (e - 2) := by
    rw [zpow_sub₀ two_ne_zero]
    ring
  refine ⟨(powTwo (e - 2)).2 * (powTen k).2,by positivity,fun a d => ⟨?_,?_⟩⟩
  · rw [hquarter,← powTwo_ratio]
    push_cast
    field_simp
  · rw [← powTen_ratio]
    push_cast
    field_simp

lemma holds_iff (hm : 0 < m) (e k : ℤ) (d : ℕ) :
    (interval m e).holds m ((powTwo (e - 2)).1 * (powTen k).2) ((powTwo (e - 2)).2 * (powTen k).1) d
      = true ↔ InCell m e (d * 10 ^ k) := by
  obtain ⟨c,hc,hscale⟩ := exists_scale e k
  have hbelow : (((4 * m - (interval m e).below : ℕ) : ℚ)) / 4 = m - reachBelow m e := by
    simp only [interval,reachBelow,Nat.pow_eq]
    split_ifs
    · rw [Nat.cast_sub (by omega)]
      push_cast
      ring
    · rw [Nat.cast_sub (by omega)]
      push_cast
      ring
  have habove : (((4 * m + (interval m e).above : ℕ) : ℚ)) / 4 = m + 1 / 2 := by
    simp only [interval]
    push_cast
    ring
  have hcmp (a : ℕ) (x : ℚ) (hx : (a : ℚ) / 4 = x) :
      (a * ((powTwo (e - 2)).1 * (powTen k).2) ≤ d * ((powTwo (e - 2)).2 * (powTen k).1) ↔
        x * 2 ^ e ≤ d * 10 ^ k) ∧
      (d * ((powTwo (e - 2)).2 * (powTen k).1) ≤ a * ((powTwo (e - 2)).1 * (powTen k).2) ↔
        d * 10 ^ k ≤ x * 2 ^ e) := by
    obtain ⟨ha,hd⟩ := hscale a d
    rw [← Nat.cast_le (α := ℚ),← Nat.cast_le (α := ℚ),ha,hd,hx]
    exact ⟨mul_le_mul_iff_of_pos_right hc,mul_le_mul_iff_of_pos_right hc⟩
  obtain ⟨hlow,hlow'⟩ := hcmp _ _ hbelow
  obtain ⟨hhigh',hhigh⟩ := hcmp _ _ habove
  have hclosed : (interval m e).closed = (m % 2 == 0) := rfl
  simp only [Interval.holds,InCell,hclosed]
  by_cases heven : m % 2 = 0
  · simp [heven,hlow,hhigh]
  · simp [heven,← not_le,hlow',hhigh']

/-! Decimals on a grid -/

lemma inCell_of_onGrid {tie : Tie} {k : ℤ} {s : Scientific} (hm : 0 < m)
    (h : onGrid tie m e k = some s) : InCell m e (s.significand * 10 ^ s.exponent) := by
  simp only [onGrid] at h
  split_ifs at h with h1 h2 h3
  · cases h
    exact (holds_iff hm e k _).mp h1
  · cases h
    exact (holds_iff hm e k _).mp h2
  · cases h
    exact (holds_iff hm e k _).mp h3

/-- The nearest place of a grid is taken, if it lies in the cell. -/
lemma onGrid_nearest {tie : Tie} {k : ℤ} (hm : 0 < m)
    (h : InCell m e (roundDiv tie (4 * m * ((powTwo (e - 2)).1 * (powTen k).2))
      ((powTwo (e - 2)).2 * (powTen k).1) * 10 ^ k)) : (onGrid tie m e k).isSome = true := by
  have hholds := (holds_iff hm e k _).mpr h
  simp only [onGrid,hholds,↓reduceIte,Option.isSome_some]

/-- A place within half a step of the number lies in its cell, if the step is short. -/
lemma inCell_of_abs_sub_le {q : ℚ} {step : ℚ} (hc : IsCanonical m e) (hq : |m * 2 ^ e - q| ≤ step / 2)
    (hstep : step ≤ m * 2 ^ e / 10 ^ 16) : InCell m e q := by
  have hp : (0 : ℚ) < 2 ^ e := by positivity
  have hlt : (m : ℚ) + 1 ≤ 2 ^ 53 := by exact_mod_cast hc.lt
  have hshort : step / 2 < reachBelow m e * 2 ^ e := by
    unfold reachBelow
    split_ifs with h
    · obtain ⟨rfl,-⟩ := h
      push_cast at hstep
      nlinarith
    · nlinarith
  have hreach := reachBelow_le m e
  rw [abs_le] at hq
  have hlow : (m - reachBelow m e) * 2 ^ e < q := by linarith
  have hhigh : q < (m + 1 / 2) * 2 ^ e := by nlinarith
  unfold InCell
  split_ifs
  · exact ⟨hlow.le,hhigh.le⟩
  · exact ⟨hlow,hhigh⟩

/-! The order in tens -/

/-- The order of a ratio below one, read off from the ratio upside down. -/
lemma log_ten_of_lt {num den : ℕ} (hnum : 0 < num) (hlt : num < den) :
    Int.log 10 ((num : ℚ) / den) = -digitCount ((den + num - 1) / num - 1) := by
  have hden : (0 : ℚ) < den := by exact_mod_cast hnum.trans hlt
  set c := (den + num - 1) / num
  have hfloor : num * c ≤ den + num - 1 := Nat.mul_div_le _ _
  have hceil : den + num - 1 < num * c + num := Nat.lt_mul_div_succ _ hnum
  have hpos : 0 < c - 1 := by
    by_contra hsmall
    have : num * c ≤ num * 1 := Nat.mul_le_mul_left num (by omega)
    omega
  have hsub : num * (c - 1) = num * c - num := Nat.mul_sub_one num c
  have hup : den ≤ num * 10 ^ (Nat.log 10 (c - 1) + 1) := by
    have := Nat.lt_pow_succ_log_self (show 1 < 10 by decide) (c - 1)
    have := Nat.mul_le_mul_left num (show c ≤ 10 ^ (Nat.log 10 (c - 1) + 1) by omega)
    omega
  have hdown : num * 10 ^ Nat.log 10 (c - 1) < den := by
    have := Nat.mul_le_mul_left num (Nat.pow_log_le_self 10 hpos.ne')
    omega
  rw [digitCount_eq hpos]
  refine log_eq_of_zpow (by decide) ?_ ?_
  · rw [Nat.cast_ofNat,zpow_neg,zpow_natCast,inv_le_iff_one_le_mul₀ (by positivity),
      div_mul_eq_mul_div,one_le_div hden]
    exact_mod_cast hup
  · rw [Nat.cast_ofNat,Nat.cast_add_one,neg_add,neg_add_cancel_right,zpow_neg,zpow_natCast,
      lt_inv_comm₀ (by positivity) (by positivity),inv_div,lt_div_iff₀ (by positivity),mul_comm]
    exact_mod_cast hdown

lemma decimalOrder_eq {num den : ℕ} (hnum : 0 < num) (hden : 0 < den) :
    decimalOrder num den = Int.log 10 ((num : ℚ) / den) + 1 := by
  unfold decimalOrder
  split_ifs with hle
  · have hone : (1 : ℚ) ≤ num / den := by
      rw [one_le_div (by exact_mod_cast hden)]
      exact_mod_cast hle
    rw [Int.log_of_one_le_right 10 hone,Nat.floor_div_eq_div,digitCount_eq (Nat.div_pos hle hden)]
    push_cast
    rfl
  · rw [log_ten_of_lt hnum (not_le.mp hle)]
    ring

lemma zpow_log_le {q : ℚ} (hq : 0 < q) : (10 : ℚ) ^ Int.log 10 q ≤ q := by
  exact_mod_cast Int.zpow_log_le_self (show 1 < 10 by decide) hq

/-- Seventeen digits suffice. -/
lemma onGrid_seventeen (tie : Tie) (hm : 0 < m) (hc : IsCanonical m e) :
    (onGrid tie m e (Int.log 10 (m * 2 ^ e : ℚ) - 16)).isSome = true := by
  set k := Int.log 10 (m * 2 ^ e : ℚ) - 16 with hk
  have hp : (0 : ℚ) < m * 2 ^ e := by
    have : (0 : ℚ) < m := by exact_mod_cast hm
    positivity
  have hstep : (10 : ℚ) ^ k ≤ m * 2 ^ e / 10 ^ 16 := by
    rw [hk,zpow_sub₀ (by norm_num)]
    exact div_le_div_of_nonneg_right (zpow_log_le hp) (by positivity)
  obtain ⟨c,hc',hscale⟩ := exists_scale e k
  refine onGrid_nearest hm (inCell_of_abs_sub_le hc ?_ hstep)
  set num := (powTwo (e - 2)).1 * (powTen k).2
  set den := (powTwo (e - 2)).2 * (powTen k).1 with hden
  have hdpos : 0 < den := Nat.mul_pos (powTwo_pos _).2 (powTen_pos _).1
  have hratio : ((4 * m * num : ℕ) : ℚ) / den = m * 2 ^ e / 10 ^ k := by
    have hn := (hscale (4 * m) 1).1
    have hd := (hscale 0 1).2
    rw [one_mul] at hd
    rw [hn,hd]
    push_cast
    field_simp
  have hnear := abs_roundDiv_sub_le tie (4 * m * num) hdpos
  rw [hratio] at hnear
  have hten : (0 : ℚ) < 10 ^ k := by positivity
  set nearest := roundDiv tie (4 * m * num) den
  calc |(m * 2 ^ e - nearest * 10 ^ k : ℚ)|
    _ = |(m * 2 ^ e / 10 ^ k - nearest : ℚ)| * 10 ^ k := by
        rw [← abs_of_pos hten,← abs_mul,abs_of_pos hten,sub_mul,div_mul_cancel₀ _ hten.ne']
    _ ≤ 1 / 2 * 10 ^ k := by gcongr
    _ = 10 ^ k / 2 := by ring

/-- The zeros at the end of a number's digits are a power of ten in it. -/
lemma pow_trailing_dvd (n : ℕ) :
    10 ^ ((Nat.toDigits 10 n).reverse.takeWhile (· == '0')).length ∣ n := by
  set digits := Nat.toDigits 10 n
  set zeros := digits.reverse.takeWhile (· == '0')
  have hzeros : zeros.reverse = List.replicate zeros.length '0' := by
    rw [List.eq_replicate_iff]
    exact ⟨List.length_reverse,fun c hc => by
      simpa using List.mem_takeWhile_imp (List.mem_reverse.mp hc)⟩
  have hdigits : (digits.reverse.dropWhile (· == '0')).reverse ++ List.replicate zeros.length '0' =
      digits := by
    rw [← hzeros,← List.reverse_append,List.takeWhile_append_dropWhile,List.reverse_reverse]
  have hn : Nat.ofDigitChars 10 digits 0 = n := Nat.ofDigitChars_ten_toDigits
  rw [← hdigits,Nat.ofDigitChars_append,Nat.ofDigitChars_replicate_zero] at hn
  exact ⟨_,hn.symm⟩

/-- Dropping zeros does not change a decimal. -/
lemma normal_value (s : Scientific) :
    (s.normal.significand : ℚ) * 10 ^ s.normal.exponent = s.significand * 10 ^ s.exponent := by
  obtain ⟨n,hn⟩ := pow_trailing_dvd s.significand
  simp only [Scientific.normal,Nat.pow_eq]
  set zeros := ((Nat.toDigits 10 s.significand).reverse.takeWhile (· == '0')).length
  rw [hn,Nat.mul_div_cancel_left _ (by positivity),zpow_add₀ (by norm_num),zpow_natCast]
  push_cast
  ring

/-- The shortest decimal of a number lies in its cell. -/
theorem inCell_shortest (tie : Tie) (hm : 0 < m) (hc : IsCanonical m e) :
    InCell m e ((shortest tie m e).significand * 10 ^ (shortest tie m e).exponent) := by
  have horder : decimalOrder (m * (powTwo e).1) (powTwo e).2 = Int.log 10 (m * 2 ^ e : ℚ) + 1 := by
    rw [decimalOrder_eq (Nat.mul_pos hm (powTwo_pos e).1) (powTwo_pos e).2,← powTwo_ratio,
      ← mul_div_assoc]
    push_cast
    rfl
  simp only [shortest,normal_value,horder]
  cases hfound : (List.range 17).findSome? fun (n : ℕ) =>
      onGrid tie m e (Int.log 10 (m * 2 ^ e : ℚ) + 1 - 1 - n) with
  | none =>
    have hnone := List.findSome?_eq_none_iff.mp hfound 16 (by decide)
    have hsome := onGrid_seventeen tie hm hc
    rw [add_sub_cancel_right,Nat.cast_ofNat] at hnone
    rw [hnone] at hsome
    cases hsome
  | some s =>
    obtain ⟨n,-,hs⟩ := List.exists_of_findSome?_eq_some hfound
    exact inCell_of_onGrid hm hs

/-- Zero lies in no cell but its own. -/
lemma significand_shortest_pos (tie : Tie) (hm : 0 < m) (hc : IsCanonical m e) :
    0 < (shortest tie m e).significand := by
  have hcell := (inCell_shortest tie hm hc).bounds.1
  have hone : (1 : ℚ) ≤ m := by exact_mod_cast hm
  have hlow : (0 : ℚ) < (m - 1 / 2) * 2 ^ e := mul_pos (by linarith) (by positivity)
  refine Nat.pos_of_ne_zero fun hzero => ?_
  rw [hzero,Nat.cast_zero,zero_mul] at hcell
  linarith

end Formulary.Decimal
