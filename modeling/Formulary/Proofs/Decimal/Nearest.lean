import Formulary.Proofs.Decimal.Rounding

/-! Magnitudes rounded to multiples of their last place. What is rounded passes no number of the format,
and the greatest number of the format, scaled by another, bounds what is rounded below it. -/
namespace Formulary.Decimal

/-- `mantissa · 2 ^ exponent` is nearest to a magnitude among the numbers of the format, of which there
is no greatest one here. Half way between two neighbours, the even mantissa is taken. -/
structure Rounds (x : ℚ) (mantissa : ℕ) (exponent : ℤ) : Prop where
  nonneg : 0 ≤ x
  near : |x - mantissa * 2 ^ exponent| ≤ 2 ^ exponent / 2
  even : |x - mantissa * 2 ^ exponent| = 2 ^ exponent / 2 → mantissa % 2 = 0
  least : leastExponent ≤ exponent
  below : x < 2 ^ 53 * 2 ^ exponent
  leading : leastExponent < exponent → 2 ^ 52 * 2 ^ exponent ≤ x

/-- The exponent of the greatest numbers that are finite. -/
def greatestExponent : ℤ := 971

/-- The greatest number that is finite. -/
def greatest : ℚ := (2 ^ 53 - 1) * 2 ^ greatestExponent

/-- Within half a place beyond the greatest number. -/
def InRange (x : ℚ) : Prop := |x| < (2 ^ 53 - 1 / 2) * 2 ^ greatestExponent

lemma inRange_of_abs_le {x : ℚ} (h : |x| ≤ greatest) : InRange x := by
  have hp : (0 : ℚ) < 2 ^ greatestExponent := zpow_pos two_pos _
  exact h.trans_lt (mul_lt_mul_of_pos_right (by norm_num) hp)

variable {x x' : ℚ} {k k' n : ℕ} {e e' j : ℤ}

lemma mul_zpow_le_iff {a b : ℚ} : a * 2 ^ e ≤ b * 2 ^ e ↔ a ≤ b :=
  mul_le_mul_iff_left₀ (zpow_pos two_pos e)

lemma le_of_mul_zpow_lt {a b : ℕ} (h : (a : ℚ) * 2 ^ e < (b + 1) * 2 ^ e) : a ≤ b := by
  have hlt : (a : ℚ) < b + 1 := lt_of_mul_lt_mul_right h (zpow_pos two_pos e).le
  exact Nat.lt_succ_iff.mp (by exact_mod_cast hlt)

lemma two_pow_mul_zpow_le (h : j < e) : (2 : ℚ) ^ 53 * 2 ^ j ≤ 2 ^ 52 * 2 ^ e := by
  calc (2 : ℚ) ^ 53 * 2 ^ j = 2 ^ 52 * 2 ^ (j + 1) := by
        rw [zpow_add_one₀ two_ne_zero]
        ring
    _ ≤ 2 ^ 52 * 2 ^ e := by
      gcongr
      · norm_num
      · omega

/-- A number is as many last places as it has when its exponent is lowered. -/
lemma exists_places (n : ℕ) (h : e ≤ j) : ∃ m : ℕ, (n : ℚ) * 2 ^ j = m * 2 ^ e := by
  obtain ⟨d,hd⟩ := Int.eq_ofNat_of_zero_le (show 0 ≤ j - e by omega)
  refine ⟨n * 2 ^ d,?_⟩
  rw [show j = d + e by omega,zpow_add₀ two_ne_zero,zpow_natCast]
  push_cast
  ring

namespace Rounds

lemma mantissa_le (h : Rounds x k e) : k ≤ 2 ^ 53 := by
  have hp : (0 : ℚ) < 2 ^ e := zpow_pos two_pos e
  have hnear := (abs_le.mp h.near).1
  have hbelow := h.below
  refine le_of_mul_zpow_lt (e := e) ?_
  push_cast
  linarith

/-- Where the magnitude is a whole number of last places away, half a place decides nothing. -/
lemma le_of_places (h : Rounds x k e) (hx : x ≤ n * 2 ^ e) : k ≤ n := by
  have hp : (0 : ℚ) < 2 ^ e := zpow_pos two_pos e
  have hnear := (abs_le.mp h.near).1
  exact le_of_mul_zpow_lt (e := e) (by linarith)

lemma ge_of_places (h : Rounds x k e) (hx : n * 2 ^ e ≤ x) : n ≤ k := by
  have hp : (0 : ℚ) < 2 ^ e := zpow_pos two_pos e
  have hnear := (abs_le.mp h.near).2
  exact le_of_mul_zpow_lt (e := e) (by linarith)

/-- A number of the format that is not below a magnitude is not below what it is rounded to. -/
lemma le (h : Rounds x k e) (hn : n ≤ 2 ^ 53) (hj : leastExponent ≤ j) (hx : x ≤ n * 2 ^ j) :
    (k : ℚ) * 2 ^ e ≤ n * 2 ^ j := by
  have hn' : (n : ℚ) ≤ 2 ^ 53 := by exact_mod_cast hn
  rcases le_or_gt e j with hle | hlt
  · obtain ⟨m,hm⟩ := exists_places n hle
    rw [hm] at hx ⊢
    exact mul_zpow_le_iff.mpr (by exact_mod_cast h.le_of_places hx)
  · -- the magnitude is no less than any number with a lower exponent, so it is the greatest of them
    have hlead := h.leading (hj.trans_lt hlt)
    have hdouble := two_pow_mul_zpow_le hlt
    have hnj : (n : ℚ) * 2 ^ j ≤ 2 ^ 53 * 2 ^ j := mul_zpow_le_iff.mpr hn'
    have hk : k ≤ 2 ^ 52 := h.le_of_places (by push_cast; linarith)
    have hk' : (k : ℚ) ≤ 2 ^ 52 := by exact_mod_cast hk
    have := (mul_zpow_le_iff (e := e)).mpr hk'
    linarith

/-- A number of the format that is not above a magnitude is not above what it is rounded to. -/
lemma ge (h : Rounds x k e) (hn : n ≤ 2 ^ 53) (hj : leastExponent ≤ j) (hx : n * 2 ^ j ≤ x) :
    (n : ℚ) * 2 ^ j ≤ k * 2 ^ e := by
  have hn' : (n : ℚ) ≤ 2 ^ 53 := by exact_mod_cast hn
  rcases le_or_gt e j with hle | hlt
  · obtain ⟨m,hm⟩ := exists_places n hle
    rw [hm] at hx ⊢
    exact mul_zpow_le_iff.mpr (by exact_mod_cast h.ge_of_places hx)
  · have hk : 2 ^ 52 ≤ k := h.ge_of_places (by exact_mod_cast h.leading (hj.trans_lt hlt))
    have hk' : (2 : ℚ) ^ 52 ≤ k := by exact_mod_cast hk
    calc (n : ℚ) * 2 ^ j ≤ 2 ^ 53 * 2 ^ j := mul_zpow_le_iff.mpr hn'
      _ ≤ 2 ^ 52 * 2 ^ e := two_pow_mul_zpow_le hlt
      _ ≤ k * 2 ^ e := mul_zpow_le_iff.mpr hk'

/-- Of two magnitudes the lesser is not rounded to more. -/
theorem mono (h : Rounds x k e) (h' : Rounds x' k' e') (hlt : x < x') :
    (k : ℚ) * 2 ^ e ≤ k' * 2 ^ e' := by
  by_contra hgt
  rw [not_le] at hgt
  have hp : (0 : ℚ) < 2 ^ e := zpow_pos two_pos e
  -- neither number lies beyond the other magnitude, so both magnitudes lie between the two numbers
  have hx : k' * 2 ^ e' < x := by
    by_contra hle
    exact absurd (h.le h'.mantissa_le h'.least (not_lt.mp hle)) (not_le.mpr hgt)
  have hx' : x' < k * 2 ^ e := by
    by_contra hle
    exact absurd (h'.ge h.mantissa_le h.least (not_lt.mp hle)) (not_le.mpr hgt)
  have hnear := (abs_le.mp h.near).1
  have hnear' := (abs_le.mp h'.near).2
  rcases lt_trichotomy e e' with he | rfl | he
  · -- a power of two divides the places of one magnitude from those of the other
    have hpow : (2 : ℚ) ^ 53 * 2 ^ e ≤ x' :=
      (two_pow_mul_zpow_le he).trans (h'.leading (h.least.trans_lt he))
    have hk : (k : ℚ) ≤ 2 ^ 53 := by exact_mod_cast h.mantissa_le
    have := (mul_zpow_le_iff (e := e)).mpr hk
    linarith
  · have hk : (k : ℚ) * 2 ^ e < (k' + 1) * 2 ^ e := by linarith
    have hle : (k : ℚ) ≤ k' := by exact_mod_cast le_of_mul_zpow_lt hk
    exact absurd (mul_zpow_le_iff.mpr hle) (not_le.mpr hgt)
  · have hpow := (two_pow_mul_zpow_le he).trans (h.leading (h'.least.trans_lt he))
    have hbelow := h'.below
    linarith

/-- Up to half a place beyond the greatest number, nothing is rounded beyond it. -/
theorem le_greatest (h : Rounds x k e) (hx : x < (2 ^ 53 - 1 / 2) * 2 ^ greatestExponent) :
    (k : ℚ) * 2 ^ e ≤ greatest := by
  have hp : (0 : ℚ) < 2 ^ greatestExponent := zpow_pos two_pos _
  rcases lt_trichotomy e greatestExponent with he | rfl | he
  · have hk : (k : ℚ) ≤ 2 ^ 53 := by exact_mod_cast h.mantissa_le
    calc (k : ℚ) * 2 ^ e ≤ 2 ^ 53 * 2 ^ e := mul_zpow_le_iff.mpr hk
      _ ≤ 2 ^ 52 * 2 ^ greatestExponent := two_pow_mul_zpow_le he
      _ ≤ greatest := mul_zpow_le_iff.mpr (by norm_num)
  · have hnear := (abs_le.mp h.near).1
    have hk : k ≤ 2 ^ 53 - 1 := by
      refine le_of_mul_zpow_lt (e := greatestExponent) ?_
      push_cast
      linarith
    have hk' : (k : ℚ) + 1 ≤ 2 ^ 53 := by exact_mod_cast (by omega : k + 1 ≤ 2 ^ 53)
    exact mul_zpow_le_iff.mpr (by linarith)
  · have hlead := (two_pow_mul_zpow_le he).trans
      (h.leading (show leastExponent < e by unfold leastExponent; unfold greatestExponent at he; omega))
    linarith

/-- From half a place beyond the greatest number on, everything is rounded beyond it. -/
theorem greatest_lt (h : Rounds x k e) (hx : (2 ^ 53 - 1 / 2) * 2 ^ greatestExponent ≤ x) :
    greatest < k * 2 ^ e := by
  have hp : (0 : ℚ) < 2 ^ greatestExponent := zpow_pos two_pos _
  unfold greatest
  rcases lt_trichotomy e greatestExponent with he | rfl | he
  · have hbelow := h.below
    have hdouble := two_pow_mul_zpow_le he
    linarith
  · have hlow : 2 ^ 53 - 1 ≤ k := h.ge_of_places (by push_cast; linarith)
    refine mul_lt_mul_of_pos_right ?_ hp
    rcases hlow.eq_or_lt with heq | hlt
    · -- half way between the two the mantissa would be even
      have hk : (k : ℚ) = 2 ^ 53 - 1 := by
        rw [← heq]
        norm_num
      have hnear := (abs_le.mp h.near).2
      rw [hk] at hnear
      have htie : x - k * 2 ^ greatestExponent = 2 ^ greatestExponent / 2 := by
        rw [hk]
        linarith
      have heven := h.even (by rw [htie,abs_of_pos (by linarith)])
      omega
    · have hk : (2 : ℚ) ^ 53 ≤ k := by exact_mod_cast (by omega : 2 ^ 53 ≤ k)
      linarith
  · have hlead : 2 ^ 52 ≤ k := h.ge_of_places (by
      exact_mod_cast h.leading (by unfold leastExponent; unfold greatestExponent at he; omega))
    have hk : (2 : ℚ) ^ 52 ≤ k := by exact_mod_cast hlead
    have hlow := (two_pow_mul_zpow_le he).trans (mul_zpow_le_iff.mpr hk)
    linarith

/-- Below the greatest number scaled by a number of the format, nothing is rounded beyond it: that
scaled number lies at most half way between two numbers of the format. -/
theorem le_scaled (h : Rounds x k e) (hn : 2 ^ 52 ≤ n) (hn' : n < 2 ^ 53)
    (hj : leastExponent ≤ j + greatestExponent) (hx : x ≤ greatest * (n * 2 ^ j)) :
    (k : ℚ) * 2 ^ e ≤ greatest * (n * 2 ^ j) := by
  have hplace : (2 : ℚ) ^ (j + greatestExponent) = 2 ^ greatestExponent * 2 ^ j := by
    rw [zpow_add₀ two_ne_zero,mul_comm]
  rcases hn.eq_or_lt with rfl | hlt
  · have hproduct : greatest * (((2 ^ 52 : ℕ) : ℚ) * 2 ^ j) =
        ((2 ^ 53 - 1 : ℕ) : ℚ) * 2 ^ (j + greatestExponent + 52) := by
      rw [zpow_add₀ two_ne_zero,hplace,greatest]
      push_cast
      ring
    rw [hproduct] at hx ⊢
    exact h.le (by omega) (by omega) hx
  · have hN : (n : ℚ) + 1 ≤ 2 ^ 53 := by exact_mod_cast hn'
    have hN' : (2 : ℚ) ^ 52 + 1 ≤ n := by exact_mod_cast hlt
    have hp : (0 : ℚ) < 2 ^ greatestExponent * 2 ^ j := by positivity
    have hunit : (2 : ℚ) ^ (j + greatestExponent + 53) = 2 ^ 53 * (2 ^ greatestExponent * 2 ^ j) := by
      rw [zpow_add₀ two_ne_zero,hplace]
      ring
    have hscaled : greatest * (n * 2 ^ j) = (2 ^ 53 - 1) * n * (2 ^ greatestExponent * 2 ^ j) := by
      rw [greatest]
      ring
    -- the number before `n` is the nearest one, and it is less than the scaled number
    have hhalf : x < (n - 1 / 2) * 2 ^ (j + greatestExponent + 53) := by
      refine hx.trans_lt ?_
      calc greatest * (n * 2 ^ j) = (2 ^ 53 - 1) * n * (2 ^ greatestExponent * 2 ^ j) := hscaled
        _ < (n - 1 / 2) * 2 ^ 53 * (2 ^ greatestExponent * 2 ^ j) :=
          mul_lt_mul_of_pos_right (by linarith) hp
        _ = (n - 1 / 2) * 2 ^ (j + greatestExponent + 53) := by rw [hunit,mul_assoc]
    have hbefore : (n - 1) * 2 ^ (j + greatestExponent + 53) ≤ greatest * (n * 2 ^ j) := by
      calc ((n : ℚ) - 1) * 2 ^ (j + greatestExponent + 53) =
          (n - 1) * 2 ^ 53 * (2 ^ greatestExponent * 2 ^ j) := by rw [hunit,mul_assoc]
        _ ≤ (2 ^ 53 - 1) * n * (2 ^ greatestExponent * 2 ^ j) :=
          mul_le_mul_of_nonneg_right (by linarith) hp.le
        _ = greatest * (n * 2 ^ j) := hscaled.symm
    refine le_trans ?_ hbefore
    rcases lt_trichotomy e (j + greatestExponent + 53) with he | rfl | he
    · have hk : (k : ℚ) ≤ 2 ^ 53 := by exact_mod_cast h.mantissa_le
      calc (k : ℚ) * 2 ^ e ≤ 2 ^ 53 * 2 ^ e := mul_zpow_le_iff.mpr hk
        _ ≤ 2 ^ 52 * 2 ^ (j + greatestExponent + 53) := two_pow_mul_zpow_le he
        _ ≤ (n - 1) * 2 ^ (j + greatestExponent + 53) := mul_zpow_le_iff.mpr (by linarith)
    · have hnear := (abs_le.mp h.near).1
      have hk : k ≤ n - 1 := by
        refine le_of_mul_zpow_lt (e := j + greatestExponent + 53) ?_
        rw [Nat.cast_sub (by omega)]
        push_cast
        linarith
      have hk' : (k : ℚ) + 1 ≤ n := by exact_mod_cast (by omega : k + 1 ≤ n)
      exact mul_zpow_le_iff.mpr (by linarith)
    · have hlead := (two_pow_mul_zpow_le he).trans (h.leading (by omega))
      have hn2 := (mul_zpow_le_iff (e := j + greatestExponent + 53)).mpr
        (show (n : ℚ) - 1 / 2 ≤ 2 ^ 53 by linarith)
      linarith

/-- A magnitude up to one is rounded by no more than half of the last place below one. -/
theorem abs_sub_le_of_le_one (h : Rounds x k e) (hx : x ≤ 1) :
    |x - k * 2 ^ e| ≤ 2 ^ (-54 : ℤ) := by
  have he : e ≤ -52 := by
    by_contra hlt
    have hone : (2 : ℚ) ^ (0 : ℤ) < 2 ^ (52 + e) := zpow_lt_zpow_right₀ (by norm_num) (by omega)
    have hlead := h.leading (by unfold leastExponent; omega)
    rw [zpow_add₀ two_ne_zero,zpow_zero,show (2 : ℚ) ^ (52 : ℤ) = 2 ^ 52 from zpow_natCast 2 52] at hone
    linarith
  rcases he.lt_or_eq with hlt | rfl
  · calc |x - k * 2 ^ e| ≤ 2 ^ e / 2 := h.near
      _ = 2 ^ (e - 1) := (zpow_sub_one₀ two_ne_zero e).symm
      _ ≤ 2 ^ (-54 : ℤ) := zpow_le_zpow_right₀ (by norm_num) (by omega)
  · -- only one itself has this exponent, and it is rounded to itself
    have hone : ((2 ^ 52 : ℕ) : ℚ) * 2 ^ (-52 : ℤ) = 1 := by norm_num
    have hlead := h.leading (by decide)
    have hk : k = 2 ^ 52 := le_antisymm (h.le_of_places (by rwa [hone]))
      (h.ge_of_places (by exact_mod_cast hlead))
    have hx' : x = 1 := le_antisymm hx (by rw [← hone]; exact_mod_cast hlead)
    rw [hk,hx',hone,sub_self,abs_zero]
    positivity

/-- A number of the format is rounded to itself. -/
lemma of_isCanonical (h : IsCanonical n j) : Rounds (n * 2 ^ j) n j := by
  have hp : (0 : ℚ) < 2 ^ j := zpow_pos two_pos j
  refine ⟨by positivity,?_,fun htie => ?_,h.least,?_,fun hj => ?_⟩
  · rw [sub_self,abs_zero]
    positivity
  · rw [sub_self,abs_zero] at htie
    linarith
  · exact mul_lt_mul_of_pos_right (by exact_mod_cast h.lt) hp
  · exact mul_zpow_le_iff.mpr (by exact_mod_cast h.leading hj)

lemma zero : Rounds 0 0 leastExponent := by
  have h : IsCanonical 0 leastExponent := ⟨by decide,le_rfl,fun h => absurd h (lt_irrefl _)⟩
  simpa using of_isCanonical h

end Rounds
end Formulary.Decimal
