import Formulary.Decimal.Reader
import Mathlib

/-! A ratio is read as the binary64 number in whose cell it lies. The cell of a number reaches half way
to its two neighbours; its ends belong to it if the mantissa is even. -/
namespace Formulary.Decimal

/-! Powers as ratios -/

lemma pow_ratio (b : ℕ) (hb : 0 < b) (e : ℤ) :
    ((Nat.pow b e.toNat : ℕ) : ℚ) / ((Nat.pow b (-e).toNat : ℕ) : ℚ) = (b : ℚ) ^ e := by
  have hb' : (b : ℚ) ≠ 0 := by positivity
  simp only [Nat.pow_eq,Nat.cast_pow]
  rw [← zpow_natCast,← zpow_natCast,← zpow_sub₀ hb']
  congr 1
  omega

lemma powTwo_ratio (e : ℤ) : ((powTwo e).1 : ℚ) / (powTwo e).2 = 2 ^ e :=
  pow_ratio 2 (by decide) e

lemma powTen_ratio (e : ℤ) : ((powTen e).1 : ℚ) / (powTen e).2 = 10 ^ e :=
  pow_ratio 10 (by decide) e

lemma powTwo_pos (e : ℤ) : 0 < (powTwo e).1 ∧ 0 < (powTwo e).2 :=
  ⟨Nat.pow_pos (by decide),Nat.pow_pos (by decide)⟩

lemma powTen_pos (e : ℤ) : 0 < (powTen e).1 ∧ 0 < (powTen e).2 :=
  ⟨Nat.pow_pos (by decide),Nat.pow_pos (by decide)⟩

/-! Rounding to a natural number -/

/-- Half way or less from a natural number; half way only if it is even. -/
def RoundsTo (q : ℚ) (k : ℕ) : Prop :=
  |q - k| < 1 / 2 ∨ k % 2 = 0 ∧ |q - k| ≤ 1 / 2

lemma RoundsTo.unique {q : ℚ} {k k' : ℕ} (h : RoundsTo q k) (h' : RoundsTo q k') : k = k' := by
  have hdist : |(k : ℚ) - k'| ≤ |q - k| + |q - k'| := by
    have := abs_sub_le (k : ℚ) q k'
    rwa [abs_sub_comm (k : ℚ) q] at this
  have hle : |(k : ℚ) - k'| ≤ 1 := by
    rcases h with h | ⟨-,h⟩ <;> rcases h' with h' | ⟨-,h'⟩ <;> linarith
  have hint : |(k : ℤ) - k'| ≤ 1 := by exact_mod_cast hle
  rw [abs_le] at hint
  by_cases heven : k % 2 = 0 ∧ k' % 2 = 0
  · omega
  · have hlt : |(k : ℚ) - k'| < 1 := by
      rcases h with h | ⟨hk,h⟩ <;> rcases h' with h' | ⟨hk',h'⟩
      · linarith
      · linarith
      · linarith
      · exact absurd ⟨hk,hk'⟩ heven
    have hint' : |(k : ℤ) - k'| < 1 := by exact_mod_cast hlt
    rw [abs_lt] at hint'
    omega

/-- A ratio is its quotient and a rest below one, which the remainder compares with one half. -/
lemma exists_rest (num : ℕ) {den : ℕ} (hden : 0 < den) :
    ∃ t : ℚ, (num : ℚ) / den = (num / den : ℕ) + t ∧ 0 ≤ t ∧ t < 1 ∧
      (2 * (num % den) < den ∧ t < 1 / 2 ∨ den < 2 * (num % den) ∧ 1 / 2 < t ∨
        2 * (num % den) = den ∧ t = 1 / 2) := by
  have hden' : (0 : ℚ) < den := by exact_mod_cast hden
  have hlt : (num % den : ℕ) < den := Nat.mod_lt num hden
  have hscale : (2 : ℚ) * ((num % den : ℕ) / den) = (2 * (num % den) : ℕ) / den := by
    push_cast
    ring
  refine ⟨(num % den : ℕ) / den,?_,by positivity,?_,?_⟩
  · rw [div_eq_iff hden'.ne',add_mul,div_mul_cancel₀ _ hden'.ne']
    exact_mod_cast (Nat.div_add_mod' num den).symm
  · rw [div_lt_one hden']
    exact_mod_cast hlt
  · rcases lt_trichotomy (2 * (num % den)) den with h | h | h
    · have hlow : ((2 * (num % den) : ℕ) : ℚ) / den < 1 := by
        rw [div_lt_one hden']
        exact_mod_cast h
      exact .inl ⟨h,by linarith⟩
    · have heq : ((2 * (num % den) : ℕ) : ℚ) / den = 1 := by
        rw [div_eq_one_iff_eq hden'.ne']
        exact_mod_cast h
      exact .inr (.inr ⟨h,by linarith⟩)
    · have hhigh : 1 < ((2 * (num % den) : ℕ) : ℚ) / den := by
        rw [one_lt_div hden']
        exact_mod_cast h
      exact .inr (.inl ⟨h,by linarith⟩)

/-- The nearest natural number is half way off at most. -/
lemma abs_roundDiv_sub_le (tie : Tie) (num : ℕ) {den : ℕ} (hden : 0 < den) :
    |(num : ℚ) / den - roundDiv tie num den| ≤ 1 / 2 := by
  obtain ⟨t,ht,h0,h1,hcases⟩ := exists_rest num hden
  rw [ht,abs_le]
  rcases hcases with ⟨h,hlow⟩ | ⟨h,hhigh⟩ | ⟨h,rfl⟩
  · simp only [roundDiv,h,↓reduceIte]
    constructor <;> linarith
  · simp only [roundDiv,h,h.not_gt,↓reduceIte]
    push_cast
    constructor <;> linarith
  · simp only [roundDiv,h,lt_irrefl,↓reduceIte]
    cases tie with
    | up =>
      push_cast
      constructor <;> linarith
    | even =>
      have hbit : ((num / den % 2 : ℕ) : ℚ) ≤ 1 := by exact_mod_cast (by omega : num / den % 2 ≤ 1)
      have hbit' : (0 : ℚ) ≤ ((num / den % 2 : ℕ) : ℚ) := by positivity
      push_cast at hbit hbit' ⊢
      constructor <;> linarith

/-- A tie goes to the even neighbour. -/
lemma roundsTo_roundDiv (num : ℕ) {den : ℕ} (hden : 0 < den) :
    RoundsTo (num / den) (roundDiv .even num den) := by
  obtain ⟨t,ht,h0,h1,hcases⟩ := exists_rest num hden
  rcases hcases with ⟨h,hlow⟩ | ⟨h,hhigh⟩ | ⟨h,rfl⟩
  · left
    simp only [ht,roundDiv,h,↓reduceIte]
    rw [abs_lt]
    constructor <;> linarith
  · left
    simp only [ht,roundDiv,h,h.not_gt,↓reduceIte]
    push_cast
    rw [abs_lt]
    constructor <;> linarith
  · refine .inr ⟨?_,abs_roundDiv_sub_le .even num hden⟩
    simp only [roundDiv,h,lt_irrefl,↓reduceIte]
    omega

/-- The even rule leaves one number to round to. -/
lemma roundDiv_even {num den k : ℕ} (hden : 0 < den) (h : RoundsTo (num / den) k) :
    roundDiv .even num den = k :=
  (roundsTo_roundDiv num hden).unique h

/-! The binary order -/

lemma log_eq_of_zpow {b : ℕ} (hb : 1 < b) {q : ℚ} {e : ℤ} (hlow : (b : ℚ) ^ e ≤ q)
    (hhigh : q < (b : ℚ) ^ (e + 1)) : Int.log b q = e := by
  have hq : 0 < q := (zpow_pos (by positivity) e).trans_le hlow
  have h1 := (Int.zpow_le_iff_le_log hb hq).mp hlow
  have h2 := (Int.lt_zpow_iff_log_lt hb hq).mp hhigh
  omega

/-- The order of a ratio is known from the orders of its parts, up to one. -/
lemma log2_ratio {num den : ℕ} (hnum : 0 < num) (hden : 0 < den) :
    let e : ℤ := (Nat.log2 num : ℤ) - Nat.log2 den
    (2 : ℚ) ^ (e - 1) < (num : ℚ) / den ∧ (num : ℚ) / den < 2 ^ (e + 1) := by
  intro e
  have hden' : (0 : ℚ) < den := by exact_mod_cast hden
  have hn : (2 : ℚ) ^ (Nat.log2 num : ℤ) ≤ num := by exact_mod_cast Nat.log2_self_le hnum.ne'
  have hn' : (num : ℚ) < 2 ^ ((Nat.log2 num : ℤ) + 1) := by exact_mod_cast Nat.lt_log2_self
  have hd : (2 : ℚ) ^ (Nat.log2 den : ℤ) ≤ den := by exact_mod_cast Nat.log2_self_le hden.ne'
  have hd' : (den : ℚ) < 2 ^ ((Nat.log2 den : ℤ) + 1) := by exact_mod_cast Nat.lt_log2_self
  constructor
  · rw [lt_div_iff₀ hden']
    calc (2 : ℚ) ^ (e - 1) * den < 2 ^ (e - 1) * 2 ^ ((Nat.log2 den : ℤ) + 1) := by gcongr
      _ = 2 ^ (Nat.log2 num : ℤ) := by
        rw [← zpow_add₀ two_ne_zero]
        congr 1
        omega
      _ ≤ num := hn
  · rw [div_lt_iff₀ hden']
    calc (num : ℚ) < 2 ^ ((Nat.log2 num : ℤ) + 1) := hn'
      _ = 2 ^ (e + 1) * 2 ^ (Nat.log2 den : ℤ) := by
        rw [← zpow_add₀ two_ne_zero]
        congr 1
        omega
      _ ≤ 2 ^ (e + 1) * den := by gcongr

lemma binaryOrder_eq {num den : ℕ} (hnum : 0 < num) (hden : 0 < den) :
    binaryOrder num den = Int.log 2 ((num : ℚ) / den) := by
  obtain ⟨hlow,hhigh⟩ := log2_ratio hnum hden
  simp only [binaryOrder]
  set e : ℤ := (Nat.log2 num : ℤ) - Nat.log2 den
  have hreach : (powTwo e).1 * den ≤ (powTwo e).2 * num ↔ (2 : ℚ) ^ e ≤ num / den := by
    have hp : (0 : ℚ) < (powTwo e).2 := by exact_mod_cast (powTwo_pos e).2
    rw [← powTwo_ratio,div_le_div_iff₀ hp (by exact_mod_cast hden),mul_comm (num : ℚ)]
    exact_mod_cast Iff.rfl
  split_ifs with h
  · exact (log_eq_of_zpow (by decide) (by exact_mod_cast hreach.mp h) (by exact_mod_cast hhigh)).symm
  · have hbelow : (num : ℚ) / den < 2 ^ (e - 1 + 1) := by
      rw [sub_add_cancel]
      exact lt_of_not_ge (mt hreach.mpr h)
    exact (log_eq_of_zpow (by decide) (by exact_mod_cast hlow.le) (by exact_mod_cast hbelow)).symm

/-! Cells -/

/-- The numbers `mantissa · 2 ^ exponent` of the format, in the one way they are written. -/
structure IsCanonical (mantissa : ℕ) (exponent : ℤ) : Prop where
  lt : mantissa < 2 ^ 53
  least : leastExponent ≤ exponent
  leading : leastExponent < exponent → 2 ^ 52 ≤ mantissa

/-- How far the cell of a number reaches down, in units of its last place. Below a power of two the
numbers lie closer together. -/
def reachBelow (mantissa : ℕ) (exponent : ℤ) : ℚ :=
  if mantissa = 2 ^ 52 ∧ leastExponent < exponent then 1 / 4 else 1 / 2

/-- The place of a value in the cell of `mantissa · 2 ^ exponent`, the last place being one unit. -/
def InCell (mantissa : ℕ) (exponent : ℤ) (q : ℚ) : Prop :=
  if mantissa % 2 = 0
  then (mantissa - reachBelow mantissa exponent) * 2 ^ exponent ≤ q ∧
    q ≤ (mantissa + 1 / 2) * 2 ^ exponent
  else (mantissa - reachBelow mantissa exponent) * 2 ^ exponent < q ∧
    q < (mantissa + 1 / 2) * 2 ^ exponent

variable {m : ℕ} {e : ℤ} {q : ℚ}

lemma reachBelow_le (m : ℕ) (e : ℤ) : reachBelow m e ≤ 1 / 2 := by
  unfold reachBelow
  split_ifs <;> norm_num

lemma InCell.bounds (h : InCell m e q) :
    (m - 1 / 2) * 2 ^ e ≤ q ∧ q ≤ (m + 1 / 2) * 2 ^ e := by
  have hp : (0 : ℚ) < 2 ^ e := by positivity
  have hr := reachBelow_le m e
  have hlow : ((m : ℚ) - 1 / 2) * 2 ^ e ≤ (m - reachBelow m e) * 2 ^ e := by gcongr
  unfold InCell at h
  split_ifs at h
  · exact ⟨hlow.trans h.1,h.2⟩
  · exact ⟨hlow.trans h.1.le,h.2.le⟩

/-- A value in the cell of a number is rounded to its mantissa. -/
lemma InCell.roundsTo (h : InCell m e q) : RoundsTo (q / 2 ^ e) m := by
  have hp : (0 : ℚ) < 2 ^ e := by positivity
  have hr := reachBelow_le m e
  unfold InCell at h
  split_ifs at h with heven
  · refine .inr ⟨heven,?_⟩
    rw [← le_div_iff₀ hp,← div_le_iff₀ hp] at h
    rw [abs_le]
    constructor <;> linarith
  · left
    rw [← lt_div_iff₀ hp,← div_lt_iff₀ hp] at h
    rw [abs_lt]
    constructor <;> linarith

/-- Below a power of two, the last place is only half as much. -/
lemma InCell.roundsTo_below (hc : IsCanonical m e) (h : InCell m e q) (he : leastExponent < e)
    (hq : q < 2 ^ 52 * 2 ^ e) : m = 2 ^ 52 ∧ RoundsTo (q / 2 ^ (e - 1)) (2 ^ 53) := by
  have hp : (0 : ℚ) < 2 ^ e := by positivity
  have hm : m = 2 ^ 52 := by
    have hle := hc.leading he
    by_contra hne
    have hge : (2 : ℚ) ^ 52 + 1 ≤ m := by exact_mod_cast (by omega : 2 ^ 52 + 1 ≤ m)
    have hlow := h.bounds.1
    have : (2 : ℚ) ^ 52 * 2 ^ e < (m - 1 / 2) * 2 ^ e := by
      gcongr
      linarith
    linarith
  subst hm
  refine ⟨rfl,.inr ⟨by norm_num,?_⟩⟩
  rw [InCell,if_pos (by norm_num)] at h
  have hreach : reachBelow (2 ^ 52) e = 1 / 4 := if_pos ⟨rfl,he⟩
  rw [hreach] at h
  have hhalf : (2 : ℚ) ^ e = 2 * 2 ^ (e - 1) := by
    rw [← zpow_one_add₀ two_ne_zero]
    congr 1
    omega
  have hp' : (0 : ℚ) < 2 ^ (e - 1) := by positivity
  have hlow : (2 : ℚ) ^ 53 - 1 / 2 ≤ q / 2 ^ (e - 1) := by
    rw [le_div_iff₀ hp']
    have := h.1
    rw [hhalf] at this
    push_cast at this
    linarith
  have hhigh : q / 2 ^ (e - 1) < 2 ^ 53 := by
    rw [div_lt_iff₀ hp']
    rw [hhalf] at hq
    linarith
  rw [abs_le]
  push_cast
  constructor <;> linarith

lemma scaled_ratio (num den : ℕ) (e : ℤ) :
    ((num * (powTwo e).2 : ℕ) : ℚ) / (den * (powTwo e).1 : ℕ) = num / den / 2 ^ e := by
  rw [← powTwo_ratio]
  have h1 : ((powTwo e).1 : ℚ) ≠ 0 := by exact_mod_cast (powTwo_pos e).1.ne'
  have h2 : ((powTwo e).2 : ℚ) ≠ 0 := by exact_mod_cast (powTwo_pos e).2.ne'
  push_cast
  field_simp

/-- Rounding a ratio, once its order and its mantissa are known. -/
lemma ofRatio_eq {negative : Bool} {num den k : ℕ} {e : ℤ} (hnum : 0 < num) (hden : 0 < den)
    (he : max (Int.log 2 ((num : ℚ) / den) - 52) leastExponent = e)
    (hk : RoundsTo (num / den / 2 ^ e) k) :
    ofRatio negative num den = ofMagnitude negative (magnitudeBits k e) := by
  simp only [ofRatio,hnum.ne',↓reduceIte,binaryOrder_eq hnum hden,he]
  rw [roundDiv_even (Nat.mul_pos hden (powTwo_pos e).1) (by rwa [scaled_ratio])]

/-- A mantissa of `2 ^ 53` carries into the exponent. -/
lemma magnitudeBits_carry {e : ℤ} (he : leastExponent < e) :
    magnitudeBits (2 ^ 53) (e - 1) = magnitudeBits (2 ^ 52) e := by
  obtain ⟨n,hn⟩ := Int.eq_ofNat_of_zero_le (show 0 ≤ e - leastExponent - 1 by omega)
  have h1 : (e - 1 - leastExponent).toNat = n := by omega
  have h2 : (e - leastExponent).toNat = n + 1 := by omega
  simp only [magnitudeBits,h1,h2,Nat.pow_eq]
  ring

lemma log_two_eq {q : ℚ} {e : ℤ} {n : ℕ} (hlow : 2 ^ n * 2 ^ e ≤ q) (hhigh : q < 2 ^ (n + 1) * 2 ^ e) :
    Int.log 2 q = n + e := by
  refine log_eq_of_zpow (by decide) ?_ ?_
  · rw [Nat.cast_ofNat,zpow_add₀ two_ne_zero,zpow_natCast]
    exact hlow
  · rw [Nat.cast_ofNat,show (n : ℤ) + e + 1 = ((n + 1 : ℕ) : ℤ) + e by push_cast; ring,
      zpow_add₀ two_ne_zero,zpow_natCast]
    exact hhigh

lemma log_two_lt {q : ℚ} {e : ℤ} {n : ℕ} (hq : 0 < q) (hhigh : q < 2 ^ n * 2 ^ e) :
    Int.log 2 q < n + e := by
  rw [← Int.lt_zpow_iff_log_lt (by decide) hq,Nat.cast_ofNat,zpow_add₀ two_ne_zero,zpow_natCast]
  exact hhigh

/-- A ratio is rounded to the number in whose cell it lies. -/
theorem ofRatio_of_inCell {negative : Bool} {num den : ℕ} (hm : 0 < m) (hc : IsCanonical m e)
    (hden : 0 < den) (h : InCell m e (num / den)) :
    ofRatio negative num den = ofMagnitude negative (magnitudeBits m e) := by
  have hp : (0 : ℚ) < 2 ^ e := by positivity
  have hm' : (1 : ℚ) ≤ m := by exact_mod_cast hm
  have hlt : (m : ℚ) + 1 ≤ 2 ^ 53 := by exact_mod_cast hc.lt
  have hden' : (0 : ℚ) < den := by exact_mod_cast hden
  obtain ⟨hlow,hhigh⟩ := h.bounds
  have hpos : (0 : ℚ) < num / den := lt_of_lt_of_le (mul_pos (by linarith) hp) hlow
  have hnum : 0 < num := by exact_mod_cast (div_pos_iff_of_pos_right hden').mp hpos
  have hbelow : (num : ℚ) / den < 2 ^ 53 * 2 ^ e := by
    refine hhigh.trans_lt ?_
    gcongr
    linarith
  have hleast := hc.least
  by_cases hq : 2 ^ 52 * 2 ^ e ≤ (num : ℚ) / den
  · have hlog := log_two_eq hq hbelow
    exact ofRatio_eq hnum hden (by omega) h.roundsTo
  · rw [not_le] at hq
    rcases hleast.lt_or_eq with he | he
    · -- the value lies among the closer numbers below a power of two
      obtain ⟨rfl,hround⟩ := h.roundsTo_below hc he hq
      have hlow' : 2 ^ 51 * 2 ^ e ≤ (num : ℚ) / den := by
        refine le_trans ?_ hlow
        gcongr
        norm_num
      have hlog := log_two_eq hlow' hq
      rw [ofRatio_eq hnum hden (by omega) hround,magnitudeBits_carry he]
    · have hlog := log_two_lt hpos hq
      exact ofRatio_eq hnum hden (by omega) h.roundsTo

/-! The order of a decimal -/

lemma digitCount_eq {n : ℕ} (hn : 0 < n) : digitCount n = Nat.log 10 n + 1 := by
  have hle (k : ℕ) (hk : 0 < k) : digitCount n ≤ k ↔ Nat.log 10 n < k := by
    rw [digitCount,Nat.length_toDigits_le_iff (by decide) hk,← Nat.log_lt_iff_lt_pow (by decide) hn.ne']
  have hpos : 0 < digitCount n := List.length_pos_iff.mpr Nat.toDigits_ne_nil
  have h1 := (hle _ hpos).mp le_rfl
  have h2 := (hle (Nat.log 10 n + 1) (by omega)).mpr (by omega)
  omega

/-- The digits of a decimal and its power of ten give its order. -/
lemma log_ten_decimal {n : ℕ} (hn : 0 < n) (e : ℤ) :
    Int.log 10 ((n : ℚ) * 10 ^ e) + 1 = digitCount n + e := by
  have hp : (0 : ℚ) < 10 ^ e := by positivity
  have hlow : (10 : ℚ) ^ (Nat.log 10 n) ≤ n := by exact_mod_cast Nat.pow_log_le_self 10 hn.ne'
  have hhigh : (n : ℚ) < 10 ^ (Nat.log 10 n + 1) := by
    exact_mod_cast Nat.lt_pow_succ_log_self (by decide) n
  have hlog : Int.log 10 ((n : ℚ) * 10 ^ e) = Nat.log 10 n + e := by
    refine log_eq_of_zpow (by decide) ?_ ?_
    · rw [Nat.cast_ofNat,zpow_add₀ (by norm_num),zpow_natCast]
      gcongr
    · rw [Nat.cast_ofNat,add_right_comm,zpow_add₀ (by norm_num)]
      gcongr
      exact_mod_cast hhigh
  rw [hlog,digitCount_eq hn]
  push_cast
  ring

/-- The least and the greatest finite numbers lie between these powers of ten. -/
lemma zpow_ten_le_two : (10 : ℚ) ^ (-331 : ℤ) ≤ 2 ^ (-1075 : ℤ) := by
  have h : 2 ^ 1075 ≤ 10 ^ 331 := by decide +kernel
  rw [zpow_neg,zpow_neg]
  gcongr
  exact_mod_cast h

lemma zpow_two_lt_ten : (2 : ℚ) ^ (1024 : ℤ) < 10 ^ (310 : ℤ) := by
  have h : 2 ^ 1024 < 10 ^ 310 := by decide +kernel
  exact_mod_cast h

/-- The cells of the finite numbers lie between these powers of ten. -/
lemma InCell.between (hm : 0 < m) (hc : IsCanonical m e) (he : e ≤ 971) (h : InCell m e q) :
    (10 : ℚ) ^ (-331 : ℤ) ≤ q ∧ q < 10 ^ (310 : ℤ) := by
  have hm' : (1 : ℚ) ≤ m := by exact_mod_cast hm
  have hlt : (m : ℚ) + 1 ≤ 2 ^ 53 := by exact_mod_cast hc.lt
  obtain ⟨hlow,hhigh⟩ := h.bounds
  have hleast : (-1075 : ℤ) ≤ e - 1 := by
    have : leastExponent = -1074 := rfl
    have := hc.least
    omega
  constructor
  · calc (10 : ℚ) ^ (-331 : ℤ) ≤ 2 ^ (-1075 : ℤ) := zpow_ten_le_two
      _ ≤ 2 ^ (e - 1) := zpow_le_zpow_right₀ (by norm_num) hleast
      _ = (1 / 2) * 2 ^ e := by
        rw [zpow_sub_one₀ two_ne_zero]
        ring
      _ ≤ (m - 1 / 2) * 2 ^ e := by
        gcongr
        linarith
      _ ≤ q := hlow
  · calc q ≤ (m + 1 / 2) * 2 ^ e := hhigh
      _ ≤ 2 ^ (53 : ℤ) * 2 ^ e := by
        gcongr
        rw [zpow_ofNat]
        linarith
      _ = 2 ^ (53 + e) := (zpow_add₀ two_ne_zero 53 e).symm
      _ ≤ 2 ^ (1024 : ℤ) := zpow_le_zpow_right₀ (by norm_num) (by omega)
      _ < 10 ^ (310 : ℤ) := zpow_two_lt_ten

/-- A decimal is read as the finite number in whose cell it lies. -/
theorem ofDecimal_of_inCell {negative : Bool} {n : ℕ} {k : ℤ} (hm : 0 < m) (hc : IsCanonical m e)
    (he : e ≤ 971) (h : InCell m e (n * 10 ^ k)) :
    ofDecimal negative n k = ofMagnitude negative (magnitudeBits m e) := by
  obtain ⟨hlow,hhigh⟩ := h.between hm hc he
  have hpos : (0 : ℚ) < n * 10 ^ k := lt_of_lt_of_le (by positivity) hlow
  have hn : 0 < n := by
    have : (0 : ℚ) < n := (pos_iff_pos_of_mul_pos hpos).mpr (by positivity)
    exact_mod_cast this
  have horder := log_ten_decimal hn k
  have h1 : (-331 : ℤ) ≤ Int.log 10 ((n : ℚ) * 10 ^ k) := by
    rw [← Int.zpow_le_iff_le_log (by decide) hpos]
    exact_mod_cast hlow
  have h2 : Int.log 10 ((n : ℚ) * 10 ^ k) < 310 := by
    rw [← Int.lt_zpow_iff_log_lt (by decide) hpos]
    exact_mod_cast hhigh
  have hscale : ((n * (powTen k).1 : ℕ) : ℚ) / (powTen k).2 = n * 10 ^ k := by
    rw [← powTen_ratio]
    push_cast
    ring
  have hzero : ¬(n = 0 ∨ (digitCount n : ℤ) + k < -330) := by omega
  have hinf : ¬ 310 < (digitCount n : ℤ) + k := by omega
  simp only [ofDecimal,hzero,hinf,↓reduceIte]
  exact ofRatio_of_inCell hm hc (powTen_pos k).2 (hscale ▸ h)

end Formulary.Decimal
