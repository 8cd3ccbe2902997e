import Formulary.Proofs.Decimal.Unpacked

/-! Mantissas with residual bits. They measure a magnitude, and what is made of them is that magnitude
rounded to the format. -/
namespace Formulary.Decimal
open Float.Model (Format UnpackedFloat totalExponent)
open Float.Model.UnpackedFloat

variable {m : ℕ} {e : ℤ} {x : ℚ} {em : ExtendedMantissa}

/-! A mantissa and what is left of it -/

/-- Where a magnitude lies, as far as a mantissa and its two residual bits tell. -/
def Measures (em : ExtendedMantissa) (x : ℚ) : Prop :=
  match em.roundBit,em.stickyBit with
  | false,false => x = em.mantissa
  | false,true => em.mantissa < x ∧ x < em.mantissa + 1 / 2
  | true,false => x = em.mantissa + 1 / 2
  | true,true => em.mantissa + 1 / 2 < x ∧ x < em.mantissa + 1

namespace Measures

lemma bounds (h : Measures em x) : em.mantissa ≤ x ∧ x < em.mantissa + 1 := by
  obtain ⟨m,r,t⟩ := em
  cases r <;> cases t <;> simp only [Measures] at h <;> constructor <;> linarith

lemma abs_sub_rounded_le (h : Measures em x) : |x - em.roundedMantissa| ≤ 1 / 2 := by
  obtain ⟨m,r,t⟩ := em
  rw [abs_le]
  cases r <;> cases t <;>
    simp only [Measures,ExtendedMantissa.roundedMantissa,ExtendedMantissa.accuracy,
      Accuracy.roundToNearestEven] at h ⊢
  · constructor <;> linarith
  · constructor <;> linarith
  · have hbit : ((m % 2 : ℕ) : ℚ) ≤ 1 := by exact_mod_cast (by omega : m % 2 ≤ 1)
    have hbit' : (0 : ℚ) ≤ ((m % 2 : ℕ) : ℚ) := by positivity
    push_cast at hbit hbit' ⊢
    constructor <;> linarith
  · push_cast
    constructor <;> linarith

lemma even_of_tie (h : Measures em x) (htie : |x - em.roundedMantissa| = 1 / 2) :
    em.roundedMantissa % 2 = 0 := by
  obtain ⟨m,r,t⟩ := em
  cases r <;> cases t <;>
    simp only [Measures,ExtendedMantissa.roundedMantissa,ExtendedMantissa.accuracy,
      Accuracy.roundToNearestEven] at h htie ⊢
  · rw [h,sub_self,abs_zero] at htie
    norm_num at htie
  · rw [abs_of_pos (by linarith)] at htie
    linarith
  · omega
  · push_cast at htie
    rw [abs_of_neg (by linarith)] at htie
    linarith

/-- The bit that is shifted out is the next round bit. -/
lemma shiftRightOne (h : Measures em x) : Measures em.shiftRightOne (x / 2) := by
  obtain ⟨m,r,t⟩ := em
  have hm : ((m % 2 : ℕ) : ℚ) + 2 * ((m / 2 : ℕ) : ℚ) = m := by exact_mod_cast Nat.mod_add_div m 2
  rcases Nat.mod_two_eq_zero_or_one m with hbit | hbit
  · have hround : (m % 2 != 0) = false := by rw [hbit]; rfl
    rw [hbit,Nat.cast_zero] at hm
    cases r <;> cases t <;>
      simp only [Measures,ExtendedMantissa.shiftRightOne,hround,Bool.or_false,Bool.or_true] at h ⊢
    · linarith
    all_goals constructor <;> linarith
  · have hround : (m % 2 != 0) = true := by rw [hbit]; rfl
    rw [hbit,Nat.cast_one] at hm
    cases r <;> cases t <;>
      simp only [Measures,ExtendedMantissa.shiftRightOne,hround,Bool.or_false,Bool.or_true] at h ⊢
    · linarith
    all_goals constructor <;> linarith

lemma shiftRight (h : Measures em x) (n : ℕ) : Measures (em >>> n) (x / 2 ^ n) := by
  change Measures (n.repeat ExtendedMantissa.shiftRightOne em) _
  induction n with
  | zero => rwa [pow_zero,div_one]
  | succ n ih =>
    rw [Nat.repeat,pow_succ,← div_div]
    exact ih.shiftRightOne

end Measures

lemma measures_exact (m : ℕ) : Measures (.ofMantissaAndAccuracy m .exact) m := rfl

/-- A quotient is measured by the remainder. -/
lemma measures_div (a : ℕ) {b : ℕ} (hb : 0 < b) :
    Measures (.ofMantissaAndAccuracy (a / b) (accuracyOfFraction (a % b) b)) (a / b) := by
  have hb' : (0 : ℚ) < b := by exact_mod_cast hb
  have ha : ((a / b : ℕ) : ℚ) * b + (a % b : ℕ) = a := by exact_mod_cast Nat.div_add_mod' a b
  have hlt : ((a % b : ℕ) : ℚ) < b := by exact_mod_cast Nat.mod_lt a hb
  unfold accuracyOfFraction
  split_ifs with hzero
  · rw [hzero,Nat.cast_zero] at ha
    simp only [Measures,ExtendedMantissa.ofMantissaAndAccuracy,div_eq_iff hb'.ne']
    linarith
  · have hpos : (0 : ℚ) < (a % b : ℕ) := by exact_mod_cast Nat.pos_of_ne_zero hzero
    rcases lt_trichotomy (2 * (a % b)) b with h | h | h
    · have h' : 2 * ((a % b : ℕ) : ℚ) < b := by exact_mod_cast h
      rw [Nat.compare_eq_lt.mpr h]
      simp only [Measures,ExtendedMantissa.ofMantissaAndAccuracy,lt_div_iff₀ hb',div_lt_iff₀ hb']
      constructor <;> linarith
    · have h' : 2 * ((a % b : ℕ) : ℚ) = b := by exact_mod_cast h
      rw [Nat.compare_eq_eq.mpr h]
      simp only [Measures,ExtendedMantissa.ofMantissaAndAccuracy,div_eq_iff hb'.ne']
      linarith
    · have h' : (b : ℚ) < 2 * (a % b : ℕ) := by exact_mod_cast h
      rw [Nat.compare_eq_gt.mpr h]
      simp only [Measures,ExtendedMantissa.ofMantissaAndAccuracy,lt_div_iff₀ hb',div_lt_iff₀ hb']
      constructor <;> linarith

/-! Rounding -/

/-- The place to which a magnitude is rounded. -/
lemma targetExponent_eq (m : ℕ) (e : ℤ) :
    Format.binary64.targetExponent (totalExponent m e) = max (m.log2 + e - 52) leastExponent := by
  have h : Format.binary64.minExponent = leastExponent := by decide
  rw [Format.targetExponent,h,totalExponent]
  change max (m.log2 + 1 + e - (53 : ℕ)) _ = _
  congr 1
  push_cast
  ring

/-- A mantissa is shifted to a greater exponent, and what falls out of it is not forgotten. -/
lemma measures_shift {a : Accuracy} {t : ℤ} (h : Measures (.ofMantissaAndAccuracy m a) x)
    (he : e ≤ t) :
    ∃ y, Measures (shiftToExponent m e a t).1 y ∧ y * 2 ^ t = x * 2 ^ e ∧
      (shiftToExponent m e a t).2 = t := by
  obtain ⟨n,hn⟩ := Int.eq_ofNat_of_zero_le (show 0 ≤ t - e by omega)
  have hshift : (t - e).toNat = n := by omega
  refine ⟨x / 2 ^ n,?_,?_,?_⟩
  · simp only [shiftToExponent,hshift]
    exact h.shiftRight n
  · rw [show t = n + e by omega,zpow_add₀ two_ne_zero,zpow_natCast]
    field_simp
  · simp only [shiftToExponent,hshift]
    omega

lemma Measures.mantissa_bounds {a : Accuracy} (h : Measures (.ofMantissaAndAccuracy m a) x) :
    m ≤ x ∧ x < m + 1 := by
  have hm : (ExtendedMantissa.ofMantissaAndAccuracy m a).mantissa = m := by
    rcases a with _ | o
    · rfl
    · cases o <;> rfl
  exact hm ▸ h.bounds

/-- What a mantissa measures is rounded at the place that is meant for it. -/
lemma rounds_shift {a : Accuracy} (h : Measures (.ofMantissaAndAccuracy m a) x)
    (he : e ≤ Format.binary64.targetExponent (totalExponent m e)) :
    Rounds (x * 2 ^ e) (shiftToTargetExponent .binary64 m e a).1.roundedMantissa
      (shiftToTargetExponent .binary64 m e a).2 := by
  unfold shiftToTargetExponent
  dsimp only
  rw [targetExponent_eq] at he ⊢
  obtain ⟨hlow,hhigh⟩ := h.mantissa_bounds
  set t := max (m.log2 + e - 52) leastExponent with ht
  obtain ⟨y,hy,hscale,hexp⟩ := measures_shift h he
  have hp : (0 : ℚ) < 2 ^ t := zpow_pos two_pos t
  have hpe : (0 : ℚ) < 2 ^ e := zpow_pos two_pos e
  rw [hexp]
  refine ⟨mul_nonneg (m.cast_nonneg.trans hlow) hpe.le,?_,fun htie => ?_,le_max_right _ _,?_,
    fun hlead => ?_⟩
  · rw [← hscale,← sub_mul,abs_mul,abs_of_pos hp]
    have := mul_le_mul_of_nonneg_right hy.abs_sub_rounded_le hp.le
    linarith
  · rw [← hscale,← sub_mul,abs_mul,abs_of_pos hp] at htie
    exact hy.even_of_tie (mul_right_cancel₀ hp.ne' (by linarith))
  · have hm : (m : ℚ) + 1 ≤ 2 ^ (m.log2 + 1) := by exact_mod_cast Nat.lt_log2_self
    calc x * 2 ^ e < 2 ^ (m.log2 + 1) * 2 ^ e := by gcongr; linarith
      _ = 2 ^ (m.log2 + 1 + e) := by
        rw [zpow_add₀ two_ne_zero]
        rfl
      _ ≤ 2 ^ (53 + t) := zpow_le_zpow_right₀ (by norm_num) (by omega)
      _ = 2 ^ 53 * 2 ^ t := by
        rw [zpow_add₀ two_ne_zero]
        rfl
  · have hm : m ≠ 0 := by
      rintro rfl
      have hzero : Nat.log2 0 = 0 := rfl
      omega
    have hm' : (2 : ℚ) ^ m.log2 ≤ m := by exact_mod_cast Nat.log2_self_le hm
    calc (2 : ℚ) ^ 52 * 2 ^ t = 2 ^ (52 + t) := by
          rw [zpow_add₀ two_ne_zero]
          rfl
      _ = 2 ^ (m.log2 + e) := by
        congr 1
        omega
      _ = 2 ^ m.log2 * 2 ^ e := by
        rw [zpow_add₀ two_ne_zero]
        rfl
      _ ≤ x * 2 ^ e := by
        gcongr
        linarith

/-- A mantissa with all the places there are stays as it is, and one place more is even. -/
lemma shiftToTargetExponent_of_le (hm : m ≤ 2 ^ 53) (he : leastExponent ≤ e) :
    (m < 2 ^ 53 ∧ shiftToTargetExponent .binary64 m e .exact = (⟨m,false,false⟩,e)) ∨
      (m = 2 ^ 53 ∧ shiftToTargetExponent .binary64 m e .exact = (⟨2 ^ 52,false,false⟩,e + 1)) := by
  unfold shiftToTargetExponent
  dsimp only
  rw [targetExponent_eq]
  rcases hm.lt_or_eq with hlt | rfl
  · have hlog : m.log2 < 53 := by
      rcases m.eq_zero_or_pos with rfl | hpos
      · decide
      · exact (Nat.log2_lt hpos.ne').mpr hlt
    have hshift : (max ((m.log2 : ℤ) + e - 52) leastExponent - e).toNat = 0 := by omega
    refine .inl ⟨hlt,?_⟩
    simp only [shiftToExponent,hshift]
    exact Prod.ext rfl (add_zero e)
  · have hlog : Nat.log2 (2 ^ 53) = 53 := Nat.log2_two_pow
    have hshift : (max (((2 ^ 53 : ℕ).log2 : ℤ) + e - 52) leastExponent - e).toNat = 1 := by
      rw [hlog]
      omega
    refine .inr ⟨rfl,?_⟩
    simp only [shiftToExponent,hshift]
    rfl

/-- A result is what an exact magnitude is rounded to, with its sign. -/
theorem roundWithAccuracy_rounds {a : Accuracy} (s : Sign)
    (h : Measures (.ofMantissaAndAccuracy m a) x)
    (he : e ≤ Format.binary64.targetExponent (totalExponent m e)) :
    ∃ k t, Rounds (x * 2 ^ e) k t ∧ Canonical (roundWithAccuracy .binary64 s m e a) ∧
      unpackedValue (roundWithAccuracy .binary64 s m e a) = (s.apply k : ℤ) * 2 ^ t := by
  have hr := rounds_shift h he
  refine ⟨_,_,hr,?_⟩
  unfold roundWithAccuracy
  generalize shiftToTargetExponent .binary64 m e a = p at hr ⊢
  obtain ⟨em₁,t⟩ := p
  dsimp only at hr ⊢
  generalize em₁.roundedMantissa = k at hr ⊢
  rcases shiftToTargetExponent_of_le hr.mantissa_le hr.least with ⟨hlt,hshift⟩ | ⟨hk,hshift⟩
  · have hc : IsCanonical k t :=
      ⟨hlt,hr.least,fun ht => hr.ge_of_places (by exact_mod_cast hr.leading ht)⟩
    simp only [hshift]
    split_ifs with hzero
    · have hz : k = 0 := hzero
      exact ⟨trivial,by cases s <;> simp [unpackedValue,Sign.apply,hz]⟩
    · exact ⟨hc,rfl⟩
  · have hc : IsCanonical (2 ^ 52) (t + 1) :=
      ⟨by decide,by have := hr.least; omega,fun _ => le_rfl⟩
    simp only [hshift]
    rw [dif_neg (by decide)]
    refine ⟨hc,?_⟩
    have hcarry : ((2 ^ 52 : ℕ) : ℚ) * 2 ^ (t + 1) = (k : ℕ) * 2 ^ t := by
      rw [hk,zpow_add_one₀ two_ne_zero]
      push_cast
      ring
    cases s with
    | positive => exact_mod_cast hcarry
    | negative =>
      simp only [unpackedValue,Sign.apply,Int.cast_neg,Int.cast_natCast,neg_mul,neg_inj]
      exact hcarry

/-! Results taken apart -/

/-- What an exact result is rounded to, of which there is no greatest number here. -/
def RoundedTo (x : ℚ) (u : UnpackedFloat) : Prop :=
  Canonical u ∧ ∃ (k : ℕ) (e : ℤ), Rounds |x| k e ∧
    unpackedValue u = if x < 0 then -((k : ℚ) * 2 ^ e) else k * 2 ^ e

lemma abs_eq_of_signed {k : ℕ} {e : ℤ} {x y : ℚ}
    (h : y = if x < 0 then -((k : ℚ) * 2 ^ e) else k * 2 ^ e) : |y| = k * 2 ^ e := by
  have hp : (0 : ℚ) ≤ k * 2 ^ e := by positivity
  rw [h]
  split_ifs
  · rw [abs_neg,abs_of_nonneg hp]
  · rw [abs_of_nonneg hp]

lemma roundedTo_zero (s : Sign) : RoundedTo 0 (.zero s) :=
  ⟨trivial,0,leastExponent,by simpa using Rounds.zero,by simp [unpackedValue]⟩

/-- A number of the format is rounded to itself. -/
lemma roundedTo_unpackedValue {u : UnpackedFloat} (h : Canonical u) :
    RoundedTo (unpackedValue u) u := by
  obtain ⟨s,rfl⟩ | ⟨s,m,e,hm,rfl,hc⟩ := h.cases
  · exact roundedTo_zero s
  · have hp : (0 : ℚ) < m * 2 ^ e := by positivity
    refine ⟨h,m,e,?_,?_⟩
    · rw [unpackedValue,abs_signed]
      exact .of_isCanonical hc
    · cases s with
      | positive => simp [unpackedValue,Sign.apply,hp.not_gt]
      | negative => simp [unpackedValue,Sign.apply,hp]

/-- A sign is put before what a magnitude is rounded to. -/
lemma roundedTo_roundWithAccuracy {a : Accuracy} (s : Sign)
    (h : Measures (.ofMantissaAndAccuracy m a) x)
    (he : e ≤ Format.binary64.targetExponent (totalExponent m e)) :
    RoundedTo ((s.apply 1 : ℤ) * (x * 2 ^ e)) (roundWithAccuracy .binary64 s m e a) := by
  obtain ⟨k,t,hr,hc,hv⟩ := roundWithAccuracy_rounds s h he
  refine ⟨hc,k,t,?_,?_⟩
  · rw [abs_mul,abs_of_nonneg hr.nonneg]
    cases s <;> simpa [Sign.apply] using hr
  · rw [hv]
    have hx := hr.nonneg
    cases s with
    | positive => simp [Sign.apply,hx.not_gt]
    | negative =>
      rcases hx.lt_or_eq with hpos | hzero
      · simp [Sign.apply,hpos]
      · have hk : k = 0 := Nat.le_zero.mp (hr.le_of_places (by simp [← hzero]))
        simp [Sign.apply,hk]

/-! Sums -/

lemma decreaseExponent_value (m : ℕ) {e t : ℤ} (h : t ≤ e) :
    ((decreaseExponent m e t).1 : ℚ) * 2 ^ t = m * 2 ^ e := by
  obtain ⟨n,hn⟩ := Int.eq_ofNat_of_zero_le (show 0 ≤ e - t by omega)
  have hshift : (e - t).toNat = n := by omega
  simp only [decreaseExponent,hshift,Nat.shiftLeft_eq]
  rw [show e = n + t by omega,zpow_add₀ two_ne_zero,zpow_natCast]
  push_cast
  ring

lemma log2_mul_two_pow (hm : 0 < m) (n : ℕ) : (m * 2 ^ n).log2 = m.log2 + n := by
  rw [Nat.log2_eq_iff (by positivity)]
  have hlow := Nat.mul_le_mul_right (2 ^ n) (Nat.log2_self_le hm.ne')
  have hhigh := Nat.mul_lt_mul_of_pos_right (Nat.lt_log2_self (n := m)) (Nat.two_pow_pos n)
  rw [← pow_add] at hlow hhigh
  exact ⟨hlow,by rwa [Nat.add_right_comm]⟩

/-- Whole numbers of any place are rounded. -/
lemma roundedTo_round (s : Sign) (hm : 0 < m) (e : ℤ) :
    RoundedTo ((s.apply m : ℤ) * 2 ^ e) (UnpackedFloat.round .binary64 s m e) := by
  unfold UnpackedFloat.round
  set t := Format.binary64.targetExponent (totalExponent m e) with ht
  simp only [decreaseExponent,Nat.shiftLeft_eq]
  set n := (e - t).toNat with hn
  have hsame : Format.binary64.targetExponent (totalExponent (m * 2 ^ n) (e - n)) = t := by
    rw [ht,targetExponent_eq,targetExponent_eq,log2_mul_two_pow hm]
    push_cast
    congr 1
    ring
  have hvalue : ((s.apply m : ℤ) : ℚ) * 2 ^ e =
      (s.apply 1 : ℤ) * (((m * 2 ^ n : ℕ) : ℚ) * 2 ^ (e - n)) := by
    rw [zpow_sub₀ two_ne_zero,zpow_natCast]
    push_cast
    cases s <;> simp only [Sign.apply] <;> push_cast <;> field_simp
  rw [hvalue]
  exact roundedTo_roundWithAccuracy s (measures_exact _) (by rw [hsame]; omega)

lemma roundedTo_normalize (n : ℤ) (e : ℤ) (s : Sign) :
    RoundedTo (n * 2 ^ e) (UnpackedFloat.normalize .binary64 n e s) := by
  unfold UnpackedFloat.normalize
  rcases lt_trichotomy n 0 with h | rfl | h
  · rw [Int.compare_eq_lt.mpr h]
    have := roundedTo_round .negative (show 0 < (-n).toNat by omega) e
    rwa [Sign.apply,Int.toNat_of_nonneg (by omega),neg_neg] at this
  · rw [Int.compare_eq_eq.mpr rfl]
    simpa using roundedTo_zero s
  · rw [Int.compare_eq_gt.mpr h]
    have := roundedTo_round .positive (show 0 < n.toNat by omega) e
    rwa [Sign.apply,Int.toNat_of_nonneg (by omega)] at this

end Formulary.Decimal
