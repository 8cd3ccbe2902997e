import Formulary.Proofs.Decimal.Mantissa

/-! Arithmetic on binary64 numbers. The result of an operation is the exact result rounded to the
format, as long as that is not beyond the greatest number. -/
namespace Formulary.Decimal
open Float.Model (Format UnpackedFloat totalExponent)
open Float.Model.UnpackedFloat

variable {s s' : Sign} {m m' : ℕ} {e e' : ℤ} {x : ℚ} {a b : UnpackedFloat} {v v' w : Float}

lemma aligned_value (s : Sign) (m : ℕ) {e t : ℤ} (h : t ≤ e) :
    ((s.apply (decreaseExponent m e t).1 : ℤ) : ℚ) * 2 ^ t = (s.apply m : ℤ) * 2 ^ e := by
  have hv := decreaseExponent_value m h
  cases s <;> simp only [Sign.apply,Int.cast_neg,Int.cast_natCast,neg_mul,hv]

lemma apply_neg (s : Sign) (n : ℤ) : (-s).apply n = -s.apply n := by
  cases s
  · exact (neg_neg n).symm
  · rfl

lemma apply_one (s : Sign) (n : ℕ) : ((s.apply 1 : ℤ) : ℚ) * n = (s.apply n : ℤ) := by
  cases s <;> simp [Sign.apply]

/-! The operations on numbers that are taken apart -/

lemma roundedTo_add (ha : Canonical a) (hb : Canonical b) :
    RoundedTo (unpackedValue a + unpackedValue b) (add .binary64 a b) := by
  obtain ⟨s,rfl⟩ | ⟨s,m,e,hm,rfl,-⟩ := ha.cases <;> obtain ⟨s',rfl⟩ | ⟨s',m',e',hm',rfl,-⟩ := hb.cases
  · rw [unpackedValue_zero,unpackedValue_zero,add_zero,add]
    split_ifs <;> exact roundedTo_zero _
  · rw [unpackedValue_zero,zero_add]
    exact roundedTo_unpackedValue hb
  · rw [unpackedValue_zero,add_zero]
    exact roundedTo_unpackedValue ha
  · have hsum := roundedTo_normalize (s.apply (decreaseExponent m e (min e e')).1 +
      s'.apply (decreaseExponent m' e' (min e e')).1) (min e e') .positive
    rw [Int.cast_add,add_mul,aligned_value s m (min_le_left e e'),
      aligned_value s' m' (min_le_right e e')] at hsum
    exact hsum

lemma roundedTo_sub (ha : Canonical a) (hb : Canonical b) :
    RoundedTo (unpackedValue a - unpackedValue b) (sub .binary64 a b) := by
  obtain ⟨s,rfl⟩ | ⟨s,m,e,hm,rfl,-⟩ := ha.cases <;> obtain ⟨s',rfl⟩ | ⟨s',m',e',hm',rfl,hb'⟩ := hb.cases
  · rw [unpackedValue_zero,unpackedValue_zero,sub_zero,sub]
    split_ifs <;> exact roundedTo_zero _
  · have hneg := roundedTo_unpackedValue (show Canonical (.finite (-s') m' e' hm') from hb')
    rw [unpackedValue,apply_neg,Int.cast_neg,neg_mul] at hneg
    rw [unpackedValue_zero,zero_sub]
    exact hneg
  · rw [unpackedValue_zero,sub_zero]
    exact roundedTo_unpackedValue ha
  · have hsum := roundedTo_normalize (s.apply (decreaseExponent m e (min e e')).1 -
      s'.apply (decreaseExponent m' e' (min e e')).1) (min e e') .positive
    rw [Int.cast_sub,sub_mul,aligned_value s m (min_le_left e e'),
      aligned_value s' m' (min_le_right e e')] at hsum
    exact hsum

/-- The product of two mantissas has places enough, or both are of the least exponent. -/
lemma product_exponent_le (h : IsCanonical m e) (h' : IsCanonical m' e') (hm : 0 < m) (hm' : 0 < m') :
    e + e' ≤ Format.binary64.targetExponent (totalExponent (m * m') (e + e')) := by
  have hleast : leastExponent = -1074 := rfl
  have hlow := h.least
  have hlow' := h'.least
  rw [targetExponent_eq]
  by_cases hlead : 2 ^ 52 ≤ m * m'
  · have hlog := (Nat.le_log2 (Nat.mul_pos hm hm').ne').mpr hlead
    omega
  · have he : e = leastExponent := by
      by_contra hne
      exact hlead ((h.leading (by omega)).trans (Nat.le_mul_of_pos_right m hm'))
    have he' : e' = leastExponent := by
      by_contra hne
      exact hlead ((h'.leading (by omega)).trans (Nat.le_mul_of_pos_left m' hm))
    omega

lemma apply_mul (s s' : Sign) (n n' : ℤ) : (s * s').apply (n * n') = s.apply n * s'.apply n' := by
  cases s <;> cases s' <;> simp only [Sign.apply,neg_mul,mul_neg,neg_neg]

lemma roundedTo_mul (ha : Canonical a) (hb : Canonical b) :
    RoundedTo (unpackedValue a * unpackedValue b) (mul .binary64 a b) := by
  obtain ⟨s,rfl⟩ | ⟨s,m,e,hm,rfl,ha⟩ := ha.cases <;> obtain ⟨s',rfl⟩ | ⟨s',m',e',hm',rfl,hb⟩ := hb.cases
  · rw [unpackedValue_zero,zero_mul]
    exact roundedTo_zero _
  · rw [unpackedValue_zero,zero_mul]
    exact roundedTo_zero _
  · rw [unpackedValue_zero,mul_zero]
    exact roundedTo_zero _
  · have hproduct := roundedTo_roundWithAccuracy (s * s') (measures_exact _)
      (product_exponent_le ha hb hm hm')
    have hvalue : ((s * s').apply 1 : ℤ) * (((m * m' : ℕ) : ℚ) * 2 ^ (e + e')) =
        unpackedValue (.finite s m e hm) * unpackedValue (.finite s' m' e' hm') := by
      rw [zpow_add₀ two_ne_zero,← mul_assoc,apply_one,Nat.cast_mul,apply_mul,Int.cast_mul]
      exact mul_mul_mul_comm _ _ _ _
    rw [hvalue] at hproduct
    exact hproduct

/-- A quotient has places enough, or it is of the least exponent. -/
lemma quotient_exponent_le (hm : 0 < m) (hm' : 0 < m') {n : ℕ} {t : ℤ} (hn : e - e' - t = n)
    (ht : t ≤ Format.binary64.targetExponent (totalExponent m e - totalExponent m' e')) :
    t ≤ Format.binary64.targetExponent (totalExponent (m * 2 ^ n / m') t) := by
  have hleast : Format.binary64.minExponent = leastExponent := by decide
  have hbits : Format.binary64.mantissaBits = 53 := rfl
  rw [targetExponent_eq]
  rw [Format.targetExponent,hleast,hbits,totalExponent,totalExponent] at ht
  rcases le_or_gt t leastExponent with hle | hgt
  · exact hle.trans (le_max_right _ _)
  · have hshift : m'.log2 + 1 + 52 ≤ m.log2 + n := by omega
    have hquotient : 2 ^ 52 ≤ m * 2 ^ n / m' := by
      rw [Nat.le_div_iff_mul_le hm']
      calc 2 ^ 52 * m' ≤ 2 ^ 52 * 2 ^ (m'.log2 + 1) := by gcongr; exact Nat.lt_log2_self.le
        _ = 2 ^ (m'.log2 + 1 + 52) := by rw [← pow_add,add_comm]
        _ ≤ 2 ^ (m.log2 + n) := Nat.pow_le_pow_right two_pos hshift
        _ = 2 ^ m.log2 * 2 ^ n := pow_add 2 _ _
        _ ≤ m * 2 ^ n := Nat.mul_le_mul_right _ (Nat.log2_self_le hm.ne')
    have hlog := (Nat.le_log2 (by omega)).mpr hquotient
    omega

lemma apply_div (s s' : Sign) :
    (((s / s').apply 1 : ℤ) : ℚ) = (s.apply 1 : ℤ) / (s'.apply 1 : ℤ) := by
  have hne : ((s'.apply 1 : ℤ) : ℚ) ≠ 0 := by cases s' <;> simp [Sign.apply]
  have hmul : (s / s').apply 1 * s'.apply 1 = s.apply 1 := by cases s <;> cases s' <;> rfl
  exact (eq_div_iff hne).mpr (by exact_mod_cast hmul)

lemma roundedTo_div (ha : Canonical a) (hb : Canonical b) (hne : unpackedValue b ≠ 0) :
    RoundedTo (unpackedValue a / unpackedValue b) (div .binary64 a b) := by
  obtain ⟨s',rfl⟩ | ⟨s',m',e',hm',rfl,-⟩ := hb.cases
  · exact absurd rfl hne
  obtain ⟨s,rfl⟩ | ⟨s,m,e,hm,rfl,-⟩ := ha.cases
  · rw [unpackedValue_zero,zero_div]
    exact roundedTo_zero _
  set t := min (e - e')
    (Format.binary64.targetExponent (totalExponent m e - totalExponent m' e')) with ht
  obtain ⟨n,hn⟩ := Int.eq_ofNat_of_zero_le (show 0 ≤ e - e' - t by omega)
  have hquotient := roundedTo_roundWithAccuracy (s / s') (measures_div (m * 2 ^ n) hm')
    (quotient_exponent_le hm hm' hn (min_le_right _ _))
  have hresult : div .binary64 (.finite s m e hm) (.finite s' m' e' hm') =
      roundWithAccuracy .binary64 (s / s') (m * 2 ^ n / m') t
        (accuracyOfFraction (m * 2 ^ n % m') m') := by
    simp only [div,divCore,← ht,hn,Int.toNat_natCast,Nat.shiftLeft_eq]
  have hvalue : ((s / s').apply 1 : ℤ) * (((m * 2 ^ n : ℕ) : ℚ) / m' * 2 ^ t) =
      unpackedValue (.finite s m e hm) / unpackedValue (.finite s' m' e' hm') := by
    have hpow : (2 : ℚ) ^ e = 2 ^ n * 2 ^ t * 2 ^ e' := by
      rw [← zpow_natCast,← zpow_add₀ two_ne_zero,← zpow_add₀ two_ne_zero]
      congr 1
      omega
    rw [unpackedValue,unpackedValue,hpow,← apply_one s,← apply_one s',apply_div]
    push_cast
    field_simp
  rw [hvalue] at hquotient
  rw [hresult]
  exact hquotient

/-! The operations on numbers -/

/-- The number is what an exact result is rounded to. It is finite unless that is beyond the greatest
number. -/
def IsNearest (x : ℚ) (v : Float) : Prop :=
  ∃ (k : ℕ) (e : ℤ), Rounds |x| k e ∧ (v.isFinite = true ↔ (k : ℚ) * 2 ^ e ≤ greatest) ∧
    (v.isFinite = true → rational v = if x < 0 then -((k : ℚ) * 2 ^ e) else k * 2 ^ e)

/-- What is beyond the greatest number is put together as infinity. -/
lemma isFinite_pack (h : Canonical a) :
    (Float.Model.pack a).unpack.isFinite = true ↔ |unpackedValue a| ≤ greatest := by
  constructor
  · intro hfin
    obtain ⟨s,rfl⟩ | ⟨s,m,e,hm,rfl,hc⟩ := h.cases
    · rw [unpackedValue_zero,abs_zero]
      exact mul_nonneg (by norm_num) (zpow_pos two_pos _).le
    · rw [unpackedValue,abs_signed]
      refine hc.le_greatest (not_lt.mp fun hlt => ?_)
      have hgreatest : greatestExponent = 971 := rfl
      have hbias : e + Format.binary64.exponentBias + (52 : ℕ) = e + 1075 := by
        rw [add_assoc]
        rfl
      change (unpack .binary64 (pack .binary64 _)).isFinite = true at hfin
      simp only [pack,hbias,show 2 ^ 11 ≤ (e + 1075).toNat + 1 by omega,↓reduceIte] at hfin
      cases s <;> exact absurd hfin (by decide)
  · intro hle
    rw [unpack_pack h hle]
    obtain ⟨s,rfl⟩ | ⟨s,m,e,hm,rfl,-⟩ := h.cases <;> rfl

lemma isNearest_pack (h : RoundedTo x a) : IsNearest x (.ofModel (.pack a)) := by
  obtain ⟨hc,k,e,hr,hv⟩ := h
  have habs := abs_eq_of_signed hv
  have hfin := isFinite_pack hc
  rw [habs] at hfin
  refine ⟨k,e,hr,hfin,fun h => ?_⟩
  change unpackedValue (Float.Model.pack a).unpack = _
  rw [unpack_pack hc (habs ▸ hfin.mp h),hv]

theorem isNearest_add (hv : v.isFinite = true) (hw : w.isFinite = true) :
    IsNearest (rational v + rational w) (v + w) :=
  isNearest_pack (roundedTo_add (unpack_of_isFinite hv).1 (unpack_of_isFinite hw).1)

theorem isNearest_sub (hv : v.isFinite = true) (hw : w.isFinite = true) :
    IsNearest (rational v - rational w) (v - w) :=
  isNearest_pack (roundedTo_sub (unpack_of_isFinite hv).1 (unpack_of_isFinite hw).1)

theorem isNearest_mul (hv : v.isFinite = true) (hw : w.isFinite = true) :
    IsNearest (rational v * rational w) (v * w) :=
  isNearest_pack (roundedTo_mul (unpack_of_isFinite hv).1 (unpack_of_isFinite hw).1)

theorem isNearest_div (hv : v.isFinite = true) (hw : w.isFinite = true) (hne : rational w ≠ 0) :
    IsNearest (rational v / rational w) (v / w) :=
  isNearest_pack (roundedTo_div (unpack_of_isFinite hv).1 (unpack_of_isFinite hw).1 hne)

lemma isNearest_ofUInt64 (n : UInt64) : IsNearest n.toNat n.toFloat := by
  have h := roundedTo_normalize n.toNat 0 .positive
  rw [zpow_zero,mul_one,Int.cast_natCast] at h
  exact isNearest_pack h

/-- A number of the format that is no greater than the greatest one. -/
lemma IsNearest.exact {n : ℕ} {j : ℤ} (h : IsNearest (n * 2 ^ j) v) (hn : n ≤ 2 ^ 53)
    (hj : leastExponent ≤ j) (hle : (n : ℚ) * 2 ^ j ≤ greatest) :
    v.isFinite = true ∧ rational v = n * 2 ^ j := by
  obtain ⟨k,e,hr,hv⟩ := h
  have hp : (0 : ℚ) ≤ n * 2 ^ j := by positivity
  rw [abs_of_nonneg hp] at hr
  have hk : (k : ℚ) * 2 ^ e = n * 2 ^ j := le_antisymm (hr.le hn hj le_rfl) (hr.ge hn hj le_rfl)
  rw [hk,if_neg hp.not_gt] at hv
  exact ⟨hv.1.mpr hle,hv.2 (hv.1.mpr hle)⟩

lemma le_greatest_of_le {n : ℕ} (h : n ≤ 2 ^ 64) : (n : ℚ) ≤ greatest := by
  have hc : IsCanonical (2 ^ 52) 12 := ⟨by decide,by decide,fun _ => le_rfl⟩
  have hle : (n : ℚ) ≤ 2 ^ 64 := by exact_mod_cast h
  calc (n : ℚ) ≤ ((2 ^ 52 : ℕ) : ℚ) * 2 ^ (12 : ℤ) := hle.trans (by norm_num)
    _ ≤ greatest := hc.le_greatest (by decide)

/-- One, as the powers of ten have it. -/
lemma isFinite_firstPower :
    (getElem Float.exactlyRepresentablePowersOfTen 0 (by decide)).isFinite = true := by
  decide +kernel

lemma rational_firstPower : rational (getElem Float.exactlyRepresentablePowersOfTen 0 (by decide)) = 1 := by
  have hu : (getElem Float.exactlyRepresentablePowersOfTen 0 (by decide)).toModel.unpack =
      .finite .positive (2 ^ 52) (-52) (by decide) := by
    rfl
  rw [rational,hu,unpackedValue]
  norm_num [Sign.apply]

/-- Natural numbers are rounded, those too that are too large for a machine word. -/
theorem isNearest_ofNat (n : ℕ) : IsNearest n (Float.ofNat n) := by
  change IsNearest n (Float.ofScientific n false 0)
  unfold Float.ofScientific
  simp only [Bool.false_eq_true,↓reduceIte]
  split_ifs with h
  · have hn : n.toUInt64.toNat = n := Nat.mod_eq_of_lt (h.1.trans (by decide))
    have hcast := isNearest_ofUInt64 n.toUInt64
    rw [hn] at hcast
    have hexact := IsNearest.exact (j := 0) (by simpa using hcast) h.1.le (by decide)
      (by simpa using le_greatest_of_le (h.1.le.trans (by decide)))
    have hproduct := isNearest_mul hexact.1 isFinite_firstPower
    rw [hexact.2,rational_firstPower,zpow_zero,mul_one,mul_one] at hproduct
    exact hproduct
  · have hlarge : 2 ^ 53 ≤ n := by
      by_contra hlt
      exact h ⟨not_le.mp hlt,by decide⟩
    have hpos : n ≠ 0 := by
      rintro rfl
      exact absurd hlarge (by decide)
    refine isNearest_pack ?_
    have hlog := (Nat.le_log2 hpos).mpr hlarge
    have hbits : Format.binary64.mantissaBits = 53 := rfl
    have hsmall : ¬ Int.ofNat 0 < -(2 ^ Format.binary64.exponentBits + (n.log2 : ℤ)) := by
      have hp : (0 : ℤ) < 2 ^ Format.binary64.exponentBits := by decide
      change ¬ (0 : ℤ) < _
      omega
    unfold ofScientific
    rw [dif_neg hpos,if_neg (by decide),if_neg hsmall,if_pos (by decide)]
    simp only [mul,Nat.shiftLeft_eq,hbits,Int.ofNat_eq_natCast,Int.toNat_natCast,pow_zero,mul_one,
      add_zero]
    have hround := roundedTo_roundWithAccuracy (e := -53) (.positive * .positive)
      (measures_exact (n * 2 ^ 53)) (by
        rw [targetExponent_eq,log2_mul_two_pow (by omega)]
        omega)
    have hvalue : ((n * 2 ^ 53 : ℕ) : ℚ) * 2 ^ (-53 : ℤ) = n := by
      rw [Nat.cast_mul,Nat.cast_pow,Nat.cast_ofNat,mul_assoc,← zpow_natCast,← zpow_add₀ two_ne_zero]
      norm_num
    rw [hvalue] at hround
    simpa [Sign.apply] using hround

/-! What is rounded is bounded -/

/-- A number that is not zero, written with all places of the mantissa. -/
lemma exists_leading (hw : w.isFinite = true) (hpos : 0 < rational w) :
    ∃ (n : ℕ) (j : ℤ), 2 ^ 52 ≤ n ∧ n < 2 ^ 53 ∧ leastExponent ≤ j + greatestExponent ∧
      rational w = n * 2 ^ j := by
  have hleast : leastExponent = -1074 := rfl
  have hgreatest : greatestExponent = 971 := rfl
  have hvalue : rational w = unpackedValue w.toModel.unpack := rfl
  obtain ⟨s,hu⟩ | ⟨s,m,e,hm,hu,hc⟩ := (unpack_of_isFinite hw).1.cases
  · rw [hvalue,hu] at hpos
    exact absurd hpos (lt_irrefl 0)
  · rw [hu,unpackedValue] at hvalue
    have hlog : m.log2 ≤ 52 := Nat.le_of_lt_succ ((Nat.log2_lt hm.ne').mpr hc.lt)
    have hlog' : (m * 2 ^ (52 - m.log2)).log2 = 52 := by
      rw [log2_mul_two_pow hm]
      omega
    obtain ⟨hlow,hhigh⟩ := (Nat.log2_eq_iff (by positivity)).mp hlog'
    have hleastm := hc.least
    refine ⟨_,e - (52 - m.log2 : ℕ),hlow,hhigh,by omega,?_⟩
    rw [hvalue,zpow_sub₀ two_ne_zero,zpow_natCast]
    push_cast
    cases s with
    | positive =>
      simp only [Sign.apply,Int.cast_natCast]
      field_simp
    | negative =>
      have hneg : rational w ≤ 0 := by
        rw [hvalue]
        simp [Sign.apply]
        positivity
      exact absurd hpos hneg.not_gt

namespace IsNearest

/-- A result is finite exactly if the exact one is in range. -/
theorem isFinite_iff (h : IsNearest x v) : v.isFinite = true ↔ InRange x := by
  obtain ⟨k,e,hr,hfin,-⟩ := h
  rw [hfin]
  exact ⟨fun hle => not_le.mp fun hx => hle.not_gt (hr.greatest_lt hx),hr.le_greatest⟩

lemma abs_le_of_rounds {k : ℕ} {e : ℤ} {y : ℚ}
    (hv : (v.isFinite = true ↔ (k : ℚ) * 2 ^ e ≤ greatest) ∧
      (v.isFinite = true → rational v = if x < 0 then -((k : ℚ) * 2 ^ e) else k * 2 ^ e))
    (hy : (k : ℚ) * 2 ^ e ≤ y) (hle : y ≤ greatest) : v.isFinite = true ∧ |rational v| ≤ y := by
  have hp : (0 : ℚ) ≤ k * 2 ^ e := by positivity
  have hfin := hv.1.mpr (hy.trans hle)
  refine ⟨hfin,?_⟩
  rw [hv.2 hfin]
  split_ifs
  · rwa [abs_neg,abs_of_nonneg hp]
  · rwa [abs_of_nonneg hp]

/-- A part of one is rounded to a part of one. -/
lemma part (h : IsNearest x v) (h0 : 0 ≤ x) (h1 : x ≤ 1) :
    v.isFinite = true ∧ 0 ≤ rational v ∧ rational v ≤ 1 ∧ rational v ≤ x + 2 ^ (-54 : ℤ) := by
  obtain ⟨k,e,hr,hv⟩ := h
  rw [abs_of_nonneg h0] at hr
  have hone : (k : ℚ) * 2 ^ e ≤ 1 := by
    have h := hr.le (n := 1) (j := 0) (by decide) (by decide) (by simpa using h1)
    simpa using h
  have hnear := (abs_le.mp (hr.abs_sub_le_of_le_one h1)).1
  have hone' : (1 : ℚ) ≤ greatest := by simpa using le_greatest_of_le (n := 1) (by decide)
  have hfin := hv.1.mpr (hone.trans hone')
  have hvalue := hv.2 hfin
  rw [if_neg h0.not_gt] at hvalue
  rw [hvalue]
  exact ⟨hfin,by positivity,hone,by linarith⟩

/-- A part of a number does not pass the same part of the greatest number. -/
lemma abs_le_scaled (h : IsNearest (rational v * rational w) v') (hv : v.isFinite = true)
    (hw : w.isFinite = true) (h0 : 0 ≤ rational w) (h1 : rational w ≤ 1) :
    v'.isFinite = true ∧ |rational v'| ≤ greatest * rational w := by
  have hg : 0 ≤ greatest := mul_nonneg (by norm_num) (zpow_pos two_pos _).le
  have hbound : greatest * rational w ≤ greatest := mul_le_of_le_one_right hg h1
  have hx : |rational v * rational w| ≤ greatest * rational w := by
    rw [abs_mul,abs_of_nonneg h0]
    exact mul_le_mul_of_nonneg_right (unpack_of_isFinite hv).2 h0
  obtain ⟨k,e,hr,hv'⟩ := h
  refine abs_le_of_rounds hv' ?_ hbound
  rcases h0.eq_or_lt with hzero | hpos
  · rw [← hzero,mul_zero,abs_zero] at hr
    have hk : k = 0 := Nat.le_zero.mp (hr.le_of_places (by simp))
    rw [hk,← hzero]
    simp
  · obtain ⟨n,j,hn,hn',hj,hvalue⟩ := exists_leading hw hpos
    rw [hvalue] at hx ⊢
    rw [hvalue] at hr
    exact hr.le_scaled hn hn' hj hx

lemma one_le (h : IsNearest x v) (h1 : 1 ≤ x) (hv : v.isFinite = true) : 1 ≤ rational v := by
  obtain ⟨k,e,hr,-,hvalue⟩ := h
  have h0 : 0 ≤ x := zero_le_one.trans h1
  rw [abs_of_nonneg h0] at hr
  rw [hvalue hv,if_neg h0.not_gt]
  simpa using hr.ge (n := 1) (j := 0) (by decide) (by decide) (by simpa using h1)

/-- A greater magnitude is not rounded to less. -/
lemma mono {x' : ℚ} (h : IsNearest x v) (h' : IsNearest x' v') (h0 : 0 ≤ x) (hlt : x < x')
    (hv' : v'.isFinite = true) : v.isFinite = true ∧ 0 ≤ rational v ∧ rational v ≤ rational v' := by
  obtain ⟨k,e,hr,hfin,hvalue⟩ := h
  obtain ⟨k',e',hr',hfin',hvalue'⟩ := h'
  rw [abs_of_nonneg h0] at hr
  rw [abs_of_nonneg (h0.trans hlt.le)] at hr'
  have hle := hr.mono hr' hlt
  have hv := hfin.mpr (hle.trans (hfin'.mp hv'))
  rw [hvalue hv,hvalue' hv',if_neg h0.not_gt,if_neg (h0.trans hlt.le).not_gt]
  exact ⟨hv,by positivity,hle⟩

end IsNearest

/-! What is not finite stays so -/

lemma isFinite_of_pack (h : (Float.Model.pack a).unpack.isFinite = true) : a.isFinite = true := by
  cases a with
  | infinity s => cases s <;> exact absurd h (by decide)
  | notANumber => exact absurd h (by decide)
  | zero s => rfl
  | finite s m e hm => rfl

theorem isFinite_of_add (h : (v + w).isFinite = true) : v.isFinite = true ∧ w.isFinite = true := by
  have hsum : (add .binary64 v.toModel.unpack w.toModel.unpack).isFinite = true := isFinite_of_pack h
  change v.toModel.unpack.isFinite = true ∧ w.toModel.unpack.isFinite = true
  generalize v.toModel.unpack = a at hsum ⊢
  generalize w.toModel.unpack = b at hsum ⊢
  cases a <;> cases b <;> simp only [add,UnpackedFloat.isFinite] at hsum ⊢ <;>
    first
      | exact ⟨trivial,trivial⟩
      | cases hsum
      | split_ifs at hsum

theorem isFinite_of_mul (h : (v * w).isFinite = true) : v.isFinite = true ∧ w.isFinite = true := by
  have hproduct : (mul .binary64 v.toModel.unpack w.toModel.unpack).isFinite = true :=
    isFinite_of_pack h
  change v.toModel.unpack.isFinite = true ∧ w.toModel.unpack.isFinite = true
  generalize v.toModel.unpack = a at hproduct ⊢
  generalize w.toModel.unpack = b at hproduct ⊢
  cases a <;> cases b <;> simp only [mul,UnpackedFloat.isFinite] at hproduct ⊢ <;>
    first
      | exact ⟨trivial,trivial⟩
      | cases hproduct

end Formulary.Decimal
