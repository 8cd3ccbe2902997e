import Formulary.Proofs.Decimal.Order

/-! Sums that come back to their first summand. A summand is lost on both sides of a number only if it
is at most the `2 ^ 53`rd part of the number, and it is always lost from the `2 ^ 54`th part on. -/
namespace Formulary.Decimal
open Float.Model (UnpackedFloat)

variable {k n : ℕ} {e j : ℤ} {x y p : ℚ} {a b : UnpackedFloat} {v w : Float}

namespace Rounds

/-- Of two mantissas that are nearest to a magnitude, none is greater. -/
lemma mantissa_le_of_same (h : Rounds x k e) (h' : Rounds x n e) : n ≤ k := by
  have hp : (0 : ℚ) < 2 ^ e := zpow_pos two_pos e
  have hlow := (abs_le.mp h.near).2
  have hhigh := (abs_le.mp h'.near).1
  by_contra hlt
  have hnext : n ≤ k + 1 := le_of_mul_zpow_lt (e := e) (by push_cast; linarith)
  obtain rfl : n = k + 1 := by omega
  -- the magnitude lies half way between two neighbours, of which one is odd
  push_cast at hhigh
  have htie : x - k * 2 ^ e = 2 ^ e / 2 := by linarith
  have htie' : x - ((k + 1 : ℕ) : ℚ) * 2 ^ e = -(2 ^ e / 2) := by
    push_cast
    linarith
  have heven := h.even (by rw [htie,abs_of_pos (by linarith)])
  have heven' := h'.even (by rw [htie',abs_neg,abs_of_pos (by linarith)])
  omega

/-- A magnitude is rounded to one number. -/
theorem unique (h : Rounds x k e) (h' : Rounds x n j) : (k : ℚ) * 2 ^ e = n * 2 ^ j := by
  rcases lt_trichotomy e j with he | rfl | he
  · have hlow := (two_pow_mul_zpow_le he).trans (h'.leading (h.least.trans_lt he))
    linarith [h.below]
  · rw [le_antisymm (h.mantissa_le_of_same h') (h'.mantissa_le_of_same h)]
  · have hlow := (two_pow_mul_zpow_le he).trans (h.leading (h'.least.trans_lt he))
    linarith [h'.below]

/-- What comes back to a magnitude has added no more than half a place to its at least `2 ^ 52`. -/
lemma le_of_absorbed (h : Rounds (y + p) k e) (hk : k * 2 ^ e = y) (hp : 2 ^ leastExponent ≤ p) :
    2 ^ 53 * p ≤ y := by
  have hplace : (0 : ℚ) < 2 ^ e := zpow_pos two_pos e
  have hhalf := (abs_le.mp h.near).2
  rw [hk,add_sub_cancel_left] at hhalf
  rcases h.least.eq_or_lt with rfl | hlt
  · linarith
  · have hlead : 2 ^ 52 ≤ k := h.ge_of_places (by exact_mod_cast h.leading hlt)
    have hlow := (mul_zpow_le_iff (e := e)).mpr (show ((2 ^ 52 : ℕ) : ℚ) ≤ k by exact_mod_cast hlead)
    push_cast at hlow
    linarith

/-- Above a number of the format, less than half a place decides nothing. -/
lemma eq_of_near_above (h : Rounds x k e) (hc : IsCanonical n j) (hle : n * 2 ^ j ≤ x)
    (hx : 2 ^ 54 * (x - n * 2 ^ j) ≤ n * 2 ^ j) : (k : ℚ) * 2 ^ e = n * 2 ^ j := by
  have hp : (0 : ℚ) < 2 ^ j := zpow_pos two_pos j
  have hn : (n : ℚ) + 1 ≤ 2 ^ 53 := by exact_mod_cast hc.lt
  have hscaled := (mul_zpow_le_iff (e := j)).mpr hn
  refine le_antisymm ?_ (h.ge hc.lt.le hc.least hle)
  rcases lt_trichotomy e j with he | rfl | he
  · have hlead : (2 : ℚ) ^ 52 ≤ n := by exact_mod_cast hc.leading (h.least.trans_lt he)
    have hlow := (two_pow_mul_zpow_le he).trans (mul_zpow_le_iff.mpr hlead)
    linarith [h.below]
  · have hnear := (abs_le.mp h.near).1
    have hk : k ≤ n := le_of_mul_zpow_lt (e := e) (by linarith)
    exact mul_zpow_le_iff.mpr (by exact_mod_cast hk)
  · have hhigh := (two_pow_mul_zpow_le he).trans (h.leading (hc.least.trans_lt he))
    linarith

/-- Half a place below the end of its places, a magnitude is rounded to that end, which is even. -/
lemma le_of_half_below_end (h : Rounds x k e) (hx : (2 ^ 53 - 1 / 2) * 2 ^ e ≤ x) : 2 ^ 53 ≤ k := by
  have hp : (0 : ℚ) < 2 ^ e := zpow_pos two_pos e
  have hnear := (abs_le.mp h.near).2
  have hk : 2 ^ 53 - 1 ≤ k := by
    refine le_of_mul_zpow_lt (e := e) ?_
    push_cast
    linarith
  by_contra hlt
  obtain rfl : k = 2 ^ 53 - 1 := by omega
  push_cast at hnear
  have htie : x - ((2 ^ 53 - 1 : ℕ) : ℚ) * 2 ^ e = 2 ^ e / 2 := by
    push_cast
    linarith
  have heven := h.even (by rw [htie,abs_of_pos (by linarith)])
  omega

/-- Below a number of the format, a quarter of a place decides nothing; that is half a place of the
numbers below a power of two. -/
lemma eq_of_near_below (h : Rounds x k e) (hc : IsCanonical n j) (hle : x ≤ n * 2 ^ j)
    (hx : 2 ^ 54 * (n * 2 ^ j - x) ≤ n * 2 ^ j) : (k : ℚ) * 2 ^ e = n * 2 ^ j := by
  have hp : (0 : ℚ) < 2 ^ j := zpow_pos two_pos j
  have hn : (n : ℚ) + 1 ≤ 2 ^ 53 := by exact_mod_cast hc.lt
  have hscaled := (mul_zpow_le_iff (e := j)).mpr hn
  refine le_antisymm (h.le hc.lt.le hc.least hle) ?_
  rcases lt_trichotomy e j with he | rfl | he
  · -- then the number is a power of two, and the magnitude has the places of those below it
    have hbelow := h.below
    have hdouble := two_pow_mul_zpow_le he
    have hlead : 2 ^ 52 ≤ n := hc.leading (h.least.trans_lt he)
    obtain rfl : n = 2 ^ 52 := by
      by_contra hne
      have hmore : (2 : ℚ) ^ 52 + 1 ≤ n := by exact_mod_cast (by omega : 2 ^ 52 + 1 ≤ n)
      have hlow := (mul_zpow_le_iff (e := j)).mpr hmore
      linarith
    push_cast at hx ⊢
    have hhalf : (2 : ℚ) ^ j = 2 * 2 ^ (j - 1) := by
      rw [mul_comm,← zpow_add_one₀ two_ne_zero,sub_add_cancel]
    obtain rfl : e = j - 1 := by
      by_contra hne
      have hfar := two_pow_mul_zpow_le (show e < j - 1 by omega)
      linarith
    have hk : (2 : ℚ) ^ 53 ≤ k := by exact_mod_cast h.le_of_half_below_end (by linarith)
    have hend := (mul_zpow_le_iff (e := j - 1)).mpr hk
    linarith
  · have hnear := (abs_le.mp h.near).2
    have hk : n ≤ k := le_of_mul_zpow_lt (e := e) (by linarith)
    exact mul_zpow_le_iff.mpr (by exact_mod_cast hk)
  · have hhigh := (two_pow_mul_zpow_le he).trans (h.leading (hc.least.trans_lt he))
    linarith

lemma eq_of_near (h : Rounds x k e) (hc : IsCanonical n j)
    (hx : 2 ^ 54 * |x - n * 2 ^ j| ≤ n * 2 ^ j) : (k : ℚ) * 2 ^ e = n * 2 ^ j := by
  rcases le_total ((n : ℚ) * 2 ^ j) x with hle | hle
  · rw [abs_of_nonneg (sub_nonneg.mpr hle)] at hx
    exact h.eq_of_near_above hc hle hx
  · rw [abs_sub_comm,abs_of_nonneg (sub_nonneg.mpr hle)] at hx
    exact h.eq_of_near_below hc hle hx

end Rounds

lemma RoundedTo.unique (h : RoundedTo x a) (h' : RoundedTo x b) :
    unpackedValue a = unpackedValue b := by
  obtain ⟨-,k,e,hr,hv⟩ := h
  obtain ⟨-,n,j,hr',hv'⟩ := h'
  rw [hv,hv',hr.unique hr']

/-- What is near enough to a number of the format is rounded to it. -/
lemma RoundedTo.eq_of_near (h : RoundedTo x a) (hb : Canonical b)
    (hx : 2 ^ 54 * |x - unpackedValue b| ≤ |unpackedValue b|) : unpackedValue a = unpackedValue b := by
  obtain ⟨-,k,e,hr,hv⟩ := h
  obtain ⟨n,j,hc,habs⟩ := hb.abs_eq
  have hmagnitude := abs_abs_sub_abs_le x (unpackedValue b)
  have hk : (k : ℚ) * 2 ^ e = |unpackedValue b| := by
    rw [habs] at hx hmagnitude ⊢
    exact hr.eq_of_near hc (by linarith)
  have hdistance := abs_le.mp (le_refl |x - unpackedValue b|)
  rw [hv,hk]
  split_ifs with hneg
  · have hb0 : unpackedValue b ≤ 0 := by
      by_contra hpos
      rw [abs_of_pos (not_le.mp hpos)] at hx
      linarith
    rw [abs_of_nonpos hb0,neg_neg]
  · refine abs_of_nonneg ?_
    by_contra hpos
    rw [abs_of_neg (not_le.mp hpos)] at hx
    linarith

/-- What a magnitude has lost in rounding is small against what is left. -/
lemma RoundedTo.le_of_absorbed (h : RoundedTo x a) (hx : |x| = |unpackedValue a| + p)
    (hp : 2 ^ leastExponent ≤ p) : 2 ^ 53 * p ≤ |unpackedValue a| := by
  obtain ⟨-,k,e,hr,hv⟩ := h
  rw [hx] at hr
  exact hr.le_of_absorbed (abs_eq_of_signed hv).symm hp

/-! Numbers that a summand leaves as they are -/

lemma least_le_rational (hw : w.isFinite = true) (h0 : 0 < rational w) :
    2 ^ leastExponent ≤ rational w := by
  obtain ⟨n,j,hc,habs⟩ := (unpack_of_isFinite hw).1.abs_eq
  have hvalue : rational w = n * 2 ^ j := (abs_of_pos h0).symm.trans habs
  have hn : (1 : ℚ) ≤ n := by
    rw [Nat.one_le_cast,Nat.one_le_iff_ne_zero]
    rintro rfl
    simp [hvalue] at h0
  calc (2 : ℚ) ^ leastExponent ≤ 2 ^ j := zpow_le_zpow_right₀ one_le_two hc.least
    _ ≤ n * 2 ^ j := le_mul_of_one_le_left (zpow_pos two_pos j).le hn
    _ = rational w := hvalue.symm

/-- A number that a summand moves to neither side. -/
def Unmoved (v w : Float) : Prop :=
  (v - w == v) = true ∧ (v + w == v) = true

lemma beq_pack_iff (h : Canonical a) (hv : v.isFinite = true) :
    (Float.ofModel (.pack a) == v) = true ↔ unpackedValue a = rational v := by
  obtain ⟨hnan,hle,hge⟩ := place_pack h hv
  rw [beq_iff_place hnan (isNaN_of_isFinite hv),le_antisymm_iff,hle,hge,← le_antisymm_iff]

section
variable {v' : Float} (hv : v.isFinite = true) (hv' : v'.isFinite = true) (hw : w.isFinite = true)
  (heq : rational v = rational v')

include hv hv' heq in
/-- Whether a result equals a number does not depend on the sign of a zero. -/
lemma RoundedTo.beq_congr (h : RoundedTo x a) (h' : RoundedTo x b) :
    (Float.ofModel (.pack a) == v) = true ↔ (Float.ofModel (.pack b) == v') = true := by
  rw [beq_pack_iff h.1 hv,beq_pack_iff h'.1 hv',h.unique h',heq]

include hv hv' hw heq

lemma sub_beq_congr : (v - w == v) = true ↔ (v' - w == v') = true := by
  obtain ⟨a,ha,h⟩ := exists_sub_eq_pack hv hw
  obtain ⟨b,hb,h'⟩ := exists_sub_eq_pack hv' hw
  rw [heq] at h
  rw [ha,hb]
  exact h.beq_congr hv hv' heq h'

lemma add_beq_congr : (v + w == v) = true ↔ (v' + w == v') = true := by
  obtain ⟨a,ha,h⟩ := exists_add_eq_pack hv hw
  obtain ⟨b,hb,h'⟩ := exists_add_eq_pack hv' hw
  rw [heq] at h
  rw [ha,hb]
  exact h.beq_congr hv hv' heq h'

lemma unmoved_congr : Unmoved v w ↔ Unmoved v' w :=
  and_congr (sub_beq_congr hv hv' hw heq) (add_beq_congr hv hv' hw heq)

end

/-- A summand is lost on both sides exactly if difference and sum are both rounded to the number. -/
lemma exists_unmoved_iff (hv : v.isFinite = true) (hw : w.isFinite = true) :
    ∃ a b, RoundedTo (rational v - rational w) a ∧ RoundedTo (rational v + rational w) b ∧
      (Unmoved v w ↔ unpackedValue a = rational v ∧ unpackedValue b = rational v) := by
  obtain ⟨a,ha,hsub⟩ := exists_sub_eq_pack hv hw
  obtain ⟨b,hb,hadd⟩ := exists_add_eq_pack hv hw
  refine ⟨a,b,hsub,hadd,?_⟩
  rw [Unmoved,ha,hb,beq_pack_iff hsub.1 hv,beq_pack_iff hadd.1 hv]

/-- What is absorbed is at most the `2 ^ 53`rd part. -/
theorem Unmoved.le (h : Unmoved v w) (hv : v.isFinite = true) (hw : w.isFinite = true)
    (h0 : 0 < rational w) : 2 ^ 53 * rational w ≤ |rational v| := by
  obtain ⟨a,b,hsub,hadd,hiff⟩ := exists_unmoved_iff hv hw
  obtain ⟨hlow,hhigh⟩ := hiff.mp h
  have hleast := least_le_rational hw h0
  -- on the side away from zero the magnitude grows by the whole summand
  rcases le_or_gt 0 (rational v) with hpos | hneg
  · have hx : |rational v + rational w| = |rational v| + rational w := by
      rw [abs_of_nonneg hpos,abs_of_nonneg (by linarith)]
    have hle := hadd.le_of_absorbed (by rw [hhigh,hx]) hleast
    rwa [hhigh] at hle
  · have hx : |rational v - rational w| = |rational v| + rational w := by
      rw [abs_of_neg hneg,abs_of_neg (by linarith)]
      ring
    have hle := hsub.le_of_absorbed (by rw [hlow,hx]) hleast
    rwa [hlow] at hle

/-- A summand of at most the `2 ^ 54`th part is absorbed. -/
theorem unmoved_of_le (hv : v.isFinite = true) (hw : w.isFinite = true) (h0 : 0 ≤ rational w)
    (hle : 2 ^ 54 * rational w ≤ |rational v|) : Unmoved v w := by
  have hc := (unpack_of_isFinite hv).1
  obtain ⟨a,b,hsub,hadd,hiff⟩ := exists_unmoved_iff hv hw
  refine hiff.mpr ⟨hsub.eq_of_near hc ?_,hadd.eq_of_near hc ?_⟩
  · change 2 ^ 54 * |rational v - rational w - rational v| ≤ |rational v|
    rwa [sub_sub_cancel_left,abs_neg,abs_of_nonneg h0]
  · change 2 ^ 54 * |rational v + rational w - rational v| ≤ |rational v|
    rwa [add_sub_cancel_left,abs_of_nonneg h0]

end Formulary.Decimal
