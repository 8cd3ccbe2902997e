import Formulary.Proofs.Decimal.Arithmetic
import Mathlib.Order.WithBot
import Mathlib.Order.Compare

/-! The order of binary64 numbers. Two of them compare as their places on the rational line compare, of
which the infinities are the two ends. -/
namespace Formulary.Decimal
open Float.Model (Format UnpackedFloat)
open Float.Model.UnpackedFloat

variable {m m' : ℕ} {e e' : ℤ} {x : ℚ} {a b : UnpackedFloat} {v w : Float}

/-! Magnitudes compare by their exponents first -/

lemma IsCanonical.lt_of_exponent_lt (h : IsCanonical m e) (h' : IsCanonical m' e') (he : e < e') :
    (m : ℚ) * 2 ^ e < m' * 2 ^ e' := by
  have hlt : (m : ℚ) < 2 ^ 53 := by exact_mod_cast h.lt
  have hlead : (2 : ℚ) ^ 52 ≤ m' := by exact_mod_cast h'.leading (h.least.trans_lt he)
  calc (m : ℚ) * 2 ^ e < 2 ^ 53 * 2 ^ e := mul_lt_mul_of_pos_right hlt (zpow_pos two_pos e)
    _ ≤ 2 ^ 52 * 2 ^ e' := two_pow_mul_zpow_le he
    _ ≤ m' * 2 ^ e' := mul_zpow_le_iff.mpr hlead

lemma compare_map {α β : Type} [LinearOrder α] [LinearOrder β] {f : α → β} (hf : StrictMono f)
    (x y : α) : compare (f x) (f y) = compare x y := by
  rw [← cmp_eq_compare,← cmp_eq_compare,hf.cmp_map_eq]

lemma compare_magnitudes (h : IsCanonical m e) (h' : IsCanonical m' e') :
    (compare e e').then (compare m m') = compare ((m : ℚ) * 2 ^ e) (m' * 2 ^ e') := by
  rcases lt_trichotomy e e' with he | rfl | he
  · rw [compare_lt_iff_lt.mpr he,compare_lt_iff_lt.mpr (h.lt_of_exponent_lt h' he)]
    rfl
  · have hmono : StrictMono fun n : ℕ => (n : ℚ) * 2 ^ e := fun n n' hn =>
      mul_lt_mul_of_pos_right (by exact_mod_cast hn) (zpow_pos two_pos e)
    rw [compare_eq_iff_eq.mpr rfl,compare_map hmono]
    rfl
  · rw [compare_gt_iff_gt.mpr he,compare_gt_iff_gt.mpr (h'.lt_of_exponent_lt h he)]
    rfl

lemma swap_compare (x y : ℚ) : (compare x y).swap = compare (-x) (-y) := by
  have hneg : StrictAnti fun q : ℚ => -q := fun _ _ => neg_lt_neg
  rw [← cmp_eq_compare,← cmp_eq_compare,cmp_swap,hneg.cmp_map_eq]

lemma unpackedValue_positive (hm : 0 < m) : unpackedValue (.finite .positive m e hm) = m * 2 ^ e := by
  simp [unpackedValue,Sign.apply]

lemma unpackedValue_negative (hm : 0 < m) :
    unpackedValue (.finite .negative m e hm) = -(m * 2 ^ e) := by
  simp [unpackedValue,Sign.apply]

/-- Numbers that are taken apart compare as their values do. -/
theorem compare_unpacked (ha : Canonical a) (hb : Canonical b) :
    a.compare b = some (compare (unpackedValue a) (unpackedValue b)) := by
  have hpos {m : ℕ} (hm : 0 < m) (e : ℤ) : (0 : ℚ) < m * 2 ^ e := by positivity
  obtain ⟨s,rfl⟩ | ⟨s,m,e,hm,rfl,hc⟩ := ha.cases <;>
    obtain ⟨s',rfl⟩ | ⟨s',m',e',hm',rfl,hc'⟩ := hb.cases
  · rw [unpackedValue_zero,unpackedValue_zero,compare_eq_iff_eq.mpr rfl]
    rfl
  · cases s'
    · rw [unpackedValue_zero,unpackedValue_negative,
        compare_gt_iff_gt.mpr (neg_neg_of_pos (hpos hm' e'))]
      rfl
    · rw [unpackedValue_zero,unpackedValue_positive,compare_lt_iff_lt.mpr (hpos hm' e')]
      rfl
  · cases s
    · rw [unpackedValue_zero,unpackedValue_negative,
        compare_lt_iff_lt.mpr (neg_neg_of_pos (hpos hm e))]
      rfl
    · rw [unpackedValue_zero,unpackedValue_positive,compare_gt_iff_gt.mpr (hpos hm e)]
      rfl
  · cases s <;> cases s'
    · rw [unpackedValue_negative,unpackedValue_negative,← swap_compare,← compare_magnitudes hc hc']
      rfl
    · rw [unpackedValue_negative,unpackedValue_positive,
        compare_lt_iff_lt.mpr ((neg_neg_of_pos (hpos hm e)).trans (hpos hm' e'))]
      rfl
    · rw [unpackedValue_negative,unpackedValue_positive,
        compare_gt_iff_gt.mpr ((neg_neg_of_pos (hpos hm' e')).trans (hpos hm e))]
      rfl
    · rw [unpackedValue_positive,unpackedValue_positive,← compare_magnitudes hc hc']
      rfl

/-! The two ends -/

/-- Where a number stands. What is no number stands nowhere, and zero stands for it. -/
def placeOf : UnpackedFloat → WithBot (WithTop ℚ)
  | .infinity .negative => ⊥
  | .infinity .positive => ⊤
  | u => ((unpackedValue u : WithTop ℚ) : WithBot (WithTop ℚ))

def place (v : Float) : WithBot (WithTop ℚ) := placeOf v.toModel.unpack

lemma placeOf_canonical (h : Canonical a) :
    placeOf a = ((unpackedValue a : WithTop ℚ) : WithBot (WithTop ℚ)) := by
  obtain ⟨s,rfl⟩ | ⟨s,m,e,hm,rfl,-⟩ := h.cases <;> rfl

/-- A finite number stands where its value is. -/
lemma place_of_isFinite (h : v.isFinite = true) :
    place v = ((rational v : WithTop ℚ) : WithBot (WithTop ℚ)) :=
  placeOf_canonical (unpack_of_isFinite h).1

/-- An infinity lies beyond every number of the format. -/
lemma compare_infinity (s : Sign) (hb : Canonical b) :
    (UnpackedFloat.infinity s).compare b = some (compare (placeOf (.infinity s)) (placeOf b)) ∧
      b.compare (.infinity s) = some (compare (placeOf b) (placeOf (.infinity s))) := by
  have hlow : (⊥ : WithBot (WithTop ℚ)) < placeOf b := by
    rw [placeOf_canonical hb]
    exact WithBot.bot_lt_coe _
  have hhigh : placeOf b < (⊤ : WithBot (WithTop ℚ)) := by
    rw [placeOf_canonical hb]
    exact WithBot.coe_lt_coe.mpr (WithTop.coe_lt_top _)
  cases s with
  | negative =>
    rw [placeOf,compare_lt_iff_lt.mpr hlow,compare_gt_iff_gt.mpr hlow]
    obtain ⟨s,rfl⟩ | ⟨s,m,e,hm,rfl,-⟩ := hb.cases <;> exact ⟨rfl,rfl⟩
  | positive =>
    rw [placeOf,compare_gt_iff_gt.mpr hhigh,compare_lt_iff_lt.mpr hhigh]
    obtain ⟨s,rfl⟩ | ⟨s,m,e,hm,rfl,-⟩ := hb.cases <;> exact ⟨rfl,rfl⟩

lemma compare_placeOf (ha : (∃ s, a = .infinity s) ∨ Canonical a)
    (hb : (∃ s, b = .infinity s) ∨ Canonical b) :
    a.compare b = some (compare (placeOf a) (placeOf b)) := by
  obtain ⟨s,rfl⟩ | ha := ha <;> obtain ⟨s',rfl⟩ | hb := hb
  · have hends : (⊥ : WithBot (WithTop ℚ)) < ⊤ := WithBot.bot_lt_coe _
    cases s <;> cases s'
    · rw [compare_eq_iff_eq.mpr rfl]
      rfl
    · rw [placeOf,placeOf,compare_lt_iff_lt.mpr hends]
      rfl
    · rw [placeOf,placeOf,compare_gt_iff_gt.mpr hends]
      rfl
    · rw [compare_eq_iff_eq.mpr rfl]
      rfl
  · exact (compare_infinity s hb).1
  · exact (compare_infinity s' ha).2
  · rw [compare_unpacked ha hb,placeOf_canonical ha,placeOf_canonical hb]
    exact congrArg some ((compare_map WithBot.coe_strictMono _ _).trans
      (compare_map WithTop.coe_strictMono _ _)).symm

/-- What a number is that is one. -/
lemma unpack_of_not_isNaN (h : v.isNaN = false) :
    (∃ s, v.toModel.unpack = .infinity s) ∨ Canonical v.toModel.unpack := by
  cases hu : v.toModel.unpack with
  | infinity s => exact .inl ⟨s,rfl⟩
  | notANumber =>
    change v.toModel.unpack.isNaN = false at h
    rw [hu] at h
    cases h
  | zero s => exact .inr trivial
  | finite s m e hm =>
    have hfin : v.isFinite = true := by
      change v.toModel.unpack.isFinite = true
      rw [hu]
      rfl
    exact .inr (hu ▸ (unpack_of_isFinite hfin).1)

lemma isNaN_of_isFinite (h : v.isFinite = true) : v.isNaN = false := by
  change v.toModel.unpack.isFinite = true at h
  change v.toModel.unpack.isNaN = false
  cases hu : v.toModel.unpack with
  | notANumber =>
    rw [hu] at h
    cases h
  | _ => rfl

section
variable (hv : v.isNaN = false) (hw : w.isNaN = false)
include hv hw

lemma compare_place : v.toModel.unpack.compare w.toModel.unpack =
    some (compare (place v) (place w)) :=
  compare_placeOf (unpack_of_not_isNaN hv) (unpack_of_not_isNaN hw)

theorem lt_iff_place : v < w ↔ place v < place w := by
  change decide ((v.toModel.unpack.compare w.toModel.unpack == some .lt) = true) = true ↔ _
  rw [compare_place hv hw,decide_eq_true_iff,beq_iff_eq,Option.some.injEq,compare_lt_iff_lt]

theorem le_iff_place : v ≤ w ↔ place v ≤ place w := by
  change decide ((v.toModel.unpack.compare w.toModel.unpack).any (·.isLE) = true) = true ↔ _
  rw [compare_place hv hw,decide_eq_true_iff,Option.any_some,Ordering.isLE_iff_ne_gt]
  exact compare_le_iff_le

theorem beq_iff_place : (v == w) = true ↔ place v = place w := by
  change (v.toModel.unpack.compare w.toModel.unpack == some .eq) = true ↔ _
  rw [compare_place hv hw,beq_iff_eq,Option.some.injEq,compare_eq_iff_eq]

end

/-- Finite numbers that are equal have one value, whatever the sign of zero. -/
lemma beq_iff_rational (hv : v.isFinite = true) (hw : w.isFinite = true) :
    (v == w) = true ↔ rational v = rational w := by
  rw [beq_iff_place (isNaN_of_isFinite hv) (isNaN_of_isFinite hw),place_of_isFinite hv,
    place_of_isFinite hw,WithBot.coe_inj,WithTop.coe_inj]

/-! Where results stand -/

lemma Canonical.abs_eq (h : Canonical a) :
    ∃ (n : ℕ) (j : ℤ), IsCanonical n j ∧ |unpackedValue a| = n * 2 ^ j := by
  obtain ⟨s,rfl⟩ | ⟨s,m,e,hm,rfl,hc⟩ := h.cases
  · exact ⟨0,leastExponent,⟨by decide,le_rfl,fun h => absurd h (lt_irrefl _)⟩,by simp⟩
  · exact ⟨m,e,hc,by rw [unpackedValue,abs_signed]⟩

/-- What is not above a number of the format is not rounded to more. -/
lemma RoundedTo.le (h : RoundedTo x a) (hb : Canonical b) (hx : x ≤ unpackedValue b) :
    unpackedValue a ≤ unpackedValue b := by
  obtain ⟨-,k,e,hr,hv⟩ := h
  obtain ⟨n,j,hc,habs⟩ := hb.abs_eq
  have hk : (0 : ℚ) ≤ k * 2 ^ e := by positivity
  rw [hv]
  split_ifs with hneg
  · rcases le_or_gt 0 (unpackedValue b) with h0 | h0
    · linarith
    · rw [abs_of_neg hneg] at hr
      rw [abs_of_neg h0] at habs
      have hge := hr.ge hc.lt.le hc.least (by linarith)
      linarith
  · have h0 : 0 ≤ x := not_lt.mp hneg
    rw [abs_of_nonneg h0] at hr
    rw [abs_of_nonneg (h0.trans hx)] at habs
    rw [habs] at hx ⊢
    exact hr.le hc.lt.le hc.least hx

/-- What is not below a number of the format is not rounded to less. -/
lemma RoundedTo.ge (h : RoundedTo x a) (hb : Canonical b) (hx : unpackedValue b ≤ x) :
    unpackedValue b ≤ unpackedValue a := by
  obtain ⟨-,k,e,hr,hv⟩ := h
  obtain ⟨n,j,hc,habs⟩ := hb.abs_eq
  have hk : (0 : ℚ) ≤ k * 2 ^ e := by positivity
  rw [hv]
  split_ifs with hneg
  · have h0 : unpackedValue b < 0 := hx.trans_lt hneg
    rw [abs_of_neg hneg] at hr
    rw [abs_of_neg h0] at habs
    have hle := hr.le hc.lt.le hc.least (by linarith)
    linarith
  · rcases le_or_gt (unpackedValue b) 0 with h0 | h0
    · linarith
    · rw [abs_of_nonneg (not_lt.mp hneg)] at hr
      rw [abs_of_pos h0] at habs
      rw [habs] at hx ⊢
      exact hr.ge hc.lt.le hc.least hx

/-- What is beyond the greatest number is put together as an end. -/
lemma unpack_pack_of_greatest_lt (h : Canonical a) (hlt : greatest < |unpackedValue a|) :
    ∃ s m e, ∃ hm : 0 < m, a = .finite s m e hm ∧ (Float.Model.pack a).unpack = .infinity s := by
  obtain ⟨s,rfl⟩ | ⟨s,m,e,hm,rfl,hc⟩ := h.cases
  · rw [unpackedValue_zero,abs_zero] at hlt
    exact absurd hlt (mul_nonneg (by norm_num) (zpow_pos two_pos _).le).not_gt
  · refine ⟨s,m,e,hm,rfl,?_⟩
    have hexponent : greatestExponent < e := by
      by_contra hle
      rw [unpackedValue,abs_signed] at hlt
      exact hlt.not_ge (hc.le_greatest (not_lt.mp hle))
    have hgreatest : greatestExponent = 971 := rfl
    have hbias : e + Format.binary64.exponentBias + (52 : ℕ) = e + 1075 := by
      rw [add_assoc]
      rfl
    change unpack .binary64 (pack .binary64 _) = _
    simp only [pack,hbias,show 2 ^ 11 ≤ (e + 1075).toNat + 1 by omega,↓reduceIte]
    cases s <;> rfl

/-- What is put together stands on the same side of every finite number as what was put together. -/
lemma place_pack (h : Canonical a) (hw : w.isFinite = true) :
    (Float.ofModel (.pack a)).isNaN = false ∧
      (place (.ofModel (.pack a)) ≤ place w ↔ unpackedValue a ≤ rational w) ∧
      (place w ≤ place (.ofModel (.pack a)) ↔ rational w ≤ unpackedValue a) := by
  have hnan (u : UnpackedFloat) (hu : (Float.Model.pack a).unpack = u) (hne : u.isNaN = false) :
      (Float.ofModel (.pack a)).isNaN = false := by
    change (Float.Model.pack a).unpack.isNaN = false
    rwa [hu]
  have hplace : place (.ofModel (.pack a)) = placeOf (Float.Model.pack a).unpack := rfl
  rw [hplace,place_of_isFinite hw]
  rcases le_or_gt |unpackedValue a| greatest with hle | hlt
  · have hu := unpack_pack h hle
    rw [hu,placeOf_canonical h]
    refine ⟨hnan _ hu ?_,?_,?_⟩
    · obtain ⟨s,rfl⟩ | ⟨s,m,e,hm,rfl,-⟩ := h.cases <;> rfl
    · rw [WithBot.coe_le_coe,WithTop.coe_le_coe]
    · rw [WithBot.coe_le_coe,WithTop.coe_le_coe]
  · obtain ⟨s,m,e,hm,rfl,hu⟩ := unpack_pack_of_greatest_lt h hlt
    have hrange := abs_le.mp (unpack_of_isFinite hw).2
    have hp : (0 : ℚ) < m * 2 ^ e := by positivity
    rw [hu]
    refine ⟨hnan _ hu rfl,?_⟩
    rw [unpackedValue,abs_signed] at hlt
    cases s with
    | negative =>
      rw [unpackedValue_negative hm]
      exact ⟨iff_of_true bot_le (by linarith),
        iff_of_false (WithBot.bot_lt_coe _).not_ge (by linarith)⟩
    | positive =>
      rw [unpackedValue_positive hm]
      have htop : ((rational w : WithTop ℚ) : WithBot (WithTop ℚ)) < placeOf (.infinity .positive) :=
        WithBot.coe_lt_coe.mpr (WithTop.coe_lt_top _)
      exact ⟨iff_of_false htop.not_ge (by linarith),iff_of_true htop.le (by linarith)⟩

section
variable (hv : v.isFinite = true) (hw : w.isFinite = true)
include hv hw

lemma exists_sub_eq_pack :
    ∃ a, v - w = .ofModel (.pack a) ∧ RoundedTo (rational v - rational w) a :=
  ⟨_,rfl,roundedTo_sub (unpack_of_isFinite hv).1 (unpack_of_isFinite hw).1⟩

lemma exists_add_eq_pack :
    ∃ a, v + w = .ofModel (.pack a) ∧ RoundedTo (rational v + rational w) a :=
  ⟨_,rfl,roundedTo_add (unpack_of_isFinite hv).1 (unpack_of_isFinite hw).1⟩

/-- What is added on either side leads away from a number on that side, or nowhere. -/
theorem place_sub_le (h0 : 0 ≤ rational w) :
    (v - w).isNaN = false ∧ place (v - w) ≤ place v := by
  obtain ⟨a,ha,hround⟩ := exists_sub_eq_pack hv hw
  obtain ⟨hnan,hle,-⟩ := place_pack hround.1 hv
  rw [ha]
  exact ⟨hnan,hle.mpr (hround.le (unpack_of_isFinite hv).1 (sub_le_self _ h0))⟩

theorem place_le_add (h0 : 0 ≤ rational w) :
    (v + w).isNaN = false ∧ place v ≤ place (v + w) := by
  obtain ⟨a,ha,hround⟩ := exists_add_eq_pack hv hw
  obtain ⟨hnan,-,hge⟩ := place_pack hround.1 hv
  rw [ha]
  exact ⟨hnan,hge.mpr (hround.ge (unpack_of_isFinite hv).1 (le_add_of_nonneg_right h0))⟩

end

end Formulary.Decimal
