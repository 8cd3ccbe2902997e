import Formulary.Proofs.Decimal.Binary64
import Formulary.Proofs.Decimal.Nearest

/-! Binary64 numbers taken apart. A finite one is a number of the format, and putting such a number
together loses nothing. -/
namespace Formulary.Decimal
open Float.Model (Format UnpackedFloat totalExponent)
open Float.Model.UnpackedFloat

/-- The value of a number that is taken apart; what is not finite has none, and zero stands for it. -/
def unpackedValue : UnpackedFloat → ℚ
  | .finite s m e _ => (s.apply m : ℤ) * 2 ^ e
  | _ => 0

def rational (v : Float) : ℚ := unpackedValue v.toModel.unpack

/-- Finite and written in the one way of the format, of which there is no greatest exponent here. -/
def Canonical : UnpackedFloat → Prop
  | .finite _ m e _ => IsCanonical m e
  | .zero _ => True
  | _ => False

variable {s : Sign} {m k : ℕ} {e : ℤ} {x : ℚ} {u : UnpackedFloat} {v w : Float}

@[simp]
lemma unpackedValue_zero (s : Sign) : unpackedValue (.zero s) = 0 := rfl

lemma Canonical.cases (h : Canonical u) :
    (∃ s, u = .zero s) ∨ ∃ s m e, ∃ hm : 0 < m, u = .finite s m e hm ∧ IsCanonical m e := by
  cases u with
  | infinity s => exact absurd h id
  | notANumber => exact absurd h id
  | zero s => exact .inl ⟨s,rfl⟩
  | finite s m e hm => exact .inr ⟨s,m,e,hm,rfl,h⟩

lemma abs_signed (s : Sign) (m : ℕ) (e : ℤ) : |((s.apply m : ℤ) : ℚ) * 2 ^ e| = m * 2 ^ e := by
  cases s <;> simp [Sign.apply]

/-! Taking apart and putting together -/

lemma toNat_implicit (b : BitVec 52) : (1#1 ++ b).toNat = 2 ^ 52 + b.toNat := by
  rw [BitVec.toNat_append,← Nat.shiftLeft_add_eq_or_of_lt b.isLt]
  simp [Nat.shiftLeft_eq]

/-- The exponent of a number that is not beyond the greatest one. -/
lemma IsCanonical.exponent_le (h : IsCanonical m e) (hx : m * 2 ^ e ≤ greatest) :
    e ≤ greatestExponent := by
  have hp : (0 : ℚ) < 2 ^ greatestExponent := zpow_pos two_pos _
  by_contra hlt
  rw [not_le] at hlt
  have hm : (2 : ℚ) ^ 52 ≤ m := by
    exact_mod_cast h.leading (by unfold leastExponent; unfold greatestExponent at hlt; omega)
  have hlow := (two_pow_mul_zpow_le hlt).trans (mul_zpow_le_iff.mpr hm)
  unfold greatest at hx
  linarith

lemma IsCanonical.le_greatest (h : IsCanonical m e) (he : e ≤ greatestExponent) :
    (m : ℚ) * 2 ^ e ≤ greatest := by
  have hm : (m : ℚ) + 1 ≤ 2 ^ 53 := by exact_mod_cast h.lt
  have hpow : (2 : ℚ) ^ e ≤ 2 ^ greatestExponent := zpow_le_zpow_right₀ (by norm_num) he
  exact mul_le_mul (by linarith) hpow (zpow_pos two_pos e).le (by norm_num)

/-- A number that is finite is one of the format. -/
lemma unpack_of_isFinite (h : v.isFinite = true) :
    Canonical v.toModel.unpack ∧ |rational v| ≤ greatest := by
  have hleast : leastExponent = -1074 := rfl
  have hgreatest : greatestExponent = 971 := rfl
  have hbias : ((Format.binary64.exponentBias : ℕ) : ℤ) = 1023 := rfl
  let bits : BitVec Format.binary64.numBits := v.toBits.toBitVec
  change (unpack .binary64 bits).isFinite = true at h
  change Canonical (unpack .binary64 bits) ∧ |unpackedValue (unpack .binary64 bits)| ≤ greatest
  have hm : (unpackMantissa bits).toNat < 2 ^ 52 := (unpackMantissa bits).isLt
  have he : (unpackExponent bits).toNat < 2048 := (unpackExponent bits).isLt
  have hg : 0 ≤ greatest := mul_nonneg (by norm_num) (zpow_pos two_pos _).le
  unfold unpack at h ⊢
  dsimp only at h ⊢
  split_ifs with h1 h2 h3 h4
  · simp [h1,h2,UnpackedFloat.isFinite] at h
  · simp [h1,h2,UnpackedFloat.isFinite] at h
  · exact ⟨trivial,by simpa [unpackedValue] using hg⟩
  · have hzero : (unpackExponent bits).toNat = 0 := by rw [h3]; rfl
    have hc : IsCanonical (unpackMantissa bits).toNat
        (((unpackExponent bits).toNat : ℤ) - (Format.binary64.exponentBias + (52 : ℕ)) + 1) :=
      ⟨by omega,by omega,by omega⟩
    refine ⟨hc,?_⟩
    simp only [unpackedValue,abs_signed]
    exact hc.le_greatest (by omega)
  · have hne : (unpackExponent bits).toNat ≠ 0 := fun h => h3 (BitVec.eq_of_toNat_eq h)
    have hne' : (unpackExponent bits).toNat ≠ 2047 := fun h => h1 (BitVec.eq_of_toNat_eq h)
    have hc : IsCanonical (1#1 ++ unpackMantissa bits).toNat
        (((unpackExponent bits).toNat : ℤ) - (Format.binary64.exponentBias + (52 : ℕ))) := by
      rw [toNat_implicit]
      exact ⟨by omega,by omega,by omega⟩
    refine ⟨hc,?_⟩
    simp only [unpackedValue,abs_signed]
    exact hc.le_greatest (by omega)

lemma unpackSign_packComponents {f : Format} (s : Sign) (e : BitVec f.exponentBits)
    (m : BitVec f.mantissaBitsWithoutImplicit) :
    unpackSign (packComponents f s e m) = s.toBitVec := by
  refine BitVec.eq_of_getLsbD_eq fun i hi => ?_
  obtain rfl : i = 0 := by omega
  simp [unpackSign,packComponents,BitVec.getLsbD_append,BitVec.getElem_append]

lemma ofBitVec_toBitVec (s : Sign) : Sign.ofBitVec s.toBitVec = s := by
  cases s <;> rfl

lemma unpack_normal (s : Sign) (b : BitVec 11) (m : BitVec 52) (hb : b ≠ -1#_) (hb' : b ≠ 0#_)
    {n : ℕ} (hn : 2 ^ 52 + m.toNat = n) (he : (b.toNat : ℤ) - 1075 = e) (hpos : 0 < n) :
    unpack .binary64 (packComponents .binary64 s b m) = .finite s n e hpos := by
  subst hn he
  simp only [unpack,unpackMantissa_packComponents,unpackExponent_packComponents,
    unpackSign_packComponents,ofBitVec_toBitVec,hb,hb',↓reduceIte,toNat_implicit]
  rfl

lemma unpack_subnormal (s : Sign) (m : BitVec 52) {n : ℕ} (hn : m.toNat = n) (hpos : 0 < n) :
    unpack .binary64 (packComponents .binary64 s 0#_ m) = .finite s n leastExponent hpos := by
  subst hn
  have hm : m ≠ 0#_ := by
    rintro rfl
    exact absurd hpos (by decide)
  simp only [unpack,unpackMantissa_packComponents,unpackExponent_packComponents,
    unpackSign_packComponents,ofBitVec_toBitVec,hm,↓reduceIte,↓reduceDIte]
  rfl

/-- Putting a number together loses nothing. -/
theorem unpack_pack (h : Canonical u) (hle : |unpackedValue u| ≤ greatest) :
    (Float.Model.pack u).unpack = u := by
  have hleast : leastExponent = -1074 := rfl
  have hgreatest : greatestExponent = 971 := rfl
  change unpack .binary64 (pack .binary64 u) = u
  obtain ⟨s,rfl⟩ | ⟨s,m,e,hm,rfl,h⟩ := h.cases
  · simp only [pack,packedZero,unpack,unpackMantissa_packComponents,unpackExponent_packComponents,
      unpackSign_packComponents,ofBitVec_toBitVec]
    rfl
  · simp only [unpackedValue,abs_signed] at hle
    have hlow := h.least
    have hhigh := h.exponent_le hle
    have hlt := h.lt
    have hbias : e + Format.binary64.exponentBias + (52 : ℕ) = e + 1075 := by
      rw [add_assoc]
      rfl
    simp only [pack,hbias,show ¬ 2 ^ 11 ≤ (e + 1075).toNat + 1 by omega,↓reduceIte]
    by_cases hlead : 2 ^ 52 ≤ m
    · have hlog : m.log2 + 1 = Format.binary64.mantissaBits := by
        have h1 := (Nat.le_log2 hm.ne').mpr hlead
        have h2 := (Nat.log2_lt hm.ne').mpr hlt
        change _ = 53
        omega
      have hexp : (BitVec.ofNat 11 (e + 1075).toNat).toNat = (e + 1075).toNat :=
        Nat.mod_eq_of_lt (by omega)
      rw [if_pos hlog]
      have hexp' : ((BitVec.ofNat 11 (e + 1075).toNat).toNat : ℤ) - 1075 = e := by omega
      refine unpack_normal s _ _ (fun hb => ?_) (fun hb => ?_) ?_ hexp' hm
      · have : (e + 1075).toNat = 2047 := hexp.symm.trans (congrArg BitVec.toNat hb)
        omega
      · have : (e + 1075).toNat = 0 := hexp.symm.trans (congrArg BitVec.toNat hb)
        omega
      · rw [BitVec.toNat_ofNat]
        omega
    · have hlog : ¬ m.log2 + 1 = Format.binary64.mantissaBits := by
        have h2 := (Nat.log2_lt hm.ne').mpr (not_le.mp hlead)
        change _ ≠ 53
        omega
      obtain rfl : e = leastExponent := by
        by_contra hne
        exact hlead (h.leading (by omega))
      rw [if_neg hlog]
      exact unpack_subnormal s (BitVec.ofNat 52 m) (Nat.mod_eq_of_lt (not_le.mp hlead)) hm

end Formulary.Decimal
