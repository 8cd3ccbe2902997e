import Formulary.Decimal.Reader
import Mathlib

/-! The bits of a number that was put together. Taking it apart again gives its sign and, if it is
finite, its mantissa and exponent. -/
namespace Formulary.Decimal
open Float.Model (Format)
open Float.Model.UnpackedFloat (unpackExponent unpackMantissa unpackExponent_def unpackMantissa_def)

lemma toNat_unpackExponent (b : BitVec Format.binary64.numBits) :
    (unpackExponent b).toNat = b.toNat / 2 ^ 52 % 2048 := by
  simp [unpackExponent_def,Nat.shiftRight_eq_div_pow]

lemma toNat_unpackMantissa (b : BitVec Format.binary64.numBits) :
    (unpackMantissa b).toNat = b.toNat % 2 ^ 52 := by
  simp [unpackMantissa_def]

/-- Bits that are no more than those of infinity, the sign aside, are those of a number. -/
lemma valid_of_le_infinityBits {b : UInt64} (h : b.toNat % 2 ^ 63 ≤ infinityBits) :
    Format.binary64.Valid b.toBitVec := by
  refine ⟨fun he hm => absurd ?_ hm⟩
  have he : b.toNat / 2 ^ 52 % 2048 = 2047 := by
    have := congrArg BitVec.toNat he
    rw [toNat_unpackExponent] at this
    simpa using this
  refine BitVec.eq_of_toNat_eq ?_
  rw [toNat_unpackMantissa,UInt64.toNat_toBitVec]
  have hinf : infinityBits = 2047 * 2 ^ 52 := rfl
  simp only [BitVec.toNat_ofNat]
  omega

lemma toBits_ofBits {b : UInt64} (h : b.toNat % 2 ^ 63 ≤ infinityBits) :
    (Float.ofBits b).toBits = b := by
  let v : Float := ⟨⟨b,valid_of_le_infinityBits h⟩⟩
  have hv : Float.ofBits v.toBits = v := Float.ofBits_toBits v
  exact congrArg Float.toBits hv

/-- The bits of a number with a sign and a magnitude. -/
lemma toNat_toBits_ofMagnitude (negative : Bool) (magnitude : ℕ) :
    (ofMagnitude negative magnitude).toBits.toNat =
      (if negative then 2 ^ 63 else 0) + min magnitude infinityBits := by
  have hinf : infinityBits = 2047 * 2 ^ 52 := rfl
  have hlt : (if negative then 2 ^ 63 else 0) + min magnitude infinityBits < 2 ^ 64 := by
    split_ifs <;> omega
  have hb : (UInt64.ofNat ((if negative then Nat.pow 2 63 else 0) + min magnitude infinityBits)).toNat =
      (if negative then 2 ^ 63 else 0) + min magnitude infinityBits := by
    exact UInt64.toNat_ofNat_of_lt hlt
  rw [ofMagnitude,toBits_ofBits (by rw [hb]; split_ifs <;> omega),hb]

/-- A number that was put together without a sign. -/
def IsUnsigned (v : Float) : Prop := ∃ magnitude, v = ofMagnitude false magnitude

lemma IsUnsigned.toBits_lt {v : Float} (h : IsUnsigned v) : v.toBits.toNat < 2 ^ 63 := by
  obtain ⟨m,rfl⟩ := h
  have hinf : infinityBits = 2047 * 2 ^ 52 := rfl
  rw [toNat_toBits_ofMagnitude]
  simp
  omega

lemma biased_ne_of_isFinite {v : Float} (h : v.isFinite = true) :
    v.toBits.toNat / 2 ^ 52 % 2048 ≠ 2047 := by
  intro hb
  let bits : BitVec Format.binary64.numBits := v.toBits.toBitVec
  have he : unpackExponent bits = -1#_ := by
    refine BitVec.eq_of_toNat_eq ?_
    rw [toNat_unpackExponent,UInt64.toNat_toBitVec,hb]
    rfl
  change (Float.Model.UnpackedFloat.unpack .binary64 bits).isFinite = true at h
  unfold Float.Model.UnpackedFloat.unpack at h
  simp only [he,↓reduceIte] at h
  split_ifs at h <;> cases h

/-- A finite number has the parts of one, with its sign. -/
lemma parts_of_isFinite {v : Float} (h : v.isFinite = true) :
    ∃ mantissa exponent, parts v =
      .finite (decide (2 ^ 63 ≤ v.toBits.toNat)) mantissa exponent := by
  have hb : v.toBits.toNat / Nat.pow 2 52 % 2048 ≠ 2047 := biased_ne_of_isFinite h
  simp only [parts,hb,↓reduceIte]
  split_ifs
  · exact ⟨_,_,rfl⟩
  · exact ⟨_,_,rfl⟩

/-- The only zero without a sign. -/
lemma IsUnsigned.eq_zero {v : Float} (h : IsUnsigned v) (hz : (v == 0.0) = true) :
    v = ofMagnitude false 0 := by
  have hzero : (0.0 : Float) = ofMagnitude false 0 := by decide +kernel
  obtain ⟨-,-,rfl | ⟨-,hne⟩ | ⟨rfl,-⟩⟩ := Float.beq_iff_ne_nan_and_eq.mp hz
  · exact hzero
  · exact absurd hne (by decide +kernel)
  · exact absurd h.toBits_lt (by decide +kernel)

/-! Numbers that are read -/

lemma isUnsigned_ofRatio (num den : ℕ) : IsUnsigned (ofRatio false num den) := by
  simp only [ofRatio]
  split_ifs <;> exact ⟨_,rfl⟩

lemma isUnsigned_ofDecimal (significand : ℕ) (exponent : ℤ) :
    IsUnsigned (ofDecimal false significand exponent) := by
  simp only [ofDecimal]
  split_ifs
  · exact ⟨_,rfl⟩
  · exact ⟨_,rfl⟩
  · exact isUnsigned_ofRatio _ _

lemma readSign_of_ne {s : List Char} (h : s.head? ≠ some '-') : (readSign s).1 = false := by
  unfold readSign
  split <;> simp_all

/-- A finite number that is read without a minus sign has no sign. -/
theorem isUnsigned_of_readChars? {s : List Char} {v : Float} (h : readChars? s = some v)
    (hs : s.head? ≠ some '-') (hv : v.isFinite = true) : IsUnsigned v := by
  simp only [readChars?,readSign_of_ne hs,Option.or_eq_some_iff] at h
  rcases h with h | ⟨-,h⟩
  · simp only [readMagnitude?] at h
    split_ifs at h
    obtain ⟨exponent,-,rfl⟩ := Option.map_eq_some_iff.mp h
    exact isUnsigned_ofDecimal _ _
  · simp only [readName?] at h
    split_ifs at h
    · cases h
      exact ⟨_,rfl⟩
    · cases h
      exact absurd hv (by decide +kernel)

end Formulary.Decimal
