import Formulary.Script.Basic
import Formulary.Proofs.Decimal.ReadBack

/-! Literals of numbers. The literal of a number without sign is made of digits with at most one point
between them. -/
namespace Formulary

namespace Decimal

/-- Without a sign, a number is written positionally by digits and a point. -/
lemma isPositional_chars_plain {v : Float} (hv : IsUnsigned v) (hf : v.isFinite = true) :
    IsPositional (Layout.plain.chars v) := by
  obtain ⟨mantissa,exponent,hparts⟩ := parts_of_isFinite hf
  have hsign : decide (2 ^ 63 ≤ v.toBits.toNat) = false := by
    simpa using hv.toBits_lt
  rw [hsign] at hparts
  simp only [Layout.chars,hparts,signText,Bool.false_eq_true,↓reduceIte,List.nil_append]
  split_ifs
  · exact isPositional_positionalText (by simp) (by simp) 0 _
  · exact isPositional_positionalText (digitsOf_ne_nil _) (fun _ => isDigit_of_mem_digitsOf) _ _

end Decimal

namespace Script
open Decimal

lemma isNaN_of_isFinite {v : Float} (h : v.isFinite = true) : v.isNaN = false := by
  change (Float.Model.unpack v.toModel).isFinite = true at h
  change (Float.Model.unpack v.toModel).isNaN = false
  cases hv : Float.Model.unpack v.toModel with
  | notANumber =>
    rw [hv] at h
    cases h
  | _ => rfl

lemma readChars?_zero : readChars? ['0'] = some (ofMagnitude false 0) := by decide +kernel

/-- A literal of a number without sign is positional and is read as the number. -/
theorem numberLiteral_spec {v : Float} (hv : IsUnsigned v) (hf : v.isFinite = true) :
    IsPositional (numberLiteral v).toList ∧ readChars? (numberLiteral v).toList = some v := by
  simp only [numberLiteral,isNaN_of_isFinite hf,hf,Sets.numberText,Bool.false_eq_true,↓reduceIte]
  split_ifs with hz
  · obtain rfl := hv.eq_zero hz
    exact ⟨.whole (by simp) (by simp),readChars?_zero⟩
  · exact ⟨by simpa [Layout.text] using isPositional_chars_plain hv hf,read?_plain hf⟩

end Script
end Formulary
