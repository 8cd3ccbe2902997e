import Formulary.Decimal.Layout
import Formulary.Decimal.Reader
import Mathlib.Data.Int.Notation
import Mathlib.Tactic.Common

/-! The characters of a written number. A finite number begins with a minus sign or a digit; without
an exponent, there are digits before the point and digits behind it, or digits alone. -/
namespace Formulary.Decimal

lemma isDigit_of_mem_digitsOf {n : ℕ} {c : Char} (h : c ∈ digitsOf n) : c.isDigit = true :=
  Nat.isDigit_of_mem_toDigits (by decide) (by decide) h

lemma digitsOf_ne_nil (n : ℕ) : digitsOf n ≠ [] := Nat.toDigits_ne_nil

lemma digitsValue_append (s t : List Char) :
    digitsValue (s ++ t) = Nat.ofDigitChars 10 t (digitsValue s) :=
  Nat.ofDigitChars_append 0

lemma digitsValue_zeros (n : ℕ) (s : List Char) :
    digitsValue (List.replicate n '0' ++ s) = digitsValue s := by
  rw [digitsValue_append,digitsValue,Nat.ofDigitChars_replicate_zero,Nat.mul_zero]
  rfl

lemma digitsValue_digitsOf (n : ℕ) : digitsValue (digitsOf n) = n := Nat.ofDigitChars_ten_toDigits

/-- The digits of a positive number begin with none that is zero. -/
lemma head_digitsOf {n : ℕ} (hn : 0 < n) : ∃ k s, digitsOf n = Nat.digitChar k :: s ∧ k ≠ 0 := by
  induction n using Nat.strongRecOn with
  | ind n ih =>
    rcases Nat.lt_or_ge n 10 with hlt | hge
    · exact ⟨n,[],Nat.toDigits_of_lt_base hlt,by omega⟩
    · obtain ⟨k,s,hs,hk⟩ := ih (n / 10) (by omega) (by omega)
      refine ⟨k,s ++ [(n % 10).digitChar],?_,hk⟩
      rw [digitsOf,Nat.toDigits_of_base_le (by decide) hge]
      exact congrArg (· ++ _) hs

/-- A decimal without sign and exponent, by the digits before and behind its point. -/
inductive IsPositional : List Char → Prop
  | whole {whole : List Char} (hne : whole ≠ []) (hw : ∀ c ∈ whole, c.isDigit = true) :
      IsPositional whole
  | point {whole fraction : List Char} (hne : whole ≠ []) (hw : ∀ c ∈ whole, c.isDigit = true)
      (hf : fraction ≠ []) (hd : ∀ c ∈ fraction, c.isDigit = true) :
      IsPositional (whole ++ '.' :: fraction)

/-- The characters of a decimal with or without an exponent. -/
def isNumeric (c : Char) : Bool :=
  c.isDigit || c == '.' || c == 'e' || c == '+' || c == '-'

lemma isNumeric_of_isDigit {c : Char} (h : c.isDigit = true) : isNumeric c = true := by
  simp [isNumeric,h]

lemma isDigit_of_mem_replicate {n : ℕ} {c : Char} (h : c ∈ List.replicate n '0') :
    c.isDigit = true := by
  obtain ⟨-,rfl⟩ := List.mem_replicate.mp h
  rfl

lemma isPositional_positionalText {digits : List Char} (hne : digits ≠ [])
    (hd : ∀ c ∈ digits, c.isDigit = true) (exponent : ℤ) (pointZero : Bool) :
    IsPositional (positionalText digits exponent pointZero) := by
  have hlen : 0 < digits.length := List.length_pos_iff.mpr hne
  simp only [positionalText]
  split_ifs with he hz hp
  · refine .point (by simp [hne]) (fun c hc => ?_) (by simp) (by simp)
    rcases List.mem_append.mp hc with hc | hc
    · exact hd c hc
    · exact isDigit_of_mem_replicate hc
  · rw [List.append_nil]
    refine .whole (by simp [hne]) (fun c hc => ?_)
    rcases List.mem_append.mp hc with hc | hc
    · exact hd c hc
    · exact isDigit_of_mem_replicate hc
  · refine .point ?_ (fun c hc => hd c (List.mem_of_mem_take hc)) ?_
      (fun c hc => hd c (List.mem_of_mem_drop hc))
    · rw [← List.length_pos_iff,List.length_take]
      omega
    · rw [← List.length_pos_iff,List.length_drop]
      omega
  · refine .point (show ['0'] ≠ [] by simp) (by simp) (by simp [hne]) (fun c hc => ?_)
    rcases List.mem_append.mp hc with hc | hc
    · exact isDigit_of_mem_replicate hc
    · exact hd c hc

/-- If the digits begin with none that is zero, a zero in front stands alone before the point. -/
lemma point_of_positionalText {digits : List Char} (hne : digits ≠ []) (hz : digits.head? ≠ some '0')
    {exponent : ℤ} {pointZero : Bool} {c : Char} {s : List Char}
    (h : positionalText digits exponent pointZero = '0' :: c :: s) : c = '.' := by
  obtain ⟨d,ds,rfl⟩ := List.exists_cons_of_ne_nil hne
  have hd : d ≠ '0' := by simpa using hz
  simp only [positionalText] at h
  split_ifs at h with he hp hpoint
  · exact absurd (List.cons_eq_cons.mp h).1 hd
  · exact absurd (List.cons_eq_cons.mp h).1 hd
  · obtain ⟨n,hn⟩ := Nat.exists_eq_add_of_le' (show 1 ≤ (((d :: ds).length : ℤ) + exponent).toNat by omega)
    rw [hn,List.take_succ_cons] at h
    exact absurd (List.cons_eq_cons.mp h).1 hd
  · exact (List.cons_eq_cons.mp (List.cons_eq_cons.mp h).2).1.symm

lemma IsPositional.isDigit_or_point {s : List Char} (h : IsPositional s) :
    ∀ c ∈ s, c.isDigit = true ∨ c = '.' := by
  intro c hc
  cases h with
  | whole hne hw => exact .inl (hw c hc)
  | point hne hw hf hd =>
    rcases List.mem_append.mp hc with hc | hc
    · exact .inl (hw c hc)
    · rcases List.mem_cons.mp hc with rfl | hc
      · exact .inr rfl
      · exact .inl (hd c hc)

lemma IsPositional.isNumeric {s : List Char} (h : IsPositional s) :
    ∀ c ∈ s, isNumeric c = true := by
  intro c hc
  rcases h.isDigit_or_point c hc with hd | rfl
  · exact isNumeric_of_isDigit hd
  · rfl

lemma IsPositional.head {s : List Char} (h : IsPositional s) :
    ∃ c t, s = c :: t ∧ c.isDigit = true := by
  cases h with
  | whole hne hw =>
    obtain ⟨c,t,rfl⟩ := List.exists_cons_of_ne_nil hne
    exact ⟨c,t,rfl,hw c List.mem_cons_self⟩
  | point hne hw hf hd =>
    obtain ⟨c,t,rfl⟩ := List.exists_cons_of_ne_nil hne
    exact ⟨c,_,rfl,hw c List.mem_cons_self⟩

/-- The digits of an exponent's mantissa, with a point behind the first if there are more. -/
lemma exponentText_eq {digits : List Char} (hne : digits ≠ []) (exponent : ℤ) (plus : Bool) :
    ∃ d places sign n, (digits = [d] ∧ places = [] ∨
        ∃ ds, ds ≠ [] ∧ digits = d :: ds ∧ places = '.' :: ds) ∧
      (sign = [] ∨ sign = ['-'] ∨ sign = ['+']) ∧
      exponentText digits exponent plus = [d] ++ (places ++ ('e' :: sign ++ digitsOf n)) := by
  let order : ℤ := digits.length - 1 + exponent
  let sign : List Char := if order < 0 then ['-'] else if plus then ['+'] else []
  have hsign : sign = [] ∨ sign = ['-'] ∨ sign = ['+'] := by
    simp only [sign]
    split_ifs <;> simp
  rcases digits with - | ⟨d,- | ⟨d',ds⟩⟩
  · exact absurd rfl hne
  · exact ⟨d,[],sign,order.natAbs,.inl ⟨rfl,rfl⟩,hsign,rfl⟩
  · refine ⟨d,'.' :: d' :: ds,sign,order.natAbs,.inr ⟨_,List.cons_ne_nil d' ds,rfl,rfl⟩,hsign,?_⟩
    simp [exponentText,sign,order]

lemma isNumeric_exponentText {digits : List Char} (hne : digits ≠ [])
    (hd : ∀ c ∈ digits, c.isDigit = true) (exponent : ℤ) (plus : Bool) :
    ∀ c ∈ exponentText digits exponent plus, isNumeric c = true := by
  obtain ⟨d,places,sign,n,hdigits,hsign,he⟩ := exponentText_eq hne exponent plus
  have hmantissa : ∀ c ∈ d :: places, c ∈ digits ∨ c = '.' := by
    rcases hdigits with ⟨rfl,rfl⟩ | ⟨ds,-,rfl,rfl⟩
    · simp
    · simp
      tauto
  have hpower : ∀ c ∈ 'e' :: sign, isNumeric c = true := by
    rcases hsign with rfl | rfl | rfl <;> exact List.all_eq_true.mp rfl
  intro c hc
  rw [he,← List.append_assoc,List.singleton_append] at hc
  rcases List.mem_append.mp hc with hc | hc
  · rcases hmantissa c hc with hc | rfl
    · exact isNumeric_of_isDigit (hd c hc)
    · rfl
  rcases List.mem_append.mp hc with hc | hc
  · exact hpower c hc
  · exact isNumeric_of_isDigit (isDigit_of_mem_digitsOf hc)

lemma head_exponentText {digits : List Char} (hne : digits ≠ [])
    (hd : ∀ c ∈ digits, c.isDigit = true) (exponent : ℤ) (plus : Bool) :
    ∃ c t, exponentText digits exponent plus = c :: t ∧ c.isDigit = true := by
  obtain ⟨d,places,sign,n,hdigits,-,he⟩ := exponentText_eq hne exponent plus
  refine ⟨d,_,he,hd d ?_⟩
  rcases hdigits with ⟨rfl,-⟩ | ⟨ds,-,rfl,-⟩ <;> simp

/-- The magnitude of a finite number begins with a digit and holds the characters of a decimal. -/
lemma spell_spec (layout : Layout) (s : Scientific) :
    (∀ c ∈ layout.spell s, isNumeric c = true) ∧ ∃ c t, layout.spell s = c :: t ∧ c.isDigit = true := by
  have hd : ∀ c ∈ digitsOf s.significand, c.isDigit = true := fun c => isDigit_of_mem_digitsOf
  have hne := digitsOf_ne_nil s.significand
  simp only [Layout.spell]
  split_ifs
  · have h := isPositional_positionalText hne hd s.exponent layout.pointZero
    exact ⟨h.isNumeric,h.head⟩
  · exact ⟨isNumeric_exponentText hne hd _ _,head_exponentText hne hd _ _⟩

end Formulary.Decimal
