import Formulary.Proofs.Decimal.Binary64
import Formulary.Proofs.Decimal.Shortest
import Formulary.Proofs.Decimal.Spelling
import Formulary.Proofs.Release

/-! A finite number is read back from its plain text. The text stands for the shortest decimal of the
number, which lies in its cell, and reading rounds the cell to the number. -/
namespace Formulary.Decimal

lemma ofMagnitude_eq {v : Float} {negative : Bool} {magnitude : ℕ} (hle : magnitude ≤ infinityBits)
    (hbits : (if negative then 2 ^ 63 else 0) + magnitude = v.toBits.toNat) :
    ofMagnitude negative magnitude = v := by
  rw [ofMagnitude,min_eq_left hle]
  simp only [Nat.pow_eq,hbits,UInt64.ofNat_toNat]
  exact Float.ofBits_toBits v

/-- A finite number is put together from its parts, which are in canonical form. -/
lemma parts_spec {v : Float} {negative : Bool} {mantissa : ℕ} {exponent : ℤ}
    (h : parts v = .finite negative mantissa exponent) :
    IsCanonical mantissa exponent ∧ exponent ≤ 971 ∧
      ofMagnitude negative (magnitudeBits mantissa exponent) = v := by
  have hlt : v.toBits.toNat < 2 ^ 64 := v.toBits.toNat_lt
  have hinf : infinityBits = 2047 * 2 ^ 52 := rfl
  have hleast : leastExponent = -1074 := rfl
  simp only [parts,Nat.pow_eq] at h
  have hsign (neg : Bool) (hneg : decide (2 ^ 63 ≤ v.toBits.toNat) = neg) :
      v.toBits.toNat = (if neg then 2 ^ 63 else 0) + v.toBits.toNat % 2 ^ 63 := by
    subst hneg
    split_ifs with hle <;> simp only [decide_eq_true_eq] at hle <;> omega
  split_ifs at h with h1 h2 h3
  · obtain ⟨hneg,rfl,rfl⟩ := Parts.finite.inj h
    refine ⟨⟨by omega,le_rfl,fun he => absurd he (lt_irrefl _)⟩,by omega,ofMagnitude_eq ?_ ?_⟩
    · simp only [magnitudeBits,sub_self,Int.toNat_zero,Nat.pow_eq]
      omega
    · refine Eq.trans ?_ (hsign _ hneg).symm
      simp only [magnitudeBits,sub_self,Int.toNat_zero,Nat.pow_eq]
      omega
  · obtain ⟨hneg,rfl,rfl⟩ := Parts.finite.inj h
    set biased := v.toBits.toNat / 2 ^ 52 % 2048 with hb
    have hexp : (leastExponent + biased - 1 - leastExponent).toNat = biased - 1 := by omega
    refine ⟨⟨by omega,by omega,fun _ => by omega⟩,by omega,ofMagnitude_eq ?_ ?_⟩
    · simp only [magnitudeBits,hexp,Nat.pow_eq]
      omega
    · refine Eq.trans ?_ (hsign _ hneg).symm
      simp only [magnitudeBits,hexp,Nat.pow_eq]
      omega

/-! Reading positional texts -/

/-- Digits before and behind a point are read as one number. -/
lemma readMagnitude?_point {negative : Bool} {whole fraction : List Char} (hne : whole ≠ [])
    (hw : ∀ c ∈ whole, c.isDigit = true) (hf : ∀ c ∈ fraction, c.isDigit = true) :
    readMagnitude? negative (whole ++ '.' :: fraction) =
      some (ofDecimal negative (digitsValue (whole ++ fraction)) (-fraction.length)) := by
  have hpoint : ∀ c ∈ ('.' :: fraction).head?, c.isDigit = false := by simp
  simp only [readMagnitude?,takeWhile_append_of_head hw hpoint,dropWhile_append_of_head hw hpoint,
    readFraction,List.takeWhile_eq_self_iff.mpr hf,List.dropWhile_eq_nil_iff.mpr hf]
  simp [hne,readExponent?]

lemma readMagnitude?_whole {negative : Bool} {whole : List Char} (hne : whole ≠ [])
    (hw : ∀ c ∈ whole, c.isDigit = true) :
    readMagnitude? negative whole = some (ofDecimal negative (digitsValue whole) 0) := by
  simp only [readMagnitude?,readFraction,List.takeWhile_eq_self_iff.mpr hw,
    List.dropWhile_eq_nil_iff.mpr hw]
  simp [hne,readExponent?]

/-- A positional text stands for its digits and their power of ten. -/
lemma readMagnitude?_positionalText {negative : Bool} {digits : List Char} (hne : digits ≠ [])
    (hd : ∀ c ∈ digits, c.isDigit = true) (exponent : ℤ) :
    readMagnitude? negative (positionalText digits exponent false) =
      some (ofDecimal negative (10 ^ exponent.toNat * digitsValue digits) (min exponent 0)) := by
  have hzero {n : ℕ} : ∀ c ∈ List.replicate n '0', c.isDigit = true := fun c => isDigit_of_mem_replicate
  simp only [positionalText,Bool.false_eq_true,↓reduceIte,List.append_nil]
  split_ifs with he hp
  · rw [readMagnitude?_whole (by simp [hne]),digitsValue_append,
      Nat.ofDigitChars_replicate_zero,min_eq_right he]
    intro c hc
    exact (List.mem_append.mp hc).elim (hd c) (hzero c)
  · have hpoint : digits.take ((digits.length : ℤ) + exponent).toNat ≠ [] := by
      rw [← List.length_pos_iff,List.length_take]
      have := List.length_pos_iff.mpr hne
      omega
    rw [readMagnitude?_point hpoint (fun c hc => hd c (List.mem_of_mem_take hc))
      (fun c hc => hd c (List.mem_of_mem_drop hc)),List.take_append_drop]
    have hexp : exponent.toNat = 0 := by omega
    have hmin : -((digits.drop ((digits.length : ℤ) + exponent).toNat).length : ℤ) =
        min exponent 0 := by
      rw [List.length_drop]
      omega
    rw [hexp,hmin,pow_zero,one_mul]
  · set zeros := (-((digits.length : ℤ) + exponent)).toNat
    have htext : '0' :: '.' :: List.replicate zeros '0' ++ digits =
        ['0'] ++ '.' :: (List.replicate zeros '0' ++ digits) := rfl
    have hfraction : ∀ c ∈ List.replicate zeros '0' ++ digits, c.isDigit = true := by
      intro c hc
      exact (List.mem_append.mp hc).elim (hzero c) (hd c)
    have hexp : exponent.toNat = 0 := by omega
    have hmin : -((List.replicate zeros '0' ++ digits).length : ℤ) = min exponent 0 := by
      rw [List.length_append,List.length_replicate]
      omega
    have hvalue : digitsValue (['0'] ++ (List.replicate zeros '0' ++ digits)) =
        digitsValue digits := by
      rw [← List.append_assoc,← List.replicate_one,List.replicate_append_replicate,
        digitsValue_zeros]
    rw [htext,readMagnitude?_point (by simp) (by simp) hfraction,hmin,hvalue,hexp,pow_zero,one_mul]

/-- The text of a finite number without its sign is read as the number. -/
lemma readChars?_signed {negative : Bool} {s : List Char} {v : Float} (hs : IsPositional s)
    (h : readMagnitude? negative s = some v) : readChars? (signText negative ++ s) = some v := by
  obtain ⟨c,t,rfl,hc⟩ := hs.head
  have hsign : readSign (signText negative ++ c :: t) = (negative,c :: t) := by
    cases negative with
    | true => rfl
    | false =>
      simp only [signText,Bool.false_eq_true,↓reduceIte,List.nil_append]
      unfold readSign
      split <;> simp_all
  simp only [readChars?,hsign,h,Option.some_or]

/-- A finite number is what its plain text is read as. -/
theorem read?_plain {v : Float} (hf : v.isFinite = true) : read? (Layout.plain.text v) = some v := by
  obtain ⟨mantissa,exponent,hparts⟩ := parts_of_isFinite hf
  generalize decide (2 ^ 63 ≤ v.toBits.toNat) = negative at hparts
  obtain ⟨hc,he,hv⟩ := parts_spec hparts
  simp only [read?,Layout.text,String.toList_ofList,Layout.chars,hparts]
  split_ifs with hm
  · subst hm
    have hexp : exponent = leastExponent := by
      refine (hc.least.lt_or_eq.resolve_left fun hlt => ?_).symm
      exact absurd (hc.leading hlt) (by decide)
    have hzero : magnitudeBits 0 exponent = 0 := by
      rw [hexp]
      rfl
    have htext : positionalText ['0'] 0 Layout.plain.pointZero = ['0'] := rfl
    rw [htext]
    refine readChars?_signed (.whole (by simp) (by simp)) ?_
    rw [readMagnitude?_whole (by simp) (by simp),← hv,hzero]
    rfl
  · have hpos : 0 < mantissa := Nat.pos_of_ne_zero hm
    set s := shortest Layout.plain.tie mantissa exponent with hs
    have hne := digitsOf_ne_nil s.significand
    have hd : ∀ c ∈ digitsOf s.significand, c.isDigit = true := fun _ => isDigit_of_mem_digitsOf
    have hcell : InCell mantissa exponent
        ((10 ^ s.exponent.toNat * s.significand : ℕ) * 10 ^ min s.exponent 0) := by
      have hsplit : (10 : ℚ) ^ s.exponent = 10 ^ s.exponent.toNat * 10 ^ min s.exponent 0 := by
        rw [← zpow_natCast,← zpow_add₀ (by norm_num)]
        congr 1
        omega
      have h := inCell_shortest Layout.plain.tie hpos hc
      rw [← hs,hsplit,← mul_assoc,mul_comm (s.significand : ℚ)] at h
      exact_mod_cast h
    refine readChars?_signed (isPositional_positionalText hne hd _ _) ?_
    rw [← hv,← ofDecimal_of_inCell hpos hc he hcell,← digitsValue_digitsOf s.significand]
    exact readMagnitude?_positionalText hne hd s.exponent

end Formulary.Decimal
