import Formulary.Proofs.Json.Reading

/-! The texts of binary64 numbers. The text of a finite number has a point or a power of ten, so it is
never read as a whole number: what is read is a binary64 number, perhaps another one, or nothing. -/
namespace Formulary.Json
open Decimal (digitsOf positionalText exponentText)

variable {negative : Bool} {n : Numeral} {s r : List Char} {v : Float}

lemma readDigits?_spec {digits : List Char} (h : readDigits? s = some (digits,r)) :
    digits ≠ [] ∧ s = digits ++ r ∧ ∀ c ∈ digits, c.isDigit = true := by
  simp only [readDigits?] at h
  split_ifs at h with hne
  cases h
  exact ⟨by simpa using hne,List.takeWhile_append_dropWhile.symm,fun c => List.mem_takeWhile_imp⟩

lemma eq_of_readPlaces?_nil (h : readPlaces? s = some ([],r)) : r = s := by
  unfold readPlaces? at h
  split at h
  · exact absurd rfl (readDigits?_spec h).1
  · cases h
    rfl

lemma eq_of_readPower?_none (h : readPower? s = some (none,r)) : r = s := by
  cases s with
  | nil =>
    cases h
    rfl
  | cons c s =>
    simp only [readPower?] at h
    split_ifs at h
    · obtain ⟨-,-,⟨⟩⟩ := Option.map_eq_some_iff.mp h
    · cases h
      rfl

/-- A numeral without places and without a power of ten is a row of digits. -/
lemma forall_isDigit_of_whole (h : readNumeral? negative s = some (n,[])) (hf : n.fraction = [])
    (he : n.exponent = none) : ∀ c ∈ s, c.isDigit = true := by
  simp only [readNumeral?,Option.bind_eq_bind,Option.bind_eq_some_iff] at h
  obtain ⟨⟨whole,s₁⟩,hw,h⟩ := h
  split_ifs at h
  obtain ⟨⟨fraction,s₂⟩,hplaces,h⟩ := Option.bind_eq_some_iff.mp h
  obtain ⟨⟨power,s₃⟩,hpower,h⟩ := Option.bind_eq_some_iff.mp h
  cases h
  subst hf he
  obtain rfl := eq_of_readPower?_none hpower
  obtain rfl := eq_of_readPlaces?_nil hplaces
  obtain ⟨-,rfl,hd⟩ := readDigits?_spec hw
  rwa [List.append_nil]

/-- A numeral with places or with a power of ten denotes no whole number. -/
lemma value?_of_mark (h : readNumeral? negative s = some (n,[])) (hs : ∃ c ∈ s, c.isDigit = false) :
    ∃ o : Option Float, n.value? = o.map .float := by
  have hmark : (n.fraction.isEmpty && n.exponent.isNone) = false := by
    by_contra hnone
    obtain ⟨c,hc,hd⟩ := hs
    simp only [Bool.not_eq_false,Bool.and_eq_true,List.isEmpty_iff,Option.isNone_iff_eq_none] at hnone
    simp [forall_isDigit_of_whole h hnone.1 hnone.2 c hc] at hd
  simp only [Numeral.value?,hmark,Bool.false_and,Bool.false_eq_true,↓reduceIte]
  exact ⟨_,(Option.map_map Number.float _ _).symm⟩

/-- A point with a zero is put behind whole digits. -/
lemma point_mem_positionalText (digits : List Char) (exponent : ℤ) :
    '.' ∈ positionalText digits exponent true := by
  simp only [positionalText]
  split_ifs <;> simp

lemma e_mem_exponentText {digits : List Char} (hne : digits ≠ []) (exponent : ℤ) (plus : Bool) :
    'e' ∈ exponentText digits exponent plus := by
  obtain ⟨d,places,sign,k,-,-,he⟩ := Decimal.exponentText_eq hne exponent plus
  simp [he]

/-- A finite number, as a data file has it, is not a row of digits with or without a sign. -/
lemma exists_mark_chars (hv : v.isFinite = true) :
    ∃ c ∈ Decimal.Layout.data.chars v, c.isDigit = false ∧ c ≠ '-' := by
  obtain ⟨mantissa,exponent,hparts⟩ := Decimal.parts_of_isFinite hv
  simp only [Decimal.Layout.chars,hparts,Decimal.Layout.spell,List.mem_append]
  split_ifs
  · exact ⟨'.',.inr (point_mem_positionalText _ _),rfl,by decide⟩
  · exact ⟨'.',.inr (point_mem_positionalText _ _),rfl,by decide⟩
  · exact ⟨'e',.inr (e_mem_exponentText (Decimal.digitsOf_ne_nil _) _ _),rfl,by decide⟩

/-- What the text of a finite number is read as. -/
lemma Number.spelled_float (hv : v.isFinite = true) :
    ∃ o : Option Float, (Number.float v).spelled = .number (o.map .float) := by
  obtain ⟨negative,s,hs,hnumeral,hhead⟩ := exists_numeral_chars hv
  obtain ⟨n,hn⟩ := hnumeral negative
  obtain ⟨c,hc,hd,hminus⟩ := exists_mark_chars hv
  have hmark : c ∈ s := by
    rw [hs] at hc
    refine (List.mem_append.mp hc).resolve_left fun hsign => hminus ?_
    cases negative <;> simp_all [Decimal.signText]
  obtain ⟨o,ho⟩ := value?_of_mark hn ⟨c,hmark,hd⟩
  have htext : (Number.float v).text = Decimal.signText negative ++ s := by
    rw [Number.text,floatText,if_pos hv,hs]
  have hread := readValue?_signed hn hhead endsNumber_nil (2 * (Number.float v).text.length)
  rw [← htext,Number.readValue?_text _ endsNumber_nil,ho] at hread
  exact ⟨o,(Prod.mk.inj (Option.some.inj hread)).1⟩

lemma Number.readsBack_iff {n : Number} : n.ReadsBack ↔ n.spelled = .number (some n) := by
  refine ⟨ReadsBack.spelled,fun h => ?_⟩
  simp [ReadsBack,Value.read?,Source.read?_text,Value.spelled,h,Source.value?]

/-- A binary64 number comes back from its text exactly if it is finite and read back. -/
theorem toFloat?_spelled_iff (room : ℕ) : ((Value.float v).spelled.value? room).bind Value.toFloat? =
    some v ↔ v.isFinite = true ∧ (Number.float v).ReadsBack := by
  rw [Value.float,Number.readsBack_iff]
  split_ifs with hv
  · obtain ⟨o,ho⟩ := Number.spelled_float hv
    cases o <;> simp [Value.spelled,ho,Source.value?,Value.toFloat?,Number.toFloat,hv]
  · simp [Value.spelled,Source.value?,Value.toFloat?,hv]

end Formulary.Json
