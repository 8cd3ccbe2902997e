import Formulary.Json.Reader
import Formulary.Json.Writer
import Formulary.Proofs.Decimal.Spelling
import Mathlib.Data.List.TakeWhile

/-! Numbers inside a JSON text. What is read of a number does not depend on what follows, as long as
that could not belong to it; and a natural number that fits one machine word is read back. -/
namespace Formulary.Json

/-- What a decimal may go on with. -/
def continuesNumber (c : Char) : Bool :=
  c.isDigit || c == '.' || c == 'e' || c == 'E'

/-- What follows does not belong to a number in front of it. -/
def EndsNumber (rest : List Char) : Prop := ∀ c ∈ rest.head?, continuesNumber c = false

lemma endsNumber_nil : EndsNumber [] := by simp [EndsNumber]

lemma endsNumber_cons {c : Char} {rest : List Char} (h : continuesNumber c = false) :
    EndsNumber (c :: rest) := by simp [EndsNumber,h]

lemma EndsNumber.ne {c : Char} {rest : List Char} (h : EndsNumber (c :: rest)) :
    c.isDigit = false ∧ c ≠ '.' ∧ c ≠ 'e' ∧ c ≠ 'E' := by
  simpa [EndsNumber,continuesNumber,and_assoc] using h

variable {negative : Bool} {s r rest : List Char}

/-- Digits end where they ended before, unless none but digits stood in front of the rest. -/
lemma takeWhile_isDigit_append (h : s.dropWhile Char.isDigit = [] → EndsNumber rest) :
    (s ++ rest).takeWhile Char.isDigit = s.takeWhile Char.isDigit := by
  induction s with
  | nil =>
    cases rest with
    | nil => rfl
    | cons c rest => simp [(h rfl).ne.1]
  | cons c s ih =>
    cases hc : c.isDigit
    · simp [hc]
    · simp [hc,ih (by simpa [hc] using h)]

lemma dropWhile_isDigit_append (h : s.dropWhile Char.isDigit = [] → EndsNumber rest) :
    (s ++ rest).dropWhile Char.isDigit = s.dropWhile Char.isDigit ++ rest := by
  induction s with
  | nil =>
    cases rest with
    | nil => rfl
    | cons c rest => simp [(h rfl).ne.1]
  | cons c s ih =>
    cases hc : c.isDigit
    · simp [hc]
    · simp [hc,ih (by simpa [hc] using h)]

/-! What is left of a text behind a number is an end of it -/

lemma readDigits?_suffix {digits : List Char} (h : readDigits? s = some (digits,r)) : r <:+ s := by
  simp only [readDigits?] at h
  split_ifs at h
  cases h
  exact List.dropWhile_suffix _

lemma readPlaces?_suffix {places : List Char} (h : readPlaces? s = some (places,r)) : r <:+ s := by
  unfold readPlaces? at h
  split at h
  · exact (readDigits?_suffix h).trans (List.suffix_cons _ _)
  · cases h
    exact List.suffix_rfl

lemma readSign_suffix (s : List Char) : (Decimal.readSign s).2 <:+ s := by
  unfold Decimal.readSign
  split
  · exact List.suffix_cons _ _
  · exact List.suffix_cons _ _
  · exact List.suffix_rfl

lemma readPower?_suffix {power : Option (Bool × List Char)} (h : readPower? s = some (power,r)) :
    r <:+ s := by
  cases s with
  | nil =>
    cases h
    exact List.suffix_rfl
  | cons c s =>
    simp only [readPower?] at h
    split_ifs at h
    · obtain ⟨⟨digits,left⟩,hd,he⟩ := Option.map_eq_some_iff.mp h
      cases he
      exact ((readDigits?_suffix hd).trans (readSign_suffix s)).trans (List.suffix_cons c s)
    · cases h
      exact List.suffix_rfl

/-! What is read of a number does not depend on what ends it, nor on anything behind that -/

lemma readDigits?_append {digits : List Char} (h : readDigits? s = some (digits,r))
    (hrest : r = [] → EndsNumber rest) : readDigits? (s ++ rest) = some (digits,r ++ rest) := by
  simp only [readDigits?] at h
  split_ifs at h with hne
  cases h
  rw [readDigits?,takeWhile_isDigit_append hrest,dropWhile_isDigit_append hrest,if_neg hne]

lemma readPlaces?_append {places : List Char} (h : readPlaces? s = some (places,r))
    (hrest : r = [] → EndsNumber rest) : readPlaces? (s ++ rest) = some (places,r ++ rest) := by
  unfold readPlaces? at h
  split at h
  · exact readDigits?_append h hrest
  · rename_i hs
    cases h
    cases s with
    | nil =>
      cases rest with
      | nil => rfl
      | cons c rest => simp [readPlaces?,(hrest rfl).ne.2.1]
    | cons c s =>
      have hc : c ≠ '.' := by
        rintro rfl
        exact hs s rfl
      simp [readPlaces?,hc]

lemma readSign_append (h : readDigits? (Decimal.readSign s).2 ≠ none) :
    Decimal.readSign (s ++ rest) =
      ((Decimal.readSign s).1,(Decimal.readSign s).2 ++ rest) := by
  cases s with
  | nil => exact absurd rfl h
  | cons c s => unfold Decimal.readSign; split <;> simp_all

lemma readPower?_append {power : Option (Bool × List Char)} (h : readPower? s = some (power,r))
    (hrest : r = [] → EndsNumber rest) : readPower? (s ++ rest) = some (power,r ++ rest) := by
  cases s with
  | nil =>
    cases h
    cases rest with
    | nil => rfl
    | cons c rest => simp [readPower?,(hrest rfl).ne.2.2]
  | cons c s =>
    simp only [readPower?,List.cons_append] at h ⊢
    split_ifs at h ⊢
    · obtain ⟨⟨digits,left⟩,hd,he⟩ := Option.map_eq_some_iff.mp h
      cases he
      rw [readSign_append (by simp [hd]),readDigits?_append hd hrest]
      rfl
    · cases h
      rfl

lemma readNumeral?_append {n : Numeral} (h : readNumeral? negative s = some (n,r))
    (hrest : r = [] → EndsNumber rest) :
    readNumeral? negative (s ++ rest) = some (n,r ++ rest) := by
  simp only [readNumeral?,Option.bind_eq_bind,Option.bind_eq_some_iff] at h ⊢
  obtain ⟨⟨whole,s₁⟩,hw,h⟩ := h
  split_ifs at h with hzero
  obtain ⟨⟨fraction,s₂⟩,hf,h⟩ := Option.bind_eq_some_iff.mp h
  obtain ⟨⟨power,s₃⟩,hp,h⟩ := Option.bind_eq_some_iff.mp h
  cases h
  -- if an earlier part took everything, nothing is left in the end
  have hrest₂ (he : s₂ = []) : EndsNumber rest :=
    hrest (List.suffix_nil.mp (he ▸ readPower?_suffix hp))
  have hrest₁ (he : s₁ = []) : EndsNumber rest :=
    hrest₂ (List.suffix_nil.mp (he ▸ readPlaces?_suffix hf))
  refine ⟨_,readDigits?_append hw hrest₁,?_⟩
  simp [hzero,readPlaces?_append hf hrest₂,readPower?_append hp hrest]

/-! Numbers as they are written -/

/-- The characters of a written number, also of one that is not finite. -/
def inNumber (c : Char) : Bool :=
  c.isAlphanum || c == '.' || c == '+' || c == '-'

lemma inNumber_of_isNumeric {c : Char} (h : Decimal.isNumeric c = true) : inNumber c = true := by
  simp only [Decimal.isNumeric,Bool.or_eq_true,beq_iff_eq] at h
  rcases h with (((h | rfl) | rfl) | rfl) | rfl
  · simp [inNumber,Char.isAlphanum,h]
  all_goals rfl

lemma inNumber_of_isDigit {c : Char} (h : c.isDigit = true) : inNumber c = true :=
  inNumber_of_isNumeric (Decimal.isNumeric_of_isDigit h)

/-- A number is neither space nor bracket. -/
lemma isSpace_of_inNumber {c : Char} (h : inNumber c = true) : isSpace c = false ∧ c ≠ ']' := by
  constructor
  · cases hc : isSpace c
    · rfl
    · simp only [isSpace,Bool.or_eq_true,beq_iff_eq] at hc
      rcases hc with ((rfl | rfl) | rfl) | rfl <;> simp [inNumber] at h
  · rintro rfl
    simp [inNumber] at h

lemma chars_spec (layout : Decimal.Layout) (v : Float) :
    layout.chars v ≠ [] ∧ ∀ c ∈ layout.chars v, inNumber c = true := by
  have hsign : ∀ negative, ∀ c ∈ Decimal.signText negative, inNumber c = true := by
    rintro (_ | _) c hc <;> simp_all [Decimal.signText,inNumber]
  unfold Decimal.Layout.chars
  split
  · exact ⟨by simp,List.all_eq_true.mp rfl⟩
  · refine ⟨by simp,fun c hc => ?_⟩
    rcases List.mem_append.mp hc with hc | hc
    · exact hsign _ c hc
    · simp only [List.mem_cons,List.not_mem_nil,or_false] at hc
      rcases hc with rfl | rfl | rfl <;> rfl
  · rename_i negative mantissa exponent hparts
    have hpos := Decimal.isPositional_positionalText (show ['0'] ≠ [] by simp) (by simp) 0
      layout.pointZero
    obtain ⟨hs,d,t,hd,-⟩ := Decimal.spell_spec layout (Decimal.shortest layout.tie mantissa exponent)
    obtain ⟨d',t',hd',-⟩ := hpos.head
    constructor
    · split_ifs <;> simp [hd,hd']
    · intro c hc
      rcases List.mem_append.mp hc with hc | hc
      · exact hsign _ c hc
      · split_ifs at hc
        · exact inNumber_of_isNumeric (hpos.isNumeric c hc)
        · exact inNumber_of_isNumeric (hs c hc)

lemma Number.text_spec (n : Number) : n.text ≠ [] ∧ ∀ c ∈ n.text, inNumber c = true := by
  have hdigits (m : ℕ) : ∀ c ∈ Decimal.digitsOf m, inNumber c = true := fun c hc =>
    inNumber_of_isDigit (Decimal.isDigit_of_mem_digitsOf hc)
  cases n with
  | natural m => exact ⟨Decimal.digitsOf_ne_nil m,hdigits m⟩
  | negative m =>
    refine ⟨by simp [text],fun c hc => ?_⟩
    rcases List.mem_cons.mp hc with rfl | hc
    · rfl
    · exact hdigits m c hc
  | float v =>
    simp only [text,floatText]
    split_ifs
    · exact chars_spec .data v
    · exact ⟨by simp,List.all_eq_true.mp rfl⟩

/-- A number whose text is read as the same number. -/
def Number.ReadsBack (n : Number) : Prop :=
  Value.read? ((Value.number n).text .compact) = some (.number n)

deriving instance DecidableEq for Number

/-- Reading it tells whether a number reads back. -/
instance (n : Number) : Decidable n.ReadsBack :=
  match h : Value.read? ((Value.number n).text .compact) with
  | some (.number m) => decidable_of_iff (m = n) (by simp [Number.ReadsBack,h])
  | some .null => isFalse (by simp [Number.ReadsBack,h])
  | some (.bool _) => isFalse (by simp [Number.ReadsBack,h])
  | some (.string _) => isFalse (by simp [Number.ReadsBack,h])
  | some (.array _) => isFalse (by simp [Number.ReadsBack,h])
  | some (.object _) => isFalse (by simp [Number.ReadsBack,h])
  | none => isFalse (by simp [Number.ReadsBack,h])

lemma skipSpace_cons {c : Char} (hc : isSpace c = false) (s : List Char) :
    skipSpace (c :: s) = c :: s := by
  simp [skipSpace,hc]

/-! Natural numbers -/

/-- A significand takes all the digits as long as their number fits one machine word. -/
lemma gather_eq {digits : List Char} {significand : ℕ}
    (h : Nat.ofDigitChars 10 digits significand < Nat.pow 2 64) :
    gather significand digits = (Nat.ofDigitChars 10 digits significand,[]) := by
  induction digits generalizing significand with
  | nil => rfl
  | cons d digits ih =>
    rw [Nat.ofDigitChars_cons] at h ⊢
    have hnext : significand * 10 + (d.toNat - '0'.toNat) < Nat.pow 2 64 := by
      refine Nat.lt_of_le_of_lt ?_ h
      rw [Nat.ofDigitChars_eq_ofDigitChars_zero,Nat.mul_comm significand]
      exact Nat.le_add_right_of_le (Nat.le_mul_of_pos_left _ (Nat.pow_pos (n := digits.length) (by decide)))
    simp only [gather,hnext,↓reduceIte]
    rw [Nat.mul_comm significand]
    exact ih h

lemma readValue?_digit {c : Char} (hc : c.isDigit = true) (s : List Char) (fuel : ℕ) :
    readValue? (fuel + 1) (c :: s) = readNumber? false (c :: s) := by
  rw [readValue?,skipSpace_cons (isSpace_of_inNumber (inNumber_of_isDigit hc)).1]
  split <;> simp_all

/-- Only the number zero begins with a zero. -/
lemma no_leading_zero (n : ℕ) :
    ¬(1 < (Decimal.digitsOf n).length ∧ (Decimal.digitsOf n).head? = some '0') := by
  rcases Nat.eq_zero_or_pos n with rfl | hn
  · decide
  · obtain ⟨k,s,hs,hk⟩ := Decimal.head_digitsOf hn
    simp [hs,Nat.digitChar_eq_zero,hk]

lemma readDigits?_self {digits : List Char} (hne : digits ≠ [])
    (hd : ∀ c ∈ digits, c.isDigit = true) : readDigits? digits = some (digits,[]) := by
  simp [readDigits?,List.takeWhile_eq_self_iff.mpr hd,List.dropWhile_eq_nil_iff.mpr hd,hne]

lemma readNumeral?_digitsOf (n : ℕ) :
    readNumeral? negative (Decimal.digitsOf n) =
      some (⟨negative,Decimal.digitsOf n,[],none⟩,[]) := by
  have hread := readDigits?_self (Decimal.digitsOf_ne_nil n) fun c => Decimal.isDigit_of_mem_digitsOf
  simp [readNumeral?,hread,no_leading_zero,readPlaces?,readPower?]

lemma gather_lt (digits : List Char) {significand : ℕ} (h : significand < Nat.pow 2 64) :
    (gather significand digits).1 < Nat.pow 2 64 := by
  induction digits generalizing significand with
  | nil => exact h
  | cons d digits ih =>
    simp only [gather]
    split_ifs with hnext
    · exact ih hnext
    · exact h

/-- The text of a natural number is one numeral. -/
lemma read?_digitsOf (n : ℕ) : Source.read? (String.ofList (Decimal.digitsOf n)) =
    some (.number (Numeral.value? ⟨false,Decimal.digitsOf n,[],none⟩)) := by
  obtain ⟨c,s,hs⟩ := List.exists_cons_of_ne_nil (Decimal.digitsOf_ne_nil n)
  have hc : c.isDigit = true := Decimal.isDigit_of_mem_digitsOf (hs ▸ List.mem_cons_self)
  have hread : readValue? (2 * (Decimal.digitsOf n).length + 1) (Decimal.digitsOf n) =
      some (.number (Numeral.value? ⟨false,Decimal.digitsOf n,[],none⟩),[]) := by
    rw [hs,readValue?_digit hc,← hs]
    simp [readNumber?,readNumeral?_digitsOf]
  simp only [Source.read?,String.toList_ofList,hread]
  rfl

/-- A natural number reads back exactly if it fits one machine word. -/
theorem readsBack_natural_iff {n : ℕ} : (Number.natural n).ReadsBack ↔ n < Nat.pow 2 64 := by
  have hread : (Number.natural n).ReadsBack ↔
      Numeral.value? ⟨false,Decimal.digitsOf n,[],none⟩ = some (.natural n) := by
    change Value.read? (String.ofList (Decimal.digitsOf n)) = _ ↔ _
    rw [Value.read?,read?_digitsOf]
    cases Numeral.value? ⟨false,Decimal.digitsOf n,[],none⟩ <;> simp [Source.value?]
  rw [hread]
  constructor
  · intro h
    have hlt : (gather 0 (Decimal.digitsOf n)).1 < Nat.pow 2 64 := gather_lt _ (by decide)
    rcases hgather : gather 0 (Decimal.digitsOf n) with ⟨whole,spare⟩
    rw [hgather] at hlt
    cases spare with
    | nil =>
      obtain rfl : whole = n := by simpa [Numeral.value?,hgather] using h
      exact hlt
    | cons d spare => simp [Numeral.value?,hgather] at h
  · intro h
    have hn : Nat.ofDigitChars 10 (Decimal.digitsOf n) 0 = n := Nat.ofDigitChars_ten_toDigits
    have hgather : gather 0 (Decimal.digitsOf n) = (n,[]) := by
      rw [gather_eq (hn.symm ▸ h),hn]
    simp [Numeral.value?,hgather]

end Formulary.Json
