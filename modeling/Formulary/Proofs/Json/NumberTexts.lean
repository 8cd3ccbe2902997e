import Formulary.Proofs.Decimal.ReadBack
import Formulary.Proofs.Json.Numerals

/-! The texts of numbers. Every finite number is written as one JSON number, and any other as `null`;
both are read wherever they stand, as long as nothing follows that could belong to a number. -/
namespace Formulary.Json
open Decimal (digitsOf positionalText exponentText IsPositional)

variable {s rest : List Char}

/-- A text that is one JSON number without its sign. -/
def IsNumeral (s : List Char) : Prop := ∀ negative, ∃ n, readNumeral? negative s = some (n,[])

lemma readDigits?_of_head {digits : List Char} (hne : digits ≠ [])
    (hd : ∀ c ∈ digits, c.isDigit = true) (hr : ∀ c ∈ rest.head?, c.isDigit = false) :
    readDigits? (digits ++ rest) = some (digits,rest) := by
  simp [readDigits?,takeWhile_append_of_head hd hr,dropWhile_append_of_head hd hr,hne]

/-- Digits, what stands behind their point, and a power of ten. -/
lemma isNumeral_append {whole fraction power : List Char} {exponent : Option (Bool × List Char)}
    (hne : whole ≠ []) (hw : ∀ c ∈ whole, c.isDigit = true)
    (hz : whole.length = 1 ∨ whole.head? ≠ some '0') (hr : ∀ c ∈ rest.head?, c.isDigit = false)
    (hplaces : readPlaces? rest = some (fraction,power))
    (hpower : readPower? power = some (exponent,[])) : IsNumeral (whole ++ rest) := by
  intro negative
  have hzero : ¬(1 < whole.length ∧ whole.head? = some '0') := by
    rintro ⟨hlen,hhead⟩
    exact hz.elim (by omega) (· hhead)
  exact ⟨⟨negative,whole,fraction,exponent⟩,
    by simp [readNumeral?,readDigits?_of_head hne hw hr,hzero,hplaces,hpower]⟩

/-- Positional digits are a number, if a zero in front stands alone. -/
lemma isNumeral_of_isPositional (h : IsPositional s)
    (hpoint : ∀ c t, s = '0' :: c :: t → c = '.') : IsNumeral s := by
  have hzero {whole : List Char} (hw : ∀ c ∈ whole, c.isDigit = true)
      (hs : ∃ rest, s = whole ++ rest) (hne : whole ≠ []) :
      whole.length = 1 ∨ whole.head? ≠ some '0' := by
    obtain ⟨rest,rfl⟩ := hs
    rcases whole with - | ⟨c,- | ⟨d,t⟩⟩
    · exact absurd rfl hne
    · exact .inl rfl
    · refine .inr fun hc => ?_
      cases hc
      have hd : d.isDigit = true := hw d (by simp)
      rw [hpoint d _ rfl] at hd
      cases hd
  cases h with
  | whole hne hw =>
    rw [← List.append_nil s]
    exact isNumeral_append hne hw (hzero hw ⟨[],(List.append_nil s).symm⟩ hne) (by simp) rfl rfl
  | point hne hw hf hd =>
    exact isNumeral_append hne hw (hzero hw ⟨_,rfl⟩ hne) (by simp) (readDigits?_self hf hd) rfl

lemma readSign_digitsOf (n : ℕ) : Decimal.readSign (digitsOf n) = (false,digitsOf n) := by
  have hd : ∀ c ∈ digitsOf n, c.isDigit = true := fun c => Decimal.isDigit_of_mem_digitsOf
  obtain ⟨c,t,hs⟩ := List.exists_cons_of_ne_nil (Decimal.digitsOf_ne_nil n)
  have hc : c.isDigit = true := hd c (hs ▸ List.mem_cons_self)
  rw [hs]
  unfold Decimal.readSign
  split <;> simp_all

/-- A power of ten that was written, with a sign or without. -/
lemma readPower?_written {sign : List Char} (hsign : sign = [] ∨ sign = ['-'] ∨ sign = ['+']) (n : ℕ) :
    ∃ exponent, readPower? ('e' :: sign ++ digitsOf n) = some (exponent,[]) := by
  have hread := readDigits?_self (Decimal.digitsOf_ne_nil n) fun c => Decimal.isDigit_of_mem_digitsOf
  have hsigned : ∃ negative, Decimal.readSign (sign ++ digitsOf n) = (negative,digitsOf n) := by
    rcases hsign with rfl | rfl | rfl
    · exact ⟨false,readSign_digitsOf n⟩
    · exact ⟨true,rfl⟩
    · exact ⟨false,rfl⟩
  obtain ⟨negative,hnegative⟩ := hsigned
  exact ⟨some (negative,digitsOf n),by simp [readPower?,hnegative,hread]⟩

lemma isNumeral_exponentText {digits : List Char} (hne : digits ≠ [])
    (hd : ∀ c ∈ digits, c.isDigit = true) (exponent : ℤ) (plus : Bool) :
    IsNumeral (exponentText digits exponent plus) := by
  obtain ⟨d,places,sign,n,hdigits,hsign,he⟩ := Decimal.exponentText_eq hne exponent plus
  obtain ⟨power,hpower⟩ := readPower?_written hsign n
  rw [he]
  rcases hdigits with ⟨rfl,rfl⟩ | ⟨ds,hds,rfl,rfl⟩
  · exact isNumeral_append (by simp) hd (.inl rfl) (by simp) rfl hpower
  · obtain ⟨hd,htail⟩ := List.forall_mem_cons.mp hd
    -- the digits behind the point end at the power of ten
    have hplaces : readPlaces? ('.' :: ds ++ ('e' :: sign ++ digitsOf n)) =
        some (ds,'e' :: sign ++ digitsOf n) := readDigits?_of_head hds htail (by simp)
    exact isNumeral_append (by simp) (by simpa using hd) (.inl rfl) (by simp) hplaces hpower

/-- The magnitude of a finite number, as a data file has it. -/
lemma exists_numeral_chars {v : Float} (hv : v.isFinite = true) :
    ∃ negative s, Decimal.Layout.data.chars v = Decimal.signText negative ++ s ∧ IsNumeral s ∧
      ∃ c t, s = c :: t ∧ c.isDigit = true := by
  obtain ⟨mantissa,exponent,hparts⟩ := Decimal.parts_of_isFinite hv
  generalize decide (2 ^ 63 ≤ v.toBits.toNat) = negative at hparts
  have hc := (Decimal.parts_spec hparts).1
  simp only [Decimal.Layout.chars,hparts]
  refine ⟨negative,_,rfl,?_⟩
  split_ifs with hm
  · exact ⟨fun _ => ⟨_,rfl⟩,_,_,rfl,rfl⟩
  · have hpos := Decimal.significand_shortest_pos Decimal.Layout.data.tie (Nat.pos_of_ne_zero hm) hc
    generalize Decimal.shortest Decimal.Layout.data.tie mantissa exponent = decimal at hpos
    refine ⟨?_,(Decimal.spell_spec _ decimal).2⟩
    have hd : ∀ c ∈ digitsOf decimal.significand, c.isDigit = true := fun c =>
      Decimal.isDigit_of_mem_digitsOf
    have hne := Decimal.digitsOf_ne_nil decimal.significand
    have hz : (digitsOf decimal.significand).head? ≠ some '0' := by
      obtain ⟨k,s,hs,hk⟩ := Decimal.head_digitsOf hpos
      simp [hs,Nat.digitChar_eq_zero,hk]
    simp only [Decimal.Layout.spell]
    split_ifs
    · exact isNumeral_of_isPositional (Decimal.isPositional_positionalText hne hd _ _)
        fun c t => Decimal.point_of_positionalText hne hz
    · exact isNumeral_exponentText hne hd _ _

/-! Reading the text of a number -/

lemma readNumber?_of_numeral {negative : Bool} {n : Numeral} (h : readNumeral? negative s = some (n,[]))
    (hrest : EndsNumber rest) : readNumber? negative (s ++ rest) = some (.number n.value?,rest) := by
  simp [readNumber?,readNumeral?_append h fun _ => hrest]

/-- A sign is read with the magnitude behind it. -/
lemma readValue?_signed {negative : Bool} {n : Numeral} (hn : readNumeral? negative s = some (n,[]))
    (hhead : ∃ c t, s = c :: t ∧ c.isDigit = true) (hrest : EndsNumber rest) (fuel : ℕ) :
    readValue? (fuel + 1) (Decimal.signText negative ++ s ++ rest) =
      some (.number n.value?,rest) := by
  have hread := readNumber?_of_numeral hn hrest
  obtain ⟨c,t,rfl,hc⟩ := hhead
  cases negative with
  | false => exact (readValue?_digit hc _ fuel).trans hread
  | true => exact hread

lemma exists_readValue?_signed (negative : Bool) (hs : IsNumeral s)
    (hhead : ∃ c t, s = c :: t ∧ c.isDigit = true) :
    ∃ source, ∀ rest fuel, EndsNumber rest →
      readValue? (fuel + 1) (Decimal.signText negative ++ s ++ rest) = some (source,rest) := by
  obtain ⟨n,hn⟩ := hs negative
  exact ⟨.number n.value?,fun _ fuel hrest => readValue?_signed hn hhead hrest fuel⟩

lemma Number.exists_readValue?_text (n : Number) : ∃ source, ∀ rest fuel, EndsNumber rest →
    readValue? (fuel + 1) (n.text ++ rest) = some (source,rest) := by
  have hnatural (m : ℕ) : IsNumeral (digitsOf m) := fun _ => ⟨_,readNumeral?_digitsOf m⟩
  have hhead (m : ℕ) : ∃ c t, digitsOf m = c :: t ∧ c.isDigit = true := by
    obtain ⟨c,t,hs⟩ := List.exists_cons_of_ne_nil (Decimal.digitsOf_ne_nil m)
    exact ⟨c,t,hs,Decimal.isDigit_of_mem_digitsOf (hs ▸ List.mem_cons_self)⟩
  cases n with
  | natural m => exact exists_readValue?_signed false (hnatural m) (hhead m)
  | negative m => exact exists_readValue?_signed true (hnatural m) (hhead m)
  | float v =>
    rw [text,floatText]
    split_ifs with hv
    · obtain ⟨negative,s,hs,hnumeral,hdigit⟩ := exists_numeral_chars hv
      rw [hs]
      exact exists_readValue?_signed negative hnumeral hdigit
    · exact ⟨.null,fun _ _ _ => rfl⟩

/-- What the text of a number is read as. -/
def Number.spelled (n : Number) : Source :=
  (Source.read? (String.ofList n.text)).getD .null

/-- The text of a number is read in front of anything that does not belong to it. -/
theorem Number.readValue?_text (n : Number) (hrest : EndsNumber rest) (fuel : ℕ) :
    readValue? (fuel + 1) (n.text ++ rest) = some (n.spelled,rest) := by
  obtain ⟨source,hread⟩ := n.exists_readValue?_text
  have hwhole := hread [] (2 * n.text.length) endsNumber_nil
  rw [List.append_nil] at hwhole
  have hspelled : n.spelled = source := by
    simp only [spelled,Source.read?,String.toList_ofList,hwhole]
    rfl
  rw [hread rest fuel hrest,hspelled]

lemma Source.eq_number_of_value? {source : Source} {n : Number} {room : ℕ}
    (h : source.value? room = some (.number n)) : source = .number (some n) := by
  cases source with
  | number o =>
    obtain ⟨m,rfl,hm⟩ := Option.map_eq_some_iff.mp h
    cases hm
    rfl
  | string o =>
    obtain ⟨s,-,hs⟩ := Option.map_eq_some_iff.mp h
    cases hs
  | array items | object fields =>
    rw [value?] at h
    split_ifs at h
    obtain ⟨vs,-,hvs⟩ := Option.map_eq_some_iff.mp h
    cases hvs
  | _ => cases h

/-- A number that reads back is what its text is read as. -/
lemma Number.ReadsBack.spelled {n : Number} (h : n.ReadsBack) : n.spelled = .number (some n) := by
  obtain ⟨source,hsource,hvalue⟩ := Option.bind_eq_some_iff.mp h
  have hread : Source.read? (String.ofList n.text) = some source := hsource
  rw [Number.spelled,hread]
  exact Source.eq_number_of_value? hvalue

end Formulary.Json
