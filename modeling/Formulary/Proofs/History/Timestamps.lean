import Formulary.History.Timestamp
import Formulary.Proofs.Decimal.Spelling
import Formulary.Proofs.Release
import Formulary.Proofs.Text.Trimming
import Mathlib.Algebra.Group.Nat.Defs

/-! Moments are read back as they were written, in every year and in leap seconds too. -/
namespace Formulary.History.Timestamp

/-! Digits with zeros in front -/

lemma isDigit_of_mem_padded {width n : ℕ} {c : Char} (h : c ∈ padded width n) :
    c.isDigit = true := by
  rcases List.mem_append.mp h with h | h
  · exact Decimal.isDigit_of_mem_replicate h
  · exact Decimal.isDigit_of_mem_digitsOf h

lemma padded_ne_nil (width n : ℕ) : padded width n ≠ [] := by
  simp [padded,Decimal.digitsOf_ne_nil]

lemma digitsValue_padded (width n : ℕ) : Decimal.digitsValue (padded width n) = n := by
  rw [padded,Decimal.digitsValue_zeros,Decimal.digitsValue_digitsOf]

lemma length_padded {width n : ℕ} (hw : 0 < width) (hn : n < 10 ^ width) :
    (padded width n).length = width := by
  have h : (Decimal.digitsOf n).length ≤ width :=
    (Nat.length_toDigits_le_iff (by decide) hw).mpr hn
  simp [padded]
  omega

lemma isBlank_of_isDigit {c : Char} (h : c.isDigit = true) : Text.isBlank c = false :=
  Text.isBlank_of_isAlphanum (by simp [Char.isAlphanum,h])

lemma trimLeft_cons {c : Char} (h : Text.isBlank c = false) (s : List Char) :
    Text.trimLeft (c :: s) = c :: s := by
  simp [Text.trimLeft,h]

lemma trimLeft_padded (width n : ℕ) (s : List Char) :
    Text.trimLeft (padded width n ++ s) = padded width n ++ s := by
  obtain ⟨c,t,h⟩ := List.exists_cons_of_ne_nil (padded_ne_nil width n)
  have hc : c.isDigit = true := isDigit_of_mem_padded (h ▸ List.mem_cons_self)
  rw [h,List.cons_append,trimLeft_cons (isBlank_of_isDigit hc)]

/-! Parts of a moment. Behind each part stands a character that is no digit. -/

lemma readDigits?_padded {width n most : ℕ} {s : List Char}
    (hmost : (padded width n).length ≤ most) (hs : ∀ c ∈ s.head?, c.isDigit = false) :
    readDigits? most (padded width n ++ s) = some (n,s) := by
  simp only [readDigits?,takeWhile_append_of_head (fun _ => isDigit_of_mem_padded) hs,
    List.take_of_length_le hmost]
  simp [padded_ne_nil,digitsValue_padded]

lemma readPart?_padded {n : ℕ} {s : List Char} (hn : n < 100)
    (hs : ∀ c ∈ s.head?, c.isDigit = false) : readPart? (padded 2 n ++ s) = some (n,s) := by
  rw [readPart?,trimLeft_padded]
  exact readDigits?_padded (by rw [length_padded] <;> omega) hs

lemma dropMark?_cons (mark : Char) (h : Text.isBlank mark = false) (s : List Char) :
    dropMark? mark (mark :: s) = some s := by
  simp [dropMark?,trimLeft_cons h]

lemma readMarked?_padded {mark : Char} {m n : ℕ} {s : List Char} (hmark : Text.isBlank mark = false)
    (hdigit : mark.isDigit = false) (hm : m < 100) (hn : n < 100)
    (hs : ∀ c ∈ s.head?, c.isDigit = false) :
    readMarked? mark (padded 2 m ++ mark :: (padded 2 n ++ s)) = some (m,n,s) := by
  rw [readMarked?,readPart?_padded hm (by simp [hdigit])]
  simp [dropMark?_cons mark hmark,readPart?_padded hn hs]

/-- A year, whose sign tells how far its digits go. -/
lemma readYear?_yearText (year : Int) {s : List Char} (hs : ∀ c ∈ s.head?, c.isDigit = false) :
    readYear? (yearText year ++ s) = some (year,s) := by
  have hlong (sign : Char) (hsign : Text.isBlank sign = false) :
      Text.trimLeft (sign :: (padded 4 year.natAbs ++ s)) = sign :: (padded 4 year.natAbs ++ s) :=
    trimLeft_cons hsign _
  have hread : readDigits? (padded 4 year.natAbs ++ s).length (padded 4 year.natAbs ++ s) =
      some (year.natAbs,s) := readDigits?_padded (by simp) hs
  unfold yearText
  split_ifs with hneg hshort
  · simp only [List.cons_append,List.nil_append,readYear?,hlong '-' rfl,hread,Option.map_some]
    congr 2
    omega
  · have hread : readDigits? 4 (padded 4 year.natAbs ++ s) = some (year.natAbs,s) :=
      readDigits?_padded (by rw [length_padded] <;> omega) hs
    obtain ⟨c,u,hcu⟩ := List.exists_cons_of_ne_nil (padded_ne_nil 4 year.natAbs)
    have hc : c.isDigit = true := isDigit_of_mem_padded (hcu ▸ List.mem_cons_self)
    have hyear : (year.natAbs : Int) = year := by omega
    rw [List.nil_append,readYear?,trimLeft_padded]
    split
    · simp_all
    · simp_all
    · rw [hread,Option.map_some,hyear]
  · simp only [List.cons_append,List.nil_append,readYear?,hlong '+' rfl,hread,Option.map_some]
    congr 2
    omega

lemma readNanos?_point {width n : ℕ} {s : List Char} (hw : 0 < width) (hw' : width ≤ 9)
    (hn : n < 10 ^ width) (hs : ∀ c ∈ s.head?, c.isDigit = false) :
    readNanos? ('.' :: padded width n ++ s) = some (n * 10 ^ (9 - width),s) := by
  have hlen := length_padded hw hn
  simp only [List.cons_append,readNanos?,takeWhile_append_of_head (fun _ => isDigit_of_mem_padded) hs,
    List.take_of_length_le (hlen.trans_le hw')]
  simp [padded_ne_nil,digitsValue_padded,hlen]

lemma readNanos?_fractionText {nano : ℕ} {c : Char} {s : List Char} (hn : nano < secondNanos)
    (hc : c ≠ '.') (hdigit : c.isDigit = false) :
    readNanos? (fractionText nano ++ c :: s) = some (nano,c :: s) := by
  have hs : ∀ d ∈ (c :: s).head?, d.isDigit = false := by simp [hdigit]
  rw [secondNanos] at hn
  unfold fractionText
  split_ifs with h h h
  · simp [readNanos?,hc,h]
  · rw [readNanos?_point (by decide) (by decide) (by omega) hs]
    congr 2
    omega
  · rw [readNanos?_point (by decide) (by decide) (by omega) hs]
    congr 2
    omega
  · rw [readNanos?_point (by decide) (by decide) (by omega) hs]
    congr 2
    omega

/-- The seconds that are shown tell a leap second. -/
lemma leap_spec {date : Date} {second nano : ℕ} (h : History.isMoment date second nano = true) :
    let shown := second % 60 + if secondNanos ≤ nano then 1 else 0
    shown ≤ 60 ∧ second / 3600 * 3600 + second / 60 % 60 * 60 + min shown 59 = second ∧
      nano % secondNanos + (if shown = 60 then secondNanos else 0) = nano := by
  have hclock : second / 3600 * 3600 + second / 60 % 60 * 60 + second % 60 = second := by omega
  have hnano : nano < 1000000000 ∨ nano < 2 * 1000000000 ∧ second % 60 = 59 := by
    simp only [History.isMoment,Bool.and_eq_true,Bool.or_eq_true,decide_eq_true_eq,beq_iff_eq] at h
    exact h.2
  intro shown
  by_cases hl : 1000000000 ≤ nano
  · have hs : shown = 60 := by simp only [shown,secondNanos,hl,↓reduceIte]; omega
    simp only [hs,secondNanos,↓reduceIte]
    omega
  · have hs : shown = second % 60 := by simp [shown,secondNanos,hl]
    have hlt : second % 60 < 60 := Nat.mod_lt _ (by decide)
    rw [hs,Nat.min_eq_left (by omega),if_neg (by omega),secondNanos]
    omega

lemma ofLocal?_zero (t : Timestamp) : ofLocal? t.date t.second t.nano 0 = some t := by
  have hsecond : t.second < daySeconds := by
    have h := t.isMoment
    simp only [History.isMoment,Bool.and_eq_true,decide_eq_true_eq] at h
    exact h.1.2
  simp only [ofLocal?,t.isMoment,↓reduceIte,Int.sub_zero,Int.toNat_natCast]
  rw [if_neg (by omega),if_neg (by omega)]
  simp [ofParts?,t.isMoment]

/-- Every moment is read back. -/
theorem read?_zuluText (t : Timestamp) : read? t.zuluText = some t := by
  obtain ⟨hshown,hsecond,hnano⟩ := leap_spec t.isMoment
  have hday := t.isMoment
  simp only [History.isMoment,Date.isValid,Bool.and_eq_true,decide_eq_true_eq] at hday
  have hmonth : t.date.month < 100 := by omega
  have hdays : t.date.day < 100 := by
    have h : daysIn t.date.year t.date.month ≤ 31 := by
      unfold daysIn
      split_ifs <;> decide
    omega
  have hhour : t.second / 3600 < 24 := by simp only [daySeconds] at hday; omega
  have hhours : t.second / 3600 < 100 := by omega
  have hminute : t.second / 60 % 60 < 60 := Nat.mod_lt _ (by decide)
  have hminutes : t.second / 60 % 60 < 100 := by omega
  have hseconds : t.second % 60 + (if secondNanos ≤ t.nano then 1 else 0) < 100 := by omega
  have hfraction : ∀ c ∈ (fractionText (t.nano % secondNanos) ++ ['Z']).head?,
      c.isDigit = false := by
    unfold fractionText
    split_ifs <;> simp
  simp only [read?,zuluText,String.toList_ofList,chars,List.append_assoc,List.cons_append,readChars?]
  rw [readYear?_yearText _ (by simp)]
  simp only [Option.bind_eq_bind,Option.bind_some,dropMark?_cons '-' rfl]
  rw [readMarked?_padded rfl rfl hmonth hdays (by simp)]
  simp only [Option.bind_some,dropSeparator?,true_or,↓reduceIte]
  rw [readMarked?_padded rfl rfl hhours hminutes (by simp)]
  simp only [Option.bind_some,dropMark?_cons ':' rfl,readPart?_padded hseconds hfraction]
  rw [readNanos?_fractionText (Nat.mod_lt _ (by decide)) (by decide) rfl]
  have hzone : readZone? ['Z'] = some (0,[]) := rfl
  simp only [Option.bind_some,hzone]
  rw [if_pos ⟨hhour,hminute,hshown,rfl⟩,hsecond,hnano]
  exact ofLocal?_zero t

end Formulary.History.Timestamp
