import Formulary.Proofs.Calculus.Lexemes

/-! Decimal literals: digits, perhaps a point with digits behind it, perhaps a power of ten, and at
least one digit before the power. Reading cuts off the longest literal whose last point is not that
of an operator, and its number is the decimal it stands for. A point that neither belongs to an
operator nor has a digit behind it begins no literal. -/
namespace Formulary.Calculus

/-- A point and the digits behind it, or nothing. -/
inductive Places : List Char → List Char → Prop
  | none : Places [] []
  | point {fraction : List Char} (hf : ∀ c ∈ fraction, c.isDigit = true) :
      Places ('.' :: fraction) fraction

/-- A power of ten, or nothing. -/
inductive Power : List Char → ℤ → Prop
  | none : Power [] 0
  | exponent {e : Char} {sign digits : List Char} (he : e = 'e' ∨ e = 'E')
      (hs : sign = [] ∨ sign = ['+'] ∨ sign = ['-']) (hne : digits ≠ [])
      (hd : ∀ c ∈ digits, c.isDigit = true) :
      Power (e :: (sign ++ digits))
        (if sign = ['-'] then -(Decimal.digitsValue digits : ℤ) else Decimal.digitsValue digits)

/-- The literal of the decimal with this significand and this power of ten. -/
inductive Literal : List Char → ℕ → ℤ → Prop
  | mk {whole places fraction power : List Char} {n : ℤ} (hw : ∀ c ∈ whole, c.isDigit = true)
      (hp : Places places fraction) (he : Power power n) (hne : whole ++ fraction ≠ []) :
      Literal (whole ++ (places ++ power)) (Decimal.digitsValue (whole ++ fraction))
        (n - fraction.length)

/-- What stands in front does not end with the point of an operator. -/
def LeavesPoint (w rest : List Char) : Prop :=
  w.getLast? = some '.' → beginsDotted rest = false

lemma isDigit_e {e : Char} (he : e = 'e' ∨ e = 'E') : e.isDigit = false := by
  rcases he with rfl | rfl <;> rfl

lemma ofDotted?_of_isWordPart {c : Char} (h : isWordPart c = true) :
    Operator.ofDotted? c = none := by
  unfold Operator.ofDotted?
  split <;> simp_all [isWordPart,Char.isAlphanum,Char.isAlpha,Char.isUpper,Char.isLower]

lemma beginsDotted_of_isWordPart {c : Char} (h : isWordPart c = true) (s : List Char) :
    beginsDotted (c :: s) = false := by
  rw [beginsDotted,ofDotted?_of_isWordPart h]
  rfl

lemma isWordPart_e {e : Char} (he : e = 'e' ∨ e = 'E') : isWordPart e = true := by
  rcases he with rfl | rfl <;> rfl

/-! Where the parts of a literal end -/

lemma takeWhile_eq_nil_iff {α : Type*} {p : α → Bool} {s : List α} :
    s.takeWhile p = [] ↔ ∀ c ∈ s.head?, p c = false := by
  cases s <;> simp [List.takeWhile_cons]

lemma dropWhile_of_takeWhile {α : Type*} {p : α → Bool} {s : List α} (h : s.takeWhile p = []) :
    s.dropWhile p = s :=
  Text.dropWhile_of_head (takeWhile_eq_nil_iff.mp h)

lemma Power.isDigit_head {power : List Char} {n : ℤ} (h : Power power n) :
    ∀ c ∈ power.head?, c.isDigit = false := by
  cases h with
  | none => simp
  | exponent he hs hne hd => simpa using isDigit_e he

lemma Places.isDigit_head {places fraction power : List Char} {n : ℤ} (hp : Places places fraction)
    (he : Power power n) : ∀ c ∈ (places ++ power).head?, c.isDigit = false := by
  cases hp with
  | none => exact he.isDigit_head
  | point hf => simp

lemma Power.head_ne_point {power : List Char} {n : ℤ} (h : Power power n) :
    ∀ c ∈ power.head?, c ≠ '.' := by
  cases h with
  | none => simp
  | exponent he hs hne hd => rcases he with rfl | rfl <;> simp

lemma Places.eq_of_point {s fraction : List Char} (h : Places ('.' :: s) fraction) :
    fraction = s := by
  cases h
  rfl

/-- A literal begins with a digit, or with a point and a digit. -/
lemma Literal.head {w : List Char} {m : ℕ} {k : ℤ} (h : Literal w m k) :
    ∃ c u, w = c :: u ∧ (c.isDigit = true ∨ c = '.' ∧ ∃ d ∈ u.head?, d.isDigit = true) := by
  cases h with
  | @mk whole places fraction power n hw hp he hne =>
    rcases whole with _ | ⟨c,whole⟩
    · cases hp with
      | none => exact absurd rfl hne
      | point hf =>
        obtain ⟨d,ds,rfl⟩ := List.exists_cons_of_ne_nil hne
        exact ⟨'.',_,rfl,.inr ⟨rfl,d,by simp,hf d (by simp)⟩⟩
    · exact ⟨c,_,rfl,.inl (hw c (by simp))⟩

/-- A literal begins like a number, whatever follows it. -/
lemma Literal.begins {w : List Char} {m : ℕ} {k : ℤ} (h : Literal w m k) :
    ∃ c u, w = c :: u ∧ (c.isDigit = true ∨ c = '.') ∧ (c = '.' → ∃ d ∈ u.head?, d.isDigit = true) ∧
      ∀ rest, ¬(c = '.' ∧ beginsDotted (u ++ rest) = true) := by
  obtain ⟨c,u,rfl,hc⟩ := h.head
  have hpoint : c = '.' → ∃ d ∈ u.head?, d.isDigit = true := by
    rintro rfl
    simpa using hc
  refine ⟨c,u,rfl,hc.imp_right And.left,hpoint,?_⟩
  rintro rest ⟨hcp,hb⟩
  obtain ⟨d,hd,hdig⟩ := hpoint hcp
  obtain ⟨u,rfl⟩ := List.head?_eq_some_iff.mp hd
  rw [List.cons_append,beginsDotted_of_isWordPart (isWordPart_of_isDigit hdig)] at hb
  cases hb

/-- The characters of a literal. -/
lemma Literal.mem_cases {w : List Char} {m : ℕ} {k : ℤ} (h : Literal w m k) {c : Char}
    (hc : c ∈ w) : isWordPart c = true ∨ c = '.' ∨ c = '+' ∨ c = '-' := by
  cases h with
  | @mk whole places fraction power n hw hp he hne =>
    rcases List.mem_append.mp hc with hc | hc
    · exact .inl (isWordPart_of_isDigit (hw c hc))
    rcases List.mem_append.mp hc with hc | hc
    · cases hp with
      | none => simp at hc
      | point hf =>
        rcases List.mem_cons.mp hc with rfl | hc
        · exact .inr (.inl rfl)
        · exact .inl (isWordPart_of_isDigit (hf c hc))
    · cases he with
      | none => simp at hc
      | exponent he hs hne hd =>
        rcases List.mem_cons.mp hc with rfl | hc
        · exact .inl (isWordPart_e he)
        rcases List.mem_append.mp hc with hc | hc
        · rcases hs with rfl | rfl | rfl <;> simp_all
        · exact .inl (isWordPart_of_isDigit (hd c hc))

lemma Literal.all_isAllowed {w : List Char} {m : ℕ} {k : ℤ} (h : Literal w m k) :
    ∀ c ∈ w, isAllowed c = true := by
  intro c hc
  rcases h.mem_cases hc with hc | rfl | rfl | rfl
  · simp [isAllowed,hc]
  · rfl
  · rfl
  · rfl

/-! What is cut off is made of the parts of a literal -/

lemma places_cutPlaces (s : List Char) : ∃ fraction, Places (cutPlaces s).1 fraction := by
  unfold cutPlaces
  split
  · split
    · exact ⟨[],.none⟩
    · exact ⟨_,.point fun c hc => List.mem_takeWhile_imp hc⟩
  · exact ⟨[],.none⟩

lemma cutSign_cases (s : List Char) :
    (cutSign s).1 = [] ∨ (cutSign s).1 = ['+'] ∨ (cutSign s).1 = ['-'] := by
  unfold cutSign
  split <;> simp

lemma power_cutExponent (s : List Char) : ∃ n, Power (cutExponent s).1 n := by
  unfold cutExponent
  split
  · exact ⟨0,.none⟩
  · dsimp only
    split
    · rename_i c rest hc
      simp only [Bool.and_eq_true,Bool.or_eq_true,beq_iff_eq,Bool.not_eq_true',
        List.isEmpty_eq_false_iff] at hc
      exact ⟨_,.exponent hc.1 (cutSign_cases rest) hc.2 fun d hd => List.mem_takeWhile_imp hd⟩
    · exact ⟨0,.none⟩

/-- What is cut off as a number is a literal, or a point and perhaps a power of ten. -/
lemma cutNumber_cases {c : Char} {s : List Char} (hc : c.isDigit = true ∨ c = '.')
    (hd : ¬(c = '.' ∧ beginsDotted s = true)) :
    (∃ m k, Literal (cutNumber (c :: s)).1 m k) ∨
      ∃ power n, c = '.' ∧ (∀ d ∈ s.head?, d.isDigit = false) ∧ Power power n ∧
        (cutNumber (c :: s)).1 = '.' :: power := by
  obtain ⟨fraction,hp⟩ := places_cutPlaces ((c :: s).dropWhile Char.isDigit)
  obtain ⟨n,he⟩ := power_cutExponent (cutPlaces ((c :: s).dropWhile Char.isDigit)).2
  have hw : ∀ d ∈ (c :: s).takeWhile Char.isDigit, d.isDigit = true :=
    fun d hd => List.mem_takeWhile_imp hd
  have hcut : (cutNumber (c :: s)).1 = (c :: s).takeWhile Char.isDigit ++
      ((cutPlaces ((c :: s).dropWhile Char.isDigit)).1 ++
        (cutExponent (cutPlaces ((c :: s).dropWhile Char.isDigit)).2).1) := by
    simp [cutNumber]
  rw [hcut]
  by_cases hne : (c :: s).takeWhile Char.isDigit ++ fraction = []
  · right
    obtain ⟨hwhole,rfl⟩ := List.append_eq_nil_iff.mp hne
    have hcd : c.isDigit = false := by
      by_contra hcd
      simp [show c.isDigit = true by simpa using hcd] at hwhole
    obtain rfl : c = '.' := by simpa [hcd] using hc
    have hdot : beginsDotted s = false := by simpa using hd
    have hplaces : (cutPlaces ('.' :: s)).1 = '.' :: s.takeWhile Char.isDigit := by
      simp [cutPlaces,hdot]
    have hdrop : ('.' :: s).dropWhile Char.isDigit = '.' :: s := by simp
    rw [hdrop,hplaces] at hp
    have hnil : s.takeWhile Char.isDigit = [] := hp.eq_of_point.symm
    refine ⟨_,n,rfl,?_,he,?_⟩
    · cases s with
      | nil => simp
      | cons d s =>
        by_contra hdig
        simp_all
    · rw [hwhole,hdrop,hplaces,hnil]
      rfl
  · exact .inl ⟨_,_,.mk hw hp he hne⟩

/-! What is cut off behind the parts of a literal -/

lemma cutExponent_power {power : List Char} {n : ℤ} (h : Power power n) (hne : power ≠ [])
    (s : List Char) :
    cutExponent (power ++ s) = (power ++ s.takeWhile Char.isDigit,s.dropWhile Char.isDigit) := by
  cases h with
  | none => exact absurd rfl hne
  | @exponent e sign digits he hs hdigits hd =>
    obtain ⟨d,ds,rfl⟩ := List.exists_cons_of_ne_nil hdigits
    have hdig := hd d (by simp)
    have hsign : cutSign (sign ++ (d :: ds ++ s)) = (sign,d :: ds ++ s) := by
      rcases hs with rfl | rfl | rfl
      · rw [List.nil_append,List.cons_append]
        unfold cutSign
        split <;> simp_all
      · rfl
      · rfl
    have hmark : (e == 'e' || e == 'E') = true := by simpa using he
    have htake : (d :: ds ++ s).takeWhile Char.isDigit = d :: ds ++ s.takeWhile Char.isDigit :=
      List.takeWhile_append_of_pos hd
    have hdrop : (d :: ds ++ s).dropWhile Char.isDigit = s.dropWhile Char.isDigit :=
      List.dropWhile_append_of_pos hd
    simp only [List.cons_append,List.append_assoc,cutExponent] at hsign htake hdrop ⊢
    simp [hsign,hmark,htake,hdrop]

lemma cutPlaces_fraction {fraction s : List Char} (hf : ∀ c ∈ fraction, c.isDigit = true)
    (hdot : beginsDotted (fraction ++ s) = false) : cutPlaces ('.' :: (fraction ++ s)) =
      ('.' :: (fraction ++ s.takeWhile Char.isDigit),s.dropWhile Char.isDigit) := by
  rw [cutPlaces,if_neg (by simp [hdot]),List.takeWhile_append_of_pos hf,
    List.dropWhile_append_of_pos hf]

/-- Behind digits alone, all that is cut off as a number goes on. -/
lemma cutNumber_whole {whole : List Char} (hw : ∀ c ∈ whole, c.isDigit = true)
    (rest : List Char) :
    cutNumber (whole ++ rest) = (whole ++ (cutNumber rest).1,(cutNumber rest).2) := by
  simp [cutNumber,List.takeWhile_append_of_pos hw,List.dropWhile_append_of_pos hw]

/-- Behind a point and its digits, more digits and a power may go on. -/
lemma cutNumber_places {whole fraction rest : List Char} (hw : ∀ c ∈ whole, c.isDigit = true)
    (hf : ∀ c ∈ fraction, c.isDigit = true) (hdot : beginsDotted (fraction ++ rest) = false) :
    cutNumber (whole ++ '.' :: fraction ++ rest) =
      (whole ++ '.' :: fraction ++ (rest.takeWhile Char.isDigit ++
        (cutExponent (rest.dropWhile Char.isDigit)).1),
      (cutExponent (rest.dropWhile Char.isDigit)).2) := by
  have hpoint : ∀ c ∈ ('.' :: (fraction ++ rest)).head?, c.isDigit = false := by simp
  rw [List.append_assoc,List.cons_append]
  simp [cutNumber,takeWhile_append_of_head hw hpoint,dropWhile_append_of_head hw hpoint,
    cutPlaces_fraction hf hdot]

/-- Behind a power, more of its digits may go on. -/
lemma cutNumber_power {whole places fraction power rest : List Char} {n : ℤ}
    (hw : ∀ c ∈ whole, c.isDigit = true) (hp : Places places fraction) (he : Power power n)
    (hne : power ≠ []) : cutNumber (whole ++ (places ++ power) ++ rest) =
      (whole ++ (places ++ power) ++ rest.takeWhile Char.isDigit,rest.dropWhile Char.isDigit) := by
  obtain ⟨c,u,rfl⟩ := List.exists_cons_of_ne_nil hne
  have hc : c.isDigit = false := he.isDigit_head c rfl
  have hhead : ∀ d ∈ (c :: u ++ rest).head?, d.isDigit = false := by simpa using hc
  have htake : (c :: u ++ rest).takeWhile Char.isDigit = [] := by simp [hc]
  have hdrop : (c :: u ++ rest).dropWhile Char.isDigit = c :: u ++ rest := by simp [hc]
  have hexponent := cutExponent_power he hne rest
  cases hp with
  | none =>
    have hplaces : cutPlaces (c :: u ++ rest) = ([],c :: u ++ rest) := by
      have := he.head_ne_point c rfl
      rw [List.cons_append]
      unfold cutPlaces
      split <;> simp_all
    rw [List.nil_append,List.append_assoc]
    simp only [cutNumber,takeWhile_append_of_head hw hhead,dropWhile_append_of_head hw hhead,
      hplaces,hexponent]
    simp
  | point hf =>
    have hdot : beginsDotted (fraction ++ (c :: u ++ rest)) = false := by
      cases he with
      | exponent hmark =>
        cases fraction with
        | nil => exact beginsDotted_of_isWordPart (isWordPart_e hmark) _
        | cons d ds => exact beginsDotted_of_isWordPart (isWordPart_of_isDigit (hf d (by simp))) _
    have hnumber := cutNumber_places hw hf hdot
    rw [htake,hdrop,hexponent] at hnumber
    simpa using hnumber

/-- A point that is left to a literal is not that of an operator. -/
lemma LeavesPoint.beginsDotted {front fraction rest : List Char}
    (hf : ∀ c ∈ fraction, c.isDigit = true) (h : LeavesPoint (front ++ '.' :: fraction) rest) :
    beginsDotted (fraction ++ rest) = false := by
  rcases fraction with _ | ⟨d,fraction⟩
  · exact h (by simp)
  · exact beginsDotted_of_isWordPart (isWordPart_of_isDigit (hf d (by simp))) _

/-- What is cut off has every literal at its front, except for the point of an operator. -/
theorem isPrefix_cutNumber {w rest : List Char} {m : ℕ} {k : ℤ} (h : Literal w m k)
    (hl : LeavesPoint w rest) : w <+: (cutNumber (w ++ rest)).1 := by
  cases h with
  | @mk whole places fraction power n hw hp he hne =>
    by_cases hpower : power = []
    · subst hpower
      cases hp with
      | none =>
        rw [List.append_nil,List.append_nil,cutNumber_whole hw]
        exact List.prefix_append _ _
      | point hf =>
        rw [List.append_nil] at hl ⊢
        rw [cutNumber_places hw hf (hl.beginsDotted hf)]
        exact List.prefix_append _ _
    · rw [cutNumber_power hw hp he hpower]
      exact List.prefix_append _ _

lemma leavesPoint_of_getLast {w rest : List Char} (h : ∀ c ∈ w.getLast?, c.isDigit = true) :
    LeavesPoint w rest := by
  intro hl
  have := h '.' hl
  cases this

lemma leavesPoint_cutPlaces (s : List Char) : LeavesPoint (cutPlaces s).1 (cutPlaces s).2 := by
  unfold cutPlaces
  split
  · split
    · exact leavesPoint_of_getLast (by simp)
    · rename_i rest hdot
      intro hl
      have hnil : rest.takeWhile Char.isDigit = [] := by
        by_contra hne
        rw [List.getLast?_cons,List.getLast?_eq_some_getLast hne] at hl
        have hd := List.mem_takeWhile_imp (List.getLast_mem hne)
        simp_all
      rw [dropWhile_of_takeWhile hnil]
      simpa using hdot
  · exact leavesPoint_of_getLast (by simp)

lemma Power.getLast {power : List Char} {n : ℤ} (h : Power power n) :
    ∀ c ∈ power.getLast?, c.isDigit = true := by
  cases h with
  | none => simp
  | @exponent e sign digits he hs hne hd =>
    intro c hc
    rw [← List.cons_append,List.getLast?_append_of_ne_nil _ hne] at hc
    exact hd c (List.mem_of_getLast? hc)

/-- A number is cut off without the point of an operator. -/
lemma leavesPoint_cutNumber (s : List Char) : LeavesPoint (cutNumber s).1 (cutNumber s).2 := by
  obtain ⟨n,he⟩ := power_cutExponent (cutPlaces (s.dropWhile Char.isDigit)).2
  have hrest := cutExponent_append (cutPlaces (s.dropWhile Char.isDigit)).2
  have hplaces := leavesPoint_cutPlaces (s.dropWhile Char.isDigit)
  simp only [cutNumber]
  generalize cutExponent (cutPlaces (s.dropWhile Char.isDigit)).2 = e at he hrest ⊢
  obtain ⟨power,rest⟩ := e
  by_cases hpower : power = []
  · subst hpower
    obtain rfl : rest = (cutPlaces (s.dropWhile Char.isDigit)).2 := hrest
    rw [List.append_nil]
    by_cases hp : (cutPlaces (s.dropWhile Char.isDigit)).1 = []
    · rw [hp,List.append_nil]
      exact leavesPoint_of_getLast fun c hc => List.mem_takeWhile_imp (List.mem_of_getLast? hc)
    · rw [LeavesPoint,List.getLast?_append_of_ne_nil _ hp]
      exact hplaces
  · refine leavesPoint_of_getLast fun c hc => ?_
    rw [List.getLast?_append_of_ne_nil _ hpower] at hc
    exact he.getLast c hc

/-- The longest literal at the front of a text whose last point is not that of an operator. -/
structure LongestLiteral (w rest : List Char) (m : ℕ) (k : ℤ) : Prop where
  literal : Literal w m k
  leavesPoint : LeavesPoint w rest
  longest : ∀ u v m' k', rest = u ++ v → Literal (w ++ u) m' k' → LeavesPoint (w ++ u) v → u = []

/-- Cutting off a number gives the longest literal. -/
theorem longestLiteral_iff {w rest : List Char} {m : ℕ} {k : ℤ} :
    LongestLiteral w rest m k ↔ Literal w m k ∧ cutNumber (w ++ rest) = (w,rest) := by
  constructor
  · rintro ⟨hl,hp,hmax⟩
    refine ⟨hl,?_⟩
    obtain ⟨u,hu⟩ := isPrefix_cutNumber hl hp
    have happ := cutNumber_append (w ++ rest)
    rw [← hu,List.append_assoc] at happ
    have hrest : rest = u ++ (cutNumber (w ++ rest)).2 := (List.append_cancel_left happ).symm
    -- What is cut off is a literal itself, since it begins as this one does.
    obtain ⟨c,s,rfl,hc,hpoint,hdot⟩ := hl.begins
    rcases cutNumber_cases hc (hdot rest) with ⟨m',k',hcut⟩ | ⟨power,n,hcp,hnone,-,-⟩
    · have hnil := hmax u _ m' k' hrest (by rw [hu]; exact hcut) (by
        rw [hu]; exact leavesPoint_cutNumber _)
      subst hnil
      rw [List.append_nil] at hu
      exact Prod.ext hu.symm hrest.symm
    · obtain ⟨d,hd,hdig⟩ := hpoint hcp
      rw [hnone d (by simp [Option.mem_def.mp hd])] at hdig
      cases hdig
  · rintro ⟨hl,hcut⟩
    have hp := leavesPoint_cutNumber (w ++ rest)
    rw [hcut] at hp
    refine ⟨hl,hp,fun u v m' k' hrest hl' hp' => ?_⟩
    have hpre := isPrefix_cutNumber hl' hp'
    rw [List.append_assoc,← hrest,hcut] at hpre
    have hlen : (w ++ u).length ≤ w.length := hpre.length_le
    rw [List.length_append] at hlen
    exact List.length_eq_zero_iff.mp (by omega)

/-! The number of a literal -/

lemma readExponent?_power {power : List Char} {n : ℤ} (h : Power power n) :
    Decimal.readExponent? power = some n := by
  cases h with
  | none => rfl
  | @exponent e sign digits he hs hne hd =>
    have hall : digits.all Char.isDigit = true := List.all_eq_true.mpr hd
    have hempty : digits.isEmpty = false := by simpa using hne
    have hmark : (e == 'e' || e == 'E') = true := by simpa using he
    have hsign : Decimal.readSign (sign ++ digits) = (decide (sign = ['-']),digits) := by
      rcases hs with rfl | rfl | rfl
      · obtain ⟨d,ds,rfl⟩ := List.exists_cons_of_ne_nil hne
        have hdig := hd d (by simp)
        rw [List.nil_append]
        unfold Decimal.readSign
        split <;> simp_all
      · rfl
      · rfl
    simp only [Decimal.readExponent?,hsign,hmark,hempty,hall,Bool.not_false,Bool.and_self,if_true,
      decide_eq_true_eq]

lemma readSign_of_head {c : Char} (h : c.isDigit = true ∨ c = '.') (s : List Char) :
    Decimal.readSign (c :: s) = (false,c :: s) := by
  unfold Decimal.readSign
  split <;> simp_all

/-- A literal is read as its decimal. -/
lemma readChars?_literal {w : List Char} {m : ℕ} {k : ℤ} (h : Literal w m k) :
    Decimal.readChars? w = some (Decimal.ofDecimal false m k) := by
  obtain ⟨c,s,hs,hc,-,-⟩ := h.begins
  have hsign : Decimal.readSign w = (false,w) := by
    rw [hs]
    exact readSign_of_head hc s
  cases h with
  | @mk whole places fraction power n hw hp he hne =>
    have hh := hp.isDigit_head he
    have hfraction : Decimal.readFraction (places ++ power) = (fraction,power) := by
      cases hp with
      | none =>
        cases he with
        | none => rfl
        | exponent hmark => rcases hmark with rfl | rfl <;> rfl
      | point hf =>
        simp only [List.cons_append,Decimal.readFraction,
          takeWhile_append_of_head hf he.isDigit_head,dropWhile_append_of_head hf he.isDigit_head]
    have hsome : (whole.isEmpty && fraction.isEmpty) = false := by
      simpa [List.append_eq_nil_iff] using hne
    simp only [Decimal.readChars?,hsign,Decimal.readMagnitude?,takeWhile_append_of_head hw hh,
      dropWhile_append_of_head hw hh,hfraction,hsome,readExponent?_power he]
    rfl

/-- A point without a digit before the power is no number. -/
lemma readChars?_point {power : List Char} {n : ℤ} (h : Power power n) :
    Decimal.readChars? ('.' :: power) = none := by
  have hnil : power.takeWhile Char.isDigit = [] := by
    cases h with
    | none => rfl
    | exponent he => simp [isDigit_e he]
  simp [Decimal.readChars?,readSign_of_head (.inr rfl),Decimal.readMagnitude?,
    Decimal.readFraction,hnil,Decimal.readName?]

end Formulary.Calculus
