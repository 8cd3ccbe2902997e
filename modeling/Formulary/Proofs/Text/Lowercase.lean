import Formulary.Proofs.Text.Trimming
import Formulary.Text.Lowercase

/-! Lower-casing and the parts of a text. Only a capital sigma depends on what stands around it, so a
part is mapped as it is by itself, unless what stands around it decides whether a sigma ends a word. The
case of ASCII letters changes nothing. -/
namespace Formulary.Text

/-! What is cased next to a part -/

/-- Beyond a part that is case-ignorable as a whole, the next part decides. -/
lemma meetsCased_append (s t : List Char) : meetsCased (s ++ t) =
    if s.all isCaseIgnorable then meetsCased t else meetsCased s := by
  rw [meetsCased,meetsCased,meetsCased,List.dropWhile_append]
  cases h : s.all isCaseIgnorable
  · have hne : s.dropWhile isCaseIgnorable ≠ [] := by
      rw [Ne,List.dropWhile_eq_nil_iff,← List.all_eq_true,h]
      decide
    simp only [List.isEmpty_iff,hne,if_false,Bool.false_eq_true]
    obtain ⟨c,rest,hc⟩ := List.exists_cons_of_ne_nil hne
    rw [hc]
    rfl
  · have hnil : s.dropWhile isCaseIgnorable = [] :=
      List.dropWhile_eq_nil_iff.mpr (List.all_eq_true.mp h)
    simp [hnil]

lemma meetsCased_of_all {s : List Char} (h : s.all isCaseIgnorable = true) :
    meetsCased s = false := by
  rw [meetsCased,List.dropWhile_eq_nil_iff.mpr (List.all_eq_true.mp h)]

lemma meetsCased_letter (s : List Char) : meetsCased ('A' :: s) = true := by
  rw [meetsCased,List.dropWhile_cons_of_neg (by decide)]
  rfl

lemma meetsCased_blank (s : List Char) : meetsCased (' ' :: s) = false := by
  rw [meetsCased,List.dropWhile_cons_of_neg (by decide)]
  rfl

/-! The part of the result that comes from a part -/

/-- What a character is mapped to between what stands before it, the last character first, and what
stands behind it. -/
def lowered (before : List Char) (c : Char) (rest : List Char) : List Char :=
  if c = 'Σ' then [if meetsCased before && !meetsCased rest then 'ς' else 'σ']
  else if c = 'İ' then ['i','\u0307']
  else [lowerChar c]

lemma lowerAfter_cons (before : List Char) (c : Char) (rest : List Char) :
    lowerAfter before (c :: rest) = lowered before c rest ++ lowerAfter (c :: before) rest := rfl

/-- What a part is mapped to between two others. -/
def lowerBetween (before : List Char) : List Char → List Char → List Char
  | [],_ => []
  | c :: rest,after => lowered before c (rest ++ after) ++ lowerBetween (c :: before) rest after

lemma lowerAfter_append (before s t : List Char) : lowerAfter before (s ++ t) =
    lowerBetween before s t ++ lowerAfter (s.reverse ++ before) t := by
  induction s generalizing before with
  | nil => rfl
  | cons c s ih =>
    rw [List.cons_append,lowerAfter_cons,lowerBetween,ih,List.append_assoc,List.reverse_cons,
      List.append_assoc]
    rfl

lemma lowerAfter_eq (before s : List Char) : lowerAfter before s = lowerBetween before s [] := by
  have h := lowerAfter_append before s []
  rw [List.append_nil] at h
  rw [h,lowerAfter,List.append_nil]

lemma lowered_of_ne {c : Char} (hc : c ≠ 'Σ') (before rest before' rest' : List Char) :
    lowered before c rest = lowered before' c rest' := by
  rw [lowered,lowered,if_neg hc,if_neg hc]

lemma lowerBetween_of_not_mem {s : List Char} (h : 'Σ' ∉ s) (before after before' after' : List Char) :
    lowerBetween before s after = lowerBetween before' s after' := by
  induction s generalizing before before' with
  | nil => rfl
  | cons c s ih =>
    rw [List.mem_cons,not_or] at h
    rw [lowerBetween,lowerBetween,lowered_of_ne (Ne.symm h.1),ih h.2]

/-! Capital sigmas -/

/-- Where the capital sigmas of a text stand: what is before each, the last character first, and what
is behind it. -/
def sigmasAfter (before : List Char) : List Char → List (List Char × List Char)
  | [] => []
  | c :: rest =>
    (if c = 'Σ' then [(before,rest)] else []) ++ sigmasAfter (c :: before) rest

/-- A sigma that a cased letter in front of the text makes the end of a word. -/
def hangsBefore (place : List Char × List Char) : Bool :=
  place.1.all isCaseIgnorable && !meetsCased place.2

/-- A sigma that ends a word unless a cased letter follows the text. -/
def hangsBehind (place : List Char × List Char) : Bool :=
  meetsCased place.1 && place.2.all isCaseIgnorable

/-- Whether the text itself decides how each of its capital sigmas is mapped. -/
def settlesSigmas (s : List Char) : Bool :=
  (sigmasAfter [] s).all fun place => !hangsBefore place && !hangsBehind place

/-- A part that decides about its sigmas is mapped as by itself. -/
lemma lowerBetween_of_settled {s before : List Char}
    (h : (sigmasAfter before s).all (fun place => !hangsBefore place && !hangsBehind place) = true)
    (left right : List Char) : lowerBetween (before ++ left) s right = lowerBetween before s [] := by
  induction s generalizing before with
  | nil => rfl
  | cons c s ih =>
    rw [sigmasAfter,List.all_append,Bool.and_eq_true] at h
    rw [lowerBetween,lowerBetween,← List.cons_append,ih h.2]
    congr 1
    by_cases hc : c = 'Σ'
    · have hplace := h.1
      simp only [hc,if_true,List.all_cons,List.all_nil,Bool.and_true,hangsBefore,hangsBehind] at hplace
      simp only [lowered,hc,if_true,meetsCased_append,List.append_nil]
      cases hb : before.all isCaseIgnorable
      · cases hs : s.all isCaseIgnorable <;> simp_all
      · have hnone := meetsCased_of_all hb
        cases hs : s.all isCaseIgnorable <;> simp_all [meetsCased_of_all]
    · exact lowered_of_ne hc _ _ _ _

/-- A cased letter in front makes ends of words of the sigmas that hang there, and of no others. -/
lemma count_sigma_behind_letter (before s left : List Char) :
    (lowerBetween before s []).count 'σ' = (lowerBetween (before ++ 'A' :: left) s []).count 'σ' +
      (sigmasAfter before s).countP hangsBefore := by
  induction s generalizing before with
  | nil => rfl
  | cons c s ih =>
    rw [lowerBetween,lowerBetween,sigmasAfter,List.count_append,List.count_append,
      List.countP_append,ih (c :: before),List.cons_append]
    have hhere : (lowered before c (s ++ [])).count 'σ' =
        (lowered (before ++ 'A' :: left) c (s ++ [])).count 'σ' +
          (if c = 'Σ' then [(before,s)] else []).countP hangsBefore := by
      by_cases hc : c = 'Σ'
      · simp only [lowered,hc,if_true,meetsCased_append,List.append_nil,meetsCased_letter]
        cases hb : before.all isCaseIgnorable <;> cases hs : meetsCased s <;>
          simp [hangsBefore,hb,hs,meetsCased_of_all]
      · rw [lowered_of_ne hc before _ (before ++ 'A' :: left),if_neg hc,List.countP_nil,Nat.add_zero]
    omega

/-- A cased letter behind goes on with the words that end in the sigmas that hang there, and with no
others. -/
lemma count_final_sigma_before_letter (before s left : List Char) :
    (lowerBetween before s []).count 'ς' =
      (lowerBetween (before ++ ' ' :: left) s ['A']).count 'ς' +
        (sigmasAfter before s).countP hangsBehind := by
  induction s generalizing before with
  | nil => rfl
  | cons c s ih =>
    rw [lowerBetween,lowerBetween,sigmasAfter,List.count_append,List.count_append,
      List.countP_append,ih (c :: before),List.cons_append]
    have hhere : (lowered before c (s ++ [])).count 'ς' =
        (lowered (before ++ ' ' :: left) c (s ++ ['A'])).count 'ς' +
          (if c = 'Σ' then [(before,s)] else []).countP hangsBehind := by
      by_cases hc : c = 'Σ'
      · simp only [lowered,hc,if_true,meetsCased_append,List.append_nil,meetsCased_letter,
          meetsCased_blank]
        cases hb : before.all isCaseIgnorable <;> cases hs : s.all isCaseIgnorable <;>
          cases hm : meetsCased before <;> simp_all [hangsBehind,meetsCased_of_all]
      · rw [lowered_of_ne hc before _ (before ++ ' ' :: left) (s ++ ['A']),if_neg hc,List.countP_nil,
          Nat.add_zero]
    omega

/-! The case of ASCII letters -/

/-- Texts that differ only in the case of ASCII letters. -/
def SameLetters (s t : List Char) : Prop := s.map Char.toLower = t.map Char.toLower

instance (s t : List Char) : Decidable (SameLetters s t) :=
  inferInstanceAs (Decidable (s.map Char.toLower = t.map Char.toLower))

lemma toLower_eq (c : Char) :
    c.toLower.toNat = if 65 ≤ c.toNat ∧ c.toNat ≤ 90 then c.toNat + 32 else c.toNat := by
  unfold Char.toLower
  simp only [ge_iff_le,UInt32.le_iff_toNat_le]
  change (if h : 65 ≤ c.toNat ∧ c.toNat ≤ 90 then _ else c : Char).toNat = _
  split_ifs with h
  · have hle : c.val.toNat ≤ 90 := h.2
    change (c.val + 32).toNat = c.val.toNat + 32
    rw [UInt32.toNat_add]
    exact Nat.mod_eq_of_lt (show c.val.toNat + 32 < 2 ^ 32 by omega)
  · rfl

/-- Different characters of one lower-case form are letters. -/
lemma eq_or_isAlpha {c d : Char} (h : c.toLower = d.toLower) :
    c = d ∨ c.isAlpha = true ∧ d.isAlpha = true := by
  have hn : c.toLower.toNat = d.toLower.toNat := by rw [h]
  rw [toLower_eq,toLower_eq] at hn
  rw [isAlpha_iff,isAlpha_iff,← Char.toNat_inj]
  split_ifs at hn <;> omega

lemma cased_of_isAlpha {c : Char} (h : c.isAlpha = true) :
    isCased c = true ∧ isCaseIgnorable c = false := by
  have hall : ∀ n < 123, (65 ≤ n ∧ n ≤ 90) ∨ (97 ≤ n ∧ n ≤ 122) →
      inRuns casedBounds n = true ∧ inRuns caseIgnorableBounds n = false := by decide
  rw [isAlpha_iff] at h
  exact hall c.toNat (by omega) h

lemma lowerChar_congr {c d : Char} (h : c.toLower = d.toLower) : lowerChar c = lowerChar d := by
  rcases eq_or_isAlpha h with rfl | ⟨hc,hd⟩
  · rfl
  · rw [isAlpha_iff] at hc hd
    rw [lowerChar,lowerChar,if_pos (by omega),if_pos (by omega),h]

section SameLetters
variable {s t before before' rest rest' : List Char} {c d : Char}

lemma SameLetters.length_eq (h : SameLetters s t) : s.length = t.length := by
  simpa using congrArg List.length h

lemma sameLetters_cons : SameLetters (c :: s) (d :: t) ↔ c.toLower = d.toLower ∧ SameLetters s t :=
  List.cons_eq_cons

lemma SameLetters.append {s' t' : List Char} (h : SameLetters s t) (h' : SameLetters s' t') :
    SameLetters (s ++ s') (t ++ t') := by
  rw [SameLetters,List.map_append,List.map_append,h,h']

lemma isCased_congr (h : c.toLower = d.toLower) :
    isCased c = isCased d ∧ isCaseIgnorable c = isCaseIgnorable d := by
  rcases eq_or_isAlpha h with rfl | ⟨hc,hd⟩
  · exact ⟨rfl,rfl⟩
  · simp [cased_of_isAlpha hc,cased_of_isAlpha hd]

lemma SameLetters.meetsCased_eq (h : SameLetters s t) : meetsCased s = meetsCased t := by
  induction s generalizing t with
  | nil => rw [List.length_eq_zero_iff.mp h.length_eq.symm]
  | cons c s ih =>
    obtain ⟨d,t,rfl⟩ := List.exists_cons_of_length_eq_add_one h.length_eq.symm
    obtain ⟨hc,ht⟩ := sameLetters_cons.mp h
    have hcd := isCased_congr hc
    have hrest := ih ht
    simp only [meetsCased,List.dropWhile_cons] at hrest ⊢
    rw [← hcd.2]
    split_ifs
    · exact hrest
    · exact hcd.1

lemma eq_special_iff {e : Char} (he : e.isAlpha = false) (h : c.toLower = d.toLower) :
    c = e ↔ d = e := by
  rcases eq_or_isAlpha h with rfl | ⟨hc,hd⟩
  · rfl
  · constructor <;> rintro rfl <;> simp_all

lemma lowered_congr (hb : SameLetters before before') (hc : c.toLower = d.toLower)
    (hr : SameLetters rest rest') : lowered before c rest = lowered before' d rest' := by
  simp only [lowered,hb.meetsCased_eq,hr.meetsCased_eq,lowerChar_congr hc,
    eq_special_iff (show 'Σ'.isAlpha = false by decide) hc,
    eq_special_iff (show 'İ'.isAlpha = false by decide) hc]

lemma SameLetters.lowerAfter_eq (hb : SameLetters before before') (h : SameLetters s t) :
    lowerAfter before s = lowerAfter before' t := by
  induction s generalizing t before before' with
  | nil => rw [List.length_eq_zero_iff.mp h.length_eq.symm]; rfl
  | cons c s ih =>
    obtain ⟨d,t,rfl⟩ := List.exists_cons_of_length_eq_add_one h.length_eq.symm
    obtain ⟨hc,ht⟩ := sameLetters_cons.mp h
    rw [lowerAfter_cons,lowerAfter_cons,lowered_congr hb hc ht,
      ih (sameLetters_cons.mpr ⟨hc,hb⟩) ht]

/-- Texts that differ only in the case of ASCII letters have the same lower-case form. -/
theorem SameLetters.lowerChars_eq (h : SameLetters s t) : lowerChars s = lowerChars t :=
  SameLetters.lowerAfter_eq rfl h

end SameLetters
end Formulary.Text
