import Formulary.History.Entry
import Formulary.Proofs.Text.Lowercase

/-! What a search finds. A text that an entry mentions is found in it, whatever the case of letters, if
the text itself decides how each capital sigma in it is mapped. With any other text the search misses
some entry that mentions it word for word. -/
namespace Formulary.History
open Text

lemma toList_lowercase (s : String) : (lowercase s).toList = lowerChars s.toList := by
  rw [lowercase,String.toList_ofList]

namespace Entry
variable {e : Entry} {query : String}

lemma isMatch_iff : e.isMatch query = true ↔
    lowerChars (trim query.toList) <:+: lowerChars e.searchText.toList := by
  have hwanted : (lowercase (trimmed query)).toList = lowerChars (trim query.toList) := by
    rw [toList_lowercase,trimmed,String.toList_ofList]
  rw [isMatch,Bool.or_eq_true,occurs_iff,hwanted,toList_lowercase]
  refine or_iff_right_of_imp fun hempty => ?_
  rw [String.isEmpty_iff,← String.toList_eq_nil_iff,hwanted] at hempty
  rw [hempty]
  exact List.nil_infix

/-- A text, without the blanks around it and with its ASCII letters in any case, stands word for word in
the label, the summary or the script of an entry. -/
def Mentions (e : Entry) (query : String) : Prop :=
  ∃ part, SameLetters part (trim query.toList) ∧ (part <:+: e.kind.label.toList ∨
    part <:+: e.computation.summary.toList ∨ part <:+: e.script.toList)

lemma Mentions.infix_searchText (h : e.Mentions query) :
    ∃ part, SameLetters part (trim query.toList) ∧ part <:+: e.searchText.toList := by
  obtain ⟨part,hpart,hfield⟩ := h
  refine ⟨part,hpart,?_⟩
  simp only [searchText,String.toList_append]
  rcases hfield with hl | hs | hs
  · exact hl.trans ⟨[],_,by simp [List.append_assoc]; rfl⟩
  · exact hs.trans ⟨e.kind.label.toList ++ [' '],_,by simp [List.append_assoc]; rfl⟩
  · exact hs.trans (List.suffix_append _ _).isInfix

/-- What is mentioned is found if its sigmas are settled. -/
theorem Mentions.isMatch (h : e.Mentions query) (hs : settlesSigmas (trim query.toList) = true) :
    e.isMatch query = true := by
  obtain ⟨part,hpart,front,back,heq⟩ := h.infix_searchText
  set wanted := trim query.toList
  -- in the query's own case it stands in a text with the same lower-case form
  have hsame : SameLetters e.searchText.toList (front ++ (wanted ++ back)) := by
    rw [← heq,List.append_assoc]
    exact SameLetters.append rfl (hpart.append rfl)
  have hwanted : lowerBetween front.reverse wanted back = lowerChars wanted := by
    rw [lowerChars,lowerAfter_eq]
    exact lowerBetween_of_settled hs front.reverse back
  have hlower : lowerChars (front ++ (wanted ++ back)) =
      lowerBetween [] front (wanted ++ back) ++ (lowerChars wanted ++
        lowerAfter (wanted.reverse ++ front.reverse) back) := by
    rw [← hwanted,lowerChars,lowerAfter_append,List.append_nil,lowerAfter_append]
  rw [isMatch_iff,hsame.lowerChars_eq,hlower]
  exact ⟨_,_,List.append_assoc _ _ _⟩

/-! What is missed -/

/-- What stands before the script of a table without a formula. -/
def scriptFront : List Char := "Logic · Truth table  ".toList

/-- An entry with nothing but a script. -/
def scripted (script : List Char) : Entry :=
  ⟨"script",⟨⟨2020,2,29⟩,43200,0,by decide⟩,.truthTable "" 2,String.ofList script⟩

lemma lowerChars_scripted (script : List Char) :
    lowerChars (scripted script).searchText.toList =
      lowerBetween [] scriptFront [] ++ lowerAfter scriptFront.reverse script := by
  have hlabel : Kind.truthTable.label.toList ++ " ".toList ++ "".toList ++ " ".toList =
      scriptFront := by
    decide
  have htext : (scripted script).searchText.toList = scriptFront ++ script := by
    have hscript : (scripted script).script.toList = script := String.toList_ofList
    rw [← hlabel]
    simp only [searchText,String.toList_append]
    rw [hscript]
    rfl
  have hfront : 'Σ' ∉ scriptFront := by decide
  rw [htext,lowerChars,lowerAfter_append,List.append_nil,
    lowerBetween_of_not_mem hfront [] script [] []]

lemma count_scriptFront : (lowerBetween [] scriptFront []).count 'σ' = 0 ∧
    (lowerBetween [] scriptFront []).count 'ς' = 0 := by
  decide

lemma exists_reverse_scriptFront : ∃ left, scriptFront.reverse = ' ' :: left := ⟨_,rfl⟩

/-- Nothing is found where a character is too rare. -/
lemma not_isMatch_of_count {c : Char} (h : (lowerChars e.searchText.toList).count c <
    (lowerChars (trim query.toList)).count c) : e.isMatch query = false := by
  rw [Bool.eq_false_iff,Ne,isMatch_iff]
  exact fun hin => absurd (hin.sublist.count_le c) (Nat.not_le.mpr h)

/-- A sigma that hangs before its text ends a word behind a letter, so it is missed there. -/
lemma not_isMatch_behind_letter
    (h : 0 < (sigmasAfter [] (trim query.toList)).countP hangsBefore) :
    (scripted ('A' :: trim query.toList)).isMatch query = false := by
  have hcount := count_sigma_behind_letter [] (trim query.toList) scriptFront.reverse
  refine not_isMatch_of_count (c := 'σ') ?_
  rw [lowerChars_scripted,lowerAfter_cons,lowerAfter_eq,List.count_append,List.count_append,
    count_scriptFront.1,show lowered scriptFront.reverse 'A' (trim query.toList) = ['a'] from rfl,
    lowerChars,lowerAfter_eq]
  rw [List.nil_append] at hcount
  simp
  omega

/-- A sigma that hangs behind its text ends no word before a letter, so it is missed there. -/
lemma not_isMatch_before_letter
    (h : 0 < (sigmasAfter [] (trim query.toList)).countP hangsBehind) :
    (scripted (trim query.toList ++ ['A'])).isMatch query = false := by
  obtain ⟨left,hleft⟩ := exists_reverse_scriptFront
  have hcount := count_final_sigma_before_letter [] (trim query.toList) left
  refine not_isMatch_of_count (c := 'ς') ?_
  have hlast (before : List Char) : lowerAfter before ['A'] = ['a'] := rfl
  rw [lowerChars_scripted,lowerAfter_append,List.count_append,List.count_append,
    count_scriptFront.2,hleft,hlast,lowerChars,lowerAfter_eq]
  rw [List.nil_append] at hcount
  simp
  omega

/-- The entries that mention a text are found for it, all of them, exactly if the text itself decides
how each of its capital sigmas is mapped; blanks around a text and the case of its ASCII letters make
no difference. -/
theorem finds_iff_settlesSigmas (query query' : String) :
    ((∀ e : Entry, e.Mentions query → e.isMatch query = true) ↔
      settlesSigmas (trim query.toList) = true) ∧
    (SameLetters (trim query.toList) (trim query'.toList) →
      ∀ e : Entry, e.isMatch query = e.isMatch query') := by
  refine ⟨⟨fun hall => ?_,fun hs e h => h.isMatch hs⟩,fun h e => ?_⟩
  · by_contra hs
    rw [settlesSigmas,Bool.not_eq_true,List.all_eq_false] at hs
    obtain ⟨place,hplace,hhangs⟩ := hs
    have hmention (script : List Char) (hin : trim query.toList <:+: script) :
        (scripted script).isMatch query = true :=
      hall _ ⟨_,rfl,.inr (.inr (by simpa [scripted] using hin))⟩
    cases hbefore : hangsBefore place
    · have hbehind : hangsBehind place = true := by simpa [hbefore] using hhangs
      have hmiss := not_isMatch_before_letter (List.countP_pos_iff.mpr ⟨place,hplace,hbehind⟩)
      rw [hmention _ (List.prefix_append _ _).isInfix] at hmiss
      cases hmiss
    · have hmiss := not_isMatch_behind_letter (List.countP_pos_iff.mpr ⟨place,hplace,hbefore⟩)
      rw [hmention _ (List.suffix_cons _ _).isInfix] at hmiss
      cases hmiss
  · rw [Bool.eq_iff_iff,isMatch_iff,isMatch_iff,h.lowerChars_eq]

/-- A capital sigma at the end of a word with a blank behind it is settled, so whatever mentions the
word and the blank is found, also with blanks and letters changed. -/
theorem finds_sigma_before_blank :
    settlesSigmas (trim "ΟΔΟΣ 1 xy".toList) = true ∧
      (∀ e : Entry, e.Mentions "ΟΔΟΣ 1 xy" → e.isMatch "ΟΔΟΣ 1 xy" = true) ∧
      SameLetters (trim "ΟΔΟΣ 1 xy".toList) (trim "  ΟΔΟΣ 1 XY ".toList) ∧
      ∀ e : Entry, e.isMatch "ΟΔΟΣ 1 xy" = e.isMatch "  ΟΔΟΣ 1 XY " := by
  have hs : settlesSigmas (trim "ΟΔΟΣ 1 xy".toList) = true := by decide
  have hsame : SameLetters (trim "ΟΔΟΣ 1 xy".toList) (trim "  ΟΔΟΣ 1 XY ".toList) := by decide
  have h := finds_iff_settlesSigmas "ΟΔΟΣ 1 xy" "  ΟΔΟΣ 1 XY "
  exact ⟨hs,h.1.mpr hs,hsame,h.2 hsame⟩

/-- A word in capitals is missed where a longer one begins with it: alone it ends in a final sigma. -/
theorem not_isMatch_front_of_word :
    (scripted "ΟΔΟΣΑ".toList).Mentions "ΟΔΟΣ" ∧
      (scripted "ΟΔΟΣΑ".toList).isMatch "ΟΔΟΣ" = false :=
  ⟨⟨"ΟΔΟΣ".toList,by decide,.inr (.inr ⟨[],['Α'],by decide⟩)⟩,by decide +kernel⟩

end Entry
end Formulary.History
