import Formulary.Text.Blank
import Mathlib.Data.List.DropRight
import Mathlib.Data.List.TakeWhile

/-! Trimming a text that has no blank at its ends, and characters that are no blanks. -/
namespace Formulary
namespace Text

lemma isDigit_iff {c : Char} : c.isDigit = true ↔ 48 ≤ c.toNat ∧ c.toNat ≤ 57 := by
  delta Char.isDigit
  simp only [Bool.and_eq_true,decide_eq_true_eq,ge_iff_le,UInt32.le_iff_toNat_le]
  rfl

lemma isAlpha_iff {c : Char} : c.isAlpha = true ↔
    (65 ≤ c.toNat ∧ c.toNat ≤ 90) ∨ (97 ≤ c.toNat ∧ c.toNat ≤ 122) := by
  delta Char.isAlpha Char.isUpper Char.isLower
  simp only [Bool.or_eq_true,Bool.and_eq_true,decide_eq_true_eq,ge_iff_le,UInt32.le_iff_toNat_le]
  rfl

lemma isBlank_of_isAlphanum {c : Char} (h : c.isAlphanum = true) : isBlank c = false := by
  rw [Char.isAlphanum,Bool.or_eq_true,isAlpha_iff,isDigit_iff] at h
  simp only [isBlank,Bool.or_eq_false_iff,Bool.and_eq_false_iff,decide_eq_false_iff_not,
    beq_eq_false_iff_ne]
  omega

lemma dropWhile_of_head {α : Type*} {p : α → Bool} {s : List α} (h : ∀ c ∈ s.head?, p c = false) :
    s.dropWhile p = s := by
  cases s with
  | nil => rfl
  | cons c s => simp [h c rfl]

lemma trim_eq_self {s : List Char} (hh : ∀ c ∈ s.head?, isBlank c = false)
    (hl : ∀ c ∈ s.getLast?, isBlank c = false) : trim s = s := by
  rw [trim,trimLeft,trimLeft,dropWhile_of_head hh,dropWhile_of_head (by simpa using hl),
    List.reverse_reverse]

lemma head?_trim (s : List Char) : ∀ c ∈ (trim s).head?, isBlank c = false := by
  intro c hc
  have hp : trim s <+: trimLeft s := List.rdropWhile_prefix isBlank (trimLeft s)
  obtain ⟨t,ht⟩ := hp
  have hd : (trimLeft s).head? = some c := by
    rw [← ht,List.head?_append]
    simp [Option.mem_def.mp hc]
  have hn := List.head?_dropWhile_not isBlank s
  rw [trimLeft] at hd
  simpa [hd] using hn

lemma getLast?_trim (s : List Char) : ∀ c ∈ (trim s).getLast?, isBlank c = false := by
  intro c hc
  rw [trim,trimLeft,List.getLast?_reverse] at hc
  have hn := List.head?_dropWhile_not isBlank (trimLeft s).reverse
  simpa [Option.mem_def.mp hc] using hn

/-- Trimming takes blanks off at both ends. -/
lemma exists_trim (s : List Char) : ∃ front back, s = front ++ (trim s ++ back) ∧
    (∀ c ∈ front, isBlank c = true) ∧ ∀ c ∈ back, isBlank c = true := by
  refine ⟨s.takeWhile isBlank,(trimLeft s).rtakeWhile isBlank,?_,
    fun c hc => List.mem_takeWhile_imp hc,fun c hc => List.mem_rtakeWhile_imp hc⟩
  have hback : trim s ++ (trimLeft s).rtakeWhile isBlank = trimLeft s :=
    List.rdropWhile_append_rtakeWhile
  rw [hback]
  exact List.takeWhile_append_dropWhile.symm

lemma trim_trim (s : List Char) : trim (trim s) = trim s :=
  trim_eq_self (head?_trim s) (getLast?_trim s)

/-- Blanks at the ends change nothing about what is between them. -/
lemma trim_padded {front back : List Char} (hf : ∀ c ∈ front, isBlank c = true)
    (hb : ∀ c ∈ back, isBlank c = true) (s : List Char) : trim (front ++ s ++ back) = trim s := by
  have hfront : trimLeft (front ++ s ++ back) = trimLeft (s ++ back) := by
    rw [List.append_assoc]
    exact List.dropWhile_append_of_pos hf
  have hback : ∀ c ∈ back.reverse, isBlank c = true := by simpa using hb
  rw [trim,trim,hfront]
  simp only [trimLeft]
  rw [List.dropWhile_append]
  split_ifs with hs
  · have hnil : back.dropWhile isBlank = [] := List.dropWhile_eq_nil_iff.mpr hb
    rw [hnil,List.isEmpty_iff.mp hs]
  · rw [List.reverse_append,List.dropWhile_append_of_pos hback]

lemma trim_of_blank {s : List Char} (h : ∀ c ∈ s, isBlank c = true) : trim s = [] := by
  have hpadded := @trim_padded s [] h (by simp) []
  rw [List.append_nil,List.append_nil] at hpadded
  exact hpadded

end Text

@[simp] lemma trimmed_trimmed (s : String) : trimmed (trimmed s) = trimmed s := by
  simp [trimmed,Text.trim_trim]

end Formulary
