import Formulary.Text.Quoted
import Mathlib.Data.List.Count

/-! Literals between single quotes. Reading one gives the text back and stops where it was closed, if no
quote stands right behind it. -/
namespace Formulary.Text

variable {s rest : List Char}

lemma readInside?_quote (h : rest.head? ≠ some '\'') : readInside? ('\'' :: rest) = some ([],rest) := by
  cases rest with
  | nil => rfl
  | cons c rest =>
    rw [readInside?]
    · simp
    · rintro s - ⟨⟩
      exact h rfl

lemma readInside?_cons {c : Char} (hc : c ≠ '\'') (s : List Char) :
    readInside? (c :: s) = (readInside? s).map fun r => (c :: r.1,r.2) := by
  rw [readInside?]
  · simp [hc]
  · exact fun _ h _ => hc h

lemma readInside?_doubleQuotes (h : rest.head? ≠ some '\'') (s : List Char) :
    readInside? (doubleQuotes s ++ '\'' :: rest) = some (s,rest) := by
  induction s with
  | nil => exact readInside?_quote h
  | cons c s ih =>
    by_cases hc : c = '\''
    · subst hc
      simp [doubleQuotes,readInside?,ih]
    · simp [doubleQuotes,hc,readInside?_cons hc,ih]

/-- A literal is read back. -/
theorem readLiteral?_literal (h : rest.head? ≠ some '\'') (s : List Char) :
    readLiteral? (literal s ++ rest) = some (s,rest) := by
  rw [literal,List.cons_append,List.cons_append,List.append_assoc]
  exact readInside?_doubleQuotes h s

/-- What is read as the inside of a literal is a text with its quotes doubled, up to a quote that ends
it. -/
lemma eq_of_readInside? {t : List Char} (h : readInside? s = some (t,rest)) :
    s = doubleQuotes t ++ '\'' :: rest ∧ rest.head? ≠ some '\'' := by
  induction s using readInside?.induct generalizing t with
  | case1 => cases h
  | case2 s ih =>
    rw [readInside?] at h
    obtain ⟨⟨u,rest'⟩,hu,⟨⟩⟩ := Option.map_eq_some_iff.mp h
    obtain ⟨rfl,hrest⟩ := ih hu
    exact ⟨by simp [doubleQuotes],hrest⟩
  | case3 s hne =>
    rw [readInside?.eq_3 _ _ hne,if_pos rfl] at h
    cases h
    refine ⟨rfl,fun hs => ?_⟩
    obtain ⟨more,rfl⟩ := List.head?_eq_some_iff.mp hs
    exact hne more rfl rfl
  | case4 c s hne hc ih =>
    rw [readInside?.eq_3 _ _ hne,if_neg hc] at h
    obtain ⟨⟨u,rest'⟩,hu,⟨⟩⟩ := Option.map_eq_some_iff.mp h
    obtain ⟨rfl,hrest⟩ := ih hu
    exact ⟨by simp [doubleQuotes,hc],hrest⟩

/-- Reading finds exactly the literals that can be written and that no further quote prolongs. -/
theorem readLiteral?_eq_some_iff {t : List Char} :
    readLiteral? s = some (t,rest) ↔ s = literal t ++ rest ∧ rest.head? ≠ some '\'' := by
  constructor
  · intro h
    unfold readLiteral? at h
    split at h
    · obtain ⟨rfl,hrest⟩ := eq_of_readInside? h
      exact ⟨by simp [literal],hrest⟩
    · cases h
  · rintro ⟨rfl,hrest⟩
    exact readLiteral?_literal hrest t

/-- Between its quotes a literal has the other characters as often as its text. -/
lemma count_literal {c : Char} (hc : c ≠ '\'') (s : List Char) :
    (literal s).count c = s.count c := by
  have hq : ('\'' == c) = false := by simpa using Ne.symm hc
  have hdouble : (doubleQuotes s).count c = s.count c := by
    induction s with
    | nil => rfl
    | cons d s ih =>
      rw [doubleQuotes]
      split_ifs with hd
      · subst hd
        simp [List.count_cons,hq,ih]
      · simp [List.count_cons,ih]
  simp [literal,List.count_cons,hq,hdouble]

end Formulary.Text
