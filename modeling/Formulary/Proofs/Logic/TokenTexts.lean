import Formulary.Logic.Lexer
import Mathlib.Data.List.Basic

/-! Formulas as token texts, one behind the other. No token text is the front of another one, so a
text without blanks is cut into tokens in one way at most, and reading finds it. Where reading stops
short, no token begins. Blanks may stand anywhere, within a token too. -/
namespace Formulary

namespace Text

/-- The second text is the first one with blanks put in anywhere. -/
inductive Spaced : List Char → List Char → Prop
  | nil : Spaced [] []
  | blank {c : Char} {s u : List Char} (h : isBlank c = true) (rest : Spaced s u) : Spaced s (c :: u)
  | char (c : Char) {s u : List Char} (rest : Spaced s u) : Spaced (c :: s) (c :: u)

lemma Spaced.strip_eq {s u : List Char} (h : Spaced s u) : strip u = strip s := by
  induction h with
  | nil => rfl
  | blank hc rest ih => simpa [strip,hc] using ih
  | char c rest ih =>
    rw [strip,strip] at ih
    rw [strip,strip,List.filter_cons,List.filter_cons,ih]

lemma spaced_strip (u : List Char) : Spaced (strip u) u := by
  induction u with
  | nil => exact .nil
  | cons c u ih =>
    cases hc : isBlank c with
    | true => simpa [strip,hc] using Spaced.blank hc ih
    | false => simpa [strip,hc] using Spaced.char c ih

end Text

namespace Logic

/-- The texts of tokens, one behind the other. -/
def spelled (ts : List Token) : List Char :=
  ts.flatMap Token.chars

lemma not_isBlank_of_mem_chars {t : Token} {c : Char} (h : c ∈ t.chars) :
    Text.isBlank c = false := by
  have hall : t.chars.all (fun c => !Text.isBlank c) = true := by
    rcases t with l | (_ | _ | _ | _ | _) | _ | _ | ⟨l,r⟩
    · cases l <;> rfl
    · rfl
    · rfl
    · rfl
    · rfl
    · rfl
    · rfl
    · rfl
    · cases l <;> cases r <;> rfl
  simpa using List.all_eq_true.mp hall c h

lemma strip_spelled (ts : List Token) : Text.strip (spelled ts) = spelled ts := by
  refine Text.strip_eq_self fun c hc => ?_
  obtain ⟨t,-,ht⟩ := List.mem_flatMap.mp hc
  exact not_isBlank_of_mem_chars ht

/-- Token texts with blanks between and within them are the texts that are stripped to these. -/
lemma spaced_spelled_iff {ts : List Token} {u : List Char} :
    Text.Spaced (spelled ts) u ↔ Text.strip u = spelled ts := by
  constructor
  · intro h
    rw [h.strip_eq,strip_spelled]
  · intro h
    rw [← h]
    exact Text.spaced_strip u

/-- A token is read wherever its text stands, whatever follows. -/
lemma firstToken?_append (t : Token) (rest : List Char) :
    firstToken? (t.chars ++ rest) = some (t,rest) := by
  rcases t with l | (_ | _ | _ | _ | _) | _ | _ | ⟨l,r⟩
  · cases l <;> rfl
  · rfl
  · rfl
  · rfl
  · rfl
  · rfl
  · rfl
  · rfl
  · cases l <;> cases r <;> rfl

lemma firstToken?_eq_none_iff {s : List Char} :
    firstToken? s = none ↔ ∀ t : Token, ¬ t.chars <+: s := by
  constructor
  · rintro h t ⟨rest,rfl⟩
    rw [firstToken?_append] at h
    cases h
  · intro h
    cases hf : firstToken? s with
    | none => rfl
    | some p => exact absurd ⟨p.2,(eq_append_of_firstToken? hf).symm⟩ (h p.1)

lemma beginsXor_iff {s : List Char} : beginsXor s = true ↔ ['x','o','r','('] <+: s := by
  unfold beginsXor
  split
  · simp
  · rename_i hne
    simp only [Bool.false_eq_true,false_iff]
    rintro ⟨rest,rfl⟩
    exact hne rest rfl

lemma scan_of_firstToken? {s rest : List Char} {t : Token} (h : firstToken? s = some (t,rest))
    (before : ℕ) : scan before s =
      (t :: (scan (before + t.chars.length) rest).1,(scan (before + t.chars.length) rest).2) := by
  rw [scan]
  split
  · rename_i heq
    rw [h] at heq
    cases heq
    rfl
  · simp_all

lemma scan_of_none {s : List Char} (h : firstToken? s = none) (before : ℕ) :
    scan before s = ([],if s.isEmpty then none else some (.atText s (before + 1))) := by
  rw [scan]
  split
  · simp_all
  · rfl

/-- Reading takes token texts off one by one. -/
lemma scan_spelled (ts : List Token) (rest : List Char) (before : ℕ) :
    scan before (spelled ts ++ rest) = (ts ++ (scan (before + (spelled ts).length) rest).1,
      (scan (before + (spelled ts).length) rest).2) := by
  induction ts generalizing before with
  | nil => rfl
  | cons t ts ih =>
    have hs : spelled (t :: ts) ++ rest = t.chars ++ (spelled ts ++ rest) := by
      simp [spelled]
    have hl : before + (spelled (t :: ts)).length =
        before + t.chars.length + (spelled ts).length := by
      simp [spelled,Nat.add_assoc]
    rw [hs,hl,scan_of_firstToken? (firstToken?_append t _),ih,List.cons_append]

/-- Every text is token texts up to a place where no token begins. -/
lemma exists_spelled (s : List Char) :
    ∃ ts rest, s = spelled ts ++ rest ∧ firstToken? rest = none := by
  -- By length, since a token text may have more than one character.
  induction s using (measure List.length).wf.induction with
  | h s ih =>
    cases hf : firstToken? s with
    | none => exact ⟨[],s,rfl,hf⟩
    | some p =>
      obtain ⟨ts,rest,hs,hn⟩ := ih p.2 (length_lt_of_firstToken? hf)
      refine ⟨p.1 :: ts,rest,?_,hn⟩
      rw [eq_append_of_firstToken? hf,hs]
      simp [spelled]

/-- What reading gives, said of the text without blanks: its front is spelled by the tokens, and no
token begins behind them. -/
theorem scanText_spec (text : String) : ∃ ts rest, Text.strip text.toList = spelled ts ++ rest ∧
    (∀ t : Token, ¬ t.chars <+: rest) ∧ scanText text = (ts,
      if rest.isEmpty then none else some (.atText rest ((spelled ts).length + 1))) := by
  obtain ⟨ts,rest,hs,hn⟩ := exists_spelled (Text.strip text.toList)
  refine ⟨ts,rest,hs,firstToken?_eq_none_iff.mp hn,?_⟩
  rw [scanText,hs,scan_spelled,scan_of_none hn]
  simp

/-- Only one cutting into tokens ends where no token begins. -/
lemma spelled_append_inj {ts us : List Token} {rest rest' : List Char}
    (h : spelled ts ++ rest = spelled us ++ rest') (hn : ∀ t : Token, ¬ t.chars <+: rest)
    (hn' : ∀ t : Token, ¬ t.chars <+: rest') : ts = us ∧ rest = rest' := by
  have hs := scan_spelled ts rest 0
  rw [h,scan_spelled,scan_of_none (firstToken?_eq_none_iff.mpr hn),
    scan_of_none (firstToken?_eq_none_iff.mpr hn')] at hs
  have hts : ts = us := by simpa using (congrArg Prod.fst hs).symm
  subst hts
  exact ⟨rfl,List.append_cancel_left h⟩

lemma not_chars_isPrefix_nil (t : Token) : ¬ t.chars <+: [] := by
  rw [List.prefix_nil]
  exact t.chars_ne_nil

lemma tokens_eq_ok_iff {text : String} {us : List Token} :
    tokens text = .ok us ↔ spelled us = Text.strip text.toList := by
  obtain ⟨ts,rest,hs,hn,hscan⟩ := scanText_spec text
  rw [tokens,hscan,hs]
  cases rest with
  | nil =>
    constructor
    · rintro ⟨⟩
      simp
    · intro h
      have h' : spelled ts ++ [] = spelled us ++ [] := by simpa using h.symm
      simp [(spelled_append_inj h' not_chars_isPrefix_nil not_chars_isPrefix_nil).1]
  | cons c rest =>
    simp only [List.isEmpty_cons,Bool.false_eq_true,if_false,reduceCtorEq,false_iff]
    intro h
    have h' : spelled us ++ [] = spelled ts ++ c :: rest := by simpa using h
    cases (spelled_append_inj h' not_chars_isPrefix_nil hn).2

lemma tokens_eq_error_iff {text : String} {e : SyntaxError} :
    tokens text = .error e ↔ ∃ ts rest, Text.strip text.toList = spelled ts ++ rest ∧
      rest ≠ [] ∧ (∀ t : Token, ¬ t.chars <+: rest) ∧ (scanText text).1 = ts ∧
      e = .atText rest ((spelled ts).length + 1) := by
  obtain ⟨ts,rest,hs,hn,hscan⟩ := scanText_spec text
  constructor
  · intro h
    rw [tokens,hscan] at h
    cases rest with
    | nil => cases h
    | cons c rest =>
      cases h
      exact ⟨ts,c :: rest,hs,by simp,hn,by rw [hscan],rfl⟩
  · rintro ⟨us,rest',hs',hne,hn',-,rfl⟩
    obtain ⟨rfl,rfl⟩ := spelled_append_inj (hs.symm.trans hs') hn hn'
    have hr : rest.isEmpty = false := by simpa using hne
    rw [tokens,hscan,hr]
    rfl

/-- A call of `xor` is at fault exactly where one begins. -/
lemma eq_atText_iff {e : SyntaxError} {s : List Char} {position : ℕ} :
    e = .atText s position ↔ e = .malformedXor position ∧ ['x','o','r','('] <+: s ∨
      e = .invalidSymbol position ∧ ¬ ['x','o','r','('] <+: s := by
  rw [← beginsXor_iff,SyntaxError.atText]
  split_ifs with hx <;> simp [hx]

/-- A text is read as these tokens exactly when it is their texts with blanks put in anywhere, and
then they spell the text without its blanks. A text is refused exactly when tokens spell only a
front of it without blanks and no token begins behind that front; these are the tokens that were
read, the fault stands at the next character, and it is that of a call of `xor` exactly when the
call begins there. -/
theorem tokens_iff_spelled (text : String) :
    (∀ ts, tokens text = .ok ts ↔ Text.Spaced (spelled ts) text.toList) ∧
    (∀ ts, tokens text = .ok ts ↔ spelled ts = Text.strip text.toList) ∧
    ∀ e, tokens text = .error e ↔ ∃ ts rest, Text.strip text.toList = spelled ts ++ rest ∧
      rest ≠ [] ∧ (∀ t : Token, ¬ t.chars <+: rest) ∧ (scanText text).1 = ts ∧
      (e = .malformedXor ((spelled ts).length + 1) ∧ ['x','o','r','('] <+: rest ∨
        e = .invalidSymbol ((spelled ts).length + 1) ∧ ¬ ['x','o','r','('] <+: rest) := by
  refine ⟨fun ts => ?_,fun ts => tokens_eq_ok_iff,fun e => ?_⟩
  · rw [spaced_spelled_iff,tokens_eq_ok_iff,eq_comm]
  · simp only [tokens_eq_error_iff,eq_atText_iff]

/-- A call that the end of the text cuts off, behind the longer arrow with a blank in it. -/
example : tokens "A < -> xor(B" = .error (.malformedXor 5) := by
  cbv

end Logic
end Formulary
