import Formulary.Script.Function
import Formulary.Proofs.Calculus.Lexemes
import Formulary.Proofs.Calculus.Parsing
import Formulary.Proofs.Script.Literals

/-! A function written out for a script is again a text of the language, and the same function. Every
operation has its own parentheses, so the spelling of an operand stands as an atom wherever it is put,
and each lexeme ends at a blank or a parenthesis. -/
namespace Formulary

namespace Calculus

/-! Atoms out of atoms -/

lemma Phrase.rank_le_atom (m : Phrase) : m.rank ≤ Phrase.atom.rank := by cases m <;> decide

lemma Phrase.sum_rank_le (m : Phrase) : Phrase.sum.rank ≤ m.rank := by cases m <;> decide

lemma Spells.negated {e : Expression} {ts : List Placed} (h : Spells .atom e ts) (i j k : ℕ) :
    Spells .atom (.negate e)
      (⟨.opening,i⟩ :: (⟨.operator .subtract,j⟩ :: ts ++ [⟨.closing,k⟩])) :=
  .group i k (.loosen (Phrase.sum_rank_le _) (.minus j (.loosen (Phrase.rank_le_atom _) h)))

lemma Spells.bracketed {l r : Expression} {ts us : List Placed} (o : Operator) (i j k : ℕ)
    (hl : Spells .atom l ts) (hr : Spells .atom r us) :
    Spells .atom (.binary o l r)
      (⟨.opening,i⟩ :: (ts ++ ⟨.operator o,j⟩ :: us ++ [⟨.closing,k⟩])) :=
  .group i k (.loosen (Phrase.sum_rank_le _)
    (.binary o j (.loosen (Phrase.rank_le_atom _) hl) (.loosen (Phrase.rank_le_atom _) hr)))

/-- The numbers of an expression are among the tokens that spell it. -/
lemma Spells.exists_number {m : Phrase} {e : Expression} {ts : List Placed} {v : Float}
    (h : Spells m e ts) (hv : Instruction.number v ∈ e.postfixOrder) :
    ∃ p ∈ ts, p.token = .number v := by
  induction h with
  | number v i => simp_all [Expression.postfixOrder]
  | x i => simp [Expression.postfixOrder] at hv
  | pi i => simp [Expression.postfixOrder] at hv
  | call r i j k inner ih =>
    obtain ⟨p,hp,ht⟩ := ih (by simpa [Expression.postfixOrder] using hv)
    exact ⟨p,by simp [hp],ht⟩
  | group i j inner ih =>
    obtain ⟨p,hp,ht⟩ := ih hv
    exact ⟨p,by simp [hp],ht⟩
  | minus i inner ih =>
    obtain ⟨p,hp,ht⟩ := ih (by simpa [Expression.postfixOrder] using hv)
    exact ⟨p,by simp [hp],ht⟩
  | plus i inner ih =>
    obtain ⟨p,hp,ht⟩ := ih hv
    exact ⟨p,by simp [hp],ht⟩
  | binary o i left right ihl ihr =>
    simp only [Expression.postfixOrder,List.mem_append] at hv
    rcases hv with (hv | hv) | hv
    · obtain ⟨p,hp,ht⟩ := ihl hv
      exact ⟨p,by simp [hp],ht⟩
    · obtain ⟨p,hp,ht⟩ := ihr hv
      exact ⟨p,by simp [hp],ht⟩
    · simp at hv
  | loosen hrank inner ih => exact ih hv

end Calculus

namespace Script
open Calculus

/-- An expression with every operation in parentheses. -/
def spelling : Expression → String
  | .number v => numberLiteral v
  | .x => "x"
  | .pi => "pi"
  | .negate e => "(-" ++ spelling e ++ ")"
  | .call r e => r.name ++ "(" ++ spelling e ++ ")"
  | .binary o l r => "(" ++ spelling l ++ " " ++ elementwise o ++ " " ++ spelling r ++ ")"

lemma foldl_writeStep (e : Expression) (stack : List String) :
    e.postfixOrder.foldl (fun stack i => writeStep i stack) stack = spelling e :: stack := by
  induction e generalizing stack with
  | number v => rfl
  | x => rfl
  | pi => rfl
  | negate e ih =>
    rw [Expression.postfixOrder,List.foldl_append,ih]
    rfl
  | call r e ih =>
    rw [Expression.postfixOrder,List.foldl_append,ih]
    rfl
  | binary o l r ihl ihr =>
    rw [Expression.postfixOrder,List.foldl_append,List.foldl_append,ihl,ihr]
    rfl

/-- The program of an expression is written out as the expression. -/
theorem vectorized_postfixOrder (e : Expression) : vectorized e.postfixOrder = spelling e := by
  rw [vectorized,foldl_writeStep]
  rfl

/-! The characters of a spelling -/

/-- A decimal holds allowed characters and no blank. -/
lemma isAllowed_of_isPositional {s : List Char} (h : Decimal.IsPositional s) :
    ∀ c ∈ s, isAllowed c = true ∧ Text.isBlank c = false := by
  intro c hc
  rcases h.isDigit_or_point c hc with hd | rfl
  · have hw := isWordPart_of_isDigit hd
    exact ⟨by simp [isAllowed,hw],isBlank_of_isWordPart hw⟩
  · decide

/-- The numbers of an expression are written as decimals that read back to them. -/
def Literals (e : Expression) : Prop :=
  ∀ v, Instruction.number v ∈ e.postfixOrder →
    Decimal.IsPositional (numberLiteral v).toList ∧
      Decimal.readChars? (numberLiteral v).toList = some v

lemma Literals.negate {e : Expression} (h : Literals (.negate e)) : Literals e :=
  fun v hv => h v (List.mem_append_left _ hv)

lemma Literals.call {r : Routine} {e : Expression} (h : Literals (.call r e)) : Literals e :=
  fun v hv => h v (List.mem_append_left _ hv)

lemma Literals.left {o : Operator} {l r : Expression} (h : Literals (.binary o l r)) :
    Literals l :=
  fun v hv => h v (List.mem_append_left _ (List.mem_append_left _ hv))

lemma Literals.right {o : Operator} {l r : Expression} (h : Literals (.binary o l r)) :
    Literals r :=
  fun v hv => h v (List.mem_append_left _ (List.mem_append_right _ hv))

lemma all_isAllowed_spelling {e : Expression} (he : Literals e) :
    (spelling e).toList.all isAllowed = true := by
  induction e with
  | number v =>
    rw [List.all_eq_true]
    exact fun c hc => (isAllowed_of_isPositional (he v List.mem_cons_self).1 c hc).1
  | x => decide +kernel
  | pi => decide +kernel
  | negate e ih =>
    simp only [spelling,String.toList_append,List.all_append,ih he.negate]
    decide +kernel
  | call r e ih =>
    simp only [spelling,String.toList_append,List.all_append,ih he.call]
    cases r <;> decide +kernel
  | binary o l r ihl ihr =>
    simp only [spelling,String.toList_append,List.all_append,ihl he.left,ihr he.right]
    cases o <;> decide +kernel

lemma trim_closed {s : List Char} (hne : s ≠ []) (hs : ∀ c ∈ s.head?, Text.isBlank c = false) :
    Text.trim (s ++ ")".toList) = s ++ ")".toList := by
  refine Text.trim_eq_self ?_ ?_
  · rw [List.head?_append_of_ne_nil _ hne]
    exact hs
  · simp [Text.isBlank]

/-- A spelling begins and ends with no blank. -/
lemma trimmed_spelling {e : Expression} (he : Literals e) : trimmed (spelling e) = spelling e := by
  suffices h : Text.trim (spelling e).toList = (spelling e).toList by
    rw [trimmed,h,String.ofList_toList]
  cases e with
  | number v =>
    have hv := isAllowed_of_isPositional (he v List.mem_cons_self).1
    exact Text.trim_eq_self (fun c hc => (hv c (List.mem_of_mem_head? hc)).2)
      fun c hc => (hv c (List.mem_of_mem_getLast? hc)).2
  | x => decide +kernel
  | pi => decide +kernel
  | negate e =>
    simp only [spelling,String.toList_append]
    exact trim_closed (by simp) (by simp [Text.isBlank])
  | call r e =>
    simp only [spelling,String.toList_append]
    exact trim_closed (by simp) (by cases r <;> simp [Routine.name,Text.isBlank])
  | binary o l r =>
    simp only [spelling,String.toList_append]
    exact trim_closed (by simp) (by simp [Text.isBlank])

lemma spelling_ne_empty {e : Expression} (he : Literals e) : spelling e ≠ "" := by
  rw [Ne,← String.toList_inj]
  cases e with
  | number v =>
    obtain ⟨c,s,hs,-⟩ := (he v List.mem_cons_self).1.head
    simp [spelling,hs]
  | _ => simp [spelling]

/-! Reading a spelling -/

lemma endsLexeme_cons {c : Char} (h : isWordPart c = false ∧ c ≠ '.') (rest : List Char) :
    EndsLexeme (c :: rest) := by
  rintro d ⟨⟩
  exact h

lemma endsLexeme_space (rest : List Char) : EndsLexeme (' ' :: rest) :=
  endsLexeme_cons (by decide) rest

lemma endsLexeme_opening (rest : List Char) : EndsLexeme ('(' :: rest) :=
  endsLexeme_cons (by decide) rest

lemma endsLexeme_closing (rest : List Char) : EndsLexeme (')' :: rest) :=
  endsLexeme_cons (by decide) rest

lemma endsLexeme_nil : EndsLexeme [] := by simp [EndsLexeme]

lemma reads_opening (before : ℕ) (rest : List Char) :
    Reads ['('] before [⟨.opening,before + 1⟩] rest :=
  (lexeme_mark (by decide) (by decide) fun _ => rfl).reads_text before

lemma reads_minus (before : ℕ) (rest : List Char) :
    Reads ['-'] before [⟨.operator .subtract,before + 1⟩] rest :=
  (lexeme_mark (by decide) (by decide) fun _ => rfl).reads_text before

lemma reads_closing (before : ℕ) (rest : List Char) :
    Reads [')'] before [⟨.closing,before + 1⟩] rest :=
  (lexeme_mark (by decide) (by decide) fun _ => rfl).reads_text before

lemma lexeme_elementwise (o : Operator) (rest : List Char) :
    Lexeme (elementwise o).toList rest (.operator o) := by
  cases o with
  | add => simpa [elementwise] using lexeme_mark (by decide) (by decide) fun _ => rfl
  | subtract => simpa [elementwise] using lexeme_mark (by decide) (by decide) fun _ => rfl
  | multiply => simpa [elementwise] using lexeme_dotted (by decide) fun _ => rfl
  | divide => simpa [elementwise] using lexeme_dotted (by decide) fun _ => rfl
  | power => simpa [elementwise] using lexeme_dotted (by decide) fun _ => rfl

/-- In front of a blank or a parenthesis, a spelling is read as its expression. -/
theorem reads_spelling {e : Expression} (he : Literals e) {rest : List Char}
    (hrest : EndsLexeme rest) (before : ℕ) :
    ∃ ts, Spells .atom e ts ∧ Reads (spelling e).toList before ts rest := by
  induction e generalizing before rest with
  | number v =>
    obtain ⟨hp,hv⟩ := he v List.mem_cons_self
    exact ⟨_,.number v _,(lexeme_number hp hv hrest).reads_text before⟩
  | x =>
    have hx : Lexeme ['x'] rest .x := lexeme_word rfl (by simp) hrest.isWordPart fun _ => rfl
    exact ⟨_,.x _,by simpa [spelling] using hx.reads_text before⟩
  | pi =>
    have hpi : Lexeme ['p','i'] rest .pi :=
      lexeme_word rfl (by simp [isWordPart]) hrest.isWordPart fun _ => rfl
    exact ⟨_,.pi _,by simpa [spelling] using hpi.reads_text before⟩
  | negate e ih =>
    obtain ⟨ts,hts,hr⟩ := ih he.negate (endsLexeme_closing rest) (before + 2)
    have hs : (spelling e.negate).toList = ['('] ++ (['-'] ++ ((spelling e).toList ++ [')'])) := by
      simp [spelling]
    rw [hs]
    exact ⟨_,hts.negated _ _ _,(reads_opening before _).append
      ((reads_minus _ _).append (hr.append (reads_closing _ _)))⟩
  | call r e ih =>
    let name := r.name.toList
    obtain ⟨ts,hts,hr⟩ := ih he.call (endsLexeme_closing rest) (before + name.length + 1)
    have hs : (spelling (.call r e)).toList =
        name ++ (['('] ++ ((spelling e).toList ++ [')'])) := by
      simp [spelling,name]
    rw [hs]
    exact ⟨_,.call r _ _ _ (.loosen (Phrase.rank_le_atom _) hts),
      ((lexeme_name r (endsLexeme_opening _).isWordPart).reads_text before).append
        ((reads_opening _ _).append (hr.append (reads_closing _ _)))⟩
  | binary o l r ihl ihr =>
    let right := (elementwise o).toList ++ ([' '] ++ ((spelling r).toList ++ [')']))
    obtain ⟨ts,hts,hl⟩ := ihl he.left (endsLexeme_space (right ++ rest)) (before + 1)
    obtain ⟨us,hus,hr⟩ := ihr he.right (endsLexeme_closing rest)
      (before + 1 + (spelling l).toList.length + 1 + (elementwise o).toList.length + 1)
    have hs : (spelling (.binary o l r)).toList =
        ['('] ++ ((spelling l).toList ++ ([' '] ++ right)) := by
      simp [spelling,right]
    have hread : Reads right _ _ rest := ((lexeme_elementwise o _).reads_text _).append
      ((reads_space _ _).append (hr.append (reads_closing _ rest)))
    rw [hs]
    exact ⟨_,by simpa using hts.bracketed o _ _ _ hus,
      (reads_opening before _).append (hl.append ((reads_space _ _).append hread))⟩

lemma tokens_spelling {e : Expression} (he : Literals e) :
    ∃ ts, Spells .atom e ts ∧ tokens (spelling e) = .ok ts := by
  obtain ⟨ts,hts,hread⟩ := reads_spelling he endsLexeme_nil 0
  rw [Reads,List.append_nil,scan_of_blank (s := []) rfl] at hread
  exact ⟨ts,hts,tokens_eq_ok_iff.mpr
    ⟨screen_eq_ok (all_isAllowed_spelling he),by simpa [behind] using hread⟩⟩

/-- The spelling of an expression is a text of it. -/
theorem compile_spelling {e : Expression} (he : Literals e) :
    compile (spelling e) = .ok ⟨spelling e,e.postfixOrder⟩ := by
  obtain ⟨ts,hts,htokens⟩ := tokens_spelling he
  rw [compile_eq_ok_iff,trimmed_spelling he]
  exact ⟨spelling_ne_empty he,ts,e,htokens,.loosen (by decide) hts,rfl⟩

/-- A function is written out as a text of the same program, whose operands stand as in the text it
was compiled from. -/
theorem compile_vectorized {text : String} {f : Compiled} (h : compile text = .ok f)
    (hf : ∀ v, Instruction.number v ∈ f.program → v.isFinite = true) :
    ∃ g, compile (vectorized f.program) = .ok g ∧ g.program = f.program ∧
      vectorized g.program = vectorized f.program ∧
      ∃ e ts us, tokens (trimmed text) = .ok ts ∧ Spells .sum e ts ∧
        tokens (vectorized f.program) = .ok us ∧ Spells .atom e us := by
  obtain ⟨-,ts,e,htokens,hts,rfl⟩ := compile_eq_ok_iff.mp h
  have he : Literals e := by
    intro v hv
    obtain ⟨p,hp,ht⟩ := hts.exists_number hv
    exact numberLiteral_spec (isUnsigned_of_mem_tokens htokens hp ht (hf v hv)) (hf v hv)
  obtain ⟨us,hus,husp⟩ := tokens_spelling he
  rw [vectorized_postfixOrder]
  exact ⟨_,compile_spelling he,rfl,vectorized_postfixOrder e,e,ts,us,htokens,hts,husp,hus⟩

/-- A function with a sign outside a power and a number that begins with its point. -/
def dampedSine : Compiled :=
  ⟨"-x^2+.5*sin(pi/3)",[.x,.number 2,.binary .power,.negate,.number 0.5,.pi,.number 3,
    .binary .divide,.call .sin,.binary .multiply,.binary .add]⟩

lemma compile_dampedSine : compile dampedSine.source = .ok dampedSine := by decide +kernel

lemma vectorized_dampedSine : vectorized dampedSine.program =
    "((-(x .^ 2)) + (0.5 .* sin((pi ./ 3))))" := by decide +kernel

theorem compile_vectorized_dampedSine :
    ∃ g, compile "((-(x .^ 2)) + (0.5 .* sin((pi ./ 3))))" = .ok g ∧
      g.program = dampedSine.program := by
  have hf (v : Float) (hv : Instruction.number v ∈ dampedSine.program) : v.isFinite = true := by
    simp only [dampedSine,List.mem_cons,Instruction.number.injEq,reduceCtorEq,List.not_mem_nil,
      false_or,or_false] at hv
    rcases hv with rfl | rfl | rfl <;> decide +kernel
  obtain ⟨g,hg,hp,-⟩ := compile_vectorized compile_dampedSine hf
  rw [vectorized_dampedSine] at hg
  exact ⟨g,hg,hp⟩

end Script
end Formulary
