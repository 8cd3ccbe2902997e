import Formulary.Proofs.Calculus.Lexemes
import Formulary.Proofs.Outcome
import Formulary.Proofs.Script.Lines
import Formulary.Session.Answer
import Formulary.Text.Escaped

/-! Messages that stand on one line whatever a user typed: numbers, texts that are quoted, and the
faults of formulas and functions. -/
namespace Formulary
open Script

/-! Texts and numbers -/

lemma not_mem_hexDigits (n : ℕ) : '\n' ∉ Nat.toDigits 16 n := by
  have hdigit : ∀ d < 16, '\n' ≠ Nat.digitChar d := by decide
  induction n using Nat.strongRecOn with
  | ind n ih =>
    rcases Nat.lt_or_ge n 16 with hlt | hge
    · rw [Nat.toDigits_of_lt_base hlt,List.mem_singleton]
      exact hdigit n hlt
    · rw [Nat.toDigits_of_base_le (by decide) hge,List.mem_append,List.mem_singleton,not_or]
      exact ⟨ih (n / 16) (by omega),hdigit _ (Nat.mod_lt n (by decide))⟩

lemma not_mem_escapeChar (c : Char) : '\n' ∉ Text.escapeChar c := by
  unfold Text.escapeChar
  split_ifs with h1 h2
  · simp only [List.mem_cons,List.not_mem_nil,or_false,not_or]
    exact ⟨by decide,by rintro rfl; simp at h1⟩
  · decide
  · decide
  · decide
  · decide
  · simp [Text.codePoint,not_mem_hexDigits]
  · simpa using Ne.symm h2

/-- A text that is quoted stands on one line. -/
lemma isPlain_escaped (s : String) : IsPlain (escaped s) := by
  rw [IsPlain,escaped,String.toList_ofList]
  simp only [List.cons_append,List.mem_cons,List.mem_append,List.not_mem_nil,or_false,not_or]
  refine ⟨by decide,fun h => ?_,by decide⟩
  obtain ⟨c,-,hc⟩ := List.mem_flatMap.mp h
  exact not_mem_escapeChar c hc

lemma isPlain_layout (layout : Decimal.Layout) (v : Float) : IsPlain (layout.text v) := by
  refine isPlain_ofList fun h => ?_
  exact absurd ((Json.chars_spec layout v).2 _ h) (by decide)

lemma not_mem_fixedText (places n : ℕ) : '\n' ∉ Decimal.fixedText places n := by
  let zeros := List.replicate (places + 1 - (Decimal.digitsOf n).length) '0'
  have hdigit (s : List Char) (hs : s.Sublist (zeros ++ Decimal.digitsOf n)) : '\n' ∉ s := by
    intro h
    rcases List.mem_append.mp (hs.subset h) with h | h
    · exact absurd (List.eq_of_mem_replicate h) (by decide)
    · exact absurd (Decimal.isDigit_of_mem_digitsOf h) (by decide)
  simp only [Decimal.fixedText,List.mem_append,List.mem_cons,not_or]
  exact ⟨hdigit _ (List.take_sublist _ _),by decide,hdigit _ (List.drop_sublist _ _)⟩

lemma isPlain_fixed (places : ℕ) (v : Float) : IsPlain (Decimal.fixed places v) := by
  have hsign (negative : Bool) : '\n' ∉ Decimal.signText negative := by cases negative <;> decide
  refine isPlain_ofList ?_
  split
  · decide
  · rw [List.mem_append,not_or]
    exact ⟨hsign _,by decide⟩
  · rw [List.mem_append,not_or]
    exact ⟨hsign _,not_mem_fixedText _ _⟩

/-! Faults of formulas -/

namespace Logic

lemma isPlain_letter (l : Letter) : IsPlain l.text := by
  cases l <;> exact isPlain_ofList (by decide)

lemma isPlain_instruction (i : Instruction) : IsPlain i.text := by
  cases i with
  | letter l => exact isPlain_ofList (by cases l <;> decide)
  | xor l r => exact isPlain_ofList (by cases l <;> cases r <;> decide)
  | operator o => exact isPlain_ofList (by rcases o with _ | (_ | _ | _ | _) <;> decide)

lemma isPlain_postfix (p : Postfix) : IsPlain p.text := by
  unfold Postfix.text
  induction p with
  | nil => exact isPlain_ofList (by decide)
  | cons i p ih =>
    cases p with
    | nil => simpa using isPlain_instruction i
    | cons i' p =>
      rw [List.map_cons,List.map_cons,String.intercalate_cons_cons,isPlain_append,isPlain_append]
      exact ⟨⟨isPlain_instruction i,isPlain_ofList (by decide)⟩,ih⟩

/-- What is wrong with a formula is told by positions and letters. -/
lemma isPlain_message (e : Error) : IsPlain e.message := by
  cases e with
  | text e =>
    cases e with
    | invalidSymbol n => exact isPlain_append.mpr ⟨isPlain_ofList (by decide),isPlain_natural n⟩
    | malformedXor n =>
      refine isPlain_append.mpr ⟨isPlain_append.mpr ⟨isPlain_ofList (by decide),isPlain_natural n⟩,?_⟩
      exact isPlain_ofList (by decide)
    | unbalanced | empty => exact isPlain_ofList (by decide)
  | evaluation e =>
    cases e with
    | missingOperand | invalidExpression => exact isPlain_ofList (by decide)
    | missingOperands c =>
      refine isPlain_append.mpr ⟨isPlain_ofList (by decide),isPlain_ofList ?_⟩
      cases c <;> decide
    | unassigned l =>
      refine isPlain_append.mpr ⟨isPlain_append.mpr ⟨isPlain_ofList (by decide),isPlain_letter l⟩,?_⟩
      exact isPlain_ofList (by decide)
  | undeclared l a =>
    refine isPlain_append.mpr ⟨isPlain_append.mpr ⟨isPlain_ofList (by decide),isPlain_letter l⟩,?_⟩
    refine isPlain_append.mpr ⟨isPlain_append.mpr ⟨isPlain_ofList (by decide),isPlain_natural _⟩,?_⟩
    exact isPlain_ofList (by decide)
  | unsupportedCount n =>
    refine isPlain_append.mpr ⟨isPlain_append.mpr ⟨isPlain_ofList (by decide),isPlain_natural n⟩,?_⟩
    exact isPlain_ofList (by decide)

end Logic

/-! Faults of functions -/

namespace Calculus

lemma isPlain_token (t : Token) : IsPlain t.text := by
  cases t with
  | number v => exact isPlain_layout _ v
  | routine r => cases r <;> exact isPlain_ofList (by decide)
  | operator o => cases o <;> exact isPlain_ofList (by decide)
  | x | pi | opening | closing | comma => exact isPlain_ofList (by decide)

/-- A fault that repeats no character and no name of the text, but for those without a break. -/
def IsTame : SyntaxError → Prop
  | .unsafeCharacter c _ => c ≠ '\n'
  | .unknownIdentifier name _ => IsPlain name
  | _ => True

lemma isPlain_syntaxMessage {e : SyntaxError} (h : IsTame e) : IsPlain e.message := by
  have hplace (n : ℕ) : IsPlain s!"' at position {n}" :=
    isPlain_append.mpr ⟨isPlain_ofList (by decide),isPlain_natural n⟩
  cases e with
  | unsafeCharacter c n =>
    have hc : IsPlain (String.singleton c) := by simpa [IsPlain] using Ne.symm h
    exact isPlain_append.mpr ⟨isPlain_append.mpr ⟨isPlain_ofList (by decide),hc⟩,hplace n⟩
  | unknownIdentifier name n =>
    exact isPlain_append.mpr ⟨isPlain_append.mpr ⟨isPlain_ofList (by decide),h⟩,hplace n⟩
  | unexpected t n =>
    exact isPlain_append.mpr
      ⟨isPlain_append.mpr ⟨isPlain_ofList (by decide),isPlain_token t⟩,hplace n⟩
  | invalidSymbol n => exact isPlain_append.mpr ⟨isPlain_ofList (by decide),isPlain_natural n⟩
  | missingArgument r =>
    refine isPlain_append.mpr ⟨isPlain_append.mpr ⟨isPlain_ofList (by decide),?_⟩,?_⟩
    · exact isPlain_token (.routine r)
    · exact isPlain_ofList (by decide)
  | missingOperand o =>
    exact isPlain_append.mpr ⟨isPlain_ofList (by decide),isPlain_token (.operator o)⟩
  | unbalanced | empty | malformed => exact isPlain_ofList (by decide)

/-- A line break is no character outside the language. -/
lemma isTame_screen {s : List Char} {e : SyntaxError} (h : screen s = .error e) : IsTame e := by
  unfold screen at h
  split at h
  · cases h
  · rename_i c rest hd
    cases h
    rintro rfl
    have hnot := List.head?_dropWhile_not isAllowed s
    rw [hd,List.head?_cons] at hnot
    exact absurd hnot (by decide)

/-- A name that is not known is made of letters, digits and low lines. -/
lemma isTame_readLexeme {c : Char} {rest : List Char} {position : ℕ} {e : SyntaxError}
    (h : readLexeme position (cut (c :: rest)).1 = .error e) : IsTame e := by
  by_cases hc : isWordStart c = true
  · have hne : c ≠ '.' := by rintro rfl; simp [isWordStart] at hc
    have hcut : (cut (c :: rest)).1 = c :: rest.takeWhile isWordPart := by
      simp [cut,hne,isDigit_of_isWordStart hc,hc]
    rw [hcut,readLexeme_of_isWordStart hc] at h
    unfold readWord at h
    split_ifs at h
    split at h
    · cases h
    · cases h
      refine isPlain_ofList fun hbreak => ?_
      rcases List.mem_cons.mp hbreak with rfl | hbreak
      · exact absurd hc (by decide)
      · exact absurd (List.mem_takeWhile_imp hbreak) (by decide)
  · obtain ⟨d,u,hd⟩ := List.exists_cons_of_ne_nil (cut_fst_ne_nil c rest)
    have happ := cut_append (c :: rest)
    rw [hd,List.cons_append] at happ
    obtain rfl := (List.cons.inj happ).1
    rw [hd] at h
    unfold readLexeme at h
    split at h
    case h_13 _ _ _ _ _ _ _ _ _ _ _ _ _ heq =>
      obtain ⟨rfl,rfl⟩ := List.cons.inj heq
      rw [if_neg hc] at h
      split at h
      · cases h
      · cases h
        trivial
    all_goals cases h
    all_goals trivial

lemma isTame_scan {s : List Char} {before : ℕ} {e : SyntaxError}
    (h : (scan before s).2 = some e) : IsTame e := by
  -- By length, as for the tokens before the fault.
  induction s using (measure List.length).wf.induction generalizing before with
  | h s ih =>
    cases hd : s.dropWhile Text.isBlank with
    | nil => simp [scan_of_blank hd] at h
    | cons c rest =>
      rw [scan_of_dropWhile hd] at h
      split at h
      · rename_i e' hr
        cases h
        exact isTame_readLexeme hr
      · have hlt := length_cut_lt c rest
        have hle := length_dropWhile_le Text.isBlank s
        rw [hd] at hle
        exact ih _ (hlt.trans_le hle) h

lemma isTame_reorder {waiting : List Pending} {operandNext : Bool} {last : Option Operator}
    {ts : List Placed} {e : SyntaxError} (h : reorder waiting operandNext last ts = .error e) :
    IsTame e := by
  have hmap {f : Program → Program} {r : Except SyntaxError Program}
      (hr : r.map f = .error e) : r = .error e := by
    cases r with
    | error e' => exact hr
    | ok p => cases hr
  fun_induction reorder waiting operandNext last ts
  case case5 ih | case7 ih | case9 ih | case18 ih | case22 ih => exact ih (hmap h)
  case case12 ih | case14 ih | case19 ih | case20 ih => exact ih h
  all_goals
    cases h
    try trivial

lemma isTame_tokens {text : String} {e : SyntaxError} (h : tokens text = .error e) : IsTame e := by
  cases hs : screen text.toList with
  | error e' =>
    simp only [tokens,scanText,hs,bind,Except.bind,Except.error.injEq] at h
    subst h
    exact isTame_screen hs
  | ok u =>
    rcases hr : scan 0 text.toList with ⟨ts,_ | e'⟩
    · simp [tokens,scanText,hs,hr,bind,Except.bind,pure,Except.pure] at h
    · simp only [tokens,scanText,hs,hr,bind,Except.bind,pure,Except.pure,Except.error.injEq] at h
      subst h
      exact isTame_scan (congrArg Prod.snd hr)

lemma isTame_ofTokens {ts : List Placed} {e : SyntaxError} (h : Program.ofTokens ts = .error e) :
    IsTame e := by
  cases ts with
  | nil =>
    cases h
    trivial
  | cons t ts =>
    cases hr : reorder [] true none (t :: ts) with
    | error e' =>
      simp only [Program.ofTokens,hr,bind,Except.bind,List.isEmpty_cons,Bool.false_eq_true,↓reduceIte,
        Except.error.injEq] at h
      subst h
      exact isTame_reorder hr
    | ok p =>
      simp only [Program.ofTokens,hr,bind,Except.bind,List.isEmpty_cons,Bool.false_eq_true,
        ↓reduceIte] at h
      split_ifs at h
      · cases h
      · cases h
        trivial

/-- The message of a text that is no function stands on one line. -/
lemma isPlain_compileMessage {text : String} {e : SyntaxError} (h : compile text = .error e) :
    IsPlain e.message := by
  refine isPlain_syntaxMessage ?_
  by_cases hne : trimmed text = ""
  · simp only [compile,hne,throw,throwThe,MonadExceptOf.throw,bind,Except.bind] at h
    cases h
    trivial
  · have hc : compile text = (tokens (trimmed text)).bind fun ts =>
        (Program.ofTokens ts).bind fun p => .ok ⟨trimmed text,p⟩ := by
      simp [compile,hne]
      rfl
    rw [hc] at h
    cases ht : tokens (trimmed text) with
    | error e' =>
      rw [ht] at h
      cases h
      exact isTame_tokens ht
    | ok ts =>
      cases hp : Program.ofTokens ts with
      | error e' =>
        simp only [ht,hp,Except.bind] at h
        cases h
        exact isTame_ofTokens hp
      | ok p =>
        simp only [ht,hp,Except.bind] at h
        cases h

lemma isPlain_finiteMessage {name : String} {v : Float} {e : Error} (hn : IsPlain name)
    (h : requireFinite name v = .error e) : IsPlain e.message := by
  unfold requireFinite at h
  split_ifs at h
  cases h
  exact isPlain_append.mpr ⟨hn,isPlain_ofList (by decide)⟩

lemma isPlain_domainMessage (lo hi : Float) : IsPlain (Error.emptyDomain lo hi).message := by
  refine isPlain_append.mpr ⟨isPlain_append.mpr ⟨?_,isPlain_ofList (by decide)⟩,isPlain_layout _ hi⟩
  exact isPlain_append.mpr ⟨isPlain_ofList (by decide),isPlain_layout _ lo⟩

lemma isPlain_countMessage (n least greatest : ℕ) :
    IsPlain (Error.pointCount n least greatest).message := by
  change IsPlain ("point count " ++ toString n ++ " is outside the allowed range " ++
    toString least ++ "..=" ++ toString greatest)
  simp only [isPlain_append]
  exact ⟨⟨⟨⟨⟨isPlain_ofList (by decide),isPlain_natural n⟩,isPlain_ofList (by decide)⟩,
    isPlain_natural least⟩,isPlain_ofList (by decide)⟩,isPlain_natural greatest⟩

lemma isPlain_gridMessage {lo hi : Float} {points : ℕ} {settings : Settings} {e : Error}
    (h : requireGrid lo hi points settings = .error e) : IsPlain e.message := by
  simp only [requireGrid,bind,bind_eq_error_iff] at h
  rcases h with h | ⟨-,-,h | ⟨-,-,h⟩⟩
  · exact isPlain_finiteMessage (isPlain_ofList (by decide)) h
  · exact isPlain_finiteMessage (isPlain_ofList (by decide)) h
  · split_ifs at h
    · cases h
      exact isPlain_domainMessage lo hi
    · cases h
      exact isPlain_domainMessage lo hi
    · cases h
      exact isPlain_countMessage points leastPoints settings.maxPoints
    · cases h

lemma isPlain_sampleMessage {f : Compiled} {lo hi : Float} {points : ℕ} {settings : Settings}
    {e : Error} (h : f.sample lo hi points settings = .error e) : IsPlain e.message := by
  rcases bind_eq_error_iff.mp h with h | ⟨-,-,h⟩
  · exact isPlain_gridMessage h
  · cases h

/-- What is wrong with the numbers of an analysis is told by fixed names and by numbers. -/
lemma isPlain_analyzeMessage {f : Compiled} {p : Parameters} {settings : Settings} {e : Error}
    (h : f.analyze p settings = .error e) : IsPlain e.message := by
  simp only [Compiled.analyze,bind,bind_eq_error_iff] at h
  rcases h with h | ⟨-,-,h | ⟨-,-,h | ⟨-,-,h | ⟨samples,-,h⟩⟩⟩⟩
  · exact isPlain_finiteMessage (isPlain_ofList (by decide)) h
  · exact isPlain_finiteMessage (isPlain_ofList (by decide)) h
  · exact isPlain_finiteMessage (isPlain_ofList (by decide)) h
  · exact isPlain_sampleMessage h
  · cases h

end Calculus

namespace Session

lemma isPlain_requireFinite {field : String} {v : Float} {r : Rejection} (hf : IsPlain field)
    (h : requireFinite field v = .error r) : IsPlain r.message := by
  unfold requireFinite at h
  split_ifs at h
  cases h
  exact isPlain_append.mpr ⟨hf,isPlain_ofList (by decide)⟩

lemma isPlain_requirePoints {least greatest given : ℕ} {r : Rejection}
    (h : requirePoints least greatest given = .error r) : IsPlain r.message := by
  unfold requirePoints at h
  split_ifs at h
  cases h
  change IsPlain ("points must be between " ++ toString least ++ " and " ++ toString greatest ++
    " (got " ++ toString given ++ ")")
  simp only [isPlain_append]
  exact ⟨⟨⟨⟨⟨⟨isPlain_ofList (by decide),isPlain_natural least⟩,isPlain_ofList (by decide)⟩,
    isPlain_natural greatest⟩,isPlain_ofList (by decide)⟩,isPlain_natural given⟩,
    isPlain_ofList (by decide)⟩

/-- Numbers of an analysis that are refused are told as numbers. -/
lemma isPlain_requireParameters {least greatest : ℕ} {p : Calculus.Parameters} {r : Rejection}
    (h : requireParameters least greatest p = .error r) : IsPlain r.message := by
  simp only [requireParameters,bind,bind_eq_error_iff] at h
  rcases h with h | ⟨-,-,h | ⟨-,-,h | ⟨-,-,h | ⟨-,-,h | ⟨-,-,h⟩⟩⟩⟩⟩
  · exact isPlain_requireFinite (isPlain_ofList (by decide)) h
  · exact isPlain_requireFinite (isPlain_ofList (by decide)) h
  · exact isPlain_requireFinite (isPlain_ofList (by decide)) h
  · exact isPlain_requireFinite (isPlain_ofList (by decide)) h
  · exact isPlain_requireFinite (isPlain_ofList (by decide)) h
  · split_ifs at h
    · cases h
      change IsPlain ("xMin must be less than xMax (got " ++ Decimal.Layout.plain.text p.xMin ++
        " and " ++ Decimal.Layout.plain.text p.xMax ++ ")")
      simp only [isPlain_append]
      exact ⟨⟨⟨⟨isPlain_ofList (by decide),isPlain_layout _ _⟩,isPlain_ofList (by decide)⟩,
        isPlain_layout _ _⟩,isPlain_ofList (by decide)⟩
    · rcases bind_eq_error_iff.mp h with h | ⟨-,-,h⟩
      · exact isPlain_requirePoints h
      · cases h

/-- An analysis that fails says so on one line. -/
lemma isPlain_analysedMessage {config : Config} {expression : String} {p : Calculus.Parameters}
    {e : Fault} (h : analysedOf config expression p = .error e) : IsPlain e.message := by
  simp only [analysedOf,bind,bind_eq_error_iff,mapError_eq_error_iff] at h
  rcases h with ⟨r,h,rfl⟩ | ⟨_,-,⟨r,h,rfl⟩ | ⟨_,-,⟨e,h,rfl⟩ | ⟨f,-,⟨e,h,rfl⟩ | ⟨a,-,h⟩⟩⟩⟩
  · unfold requireText at h
    split_ifs at h
    cases h
    change IsPlain ("f(x)" ++ " must not be empty")
    exact isPlain_append.mpr ⟨isPlain_ofList (by decide),isPlain_ofList (by decide)⟩
  · exact isPlain_requireParameters h
  · unfold Calculus.Compiled.ofText at h
    split at h
    · cases h
    · rename_i e' hcompile
      cases h
      exact Calculus.isPlain_compileMessage hcompile
  · exact Calculus.isPlain_analyzeMessage h
  · cases h

end Session
end Formulary
