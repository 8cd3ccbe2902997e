import Formulary.Proofs.Json.Numerals
import Formulary.Proofs.Text.Quotes
import Formulary.Script.Logic
import Formulary.Script.Sets
import Formulary.Script.Function

/-! The lines of a script. Whatever is computed, the script of a kind has the same line breaks, except
for those inside the literals that carry what a user typed: these are written as they are. -/
namespace Formulary.Script

/-- A text without a line break. -/
def IsPlain (s : String) : Prop := '\n' ∉ s.toList

/-- Every line is ended by a line break, so these are counted. -/
def Document.lineCount (d : Document) : ℕ := d.text.toList.count '\n'

/-- Literals that stand in a text, in order, and how many line breaks stand outside them. Whatever
comes behind the text, reading a literal gives what it carries and stops where it was closed. -/
inductive Carries : List Char → List String → ℕ → Prop
  | plain (s : List Char) : Carries s [] (s.count '\n')
  | literal (before : List Char) (t : String) {after ts n}
      (closed : ∀ more, Text.readLiteral? (Text.literal t.toList ++ (after ++ more)) =
        some (t.toList,after ++ more)) (rest : Carries after ts n) :
      Carries (before ++ (Text.literal t.toList ++ after)) (t :: ts) (before.count '\n' + n)

variable {s s' : List Char} {ts ts' : List String} {n n' : ℕ}

lemma Carries.append_left (h : Carries s ts n) (front : List Char) :
    Carries (front ++ s) ts (front.count '\n' + n) := by
  cases h with
  | plain => simpa [List.count_append] using Carries.plain (front ++ s)
  | literal before t closed rest =>
    rw [← List.append_assoc,← Nat.add_assoc,← List.count_append]
    exact .literal (front ++ before) t closed rest

lemma Carries.append (h : Carries s ts n) (h' : Carries s' ts' n') :
    Carries (s ++ s') (ts ++ ts') (n + n') := by
  induction h with
  | plain s => exact h'.append_left s
  | @literal before t after ts n closed rest ih =>
    rw [List.append_assoc,List.append_assoc,List.cons_append,Nat.add_assoc]
    refine .literal before t (fun more => ?_) ih
    rw [List.append_assoc]
    exact closed (s' ++ more)

/-- The line breaks of a text are those outside its literals and those of what they carry. -/
lemma Carries.count (h : Carries s ts n) :
    s.count '\n' = n + (ts.flatMap String.toList).count '\n' := by
  induction h with
  | plain s => rfl
  | literal before t closed rest ih =>
    rw [List.count_append,List.count_append,Text.count_literal (by decide),ih,List.flatMap_cons,
      List.count_append]
    omega

lemma carries_literal (t : String) (h : Carries s ts n)
    (hs : s.head?.any (· != '\'') = true) : Carries (Text.literal t.toList ++ s) (t :: ts) n := by
  have hclosed (more : List Char) : Text.readLiteral? (Text.literal t.toList ++ (s ++ more)) =
      some (t.toList,s ++ more) := by
    refine Text.readLiteral?_literal ?_ t.toList
    cases s with
    | nil => simp at hs
    | cons c s => simpa using hs
  simpa using Carries.literal [] t hclosed h

/-! Lines -/

/-- Lines, each ended by a line break. -/
def chars (lines : List String) : List Char := lines.flatMap fun l => l.toList ++ ['\n']

lemma chars_cons (l : String) (ls : List String) : chars (l :: ls) = l.toList ++ '\n' :: chars ls := by
  simp [chars]

lemma chars_append (ls ls' : List String) : chars (ls ++ ls') = chars ls ++ chars ls' :=
  List.flatMap_append

/-- Breaking a block into lines changes nothing. -/
lemma chars_intercalate {ls : List String} (h : ls ≠ []) : chars ["\n".intercalate ls] = chars ls := by
  induction ls with
  | nil => exact absurd rfl h
  | cons l ls ih =>
    cases ls with
    | nil => simp
    | cons l' ls =>
      rw [chars_cons l,← ih (by simp),String.intercalate_cons_cons]
      simp [chars]

lemma Document.toList_text {d : Document} (h : d.lines ≠ []) : d.text.toList = chars d.lines := by
  rw [← chars_intercalate h]
  simp [text,chars]

lemma Carries.line {l : String} {ls : List String} (h : Carries l.toList ts n)
    (h' : Carries (chars ls) ts' n') : Carries (chars (l :: ls)) (ts ++ ts') (n + (n' + 1)) := by
  rw [chars_cons]
  have hbreak := h'.append_left ['\n']
  rw [show ['\n'].count '\n' = 1 from rfl,Nat.add_comm 1] at hbreak
  exact h.append hbreak

lemma carries_isPlain {l : String} (h : IsPlain l) : Carries l.toList [] 0 := by
  rw [← List.count_eq_zero_of_not_mem h]
  exact .plain _

lemma carries_plainLine {l : String} {ls : List String} (hl : IsPlain l)
    (h : Carries (chars ls) ts n) : Carries (chars (l :: ls)) ts (n + 1) := by
  have hline := (carries_isPlain hl).line h
  rwa [Nat.zero_add] at hline

lemma carries_plainLines {ls : List String} (h : ∀ l ∈ ls, IsPlain l) :
    Carries (chars ls) [] ls.length := by
  induction ls with
  | nil => exact .plain []
  | cons l ls ih =>
    rw [List.forall_mem_cons] at h
    exact carries_plainLine h.1 (ih h.2)

lemma carries_quoted {front back : String} (t : String) (hf : IsPlain front) (hb : IsPlain back)
    (hq : back.toList.head?.any (· != '\'') = true) :
    Carries (front ++ quoted t ++ back).toList [t] 0 := by
  have h := (carries_literal t (carries_isPlain hb) hq).append_left front.toList
  rw [List.count_eq_zero_of_not_mem hf] at h
  simpa [quoted] using h

/-! What is not quoted is plain -/

/-- The characters of a fixed text are looked at, so that none has to be decoded. -/
lemma isPlain_ofList {l : List Char} (h : '\n' ∉ l) : IsPlain (String.ofList l) := by
  rwa [IsPlain,String.toList_ofList]

lemma isPlain_append {l l' : String} : IsPlain (l ++ l') ↔ IsPlain l ∧ IsPlain l' := by
  simp [IsPlain]

/-- A literal is closed on the line where it is opened if its text has no line break. -/
lemma isPlain_quoted {t : String} : IsPlain (quoted t) ↔ IsPlain t := by
  rw [IsPlain,quoted,String.toList_ofList,← List.count_eq_zero,Text.count_literal (by decide),
    List.count_eq_zero,IsPlain]

lemma isPlain_intercalate {ls : List String} (h : ∀ l ∈ ls, IsPlain l) :
    IsPlain (", ".intercalate ls) := by
  induction ls with
  | nil => exact isPlain_ofList (by decide)
  | cons l ls ih =>
    cases ls with
    | nil => simpa using h
    | cons l' ls =>
      rw [List.forall_mem_cons] at h
      rw [String.intercalate_cons_cons,isPlain_append,isPlain_append]
      exact ⟨⟨h.1,isPlain_ofList (by decide)⟩,ih h.2⟩

lemma isPlain_natural (n : ℕ) : IsPlain (toString n) := by
  intro h
  rw [show toString n = n.repr from rfl,Nat.repr_eq_ofList_toDigits,String.toList_ofList] at h
  exact absurd (Nat.isDigit_of_mem_toDigits (by decide) (by decide) h) (by decide)

lemma isPlain_numberLiteral (v : Float) : IsPlain (numberLiteral v) := by
  have hnumber : IsPlain (Decimal.Layout.plain.text v) := by
    refine isPlain_ofList fun h => ?_
    exact absurd ((Json.chars_spec .plain v).2 _ h) (by decide)
  unfold numberLiteral Sets.numberText
  split_ifs
  · exact isPlain_ofList (by decide)
  · exact isPlain_ofList (by decide)
  · exact hnumber
  · exact isPlain_ofList (by decide)
  · exact isPlain_ofList (by decide)

lemma isPlain_popText {stack : List String} (h : ∀ l ∈ stack, IsPlain l) :
    IsPlain (popText stack).1 ∧ ∀ l ∈ (popText stack).2, IsPlain l := by
  cases stack with
  | nil => exact ⟨isPlain_ofList (by decide),h⟩
  | cons l stack => exact List.forall_mem_cons.mp h

/-- An instruction writes no line break. -/
lemma isPlain_writeStep (i : Calculus.Instruction) {stack : List String}
    (h : ∀ l ∈ stack, IsPlain l) : ∀ l ∈ writeStep i stack, IsPlain l := by
  obtain ⟨htop,hbelow⟩ := isPlain_popText h
  have hopen : IsPlain "(" := isPlain_ofList (by decide)
  have hclose : IsPlain ")" := isPlain_ofList (by decide)
  cases i with
  | number v => exact List.forall_mem_cons.mpr ⟨isPlain_numberLiteral v,h⟩
  | x | pi => exact List.forall_mem_cons.mpr ⟨isPlain_ofList (by decide),h⟩
  | negate =>
    refine List.forall_mem_cons.mpr ⟨?_,hbelow⟩
    simp only [isPlain_append]
    exact ⟨⟨isPlain_ofList (by decide),htop⟩,hclose⟩
  | call r =>
    have hname : IsPlain r.name := by cases r <;> exact isPlain_ofList (by decide)
    refine List.forall_mem_cons.mpr ⟨?_,hbelow⟩
    simp only [isPlain_append]
    exact ⟨⟨⟨hname,hopen⟩,htop⟩,hclose⟩
  | binary o =>
    obtain ⟨hleft,hrest⟩ := isPlain_popText hbelow
    have hsign : IsPlain (elementwise o) := by cases o <;> exact isPlain_ofList (by decide)
    have hspace : IsPlain " " := isPlain_ofList (by decide)
    refine List.forall_mem_cons.mpr ⟨?_,hrest⟩
    simp only [isPlain_append]
    exact ⟨⟨⟨⟨⟨⟨hopen,hleft⟩,hspace⟩,hsign⟩,hspace⟩,htop⟩,hclose⟩

lemma isPlain_vectorized (p : Calculus.Program) : IsPlain (vectorized p) := by
  have hrun (stack : List String) (h : ∀ l ∈ stack, IsPlain l) :
      ∀ l ∈ p.foldl (fun stack i => writeStep i stack) stack, IsPlain l := by
    induction p generalizing stack with
    | nil => exact h
    | cons i p ih => exact ih _ (isPlain_writeStep i h)
  exact (isPlain_popText (hrun [] (by simp))).1

lemma isPlain_vectorLiteral (e : Sets.FiniteSet) : IsPlain (vectorLiteral e) := by
  unfold vectorLiteral
  split_ifs
  · exact isPlain_ofList (by decide)
  · have hnumbers : ∀ l ∈ (e.elements.filterMap Sets.Element.number?).map numberLiteral,
        IsPlain l := by
      intro l hl
      obtain ⟨v,-,rfl⟩ := List.mem_map.mp hl
      exact isPlain_numberLiteral v
    simp only [isPlain_append]
    exact ⟨⟨isPlain_ofList (by decide),isPlain_intercalate hnumbers⟩,isPlain_ofList (by decide)⟩

lemma isPlain_analysisLines (f : Calculus.Compiled) (p : Calculus.Parameters)
    (settings : Calculus.Settings) : ∀ l ∈ analysisLines f p settings, IsPlain l := by
  simp only [analysisLines,List.forall_mem_cons,isPlain_append,isPlain_numberLiteral,
    isPlain_natural,isPlain_vectorized,and_true,and_assoc]
  repeat refine ⟨isPlain_ofList (by decide),?_⟩
  exact List.forall_mem_nil _

lemma isPlain_overlayLines (p : Calculus.Parameters) : ∀ l ∈ overlayLines p, IsPlain l := by
  unfold overlayLines
  split_ifs
  all_goals
    repeat refine List.forall_mem_cons.mpr ⟨isPlain_ofList (by decide),?_⟩
    exact List.forall_mem_nil _

lemma length_overlayLines (p : Calculus.Parameters) : (overlayLines p).length =
    (if p.showTangent then 2 else 0) + if p.showArea then 4 else 0 := by
  unfold overlayLines
  split_ifs <;> rfl

/-! Operands -/

/-- What the operands of one script carry: nothing if all of them are written as numbers. -/
def carriedTexts (operands : List Sets.FiniteSet) : List String :=
  if isNumericMode operands then [] else operands.flatMap Sets.FiniteSet.texts

lemma carriedTexts_eq (operands : List Sets.FiniteSet) :
    carriedTexts operands =
      operands.flatMap fun e => if isNumericMode operands then [] else e.texts := by
  unfold carriedTexts
  split <;> simp

/-- Literals behind one another with commas between them. -/
lemma carries_cells {texts : List String} (ht : texts ≠ []) (h : Carries s ts n)
    (hs : s.head?.any (· != '\'') = true) :
    Carries ((", ".intercalate (texts.map quoted)).toList ++ s) (texts ++ ts) n := by
  induction texts with
  | nil => exact absurd rfl ht
  | cons t texts ih =>
    cases texts with
    | nil => simpa [quoted] using carries_literal t h hs
    | cons t' texts =>
      have hmore := (ih (by simp)).append_left (", ").toList
      have hfirst := carries_literal t hmore rfl
      rw [List.map_cons,List.map_cons,String.intercalate_cons_cons,← List.map_cons]
      simpa [quoted] using hfirst

lemma carries_cellLiteral (e : Sets.FiniteSet) :
    Carries ((cellLiteral e).toList ++ [';']) e.texts 0 := by
  unfold cellLiteral
  split_ifs with he
  · have hnone : e.texts = [] := by
      rw [Sets.FiniteSet.texts,List.isEmpty_iff.mp he]
      rfl
    rw [hnone]
    exact .plain ("cell(1, 0)".toList ++ [';'])
  · have hsome : e.texts ≠ [] := by
      rw [Sets.FiniteSet.texts]
      exact fun h => he (List.isEmpty_iff.mpr (List.map_eq_nil_iff.mp h))
    have hcells := (carries_cells hsome (.plain ['\x7d',';']) rfl).append_left ['\x7b']
    simpa using hcells

/-- The line that gives an operand its value. -/
lemma carries_operandLine {front : String} {ls : List String} (numeric : Bool)
    (e : Sets.FiniteSet) (hf : IsPlain front) (h : Carries (chars ls) ts n) :
    Carries (chars ((front ++ operandLiteral numeric e ++ ";") :: ls))
      ((if numeric then [] else e.texts) ++ ts) (n + 1) := by
  cases numeric with
  | true =>
    refine carries_plainLine ?_ h
    simp only [isPlain_append]
    exact ⟨⟨hf,isPlain_vectorLiteral e⟩,isPlain_ofList (by decide)⟩
  | false =>
    have hcells := (carries_cellLiteral e).append_left front.toList
    rw [List.count_eq_zero_of_not_mem hf] at hcells
    have hline : Carries (front ++ operandLiteral false e ++ ";").toList e.texts 0 := by
      simpa [operandLiteral] using hcells
    have hlines := hline.line h
    rwa [Nat.zero_add] at hlines

/-! The scripts of the five kinds -/

/-- How many lines a script has whatever its literals carry. -/
def ownLines (kind : Kind) (showTangent showArea : Bool) : ℕ :=
  match kind with
  | .truthTable => 122
  | .equivalence => 132
  | .setOperation => 8
  | .complements => 13
  | .function => 61 + (if showTangent then 2 else 0) + (if showArea then 4 else 0)

lemma carries_formulaHelperTail : Carries (chars formulaHelperTail) [] 112 := by
  have hblock : Carries (chars [formulaHelper]) [] 110 := by
    rw [formulaHelper,chars_intercalate (by simp [formulaHelperLines])]
    repeat refine carries_plainLine (isPlain_ofList (by decide +kernel)) ?_
    exact .plain []
  exact carries_plainLine (isPlain_ofList (by decide))
    (carries_plainLine (isPlain_ofList (by decide)) hblock)

lemma carries_assignmentLines (a : Logic.Alphabet) : Carries (chars (assignmentLines a)) [] 3 := by
  have hnames : ∀ t ∈ a.letters.map fun l => quoted l.text, IsPlain t := by
    intro t ht
    obtain ⟨l,-,rfl⟩ := List.mem_map.mp ht
    exact isPlain_quoted.mpr (by cases l <;> exact isPlain_ofList (by decide))
  refine carries_plainLine ?_ (carries_plainLine ?_ (carries_plainLine ?_ (.plain [])))
  · simp only [isPlain_append]
    exact ⟨⟨isPlain_ofList (by decide),isPlain_intercalate hnames⟩,isPlain_ofList (by decide)⟩
  · simp only [isPlain_append]
    exact ⟨⟨isPlain_ofList (by decide),isPlain_natural a.size⟩,isPlain_ofList (by decide)⟩
  · exact isPlain_ofList (by decide)

/-- A line that gives a variable a text. -/
lemma carries_textLine {front t : String} {ls : List String} (hf : IsPlain front)
    (h : Carries (chars ls) ts n) : Carries (chars ((front ++ quoted t ++ ";") :: ls)) (t :: ts)
      (n + 1) := by
  have hline : Carries (front ++ quoted t ++ ";").toList [t] 0 :=
    carries_quoted t hf (isPlain_ofList (by decide)) rfl
  have hlines := hline.line h
  rwa [Nat.zero_add] at hlines

/-- Logic scripts: two texts are given, the assignment matrix is built, something is done with it. -/
lemma carries_logicLines (a : Logic.Alphabet) {title front front' : String} (t t' : String)
    {body : List String} (htitle : IsPlain title) (hf : IsPlain front) (hf' : IsPlain front')
    (hbody : ∀ l ∈ body, IsPlain l) :
    Carries (chars ([title,front ++ quoted t ++ ";",front' ++ quoted t' ++ ";"] ++
      assignmentLines a ++ body ++ formulaHelperTail)) [t,t'] (3 + (3 + (body.length + 112))) := by
  have htexts : Carries (chars [title,front ++ quoted t ++ ";",front' ++ quoted t' ++ ";"])
      [t,t'] 3 :=
    carries_plainLine htitle (carries_textLine hf (carries_textLine hf' (.plain [])))
  have h := htexts.append ((carries_assignmentLines a).append
    ((carries_plainLines hbody).append carries_formulaHelperTail))
  rw [chars_append,chars_append,chars_append,List.append_assoc,List.append_assoc]
  exact h

lemma carries_ofTable (t : Logic.Table) :
    Carries (ofTable t).text.toList [t.expression,t.resultHeader]
      (ownLines .truthTable false false) := by
  rw [Document.toList_text (by simp [ofTable])]
  refine carries_logicLines t.alphabet _ _ (isPlain_ofList (by decide)) (isPlain_ofList (by decide))
    (isPlain_ofList (by decide)) ?_
  repeat refine List.forall_mem_cons.mpr ⟨isPlain_ofList (by decide),?_⟩
  exact List.forall_mem_nil _

lemma carries_ofEquivalence (e : Logic.Equivalence) :
    Carries (ofEquivalence e).text.toList [e.left,e.right] (ownLines .equivalence false false) := by
  rw [Document.toList_text (by simp [ofEquivalence])]
  refine carries_logicLines e.alphabet _ _ (isPlain_ofList (by decide)) (isPlain_ofList (by decide))
    (isPlain_ofList (by decide)) ?_
  repeat refine List.forall_mem_cons.mpr ⟨isPlain_ofList (by decide),?_⟩
  exact List.forall_mem_nil _

lemma carries_ofOperation (r : Sets.OperationResult) :
    Carries (ofOperation r).text.toList (carriedTexts [r.a,r.b])
      (ownLines .setOperation false false) := by
  rw [Document.toList_text (by simp [ofOperation]),carriedTexts_eq]
  simp only [ofOperation,List.flatMap_cons,List.flatMap_nil]
  refine carries_plainLine (isPlain_ofList (by decide))
    (carries_operandLine _ _ (isPlain_ofList (by decide))
      (carries_operandLine _ _ (isPlain_ofList (by decide)) ?_))
  have hlabel : IsPlain (quoted (r.operation.label ++ ":")) := by
    refine isPlain_quoted.mpr (isPlain_append.mpr ⟨?_,isPlain_ofList (by decide)⟩)
    cases r.operation <;> exact isPlain_ofList (by decide)
  refine carries_plainLine ?_ (carries_plainLine (isPlain_ofList (by decide))
    (carries_plainLine ?_ ?_))
  · cases r.operation <;> exact isPlain_ofList (by decide)
  · simp only [isPlain_append]
    exact ⟨⟨isPlain_ofList (by decide),hlabel⟩,isPlain_ofList (by decide)⟩
  · repeat refine carries_plainLine (isPlain_ofList (by decide)) ?_
    exact .plain []

lemma carries_ofComplements (c : Sets.Complements) :
    Carries (ofComplements c).text.toList (carriedTexts [c.whole,c.a,c.b])
      (ownLines .complements false false) := by
  rw [Document.toList_text (by simp [ofComplements]),carriedTexts_eq]
  simp only [ofComplements,List.flatMap_cons,List.flatMap_nil]
  refine carries_plainLine (isPlain_ofList (by decide))
    (carries_operandLine _ _ (isPlain_ofList (by decide))
      (carries_operandLine _ _ (isPlain_ofList (by decide))
        (carries_operandLine _ _ (isPlain_ofList (by decide)) ?_)))
  repeat refine carries_plainLine (isPlain_ofList (by decide)) ?_
  exact .plain []

lemma carries_ofFunction (f : Calculus.Compiled) (p : Calculus.Parameters)
    (settings : Calculus.Settings) :
    Carries (ofFunction f p settings).text.toList ["f(x) = " ++ f.source]
      (ownLines .function p.showTangent p.showArea) := by
  rw [Document.toList_text (by simp [ofFunction])]
  have hhelper : Carries (chars [sampleHelper]) [] 10 := by
    rw [sampleHelper,chars_intercalate (by simp [sampleHelperLines])]
    repeat refine carries_plainLine (isPlain_ofList (by decide)) ?_
    exact .plain []
  have htitle : Carries (chars ["title(" ++ quoted ("f(x) = " ++ f.source) ++ ");",
      "xlabel('x'); ylabel('f(x)'); hold off;","","% ===== Local functions =====",sampleHelper])
      ["f(x) = " ++ f.source] 14 := by
    have hline : Carries ("title(" ++ quoted ("f(x) = " ++ f.source) ++ ");").toList
        ["f(x) = " ++ f.source] 0 :=
      carries_quoted _ (isPlain_ofList (by decide)) (isPlain_ofList (by decide)) rfl
    exact hline.line (carries_plainLine (isPlain_ofList (by decide))
      (carries_plainLine (isPlain_ofList (by decide))
        (carries_plainLine (isPlain_ofList (by decide)) hhelper)))
  have h := (carries_plainLines (isPlain_analysisLines f p settings)).append
    ((carries_plainLines (isPlain_overlayLines p)).append htitle)
  have hcount : (analysisLines f p settings).length + ((overlayLines p).length + 14) =
      ownLines .function p.showTangent p.showArea := by
    rw [length_overlayLines,show (analysisLines f p settings).length = 47 from rfl,ownLines]
    omega
  rw [hcount,← chars_append,← chars_append,← List.append_assoc] at h
  exact h

end Formulary.Script
