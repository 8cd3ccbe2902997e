import Formulary.Proofs.Script.Lines
import Formulary.Proofs.Script.Literals
import Formulary.Proofs.Text.Pieces
import Formulary.Proofs.Text.Trimming

/-! Reading the operands of set scripts. A row of numbers stands in brackets, a row of texts in braces,
and an empty row of either kind is made by a call. What is read is what was written. -/
namespace Formulary.Script
open Sets

/-- What the literal of an operand stands for. -/
inductive Operand
  | vector (numbers : List Float)
  | cells (texts : List String)

/-- Numbers between commas, with or without blanks around them. -/
def readNumbers? (s : List Char) : Option (List Float) :=
  (Text.pieces ',' s).mapM fun piece => Decimal.readChars? (Text.trim piece)

lemma length_readInside?_lt {s : List Char} {r : List Char × List Char}
    (h : Text.readInside? s = some r) : r.2.length < s.length := by
  induction s using Text.readInside?.induct generalizing r with
  | case1 => cases h
  | case2 rest ih =>
    rw [Text.readInside?] at h
    obtain ⟨r',hr',rfl⟩ := Option.map_eq_some_iff.mp h
    have := ih hr'
    simp only [List.length_cons]
    omega
  | case3 rest hne =>
    rw [Text.readInside?.eq_3 _ _ hne,if_pos rfl] at h
    cases h
    exact Nat.lt_succ_self _
  | case4 c rest hne hc ih =>
    rw [Text.readInside?.eq_3 _ _ hne,if_neg hc] at h
    obtain ⟨r',hr',rfl⟩ := Option.map_eq_some_iff.mp h
    simpa using Nat.lt_succ_of_lt (ih hr')

/-- Reading a literal uses up some of the text. -/
lemma length_readLiteral?_lt {s : List Char} {r : List Char × List Char}
    (h : Text.readLiteral? s = some r) : r.2.length < s.length := by
  unfold Text.readLiteral? at h
  split at h
  · exact Nat.lt_succ_of_lt (length_readInside?_lt h)
  · cases h

/-- Literals between commas, up to the brace that closes them. -/
def readCells? (s : List Char) : Option (List String × List Char) :=
  match _h : Text.readLiteral? s with
  | some (t,'\x7d' :: rest) => some ([String.ofList t],rest)
  | some (t,',' :: ' ' :: rest) =>
    (readCells? rest).map fun r => (String.ofList t :: r.1,r.2)
  | _ => none
termination_by s.length
decreasing_by
  have := length_readLiteral?_lt _h
  simp only [List.length_cons] at this
  omega

/-- A call that makes an empty row. -/
def readEmpty? (s : List Char) : Option (Operand × List Char) :=
  match s.dropPrefix? "zeros(1, 0)".toList with
  | some rest => some (.vector [],rest)
  | none => (s.dropPrefix? "cell(1, 0)".toList).map fun rest => (.cells [],rest)

/-- An operand's literal at the front of a text, and what follows it. -/
def readOperand? : List Char → Option (Operand × List Char)
  | '[' :: s =>
    match s.dropWhile (· != ']') with
    | [] => none
    | _ :: rest => (readNumbers? (s.takeWhile (· != ']'))).map fun numbers => (.vector numbers,rest)
  | '\x7b' :: s => (readCells? s).map fun r => (.cells r.1,r.2)
  | s => readEmpty? s

/-! Rows of numbers -/

lemma inNumber_of_mem_numberText {v : Float} {c : Char} (h : c ∈ (numberText v).toList) :
    Json.inNumber c = true := by
  unfold numberText at h
  split_ifs at h
  · obtain rfl : c = '0' := by simpa using h
    rfl
  · rw [Decimal.Layout.text,String.toList_ofList] at h
    exact (Json.chars_spec .plain v).2 c h

lemma isBlank_of_inNumber {c : Char} (h : Json.inNumber c = true) : Text.isBlank c = false := by
  simp only [Json.inNumber,Bool.or_eq_true,beq_iff_eq] at h
  rcases h with ((h | rfl) | rfl) | rfl
  · exact Text.isBlank_of_isAlphanum h
  · rfl
  · rfl
  · rfl

lemma not_mem_numberText {v : Float} {c : Char} (hc : Json.inNumber c = false) :
    c ∉ (numberText v).toList := by
  intro h
  rw [inNumber_of_mem_numberText h] at hc
  cases hc

lemma trim_numberText (v : Float) : Text.trim (numberText v).toList = (numberText v).toList := by
  refine Text.trim_eq_self (fun c hc => ?_) (fun c hc => ?_)
  · exact isBlank_of_inNumber (inNumber_of_mem_numberText (List.mem_of_mem_head? hc))
  · exact isBlank_of_inNumber (inNumber_of_mem_numberText (List.mem_of_getLast? hc))

/-- A number that is written as a literal and read back from it. -/
def IsWritten (v : Float) : Prop :=
  v.isFinite = true ∧ Decimal.readChars? (numberText v).toList = some v

lemma numberLiteral_of_isFinite {v : Float} (h : v.isFinite = true) :
    numberLiteral v = numberText v := by
  simp only [numberLiteral,isNaN_of_isFinite h,h,Bool.false_eq_true,↓reduceIte]

lemma mapM_readChars?_numberLiteral {numbers : List Float} (h : ∀ v ∈ numbers, IsWritten v) :
    (numbers.map fun v => Text.trim (numberLiteral v).toList).mapM Decimal.readChars? =
      some numbers := by
  induction numbers with
  | nil => rfl
  | cons v numbers ih =>
    rw [List.forall_mem_cons] at h
    rw [List.map_cons,List.mapM_cons,ih h.2,numberLiteral_of_isFinite h.1.1,trim_numberText,h.1.2]
    rfl

/-- A row of numbers is read back. -/
lemma readNumbers?_intercalate {numbers : List Float} (hne : numbers ≠ [])
    (h : ∀ v ∈ numbers, IsWritten v) :
    readNumbers? (", ".intercalate (numbers.map numberLiteral)).toList = some numbers := by
  have hcomma : ∀ t ∈ numbers.map numberLiteral, ',' ∉ t.toList := by
    intro t ht
    obtain ⟨v,hv,rfl⟩ := List.mem_map.mp ht
    rw [numberLiteral_of_isFinite (h v hv).1]
    exact not_mem_numberText rfl
  have hpieces := @Text.map_trim_pieces _ (by simpa using hne) hcomma [] [] (by simp) (by simp)
  rw [List.nil_append,List.append_nil,List.map_map] at hpieces
  have hmap (s : List Char) :
      readNumbers? s = ((Text.pieces ',' s).map Text.trim).mapM Decimal.readChars? := by
    rw [List.mapM_map]
    rfl
  rw [hmap,hpieces]
  exact mapM_readChars?_numberLiteral h

lemma not_mem_intercalate_numberLiteral {numbers : List Float} (h : ∀ v ∈ numbers, IsWritten v)
    {c : Char} (hc : Json.inNumber c = false) (hsep : c ≠ ',' ∧ c ≠ ' ') :
    c ∉ (", ".intercalate (numbers.map numberLiteral)).toList := by
  induction numbers with
  | nil => simp
  | cons v numbers ih =>
    rw [List.forall_mem_cons] at h
    cases numbers with
    | nil => simpa [numberLiteral_of_isFinite h.1.1] using not_mem_numberText hc
    | cons w numbers =>
      rw [List.map_cons,List.map_cons,String.intercalate_cons_cons,← List.map_cons,String.toList_append,
        String.toList_append,numberLiteral_of_isFinite h.1.1,List.mem_append,List.mem_append]
      rintro ((hv | hcomma) | hrest)
      · exact not_mem_numberText hc hv
      · simp_all
      · exact ih h.2 hrest

/-! Rows of texts -/

lemma readCells?_last (t : String) (rest : List Char) :
    readCells? ((quoted t).toList ++ '\x7d' :: rest) = some ([t],rest) := by
  have h : Text.readLiteral? (Text.literal t.toList ++ '\x7d' :: rest) = some (t.toList,'\x7d' :: rest) :=
    Text.readLiteral?_literal (by simp) t.toList
  rw [readCells?,quoted,String.toList_ofList,h]
  simp

lemma readCells?_cons (t : String) {s rest : List Char} {ts : List String}
    (hs : readCells? s = some (ts,rest)) :
    readCells? ((quoted t).toList ++ ',' :: ' ' :: s) = some (t :: ts,rest) := by
  have h : Text.readLiteral? (Text.literal t.toList ++ ',' :: ' ' :: s) =
      some (t.toList,',' :: ' ' :: s) :=
    Text.readLiteral?_literal (by simp) t.toList
  rw [readCells?,quoted,String.toList_ofList,h]
  simp [hs]

/-- A row of texts is read back, whatever they hold. -/
lemma readCells?_intercalate {texts : List String} (hne : texts ≠ []) (rest : List Char) :
    readCells? ((", ".intercalate (texts.map quoted)).toList ++ '\x7d' :: rest) =
      some (texts,rest) := by
  induction texts with
  | nil => exact absurd rfl hne
  | cons t texts ih =>
    cases texts with
    | nil => simpa using readCells?_last t rest
    | cons t' texts =>
      have h := readCells?_cons t (ih (by simp))
      rw [List.map_cons,List.map_cons,String.intercalate_cons_cons,← List.map_cons]
      simpa using h

/-! Operands -/

lemma readEmpty?_zeros (rest : List Char) :
    readEmpty? (("zeros(1, 0)").toList ++ rest) = some (.vector [],rest) := by
  rw [readEmpty?,List.dropPrefix?_append_of_beq rest (beq_self_eq_true _)]

lemma readEmpty?_cell (rest : List Char) :
    readEmpty? (("cell(1, 0)").toList ++ rest) = some (.cells [],rest) := by
  have hzeros : (("cell(1, 0)").toList ++ rest).dropPrefix? ("zeros(1, 0)").toList = none := rfl
  rw [readEmpty?,hzeros,List.dropPrefix?_append_of_beq rest (beq_self_eq_true _)]
  rfl

lemma readOperand?_vector {numbers : List Float} (hne : numbers ≠ [])
    (h : ∀ v ∈ numbers, IsWritten v) (rest : List Char) :
    readOperand? ('[' :: ((", ".intercalate (numbers.map numberLiteral)).toList ++ ']' :: rest)) =
      some (.vector numbers,rest) := by
  have hopen : ∀ c ∈ (", ".intercalate (numbers.map numberLiteral)).toList, (c != ']') = true := by
    intro c hc
    rw [bne_iff_ne]
    rintro rfl
    exact not_mem_intercalate_numberLiteral h rfl (by decide) hc
  have hstop : ∀ c ∈ (']' :: rest).head?, (c != ']') = false := by simp
  simp only [readOperand?,takeWhile_append_of_head hopen hstop,dropWhile_append_of_head hopen hstop,
    readNumbers?_intercalate hne h]
  rfl

/-- The numbers among the elements of a set. -/
def numbersOf (s : FiniteSet) : List Float :=
  s.elements.filterMap Element.number?

lemma map_numbersOf {s : FiniteSet} (h : s.isAllNumeric = true) :
    (numbersOf s).map numberText = s.texts := by
  obtain ⟨elements,distinct⟩ := s
  change elements.all Element.isNumeric = true at h
  change (elements.filterMap Element.number?).map numberText = elements.map Element.canonical
  clear distinct
  induction elements with
  | nil => rfl
  | cons e elements ih =>
    rw [List.all_cons,Bool.and_eq_true] at h
    cases e with
    | numeric v => exact congrArg (numberText v :: ·) (ih h.2)
    | symbolic t => cases h.1

lemma isEmpty_iff_texts (s : FiniteSet) : s.isEmpty = true ↔ s.texts = [] := by
  rw [FiniteSet.texts,List.map_eq_nil_iff]
  exact List.isEmpty_iff

/-- A row of texts is read back from its literal, the empty row from the call that makes it. -/
lemma readOperand?_cells (s : FiniteSet) (rest : List Char) :
    readOperand? ((operandLiteral false s).toList ++ rest) = some (.cells s.texts,rest) := by
  rw [operandLiteral,if_neg Bool.false_ne_true,cellLiteral]
  split_ifs with he
  · rw [(isEmpty_iff_texts s).mp he]
    simpa [readOperand?] using readEmpty?_cell rest
  · simpa [readOperand?] using readCells?_intercalate (mt (isEmpty_iff_texts s).mpr he) rest

/-- The literal of an operand is read back, as a row of numbers or of texts. -/
theorem readOperand?_operandLiteral (numeric : Bool) {s : FiniteSet}
    (h : ∀ v ∈ numbersOf s, IsWritten v) (hn : numeric = true → s.isAllNumeric = true)
    (rest : List Char) : readOperand? ((operandLiteral numeric s).toList ++ rest) =
      some (if numeric then .vector (numbersOf s) else .cells s.texts,rest) := by
  cases numeric with
  | true =>
    have htexts := map_numbersOf (hn rfl)
    rw [operandLiteral,if_pos rfl,if_pos rfl,vectorLiteral]
    split_ifs with he
    · rw [(isEmpty_iff_texts s).mp he,List.map_eq_nil_iff] at htexts
      rw [htexts]
      simpa [readOperand?] using readEmpty?_zeros rest
    · have hnumbers : numbersOf s ≠ [] := by
        intro hnil
        rw [hnil] at htexts
        exact he ((isEmpty_iff_texts s).mpr htexts.symm)
      have hrow := readOperand?_vector hnumbers h rest
      rw [numbersOf] at hrow ⊢
      simpa using hrow
  | false => exact readOperand?_cells s rest

/-! One reading -/

lemma cellLiteral_congr {s s' : FiniteSet} (h : s.texts = s'.texts) : cellLiteral s = cellLiteral s' := by
  have hempty : s.isEmpty = s'.isEmpty := by
    rw [Bool.eq_iff_iff,isEmpty_iff_texts,isEmpty_iff_texts,h]
  rw [cellLiteral,cellLiteral,h,hempty]

/-- A literal is read as its text and leaves what follows it exactly if no quote follows. So a row of
texts, whatever they hold and whatever follows the row, is read as these texts; and rows of different
texts are written differently, none at the front of another. -/
theorem operandLiteral_unambiguous :
    (∀ (t : String) (rest : List Char),
      Text.readLiteral? ((quoted t).toList ++ rest) = some (t.toList,rest) ↔
        rest.head? ≠ some '\'') ∧
    (∀ (s : FiniteSet) (rest : List Char),
      readOperand? ((operandLiteral false s).toList ++ rest) = some (.cells s.texts,rest)) ∧
    ∀ (s s' : FiniteSet) (rest rest' : List Char),
      (operandLiteral false s).toList ++ rest = (operandLiteral false s').toList ++ rest' ↔
        s.texts = s'.texts ∧ rest = rest' := by
  refine ⟨fun t rest => ?_,readOperand?_cells,fun s s' rest rest' => ⟨fun h => ?_,?_⟩⟩
  · rw [quoted,String.toList_ofList,Text.readLiteral?_eq_some_iff]
    exact and_iff_right rfl
  · have hread := readOperand?_cells s rest
    rw [h,readOperand?_cells s' rest',Option.some.injEq,Prod.mk.injEq,Operand.cells.injEq] at hread
    exact ⟨hread.1.symm,hread.2.symm⟩
  · rintro ⟨htexts,rfl⟩
    exact congrArg (·.toList ++ rest) (cellLiteral_congr htexts)

end Formulary.Script
