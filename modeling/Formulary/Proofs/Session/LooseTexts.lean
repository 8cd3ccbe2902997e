import Formulary.Proofs.Session.Messages
import Formulary.Session.Narration

/-! Texts of a user that are told as they are. A computation quotes its formulas, so what it notes is
plain but for the word that selects an operation and the symbols of its results. -/
namespace Formulary.Session
open Script
open History (Computation)
open Journal (Note)

/-- A note whose record is one line. -/
def IsOneLine (n : Note) : Prop := IsPlain n.category ∧ IsPlain n.message

/-- Notes that are one line each exactly if something holds, also if the details are passed over. -/
structure Tells (notes : List Note) (p : Prop) : Prop where
  plain : p → ∀ n ∈ notes, IsOneLine n
  broken : (∀ n ∈ notes, n.isDetail = false → IsOneLine n) → p

namespace Tells
variable {ns ns' : List Note} {p q : Prop}

lemma of_plain (h : ∀ n ∈ ns, IsOneLine n) : Tells ns True := ⟨fun _ => h,fun _ => trivial⟩

lemma nil : Tells [] True := of_plain (by simp)

lemma congr (h : Tells ns p) (hpq : p ↔ q) : Tells ns q := propext hpq ▸ h

lemma append (h : Tells ns p) (h' : Tells ns' q) : Tells (ns ++ ns') (p ∧ q) where
  plain hpq n hn := (List.mem_append.mp hn).elim (h.plain hpq.1 n) (h'.plain hpq.2 n)
  broken hall := ⟨h.broken fun n hn => hall n (List.mem_append_left _ hn),
    h'.broken fun n hn => hall n (List.mem_append_right _ hn)⟩

lemma cons {n : Note} (h : Tells [n] p) (h' : Tells ns q) : Tells (n :: ns) (p ∧ q) :=
  h.append h'

lemma told {level : Journal.Level} {category message : String} (hc : IsPlain category) :
    Tells [.told level category message] (IsPlain message) where
  plain hm n hn := by
    obtain rfl := List.mem_singleton.mp hn
    exact ⟨hc,hm⟩
  broken hall := (hall _ (List.mem_singleton.mpr rfl) rfl).2

/-- A detail repeats only what another note tells too. -/
lemma detail {level : Journal.Level} {category message : String} (hc : IsPlain category)
    (hm : p → IsPlain message) (h : Tells ns p) : Tells (.detail level category message :: ns) p where
  plain hp := List.forall_mem_cons.mpr ⟨⟨hc,hm hp⟩,h.plain hp⟩
  broken hall := h.broken (List.forall_mem_cons.mp hall).2

end Tells

lemma isPlain_told {word command text : String} (hw : IsPlain word) (hc : IsPlain command) :
    IsPlain (word ++ command ++ if text.isEmpty then "" else " " ++ text) ↔ IsPlain text := by
  rw [isPlain_append,isPlain_append]
  split_ifs with he
  · obtain rfl : text = "" := by simpa using he
    simp [hw,hc]
  · rw [isPlain_append]
    simp [hw,hc,show IsPlain " " from isPlain_ofList (by decide)]

variable {category command text : String}

lemma tells_entering (hcat : IsPlain category) (hcom : IsPlain command) :
    Tells [entering category command text] (IsPlain text) :=
  (Tells.told hcat).congr (isPlain_told (isPlain_ofList (by decide)) hcom)

lemma tells_leaving (hcat : IsPlain category) (hcom : IsPlain command) :
    Tells [leaving category command text] (IsPlain text) :=
  (Tells.told hcat).congr (isPlain_told (isPlain_ofList (by decide)) hcom)

lemma isPlain_optionText {α : Type} {f : α → String} (hf : ∀ a, IsPlain (f a)) (o : Option α) :
    IsPlain (optionText f o) := by
  cases o with
  | none => exact isPlain_ofList (by decide)
  | some a =>
    exact isPlain_append.mpr
      ⟨isPlain_append.mpr ⟨isPlain_ofList (by decide),hf a⟩,isPlain_ofList (by decide)⟩

lemma isPlain_boolText (b : Bool) : IsPlain (boolText b) := by
  cases b <;> exact isPlain_ofList (by decide)

lemma isPlain_numberText (v : Option Float) : IsPlain (numberText v) := by
  cases v with
  | none => exact isPlain_ofList (by decide)
  | some v => exact isPlain_fixed 6 v

/-! Formulas -/

lemma isOneLine_compiledFormula (expression : String) (p : Logic.Postfix) :
    IsOneLine (compiledFormula expression p) := by
  refine ⟨isPlain_ofList (by decide),?_⟩
  simp only [compiledFormula,Note.detail,isPlain_append]
  exact ⟨⟨⟨⟨isPlain_ofList (by decide),isPlain_escaped _⟩,isPlain_ofList (by decide)⟩,
    Logic.isPlain_postfix p⟩,isPlain_ofList (by decide)⟩

lemma isOneLine_formulaNotes (size : ℕ) (expressions : List String) :
    ∀ n ∈ formulaNotes size expressions, IsOneLine n := by
  unfold formulaNotes
  split
  · rename_i alphabet _
    induction expressions with
    | nil => simp [compiledFormulas]
    | cons expression rest ih =>
      unfold compiledFormulas
      split
      · simp
      · refine List.forall_mem_cons.mpr ⟨isOneLine_compiledFormula _ _,?_⟩
        split_ifs
        · exact ih
        · simp
  · simp

lemma isPlain_LOGIC : IsPlain "LOGIC" := isPlain_ofList (by decide)

lemma isOneLine_tableNotes (expression : String) (size : ℕ) (r : Except Fault Logic.Table) :
    ∀ n ∈ tableNotes expression size r, IsOneLine n := by
  unfold tableNotes
  split
  · rename_i e
    refine List.forall_mem_append.mpr ⟨isOneLine_formulaNotes _ _,(Tells.told isPlain_LOGIC).plain ?_⟩
    exact isPlain_append.mpr ⟨isPlain_ofList (by decide),Logic.isPlain_message e⟩
  · simp
  · rename_i t
    refine List.forall_mem_append.mpr ⟨isOneLine_formulaNotes _ _,
      (Tells.detail (isPlain_ofList (by decide)) (fun _ => ?_)
        (tells_leaving isPlain_LOGIC (isPlain_ofList (by decide)))).plain ?_⟩
    · simp only [isPlain_append]
      exact ⟨⟨isPlain_ofList (by decide),isPlain_escaped _⟩,⟨⟨⟨isPlain_ofList (by decide),
        isPlain_natural _⟩,isPlain_ofList (by decide)⟩,isPlain_natural _⟩,isPlain_ofList (by decide)⟩
    · exact isPlain_append.mpr ⟨isPlain_ofList (by decide),isPlain_natural _⟩

lemma isOneLine_equivalenceNotes (left right : String) (size : ℕ)
    (r : Except Fault Logic.Equivalence) : ∀ n ∈ equivalenceNotes left right size r, IsOneLine n := by
  unfold equivalenceNotes
  split
  · rename_i e
    refine List.forall_mem_append.mpr ⟨isOneLine_formulaNotes _ _,(Tells.told isPlain_LOGIC).plain ?_⟩
    exact isPlain_append.mpr ⟨isPlain_ofList (by decide),Logic.isPlain_message e⟩
  · simp
  · rename_i e
    refine List.forall_mem_append.mpr ⟨isOneLine_formulaNotes _ _,
      (Tells.detail (isPlain_ofList (by decide)) (fun _ => ?_)
        (tells_leaving isPlain_LOGIC (isPlain_ofList (by decide)))).plain ?_⟩
    · simp only [isPlain_append]
      exact ⟨⟨⟨⟨⟨isPlain_ofList (by decide),isPlain_escaped _⟩,isPlain_ofList (by decide)⟩,
        isPlain_escaped _⟩,isPlain_ofList (by decide)⟩,isPlain_boolText _⟩
    · unfold verdict
      split_ifs <;> exact isPlain_ofList (by decide)

/-! Functions -/

lemma isPlain_FUNCTIONS : IsPlain "FUNCTIONS" := isPlain_ofList (by decide)

lemma isOneLine_compiledFunction (config : Config) (expression : String) (p : Calculus.Parameters) :
    ∀ n ∈ compiledFunction config expression p, IsOneLine n := by
  unfold compiledFunction
  split
  · refine (Tells.detail (isPlain_ofList (by decide)) (fun _ => ?_) .nil).plain trivial
    simp only [isPlain_append]
    exact ⟨⟨isPlain_ofList (by decide),isPlain_escaped _⟩,⟨isPlain_ofList (by decide),
      isPlain_natural _⟩,isPlain_ofList (by decide)⟩
  · simp

lemma isPlain_journalNumber (v : Option Float) : IsPlain (journalNumber v) :=
  isPlain_optionText (isPlain_layout _) v

lemma isOneLine_sampledNote (expression : String) (points undefined : ℕ) :
    IsOneLine (sampledNote expression points undefined) := by
  refine ⟨isPlain_ofList (by decide),?_⟩
  simp only [sampledNote,Note.detail,isPlain_append]
  exact ⟨⟨isPlain_ofList (by decide),isPlain_escaped _⟩,⟨⟨⟨isPlain_ofList (by decide),
    isPlain_natural _⟩,isPlain_ofList (by decide)⟩,isPlain_natural _⟩,isPlain_ofList (by decide)⟩

lemma isOneLine_analysedNotes (a : Calculus.Analysis) : ∀ n ∈ analysedNotes a, IsOneLine n := by
  refine List.forall_mem_cons.mpr ⟨isOneLine_sampledNote _ _ _,
    List.forall_mem_singleton.mpr ⟨isPlain_ofList (by decide),?_⟩⟩
  simp only [Note.detail,isPlain_append]
  exact ⟨⟨⟨⟨⟨⟨⟨isPlain_ofList (by decide),isPlain_escaped _⟩,isPlain_ofList (by decide)⟩,
    isPlain_journalNumber _⟩,isPlain_ofList (by decide)⟩,isPlain_journalNumber _⟩,
    isPlain_ofList (by decide)⟩,isPlain_journalNumber _⟩

lemma isOneLine_functionNotes (config : Config) (expression : String) (p : Calculus.Parameters) :
    ∀ n ∈ functionNotes config expression p (analysedOf config expression p), IsOneLine n := by
  cases hr : analysedOf config expression p with
  | error e =>
    refine List.forall_mem_append.mpr ⟨isOneLine_compiledFunction _ _ _,
      (Tells.told isPlain_FUNCTIONS).plain ?_⟩
    exact isPlain_append.mpr ⟨isPlain_ofList (by decide),isPlain_analysedMessage hr⟩
  | ok l =>
    have hundefined : ∀ n ∈ (if undefinedCount l.analysis = 0 then [] else
        [Note.told .debug "FUNCTIONS" s!"{undefinedCount l.analysis} undefined samples"]),
        IsOneLine n := by
      split_ifs
      · simp
      · refine (Tells.told isPlain_FUNCTIONS).plain ?_
        exact isPlain_append.mpr ⟨isPlain_natural _,isPlain_ofList (by decide)⟩
    simp only [functionNotes,List.forall_mem_append]
    refine ⟨⟨⟨isOneLine_compiledFunction _ _ _,isOneLine_analysedNotes _⟩,hundefined⟩,
      (tells_leaving isPlain_FUNCTIONS (isPlain_ofList (by decide))).plain ?_⟩
    simp only [isPlain_append]
    exact ⟨⟨⟨⟨⟨isPlain_ofList (by decide),isPlain_numberText _⟩,isPlain_ofList (by decide)⟩,
      isPlain_numberText _⟩,isPlain_ofList (by decide)⟩,isPlain_numberText _⟩

/-! Sets -/

lemma isPlain_SETS : IsPlain "SETS" := isPlain_ofList (by decide)

lemma isPlain_intercalate_iff {ls : List String} :
    IsPlain (", ".intercalate ls) ↔ ∀ l ∈ ls, IsPlain l := by
  refine ⟨fun h => ?_,isPlain_intercalate⟩
  induction ls with
  | nil => simp
  | cons l ls ih =>
    cases ls with
    | nil => simpa using h
    | cons l' ls =>
      rw [String.intercalate_cons_cons,isPlain_append,isPlain_append] at h
      exact List.forall_mem_cons.mpr ⟨h.1.1,ih h.2⟩

/-- A set is shown on one line exactly if its symbols hold no break. -/
lemma isPlain_setText (s : Sets.FiniteSet) : IsPlain s.text ↔ ∀ t ∈ s.texts, IsPlain t := by
  unfold Sets.FiniteSet.text
  split_ifs with he
  · have hnone : s.texts = [] := by rw [Sets.FiniteSet.texts,List.isEmpty_iff.mp he,List.map_nil]
    simp [hnone,show IsPlain "∅" from isPlain_ofList (by decide)]
  · rw [isPlain_append,isPlain_append,isPlain_intercalate_iff]
    simp [show IsPlain "\x7b " from isPlain_ofList (by decide),
      show IsPlain " \x7d" from isPlain_ofList (by decide)]

lemma isPlain_label (o : Sets.Operation) : IsPlain o.label := by
  cases o <;> exact isPlain_ofList (by decide)

lemma tells_operationNotes (operation : String) (r : Sets.OperationResult) :
    Tells (operationNotes operation (.ok r)) (∀ t ∈ r.result.texts, IsPlain t) := by
  have hunknown : Tells (unknownOperation operation) True := by
    unfold unknownOperation
    split_ifs
    · exact .nil
    · refine .detail (isPlain_ofList (by decide)) (fun _ => ?_) .nil
      simp only [isPlain_append]
      exact ⟨⟨isPlain_ofList (by decide),isPlain_escaped _⟩,isPlain_ofList (by decide)⟩
  have hended : Tells [leaving "SETS" "compute_set_operation"
      (r.operation.label ++ " = " ++ r.result.text)] (∀ t ∈ r.result.texts, IsPlain t) := by
    refine (tells_leaving isPlain_SETS (isPlain_ofList (by decide))).congr ?_
    rw [isPlain_append,isPlain_append,isPlain_setText]
    simp [isPlain_label,show IsPlain " = " from isPlain_ofList (by decide)]
  refine (hunknown.append (.detail (isPlain_ofList (by decide)) (fun hp => ?_) hended)).congr
    (iff_of_eq (true_and _))
  simp only [isPlain_append]
  exact ⟨⟨isPlain_label _,⟨⟨⟨isPlain_ofList (by decide),isPlain_natural _⟩,isPlain_ofList (by decide)⟩,
    isPlain_natural _⟩,isPlain_ofList (by decide)⟩,(isPlain_setText _).mpr hp⟩

lemma tells_outsideNotes (c : Sets.Complements) :
    Tells (outsideNotes c) (∀ t ∈ c.outsideTexts, IsPlain t) := by
  unfold outsideNotes
  split_ifs with hl
  · have hwarned : Tells [.told .warn "SETS" ("elements outside U: " ++ outsideText c)]
        (∀ t ∈ c.outsideTexts, IsPlain t) := by
      refine (Tells.told isPlain_SETS).congr ?_
      rw [isPlain_append,outsideText,isPlain_intercalate_iff]
      simp [show IsPlain "elements outside U: " from isPlain_ofList (by decide)]
    refine .detail (isPlain_ofList (by decide)) (fun hp => ?_) hwarned
    rw [Sets.Complements.outsideTexts,List.forall_mem_append] at hp
    simp only [isPlain_append,isPlain_setText]
    exact ⟨⟨⟨isPlain_ofList (by decide),hp.1⟩,isPlain_ofList (by decide)⟩,hp.2⟩
  · simp only [Sets.Complements.leavesUniverse,Bool.or_eq_true,Bool.not_eq_true',not_or,
      Bool.not_eq_false] at hl
    have hnone : c.outsideTexts = [] := by
      rw [Sets.Complements.outsideTexts,Sets.FiniteSet.texts,Sets.FiniteSet.texts,
        List.isEmpty_iff.mp hl.1,List.isEmpty_iff.mp hl.2]
      rfl
    rw [hnone]
    exact Tells.nil.congr (by simp)

lemma tells_complementsNotes (c : Sets.Complements) :
    Tells (complementsNotes (.ok c)) (∀ t ∈ c.aComplement.texts ++ c.bComplement.texts ++
      c.outsideTexts, IsPlain t) := by
  have hended : Tells [leaving "SETS" "compute_universe"
      ("Ac=" ++ c.aComplement.text ++ " Bc=" ++ c.bComplement.text)]
      ((∀ t ∈ c.aComplement.texts, IsPlain t) ∧ ∀ t ∈ c.bComplement.texts, IsPlain t) := by
    refine (tells_leaving isPlain_SETS (isPlain_ofList (by decide))).congr ?_
    simp only [isPlain_append,isPlain_setText]
    simp [show IsPlain "Ac=" from isPlain_ofList (by decide),
      show IsPlain " Bc=" from isPlain_ofList (by decide)]
  refine ((tells_outsideNotes c).append hended).congr ?_
  rw [List.forall_mem_append,List.forall_mem_append]
  exact and_comm

/-! Computations -/

/-- The texts that a computation tells as they are: the word that selects an operation, and the
symbols of a result. -/
def looseTexts : Computation → List String
  | .setOperation a b operation =>
    operation :: match operationOf a b operation with
      | .ok r => r.result.texts
      | .error _ => []
  | .complements whole a b =>
    match complementsOf whole a b with
    | .ok c => c.aComplement.texts ++ c.bComplement.texts ++ c.outsideTexts
    | .error _ => []
  | _ => []

lemma tells_computationNotes (config : Config) (c : Computation) :
    Tells (computationNotes config c) (∀ t ∈ looseTexts c, IsPlain t) := by
  have hplain {ns : List Note} (h : ∀ n ∈ ns, IsOneLine n) :
      Tells ns (∀ t ∈ ([] : List String), IsPlain t) := (Tells.of_plain h).congr (by simp)
  cases c with
  | truthTable expression size =>
    have hgiven : IsPlain ("expr=" ++ escaped expression ++ s!" vars={size.toNat}") := by
      simp only [isPlain_append]
      exact ⟨⟨isPlain_ofList (by decide),isPlain_escaped _⟩,isPlain_ofList (by decide),
        isPlain_natural _⟩
    exact hplain (((tells_entering isPlain_LOGIC (isPlain_ofList (by decide))).cons
      (.of_plain (isOneLine_tableNotes _ _ _))).plain ⟨hgiven,trivial⟩)
  | equivalence left right size =>
    have hgiven : IsPlain ("left=" ++ escaped left ++ " right=" ++ escaped right ++
        s!" vars={size.toNat}") := by
      simp only [isPlain_append]
      exact ⟨⟨⟨⟨isPlain_ofList (by decide),isPlain_escaped _⟩,isPlain_ofList (by decide)⟩,
        isPlain_escaped _⟩,isPlain_ofList (by decide),isPlain_natural _⟩
    exact hplain (((tells_entering isPlain_LOGIC (isPlain_ofList (by decide))).cons
      (.of_plain (isOneLine_equivalenceNotes _ _ _ _))).plain ⟨hgiven,trivial⟩)
  | setOperation a b operation =>
    have hgiven : Tells [entering "SETS" "compute_set_operation"
        ("a=" ++ escaped a ++ " b=" ++ escaped b ++ " op=" ++ operation)] (IsPlain operation) := by
      refine (tells_entering isPlain_SETS (isPlain_ofList (by decide))).congr ?_
      simp only [isPlain_append]
      simp [isPlain_escaped,show IsPlain "a=" from isPlain_ofList (by decide),
        show IsPlain " b=" from isPlain_ofList (by decide),
        show IsPlain " op=" from isPlain_ofList (by decide)]
    have hrest : Tells (operationNotes operation (operationOf a b operation))
        (∀ t ∈ (match operationOf a b operation with
          | .ok r => r.result.texts
          | .error _ => []), IsPlain t) := by
      cases operationOf a b operation with
      | error e => exact hplain (by simp [operationNotes])
      | ok r => exact tells_operationNotes operation r
    exact (hgiven.cons hrest).congr List.forall_mem_cons.symm
  | complements whole a b =>
    have hgiven : Tells [entering "SETS" "compute_universe"
        ("u=" ++ escaped whole ++ " a=" ++ escaped a ++ " b=" ++ escaped b)] True := by
      refine (tells_entering isPlain_SETS (isPlain_ofList (by decide))).congr ?_
      simp only [isPlain_append]
      simp [isPlain_escaped,show IsPlain "u=" from isPlain_ofList (by decide),
        show IsPlain " a=" from isPlain_ofList (by decide),
        show IsPlain " b=" from isPlain_ofList (by decide)]
    have hrest : Tells (complementsNotes (complementsOf whole a b))
        (∀ t ∈ looseTexts (.complements whole a b), IsPlain t) := by
      rw [looseTexts]
      cases complementsOf whole a b with
      | error e => exact hplain (by simp [complementsNotes])
      | ok c => exact tells_complementsNotes c
    exact (hgiven.cons hrest).congr (iff_of_eq (true_and _))
  | function expression p => exact hplain (isOneLine_functionNotes config expression p)

end Formulary.Session
