import Formulary.Proofs.Logic.Comparison
import Formulary.Proofs.Script.Lines
import Formulary.Proofs.Session.LastAnalysis

/-! The scripts that a session replies with. Formulas, elements of sets and the title of a plot stand
between quotes as they were typed, line breaks included, so these are what the number of lines
depends on, apart from the kind of the script and the overlays that are shown. -/
namespace Formulary.Session
open History (Computation)
open Script (Carries)

/-- What a script carries between quotes of what was typed. -/
def carried : Computation → List String
  | .truthTable expression _ => [expression,"R = " ++ expression]
  | .equivalence left right _ => [left,right]
  | .setOperation a b _ => Script.carriedTexts [Sets.FiniteSet.ofText a,Sets.FiniteSet.ofText b]
  | .complements whole a b => Script.carriedTexts
      [Sets.FiniteSet.ofText whole,Sets.FiniteSet.ofText a,Sets.FiniteSet.ofText b]
  | .function expression _ => ["f(x) = " ++ trimmed expression]

/-- The lines that the script of a computation has whatever was typed. -/
def ownLines : Computation → ℕ
  | .function _ p => Script.ownLines .function p.showTangent p.showArea
  | c => Script.ownLines c.kind false false

variable {config : Config} {c : Computation} {a : Answer}

lemma tableOf_expression {expression : String} {size : ℕ} {t : Logic.Table}
    (h : tableOf expression size = .ok t) : t.expression = expression := by
  simp only [tableOf,bind,bind_eq_ok_iff,mapError_eq_ok_iff] at h
  obtain ⟨_,-,alphabet,-,h⟩ := h
  obtain ⟨f,-,rfl⟩ := Logic.table_eq_ok_iff.mp h
  rfl

lemma equivalenceOf_texts {left right : String} {size : ℕ} {e : Logic.Equivalence}
    (h : equivalenceOf left right size = .ok e) : e.left = left ∧ e.right = right := by
  simp only [equivalenceOf,bind,bind_eq_ok_iff,mapError_eq_ok_iff] at h
  obtain ⟨_,-,_,-,alphabet,-,h⟩ := h
  obtain ⟨f,g,-,-,rfl⟩ := Logic.equivalence_eq_ok_iff.mp h
  exact ⟨rfl,rfl⟩

lemma operationOf_eq_ok {a b operation : String} {r : Sets.OperationResult}
    (h : operationOf a b operation = .ok r) :
    r = Sets.OperationResult.ofTexts a b (Sets.Operation.ofSelector operation) := by
  simp only [operationOf,bind,bind_eq_ok_iff] at h
  obtain ⟨_,-,h⟩ := h
  exact (Except.ok.inj h).symm

lemma complementsOf_eq_ok {whole a b : String} {r : Sets.Complements}
    (h : complementsOf whole a b = .ok r) : r = Sets.Complements.ofTexts whole a b := by
  simp only [complementsOf,bind,bind_eq_ok_iff] at h
  obtain ⟨_,-,h⟩ := h
  exact (Except.ok.inj h).symm

lemma analysedOf_parts {expression : String} {p : Calculus.Parameters} {l : Analysed}
    (h : analysedOf config expression p = .ok l) :
    l.function.source = trimmed expression ∧ l.analysis.parameters = p := by
  obtain ⟨-,hfresh,htext,hp⟩ := analysedOf_eq_ok_iff.mp h
  exact ⟨by rw [← htext,Calculus.expression_of_analyze hfresh.analyzed],hp⟩

/-- The script of an answer carries what was typed. -/
theorem carries_script (h : answerTo config c = .ok a) :
    Carries (a.script config.settings).text.toList (carried c) (ownLines c) := by
  cases c with
  | truthTable expression size =>
    obtain ⟨t,ht,rfl⟩ := map_eq_ok_iff.mp h
    obtain rfl := tableOf_expression ht
    exact Script.carries_ofTable t
  | equivalence left right size =>
    obtain ⟨e,he,rfl⟩ := map_eq_ok_iff.mp h
    obtain ⟨rfl,rfl⟩ := equivalenceOf_texts he
    exact Script.carries_ofEquivalence e
  | setOperation a b operation =>
    obtain ⟨r,hr,rfl⟩ := map_eq_ok_iff.mp h
    obtain rfl := operationOf_eq_ok hr
    exact Script.carries_ofOperation _
  | complements whole a b =>
    obtain ⟨r,hr,rfl⟩ := map_eq_ok_iff.mp h
    obtain rfl := complementsOf_eq_ok hr
    exact Script.carries_ofComplements _
  | function expression p =>
    obtain ⟨l,hl,rfl⟩ := map_eq_ok_iff.mp h
    obtain ⟨hsource,rfl⟩ := analysedOf_parts hl
    rw [carried,← hsource]
    exact Script.carries_ofFunction l.function l.analysis.parameters config.settings

namespace State

/-- What a session replies to a request for a computation, its inputs given or filled into a form. -/
inductive Replied (s : State) : Computation → Answer → Prop
  | computed {c : Computation} {a : Answer} (h : (s.compute c).outcome = .ok a) : Replied s c a
  | analysed {form : AnalysisForm} {p : Calculus.Parameters} {a : Answer}
      (filled : form.parameters s.config = .ok p)
      (h : (s.analyze form).outcome = .ok a) : Replied s (.function form.expression p) a

lemma outcome_compute (s : State) (c : Computation) :
    (s.compute c).outcome = Session.answerTo s.config c := rfl

lemma outcome_analyze {s : State} {form : AnalysisForm} {p : Calculus.Parameters}
    (filled : form.parameters s.config = .ok p) :
    (s.analyze form).outcome = (s.compute (.function form.expression p)).outcome := by
  unfold analyze
  rw [filled]
  dsimp only
  rw [NotedTurn.toTurn_after]

lemma Replied.answerTo {s : State} (h : s.Replied c a) : answerTo s.config c = .ok a := by
  cases h with
  | computed h => rwa [outcome_compute] at h
  | analysed filled h =>
    rwa [outcome_analyze filled,outcome_compute] at h

/-- The script of a reply carries what was typed between quotes, each text read back where it is
closed, and it has its own lines and one more for each line break inside a text; so it has just its
own lines exactly if each literal is closed on the line where it was opened. -/
theorem lineCount_script {s : State} (h : s.Replied c a) :
    Carries (a.script s.settings).text.toList (carried c) (ownLines c) ∧
    (a.script s.settings).lineCount =
      ownLines c + ((carried c).flatMap String.toList).count '\n' ∧
    ((a.script s.settings).lineCount = ownLines c ↔
      ∀ t ∈ carried c, Script.IsPlain (quoted t)) := by
  have hcarries := carries_script h.answerTo
  have hcount : (a.script s.settings).lineCount = _ := hcarries.count
  refine ⟨hcarries,hcount,?_⟩
  rw [hcount,Nat.add_eq_left,List.count_eq_zero]
  simp only [Script.isPlain_quoted]
  simp [Script.IsPlain]

lemma replied_union (s : State) {a b : String} (ha : (Sets.FiniteSet.ofText a).isEmpty = false) :
    s.Replied (.setOperation a b "union") (.operation (Sets.OperationResult.ofTexts a b .union)) := by
  have hsome : requireOperands a b = .ok () := if_neg (by simp [ha])
  have hunion : operationOf a b "union" = .ok (Sets.OperationResult.ofTexts a b .union) := by
    rw [operationOf,hsome]
    rfl
  refine .computed ?_
  rw [outcome_compute]
  exact map_eq_ok_iff.mpr ⟨_,hunion,rfl⟩

/-- A symbol that goes over two lines takes a literal that does, and one line more. -/
theorem lineCount_script_broken :
    let s : State := start .standard .inMemory
    let c : Computation := .setOperation "x\ny" "1" "union"
    ∃ a, s.Replied c a ∧ (a.script s.settings).lineCount = ownLines c + 1 := by
  intro s c
  have h : s.Replied c _ := replied_union s (by decide +kernel)
  refine ⟨_,h,?_⟩
  rw [(lineCount_script h).2.1]
  decide +kernel

/-- So two unions need not have scripts with equally many lines. -/
theorem lineCount_union_ne :
    let s : State := start .standard .inMemory
    ∃ a b, s.Replied (.setOperation "x\ny" "1" "union") a ∧
      s.Replied (.setOperation "xy" "1" "union") b ∧
      (a.script s.settings).lineCount = 9 ∧ (b.script s.settings).lineCount = 8 := by
  intro s
  have ha : s.Replied (.setOperation "x\ny" "1" "union") _ := replied_union s (by decide +kernel)
  have hb : s.Replied (.setOperation "xy" "1" "union") _ := replied_union s (by decide +kernel)
  exact ⟨_,_,ha,hb,(carries_script ha.answerTo).count.trans (by decide +kernel),
    (carries_script hb.answerTo).count.trans (by decide +kernel)⟩

end State
end Formulary.Session
