import Formulary.Logic.Equivalence
import Formulary.Proofs.Logic.Tables

/-! Comparison against tables. Stopping at the first difference hides no fault, since whether a
program runs does not depend on the values it runs with: what fails in a later row fails in the
first one. -/
namespace Formulary.Logic

/-- The first assignment under which two formulas differ. -/
def Formula.differ (f g : Formula) (l : List Assignment) : Option Counterexample :=
  (l.find? fun s => f.value s.total != g.value s.total).map fun s =>
    ⟨s,f.value s.total,g.value s.total⟩

lemma firstDifference_eq_ok {f g : Formula} {l : List Assignment}
    (hf : ∀ s ∈ l, s.Covers f.postfixOrder) (hg : ∀ s ∈ l, s.Covers g.postfixOrder) :
    firstDifference f.postfixOrder g.postfixOrder l = .ok (f.differ g l) := by
  induction l with
  | nil => rfl
  | cons s l ih =>
    have hl := ih (fun s hs => hf s (by simp [hs])) (fun s hs => hg s (by simp [hs]))
    rw [firstDifference,evaluate_postfixOrder (hf s (by simp)),
      evaluate_postfixOrder (hg s (by simp))]
    cases hd : f.value s.total != g.value s.total with
    | true => simp [bind,Except.bind,pure,Except.pure,Formula.differ,hd]
    | false => simp [bind,Except.bind,Formula.differ,hd,hl]

/-- A comparison that succeeds has run both programs at least once, so both are formulas. -/
lemma exists_formulas_of_firstDifference {p q : Postfix} {l : List Assignment} {s : Assignment}
    {c : Option Counterexample} (hp : ∀ s ∈ l, s.Covers p) (hq : ∀ s ∈ l, s.Covers q)
    (hs : s ∈ l) (h : firstDifference p q l = .ok c) :
    (∃ f : Formula, p = f.postfixOrder) ∧ ∃ g : Formula, q = g.postfixOrder := by
  rcases l with _ | ⟨s₀,l⟩
  · simp at hs
  · rw [firstDifference] at h
    cases hx : p.evaluate s₀ with
    | error e => simp [hx,bind,Except.bind] at h
    | ok x =>
      cases hy : q.evaluate s₀ with
      | error e => simp [hx,hy,bind,Except.bind] at h
      | ok y =>
        obtain ⟨f,hf,-⟩ := (eval_eq_ok_iff (hp s₀ (by simp))).mp (evaluate_eq_ok_iff.mp hx)
        obtain ⟨g,hg,-⟩ := (eval_eq_ok_iff (hq s₀ (by simp))).mp (evaluate_eq_ok_iff.mp hy)
        exact ⟨⟨f,hf⟩,⟨g,hg⟩⟩

/-- Two texts can be compared exactly when both programs are formulas in postfix order. -/
theorem equivalence_eq_ok_iff {a : Alphabet} {left right : String} {e : Equivalence} :
    Equivalence.ofTexts a left right = .ok e ↔ ∃ f g : Formula,
      compileOver a left = .ok f.postfixOrder ∧ compileOver a right = .ok g.postfixOrder ∧
      e = ⟨left,right,a,f.differ g a.assignments⟩ := by
  rw [Equivalence.ofTexts]
  have covers : ∀ {text p}, compileOver a text = .ok p → ∀ s ∈ a.assignments, s.Covers p :=
    fun hc s => covers_of_mem_assignments (compileOver_eq_ok_iff.mp hc).2
  constructor
  · intro h
    cases hp : compileOver a left with
    | error e => simp [hp,bind,Except.bind] at h
    | ok p =>
      cases hq : compileOver a right with
      | error e => simp [hp,hq,bind,Except.bind] at h
      | ok q =>
        cases hd : firstDifference p q a.assignments with
        | error e => simp [hp,hq,hd,bind,Except.bind] at h
        | ok c =>
          obtain ⟨⟨f,rfl⟩,⟨g,rfl⟩⟩ := exists_formulas_of_firstDifference (covers hp) (covers hq)
            (ofRow_zero_mem a) hd
          rw [firstDifference_eq_ok (covers hp) (covers hq)] at hd
          cases hd
          simp only [hp,hq,firstDifference_eq_ok (covers hp) (covers hq),bind,Except.bind] at h
          cases h
          exact ⟨f,g,rfl,rfl,rfl⟩
  · rintro ⟨f,g,hp,hq,rfl⟩
    simp only [hp,hq,firstDifference_eq_ok (covers hp) (covers hq),bind,Except.bind]
    rfl

/-- The counterexample shows the first row in which the columns of results differ. -/
def IsFirstDifference (t u : Table) (c : Counterexample) : Prop :=
  ∃ (i : ℕ) (x y : Row), t.rows[i]? = some x ∧ u.rows[i]? = some y ∧ x.result ≠ y.result ∧
    (∀ j < i, t.results[j]? = u.results[j]?) ∧ c = ⟨x.assignment,x.result,y.result⟩

lemma getElem?_rows {f : Formula} {a : Alphabet} {i : ℕ} {x : Row} :
    (f.rows a)[i]? = some x ↔
      ∃ hi : i < a.assignments.length, ⟨a.assignments[i],f.value a.assignments[i].total⟩ = x := by
  rw [Formula.rows,List.getElem?_map,Option.map_eq_some_iff]
  constructor
  · rintro ⟨s,hs,rfl⟩
    obtain ⟨hi,rfl⟩ := List.getElem?_eq_some_iff.mp hs
    exact ⟨hi,rfl⟩
  · rintro ⟨hi,rfl⟩
    exact ⟨_,List.getElem?_eq_getElem hi,rfl⟩

lemma getElem?_results (f : Formula) (a : Alphabet) (text : String) (i : ℕ) :
    (Table.results ⟨a,text,f.rows a⟩)[i]? =
      a.assignments[i]?.map fun s => f.value s.total := by
  simp [Table.results,Formula.rows,Function.comp_def]

lemma differ_eq_some_iff {f g : Formula} {a : Alphabet} {left right : String}
    {c : Counterexample} : f.differ g a.assignments = some c ↔
      IsFirstDifference ⟨a,left,f.rows a⟩ ⟨a,right,g.rows a⟩ c := by
  simp only [Formula.differ,Option.map_eq_some_iff,List.find?_eq_some_iff_getElem]
  constructor
  · rintro ⟨s,⟨hs,i,hi,rfl,hj⟩,rfl⟩
    refine ⟨i,_,_,getElem?_rows.mpr ⟨hi,rfl⟩,getElem?_rows.mpr ⟨hi,rfl⟩,by simpa using hs,?_,rfl⟩
    intro j hji
    have he := hj j hji
    rw [getElem?_results,getElem?_results,List.getElem?_eq_getElem (hji.trans hi)]
    simpa using he
  · rintro ⟨i,x,y,hx,hy,hne,hj,rfl⟩
    obtain ⟨hi,rfl⟩ := getElem?_rows.mp hx
    obtain ⟨_,rfl⟩ := getElem?_rows.mp hy
    refine ⟨_,⟨by simpa using hne,i,hi,rfl,?_⟩,rfl⟩
    intro j hji
    have he := hj j hji
    rw [getElem?_results,getElem?_results,List.getElem?_eq_getElem (hji.trans hi)] at he
    simpa using he

lemma differ_eq_none_iff {f g : Formula} {a : Alphabet} {left right : String} :
    f.differ g a.assignments = none ↔
      Table.results ⟨a,left,f.rows a⟩ = Table.results ⟨a,right,g.rows a⟩ := by
  simp [Formula.differ,Table.results,Formula.rows,List.find?_eq_none,List.map_inj_left]

/-- Two texts can be compared exactly when both have a table. They are equivalent when the columns
of results agree, and otherwise the first row in which they differ is reported. -/
theorem equivalence_eq_ok_iff_tables (a : Alphabet) (left right : String) :
    ((∃ e, Equivalence.ofTexts a left right = .ok e) ↔
      (∃ t, Table.ofText a left = .ok t) ∧ ∃ u, Table.ofText a right = .ok u) ∧
    ∀ e, Equivalence.ofTexts a left right = .ok e ↔ ∃ t u,
      Table.ofText a left = .ok t ∧ Table.ofText a right = .ok u ∧
      e.left = left ∧ e.right = right ∧ e.alphabet = a ∧
      (e.holds = true ↔ t.results = u.results) ∧
      ∀ c, e.counterexample = some c ↔ IsFirstDifference t u c := by
  constructor
  · constructor
    · rintro ⟨e,he⟩
      obtain ⟨f,g,hf,hg,-⟩ := equivalence_eq_ok_iff.mp he
      exact ⟨⟨_,table_eq_ok_iff.mpr ⟨f,hf,rfl⟩⟩,⟨_,table_eq_ok_iff.mpr ⟨g,hg,rfl⟩⟩⟩
    · rintro ⟨⟨t,ht⟩,⟨u,hu⟩⟩
      obtain ⟨f,hf,-⟩ := table_eq_ok_iff.mp ht
      obtain ⟨g,hg,-⟩ := table_eq_ok_iff.mp hu
      exact ⟨_,equivalence_eq_ok_iff.mpr ⟨f,g,hf,hg,rfl⟩⟩
  · intro e
    constructor
    · intro he
      obtain ⟨f,g,hf,hg,rfl⟩ := equivalence_eq_ok_iff.mp he
      refine ⟨_,_,table_eq_ok_iff.mpr ⟨f,hf,rfl⟩,table_eq_ok_iff.mpr ⟨g,hg,rfl⟩,rfl,rfl,rfl,?_,?_⟩
      · rw [← differ_eq_none_iff,Equivalence.holds,Option.isNone_iff_eq_none]
      · exact fun c => differ_eq_some_iff
    · rintro ⟨t,u,ht,hu,rfl,rfl,rfl,-,hc⟩
      obtain ⟨f,hf,rfl⟩ := table_eq_ok_iff.mp ht
      obtain ⟨g,hg,rfl⟩ := table_eq_ok_iff.mp hu
      have hd : f.differ g e.alphabet.assignments = e.counterexample :=
        Option.ext fun c => differ_eq_some_iff.trans (hc c).symm
      exact equivalence_eq_ok_iff.mpr ⟨f,g,hf,hg,by rw [hd]⟩

end Formulary.Logic
