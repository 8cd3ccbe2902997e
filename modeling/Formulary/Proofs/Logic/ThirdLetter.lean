import Formulary.Logic.Equivalence
import Formulary.Proofs.Logic.Malformed
import Formulary.Proofs.Logic.Parentheses

/-! Declaring a third letter that nothing mentions. Each row of two letters becomes two rows that run as
it did, so tables and comparisons over three letters are those over two, written out twice as long.
Where the third letter is mentioned, it has to be declared. -/
namespace Formulary.Logic

/-- The letters a token mentions. -/
def Token.letters : Token → List Letter
  | letter l => [l]
  | xor l r => [l,r]
  | _ => []

/-- The text can be read as tokens, and one of them mentions the letter. -/
def Mentions (text : String) (l : Letter) : Prop :=
  ∃ ts, tokens text = .ok ts ∧ ∃ t ∈ ts, l ∈ t.letters

/-- A program reads the letters of the tokens it was made of. -/
lemma uses_ofTokens {ts : List Token} {p : Postfix} (h : Postfix.ofTokens ts = .ok p) (l : Letter) :
    p.uses l = true ↔ ∃ t ∈ ts, l ∈ t.letters := by
  have hperm := reorder_perm h
  have hmem (t : Token) : (∃ i, t.instruction? = some i ∧ l ∈ i.letters) ↔ l ∈ t.letters := by
    rcases t with _ | _ | _ | _ | _ <;>
      simp [Token.instruction?,Instruction.letters,Token.letters]
  rw [Postfix.uses,List.any_eq_true]
  simp only [List.contains_iff_mem,hperm.mem_iff,List.filterMap_nil,List.nil_append,
    List.mem_filterMap]
  constructor
  · rintro ⟨i,⟨t,ht,hi⟩,hl⟩
    exact ⟨t,ht,(hmem t).mp ⟨i,hi,hl⟩⟩
  · rintro ⟨t,ht,hl⟩
    obtain ⟨i,hi,hl⟩ := (hmem t).mpr hl
    exact ⟨i,⟨t,ht,hi⟩,hl⟩

lemma uses_compile {text : String} {p : Postfix} (h : compile text = .ok p) (l : Letter) :
    p.uses l = true ↔ Mentions text l := by
  obtain ⟨ts,ht,-,hp⟩ := compile_eq_ok_iff.mp h
  rw [uses_ofTokens hp,Mentions,ht]
  simp

/-! Running with and without the letter -/

/-- A program runs alike under assignments that agree on the letters it reads. -/
lemma run_congr {p : Postfix} {s t : Assignment} (h : ∀ l, p.uses l = true → s.value? l = t.value? l)
    (stack : List Bool) : Postfix.run s p stack = Postfix.run t p stack := by
  induction p generalizing stack with
  | nil => rfl
  | cons i p ih =>
    have hhead (l : Letter) (hl : l ∈ i.letters) : s.value l = t.value l := by
      rw [Assignment.value,Assignment.value,h l (by simp [Postfix.uses,hl])]
    have hstep : i.step s stack = i.step t stack := by
      rcases i with l | ⟨l,r⟩ | (_ | c)
      · rw [Instruction.step,Instruction.step,hhead l (by simp [Instruction.letters])]
      · rw [Instruction.step,Instruction.step,hhead l (by simp [Instruction.letters]),
          hhead r (by simp [Instruction.letters])]
      · rfl
      · rfl
    have htail (l : Letter) (hl : Postfix.uses p l = true) : s.value? l = t.value? l :=
      h l (by simp only [Postfix.uses,List.any_cons,Bool.or_eq_true]; exact .inr hl)
    rw [Postfix.run,Postfix.run,hstep]
    exact congrArg _ (funext (ih htail))

/-- The assignment with a value for one letter put in. -/
def Assignment.assign (s : Assignment) (l : Letter) (b : Bool) : Assignment :=
  ⟨fun k => if k = l then some b else s.value? k⟩

lemma evaluate_assign {p : Postfix} {l : Letter} (h : p.uses l = false) (s : Assignment) (b : Bool) :
    p.evaluate (s.assign l b) = p.evaluate s := by
  have hrun : Postfix.run (s.assign l b) p [] = Postfix.run s p [] := by
    refine run_congr (fun k hk => ?_) []
    have hne : k ≠ l := by
      rintro rfl
      rw [h] at hk
      cases hk
    exact if_neg hne
  rw [Postfix.evaluate,Postfix.evaluate,Postfix.eval,Postfix.eval,hrun]

/-- An assignment with either value of the third letter. -/
def Assignment.both (s : Assignment) : List Assignment := [s.assign .c false,s.assign .c true]

lemma assignments_three :
    Alphabet.three.assignments = Alphabet.two.assignments.flatMap Assignment.both := by decide

/-! Tables and comparisons written out -/

/-- A row with either value of the third letter. -/
def Row.both (r : Row) : List Row := r.assignment.both.map fun s => ⟨s,r.result⟩

/-- A counterexample in the first of the rows that its row becomes. -/
def Counterexample.widened (c : Counterexample) : Counterexample :=
  ⟨c.assignment.assign .c false,c.left,c.right⟩

def Table.widened (t : Table) : Table := ⟨.three,t.expression,t.rows.flatMap Row.both⟩

def Equivalence.widened (e : Equivalence) : Equivalence :=
  ⟨e.left,e.right,.three,e.counterexample.map Counterexample.widened⟩

section Unused
variable {p q : Postfix} (hp : p.uses .c = false) (hq : q.uses .c = false)
include hp

lemma mapM_row_both (l : List Assignment) :
    (l.flatMap Assignment.both).mapM p.row = (l.mapM p.row).map (List.flatMap Row.both) := by
  induction l with
  | nil => rfl
  | cons s l ih =>
    have hrow (b : Bool) : p.row (s.assign .c b) = (p.row s).map fun r => ⟨s.assign .c b,r.result⟩ := by
      rw [Postfix.row,Postfix.row,evaluate_assign hp]
      cases p.evaluate s <;> rfl
    rw [List.flatMap_cons,Assignment.both,List.cons_append,List.cons_append,List.nil_append,
      List.mapM_cons,List.mapM_cons,List.mapM_cons,hrow,hrow,ih]
    cases hr : p.row s with
    | error e => rfl
    | ok r =>
      have hs : r.assignment = s := by
        rw [Postfix.row] at hr
        obtain ⟨b,-,rfl⟩ := map_eq_ok_iff.mp hr
        rfl
      cases l.mapM p.row with
      | error e => rfl
      | ok rows => simp [bind,Except.bind,pure,Except.pure,Except.map,Row.both,Assignment.both,hs]

include hq

/-- Where two programs differ, they do so in both rows, and the first of them is met. -/
lemma firstDifference_both (l : List Assignment) :
    firstDifference p q (l.flatMap Assignment.both) =
      (firstDifference p q l).map (Option.map Counterexample.widened) := by
  induction l with
  | nil => rfl
  | cons s l ih =>
    rw [List.flatMap_cons,Assignment.both,List.cons_append,List.cons_append,List.nil_append,
      firstDifference,firstDifference,firstDifference,evaluate_assign hp,evaluate_assign hp,
      evaluate_assign hq,evaluate_assign hq,ih]
    cases p.evaluate s with
    | error e => rfl
    | ok x =>
      cases q.evaluate s with
      | error e => rfl
      | ok y =>
        cases hd : x != y <;>
          simp [bind,Except.bind,pure,Except.pure,Except.map,Counterexample.widened,hd]

end Unused

lemma compileOver_three {text : String} (h : ¬Mentions text .c) :
    compileOver .three text = compileOver .two text := by
  rw [compileOver,compileOver]
  cases hc : compile text with
  | error e => rfl
  | ok p =>
    have hnone (a : Alphabet) : p.letters.find? (!a.letters.contains ·) = none := by
      rw [List.find?_eq_none]
      intro l hl
      rw [Postfix.mem_letters,uses_compile hc] at hl
      cases l with
      | c => exact absurd hl h
      | _ => cases a <;> decide
    simp only [hnone]

lemma uses_of_compileOver {text : String} {p : Postfix} (h : ¬Mentions text .c)
    (hp : compileOver .two text = .ok p) : p.uses .c = false := by
  rw [← Bool.not_eq_true,uses_compile (compileOver_eq_ok_iff.mp hp).1]
  exact h

theorem table_three {text : String} (h : ¬Mentions text .c) :
    Table.ofText .three text = (Table.ofText .two text).map Table.widened := by
  rw [Table.ofText,Table.ofText,compileOver_three h,assignments_three]
  cases hp : compileOver .two text with
  | error e => rfl
  | ok p =>
    have hrows := mapM_row_both (uses_of_compileOver h hp) Alphabet.two.assignments
    simp only [bind,Except.bind,hrows]
    cases Alphabet.two.assignments.mapM p.row <;> rfl

theorem equivalence_three {left right : String} (hl : ¬Mentions left .c) (hr : ¬Mentions right .c) :
    Equivalence.ofTexts .three left right =
      (Equivalence.ofTexts .two left right).map Equivalence.widened := by
  rw [Equivalence.ofTexts,Equivalence.ofTexts,compileOver_three hl,compileOver_three hr,
    assignments_three]
  cases hp : compileOver .two left with
  | error e => rfl
  | ok p =>
    cases hq : compileOver .two right with
    | error e => rfl
    | ok q =>
      have hfirst := firstDifference_both (uses_of_compileOver hl hp) (uses_of_compileOver hr hq)
        Alphabet.two.assignments
      simp only [bind,Except.bind,hfirst]
      cases firstDifference p q Alphabet.two.assignments <;> rfl

lemma getElem?_double (l : List Bool) (i : ℕ) :
    (l.flatMap fun b => [b,b])[2*i]? = l[i]? ∧ (l.flatMap fun b => [b,b])[2*i+1]? = l[i]? := by
  induction l generalizing i with
  | nil => simp
  | cons b l ih =>
    cases i with
    | zero => simp
    | succ i =>
      have hi : 2*(i+1) = 2*i+1+1 := by omega
      simpa [hi] using ih i

lemma results_widened (t : Table) : t.widened.results = t.results.flatMap fun b => [b,b] := by
  simp [Table.results,Table.widened,List.map_flatMap,List.flatMap_map,Row.both,Assignment.both]

/-- A letter that is mentioned has to be declared, as soon as the parentheses balance. -/
lemma compileOver_two_undeclared {text : String} {ts : List Token} (ht : tokens text = .ok ts)
    (hb : IsBalanced ts) (hc : Mentions text .c) :
    compileOver .two text = .error (.undeclared .c .two) := by
  obtain ⟨p,hp⟩ := exists_ofTokens_iff.mpr hb
  have hne : ts ≠ [] := by
    rintro rfl
    obtain ⟨us,hus,t,htus,-⟩ := hc
    rw [ht] at hus
    cases hus
    cases htus
  have hcompile := compile_eq_ok_iff.mpr ⟨ts,ht,hne,hp⟩
  have hfind : p.letters.find? (!Alphabet.two.letters.contains ·) = some .c := by
    have huse := (uses_compile hcompile .c).mpr hc
    cases ha : p.uses .a <;> cases hb : p.uses .b <;>
      simp [Postfix.letters,Letter.all,ha,hb,huse,Alphabet.letters]
  rw [compileOver,hcompile]
  simp only [hfind]

/-- For texts that do not mention the third letter, it makes no difference whether it is declared: the
same faults, each result twice in a row, the same verdict on two texts, and in a counterexample the
third letter is false. A text that mentions it has no table over two letters and is compared with none. -/
theorem third_letter_unused :
    (∀ text, ¬Mentions text .c →
      (∀ e, Table.ofText .three text = .error e ↔ Table.ofText .two text = .error e) ∧
      ∀ t, Table.ofText .two text = .ok t → ∃ u, Table.ofText .three text = .ok u ∧
        ∀ i : ℕ, u.results[2*i]? = t.results[i]? ∧ u.results[2*i+1]? = t.results[i]?) ∧
    (∀ left right, ¬Mentions left .c → ¬Mentions right .c →
      (∀ e, Equivalence.ofTexts .three left right = .error e ↔
        Equivalence.ofTexts .two left right = .error e) ∧
      ∀ d, Equivalence.ofTexts .two left right = .ok d →
        ∃ e, Equivalence.ofTexts .three left right = .ok e ∧ e.holds = d.holds ∧
          e.counterexample = d.counterexample.map fun c =>
            ⟨c.assignment.assign .c false,c.left,c.right⟩) ∧
    ∀ text ts, tokens text = .ok ts → IsBalanced ts → Mentions text .c →
      Table.ofText .two text = .error (.undeclared .c .two) ∧
      (∀ right, Equivalence.ofTexts .two text right = .error (.undeclared .c .two)) ∧
      ∀ left t, Table.ofText .two left = .ok t →
        Equivalence.ofTexts .two left text = .error (.undeclared .c .two) := by
  refine ⟨fun text h => ?_,fun left right hl hr => ?_,fun text ts ht hb hc => ?_⟩
  · rw [table_three h]
    refine ⟨fun e => map_eq_error_iff,fun t ht => ⟨t.widened,by rw [ht]; rfl,fun i => ?_⟩⟩
    rw [results_widened]
    exact getElem?_double t.results i
  · rw [equivalence_three hl hr]
    refine ⟨fun e => map_eq_error_iff,fun d hd => ⟨d.widened,by rw [hd]; rfl,?_,rfl⟩⟩
    rw [Equivalence.holds,Equivalence.holds,Equivalence.widened,Option.isNone_map]
  · have hover := compileOver_two_undeclared ht hb hc
    refine ⟨?_,fun right => ?_,fun left t hleft => ?_⟩
    · rw [Table.ofText,hover]
      rfl
    · rw [Equivalence.ofTexts,hover]
      rfl
    · obtain ⟨f,hf,-⟩ := table_eq_ok_iff.mp hleft
      rw [Equivalence.ofTexts,hf,hover]
      rfl

lemma not_mentions {text : String} {ts : List Token} {l : Letter} (ht : tokens text = .ok ts)
    (h : ∀ t ∈ ts, l ∉ t.letters) : ¬Mentions text l := by
  rintro ⟨us,hus,t,htus,hl⟩
  rw [ht] at hus
  cases hus
  exact h t htus hl

/-- An arrow that is false in the last row only, and so not equivalent to `B`; and a text whose call
alone mentions the third letter. -/
theorem third_letter_unused_arrow :
    (∃ t u, Table.ofText .two "A->xor(A,B)" = .ok t ∧ Table.ofText .three "A->xor(A,B)" = .ok u ∧
      u.results[7]? = t.results[3]?) ∧
    (∃ d e, Equivalence.ofTexts .two "A->xor(A,B)" "B" = .ok d ∧
      Equivalence.ofTexts .three "A->xor(A,B)" "B" = .ok e ∧ e.holds = d.holds) ∧
    Table.ofText .two "A&xor(B,C)" = .error (.undeclared .c .two) := by
  have hp : compileOver .two "A->xor(A,B)" =
      .ok (Formula.binary .implies (.letter .a) (.xor .a .b)).postfixOrder := by decide +kernel
  have hq : compileOver .two "B" = .ok (Formula.letter .b).postfixOrder := by decide +kernel
  have hleft : tokens "A->xor(A,B)" = .ok [.letter .a,.operator (.binary .implies),.xor .a .b] := by
    decide +kernel
  have hright : tokens "B" = .ok [.letter .b] := by decide +kernel
  have hthird : tokens "A&xor(B,C)" = .ok [.letter .a,.operator (.binary .and),.xor .b .c] := by
    decide +kernel
  have hd : ∃ d, Equivalence.ofTexts .two "A->xor(A,B)" "B" = .ok d := by
    rw [Equivalence.ofTexts,hp,hq]
    exact ⟨_,rfl⟩
  obtain ⟨htable,hcompared,hundeclared⟩ := third_letter_unused
  obtain ⟨u,hu,hresults⟩ := (htable _ (not_mentions hleft (by decide))).2 _
    (table_eq_ok_iff.mpr ⟨_,hp,rfl⟩)
  obtain ⟨d,hd⟩ := hd
  obtain ⟨e,he,hholds,-⟩ := (hcompared _ _ (not_mentions hleft (by decide))
    (not_mentions hright (by decide))).2 d hd
  exact ⟨⟨_,u,table_eq_ok_iff.mpr ⟨_,hp,rfl⟩,hu,(hresults 3).2⟩,⟨d,e,hd,he,hholds⟩,
    (hundeclared _ _ hthird (exists_ofTokens_iff.mp ⟨_,rfl⟩) ⟨_,hthird,by decide⟩).1⟩

end Formulary.Logic
