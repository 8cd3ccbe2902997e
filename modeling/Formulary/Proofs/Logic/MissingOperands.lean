import Formulary.Proofs.Logic.Malformed

/-! Programs that are no formula. An operator that does not stand behind its operands stops a program;
where all of them do, the program is a row of formulas, and only a row of one has a value. The values of
the letters play no part in this, so a fault is the same under all of them. -/
namespace Formulary.Logic

/-- How many operands an operator takes. -/
def Operator.arity : Operator → ℕ
  | not => 1
  | binary _ => 2

/-- What is reported where an operator lacks operands. -/
def Operator.fault : Operator → EvalError
  | not => .missingOperand
  | binary c => .missingOperands c

namespace Postfix

/-- The program ends in so many formulas, one behind another. -/
def EndsIn (p : Postfix) (n : ℕ) : Prop :=
  ∃ (front : Postfix) (fs : List Formula),
    fs.length = n ∧ p = front ++ fs.flatMap Formula.postfixOrder

/-- Every operator stands behind its operands. -/
def Supplied (p : Postfix) : Prop :=
  ∀ (q : Postfix) (o : Operator) (rest : Postfix), p = q ++ .operator o :: rest → q.EndsIn o.arity

/-- The first operator that does not stand behind its operands. -/
def FirstLacking (p : Postfix) (o : Operator) : Prop :=
  ∃ q rest : Postfix, p = q ++ .operator o :: rest ∧ q.Supplied ∧ ¬q.EndsIn o.arity

/-- One value is left when each operand puts one and each connective makes one of two. -/
def LeavesOne (p : Postfix) : Prop :=
  p.countP Instruction.isOperand = p.countP Instruction.isConnective + 1

end Postfix

lemma assemble_append (p q : Postfix) (stack : List Formula) :
    Postfix.assemble (p ++ q) stack = (p.assemble stack).bind q.assemble := by
  induction p generalizing stack with
  | nil => rfl
  | cons i rest ih =>
    rw [List.cons_append,Postfix.assemble,Postfix.assemble]
    cases i.grow stack with
    | error e => rfl
    | ok stack' => exact ih stack'

/-- A row of formulas is put on the stack, the last one on top. -/
lemma assemble_flatMap (fs stack : List Formula) :
    Postfix.assemble (fs.flatMap Formula.postfixOrder) stack = .ok (fs.reverse ++ stack) := by
  induction fs generalizing stack with
  | nil => rfl
  | cons f fs ih =>
    rw [List.flatMap_cons,assemble_postfixOrder,ih,List.reverse_cons,List.append_assoc]
    rfl

/-- Only an operator fails, and only on a stack that is too low for it. -/
lemma grow_eq_error_iff {i : Instruction} {stack : List Formula} {e : EvalError} :
    i.grow stack = .error e ↔ ∃ o, i = .operator o ∧ stack.length < o.arity ∧ e = o.fault := by
  rcases i with l | ⟨l,r⟩ | (_ | c)
  · simp [Instruction.grow]
  · simp [Instruction.grow]
  · rcases stack with _ | ⟨f,below⟩ <;>
      simp [Instruction.grow,Operator.arity,Operator.fault,eq_comm]
  · rcases stack with _ | ⟨g,_ | ⟨f,below⟩⟩ <;>
      simp [Instruction.grow,Operator.arity,Operator.fault,eq_comm]

/-- A program fails at the first operator that finds the stack too low. -/
lemma assemble_eq_error_iff {p : Postfix} {stack : List Formula} {e : EvalError} :
    p.assemble stack = .error e ↔ ∃ (q : Postfix) (o : Operator) (rest : Postfix)
      (reached : List Formula), p = q ++ .operator o :: rest ∧ q.assemble stack = .ok reached ∧
        reached.length < o.arity ∧ e = o.fault := by
  constructor
  · intro h
    induction p generalizing stack with
    | nil => simp [Postfix.assemble] at h
    | cons i p ih =>
      rw [Postfix.assemble] at h
      cases hg : i.grow stack with
      | error e' =>
        rw [hg] at h
        cases h
        obtain ⟨o,rfl,hlow,rfl⟩ := grow_eq_error_iff.mp hg
        exact ⟨[],o,p,stack,rfl,rfl,hlow,rfl⟩
      | ok stack' =>
        rw [hg] at h
        obtain ⟨q,o,rest,reached,rfl,hq,hlow,rfl⟩ := ih h
        refine ⟨i :: q,o,rest,reached,rfl,?_,hlow,rfl⟩
        rw [Postfix.assemble,hg]
        exact hq
  · rintro ⟨q,o,rest,reached,rfl,hq,hlow,rfl⟩
    have hg := grow_eq_error_iff.mpr ⟨o,rfl,hlow,rfl⟩
    rw [assemble_append,hq,Except.bind,Postfix.assemble,hg]

/-- What a program ends in shows on the stack it leaves. -/
lemma endsIn_iff {p : Postfix} {stack : List Formula} (h : p.assemble [] = .ok stack) {n : ℕ} :
    p.EndsIn n ↔ n ≤ stack.length := by
  constructor
  · rintro ⟨front,fs,rfl,rfl⟩
    rw [assemble_append] at h
    obtain ⟨below,-,hfs⟩ := bind_eq_ok_iff.mp h
    rw [assemble_flatMap] at hfs
    cases hfs
    simp
  · intro hn
    refine ⟨stackProgram (stack.drop n),(stack.take n).reverse,by simp [hn],?_⟩
    have hp : stackProgram stack = p := by simpa [stackProgram] using stackProgram_assemble h
    rw [← hp,stackProgram,stackProgram,← List.flatMap_append,← List.reverse_append,
      List.take_append_drop]

/-- A program runs to its end exactly when each operator stands behind its operands. -/
lemma supplied_iff {p : Postfix} : p.Supplied ↔ ∃ stack, p.assemble [] = .ok stack := by
  constructor
  · intro h
    cases ha : p.assemble [] with
    | ok stack => exact ⟨stack,rfl⟩
    | error e =>
      obtain ⟨q,o,rest,reached,hp,hq,hlow,-⟩ := assemble_eq_error_iff.mp ha
      have hle := (endsIn_iff hq).mp (h q o rest hp)
      omega
  · rintro ⟨stack,h⟩ q o rest rfl
    rw [assemble_append] at h
    obtain ⟨reached,hq,hrest⟩ := bind_eq_ok_iff.mp h
    rw [endsIn_iff hq]
    by_contra hlow
    have hg := grow_eq_error_iff.mpr ⟨o,rfl,not_le.mp hlow,rfl⟩
    rw [Postfix.assemble,hg] at hrest
    cases hrest

lemma exists_firstLacking_iff {p : Postfix} {e : EvalError} :
    (∃ o, p.FirstLacking o ∧ e = o.fault) ↔ p.assemble [] = .error e := by
  rw [assemble_eq_error_iff]
  constructor
  · rintro ⟨o,⟨q,rest,hp,hs,hlack⟩,rfl⟩
    obtain ⟨reached,hq⟩ := supplied_iff.mp hs
    exact ⟨q,o,rest,reached,hp,hq,not_le.mp (mt (endsIn_iff hq).mpr hlack),rfl⟩
  · rintro ⟨q,o,rest,reached,hp,hq,hlow,rfl⟩
    exact ⟨o,⟨q,rest,hp,supplied_iff.mpr ⟨reached,hq⟩,mt (endsIn_iff hq).mp (not_le.mpr hlow)⟩,rfl⟩

lemma leavesOne_iff {p : Postfix} {stack : List Formula} (h : p.assemble [] = .ok stack) :
    p.LeavesOne ↔ stack.length = 1 := by
  suffices hcount : p.countP Instruction.isOperand =
      p.countP Instruction.isConnective + stack.length by
    rw [Postfix.LeavesOne]
    omega
  have hp : stackProgram stack = p := by simpa [stackProgram] using stackProgram_assemble h
  subst hp
  clear h
  induction stack with
  | nil => rfl
  | cons f stack ih =>
    have hf := operands_postfixOrder f
    rw [stackProgram_cons,List.countP_append,List.countP_append,List.length_cons]
    omega

/-- Under an assignment that covers it, a program fails where it fails on formulas, or in the end when
there is not exactly one. -/
lemma eval_eq_error_iff {p : Postfix} {s : Assignment} (hs : s.Covers p) {e : EvalError} :
    p.eval s = .error e ↔ p.assemble [] = .error e ∨
      ∃ stack, p.assemble [] = .ok stack ∧ stack.length ≠ 1 ∧ e = .invalidExpression := by
  have hr := run_map_value hs []
  rw [List.map_nil] at hr
  rw [Postfix.eval,hr]
  cases ha : p.assemble [] with
  | error e' => simp [Except.map]
  | ok stack =>
    rcases stack with _ | ⟨f,_ | ⟨g,below⟩⟩ <;> simp [Except.map,eq_comm]

lemma Assignment.covers_of_value {p : Postfix} {s : Assignment} {v : Letter → Bool}
    (hv : ∀ l, p.uses l = true → s.value? l = some (v l)) : s.Covers p := by
  intro l hl
  rw [hv l hl]
  rfl

/-- A program has a value exactly when it is a formula in postfix order, which is then the only one, and
the value is the formula's. Otherwise the first operator that does not stand behind its operands is
reported; if there is none, the program leaves no value or several, and that is reported. Every
assignment to its letters meets the same fault. -/
theorem eval_iff_formula {p : Postfix} {s : Assignment} {v : Letter → Bool}
    (hv : ∀ l, p.uses l = true → s.value? l = some (v l)) :
    (∀ b, p.eval s = .ok b ↔ ∃ f : Formula, p = f.postfixOrder ∧
      (∀ g : Formula, p = g.postfixOrder → g = f) ∧ b = f.value v) ∧
    (∀ e, p.eval s = .error e ↔ (∃ o, p.FirstLacking o ∧ e = o.fault) ∨
      (p.Supplied ∧ ¬p.LeavesOne ∧ e = .invalidExpression)) ∧
    ∀ (t : Assignment) (w : Letter → Bool), (∀ l, p.uses l = true → t.value? l = some (w l)) →
      ∀ e, p.eval t = .error e ↔ p.eval s = .error e := by
  have hs := Assignment.covers_of_value hv
  refine ⟨fun b => ?_,fun e => ?_,fun t w hw e => ?_⟩
  · have hvalue : ∀ f : Formula, p = f.postfixOrder → f.value s.total = f.value v := by
      rintro f rfl
      refine value_congr fun l hl => ?_
      rw [Assignment.total,hv l ((uses_postfixOrder f l).mpr hl)]
      rfl
    rw [eval_eq_ok_iff hs]
    constructor
    · rintro ⟨f,hf,rfl⟩
      exact ⟨f,hf,fun g hg => postfixOrder_injective (hg.symm.trans hf),hvalue f hf⟩
    · rintro ⟨f,hf,-,rfl⟩
      exact ⟨f,hf,(hvalue f hf).symm⟩
  · rw [eval_eq_error_iff hs,exists_firstLacking_iff]
    refine or_congr_right ⟨?_,?_⟩
    · rintro ⟨stack,ha,hone,rfl⟩
      exact ⟨supplied_iff.mpr ⟨stack,ha⟩,mt (leavesOne_iff ha).mp hone,rfl⟩
    · rintro ⟨hsupplied,hone,rfl⟩
      obtain ⟨stack,ha⟩ := supplied_iff.mp hsupplied
      exact ⟨stack,ha,mt (leavesOne_iff ha).mpr hone,rfl⟩
  · rw [eval_eq_error_iff (Assignment.covers_of_value hw),eval_eq_error_iff hs]

/-- An arrow with one operand only is reported although a second one comes behind it. -/
theorem eval_iff_formula_arrow :
    let p : Postfix := [.letter .a,.operator .not,.operator (.binary .implies),.letter .b]
    let s := Assignment.ofList [(.a,true),(.b,false)]
    (∀ l, p.uses l = true → s.value? l = some (l == .a)) ∧
      p.FirstLacking (.binary .implies) ∧ p.eval s = .error (.missingOperands .implies) ∧
      p.eval (.ofList [(.a,false),(.b,true)]) = .error (.missingOperands .implies) := by
  have hv : ∀ l, Postfix.uses [.letter .a,.operator .not,.operator (.binary .implies),.letter .b] l =
      true → (Assignment.ofList [(.a,true),(.b,false)]).value? l = some (l == .a) := by
    intro l
    cases l <;> decide
  have hw : ∀ l, Postfix.uses [.letter .a,.operator .not,.operator (.binary .implies),.letter .b] l =
      true → (Assignment.ofList [(.a,false),(.b,true)]).value? l = some (l == .b) := by
    intro l
    cases l <;> decide
  obtain ⟨-,hfault,hsame⟩ := eval_iff_formula hv
  have hf := (hfault (.missingOperands .implies)).mp rfl
  have ho := (hsame _ _ hw (.missingOperands .implies)).mpr rfl
  refine ⟨hv,?_,rfl,ho⟩
  obtain ⟨o,hlack,ho⟩ | ⟨-,-,h⟩ := hf
  · cases o with
    | not => cases ho
    | binary c =>
      cases ho
      exact hlack
  · cases h

end Formulary.Logic
