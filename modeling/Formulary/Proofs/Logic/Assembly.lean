import Formulary.Proofs.Logic.Grammar

/-! Running a program on formulas instead of truth values. Each instruction joins the formulas on the
stack into a larger one, so a stack always spells the program that built it, and truth values are
read off it at the end. Which instruction fails is settled here, before any value is known. -/
namespace Formulary.Logic

/-- Joins formulas as the instruction joins their values. -/
def Instruction.grow : Instruction → List Formula → Except EvalError (List Formula)
  | letter l,stack => .ok (.letter l :: stack)
  | xor l r,stack => .ok (.xor l r :: stack)
  | operator .not,f :: below => .ok (.not f :: below)
  | operator .not,[] => .error .missingOperand
  | operator (.binary c),g :: f :: below => .ok (.binary c f g :: below)
  | operator (.binary c),_ => .error (.missingOperands c)

/-- The formulas on the stack after a program. -/
def Postfix.assemble : Postfix → List Formula → Except EvalError (List Formula)
  | [],stack => .ok stack
  | i :: rest,stack =>
    match i.grow stack with
    | .ok stack => Postfix.assemble rest stack
    | .error e => .error e

/-- The values of an assignment, and false for the letters it leaves out. -/
def Assignment.total (s : Assignment) (l : Letter) : Bool := (s.value? l).getD false

/-- An assignment covers a program when it gives a value to every letter that is read. -/
def Assignment.Covers (s : Assignment) (p : Postfix) : Prop :=
  ∀ l, p.uses l = true → (s.value? l).isSome = true

lemma Assignment.value_eq_ok {s : Assignment} {l : Letter} (h : (s.value? l).isSome = true) :
    s.value l = .ok (s.total l) := by
  obtain ⟨b,hb⟩ := Option.isSome_iff_exists.mp h
  simp [Assignment.value,Assignment.total,hb]

lemma Assignment.Covers.head {s : Assignment} {i : Instruction} {rest : Postfix}
    (h : s.Covers (i :: rest)) {l : Letter} (hl : l ∈ i.letters) : (s.value? l).isSome = true :=
  h l (by simp [Postfix.uses,hl])

lemma Assignment.Covers.tail {s : Assignment} {i : Instruction} {rest : Postfix}
    (h : s.Covers (i :: rest)) : s.Covers rest :=
  fun l hl => h l (by simp only [Postfix.uses,List.any_cons,Bool.or_eq_true]; exact .inr hl)

lemma apply_eq_value (c : Connective) (f g : Formula) (v : Letter → Bool) :
    c.apply (f.value v) (g.value v) = (Formula.binary c f g).value v := by
  cases c <;> rfl

/-- One instruction does to the values what it does to the formulas, faults included. -/
lemma step_map_value {s : Assignment} {i : Instruction}
    (hs : ∀ l ∈ i.letters, (s.value? l).isSome = true) (stack : List Formula) :
    i.step s (stack.map (Formula.value s.total)) =
      (i.grow stack).map (List.map (Formula.value s.total)) := by
  rcases i with l | ⟨l,r⟩ | (_ | c)
  · have hl := Assignment.value_eq_ok (hs l (by simp [Instruction.letters]))
    simp [Instruction.step,Instruction.grow,hl,Except.map,Formula.value]
  · have hl := Assignment.value_eq_ok (hs l (by simp [Instruction.letters]))
    have hr := Assignment.value_eq_ok (hs r (by simp [Instruction.letters]))
    simp [Instruction.step,Instruction.grow,hl,hr,bind,Except.bind,pure,Except.pure,Except.map,
      Formula.value]
  · rcases stack with _ | ⟨f,below⟩ <;>
      simp [Instruction.step,Instruction.grow,Except.map,Formula.value]
  · rcases stack with _ | ⟨g,_ | ⟨f,below⟩⟩ <;>
      simp [Instruction.step,Instruction.grow,Except.map,apply_eq_value]

/-- A whole program does to the values what it does to the formulas. -/
theorem run_map_value {s : Assignment} {p : Postfix} (hs : s.Covers p) (stack : List Formula) :
    Postfix.run s p (stack.map (Formula.value s.total)) =
      (p.assemble stack).map (List.map (Formula.value s.total)) := by
  induction p generalizing stack with
  | nil => rfl
  | cons i rest ih =>
    rw [Postfix.run,Postfix.assemble,step_map_value (fun _ => hs.head)]
    cases h : i.grow stack with
    | error e => rfl
    | ok stack' => exact ih hs.tail stack'

/-- The program of a formula puts that formula on the stack. -/
theorem assemble_postfixOrder (f : Formula) (rest : Postfix) (stack : List Formula) :
    Postfix.assemble (f.postfixOrder ++ rest) stack = Postfix.assemble rest (f :: stack) := by
  induction f generalizing rest stack with
  | letter l => rfl
  | xor l r => rfl
  | not f ih =>
    rw [Formula.postfixOrder,List.append_assoc,ih]
    rfl
  | binary c f g ihf ihg =>
    rw [Formula.postfixOrder,List.append_assoc,List.append_assoc,ihf,ihg]
    rfl

/-- The program that builds a stack, its bottom first. -/
def stackProgram (stack : List Formula) : Postfix := stack.reverse.flatMap Formula.postfixOrder

lemma stackProgram_cons (f : Formula) (stack : List Formula) :
    stackProgram (f :: stack) = stackProgram stack ++ f.postfixOrder := by
  simp [stackProgram]

lemma stackProgram_grow {i : Instruction} {stack stack' : List Formula}
    (h : i.grow stack = .ok stack') : stackProgram stack' = stackProgram stack ++ [i] := by
  rcases i with l | ⟨l,r⟩ | (_ | c)
  · cases h
    rw [stackProgram_cons,Formula.postfixOrder]
  · cases h
    rw [stackProgram_cons,Formula.postfixOrder]
  · rcases stack with _ | ⟨f,below⟩
    · cases h
    · cases h
      simp [stackProgram_cons,Formula.postfixOrder]
  · rcases stack with _ | ⟨g,_ | ⟨f,below⟩⟩
    · cases h
    · cases h
    · cases h
      simp [stackProgram_cons,Formula.postfixOrder]

/-- The stack after a program spells what was on it and the program. -/
theorem stackProgram_assemble {p : Postfix} {stack stack' : List Formula}
    (h : p.assemble stack = .ok stack') : stackProgram stack' = stackProgram stack ++ p := by
  induction p generalizing stack with
  | nil =>
    cases h
    simp
  | cons i rest ih =>
    rw [Postfix.assemble] at h
    cases hg : i.grow stack with
    | error e => simp [hg] at h
    | ok middle =>
      rw [hg] at h
      rw [ih h,stackProgram_grow hg,List.append_assoc,List.singleton_append]

/-- A program leaves one formula exactly when it is that formula in postfix order. -/
theorem assemble_eq_singleton_iff {p : Postfix} {f : Formula} :
    p.assemble [] = .ok [f] ↔ p = f.postfixOrder := by
  constructor
  · intro h
    simpa [stackProgram] using (stackProgram_assemble h).symm
  · rintro rfl
    simpa [Postfix.assemble] using assemble_postfixOrder f [] []

theorem postfixOrder_injective : Function.Injective Formula.postfixOrder := by
  intro f g h
  have hf : Postfix.assemble g.postfixOrder [] = .ok [f] := assemble_eq_singleton_iff.mpr h.symm
  rw [assemble_eq_singleton_iff.mpr rfl] at hf
  cases hf
  rfl

/-- Under an assignment that covers it, a program has a value exactly when it is a formula in
postfix order, and then it is the value of that formula. -/
theorem eval_eq_ok_iff {p : Postfix} {s : Assignment} (hs : s.Covers p) {b : Bool} :
    p.eval s = .ok b ↔ ∃ f : Formula, p = f.postfixOrder ∧ b = f.value s.total := by
  have hr := run_map_value hs []
  rw [List.map_nil] at hr
  constructor
  · intro h
    rw [Postfix.eval,hr] at h
    cases ha : p.assemble [] with
    | error e => simp [ha,Except.map] at h
    | ok stack =>
      rcases stack with _ | ⟨f,_ | ⟨g,below⟩⟩
      · simp [ha,Except.map] at h
      · refine ⟨f,assemble_eq_singleton_iff.mp ha,?_⟩
        simpa [ha,Except.map,eq_comm] using h
      · simp [ha,Except.map] at h
  · rintro ⟨f,rfl,rfl⟩
    rw [Postfix.eval,hr,assemble_eq_singleton_iff.mpr rfl]
    rfl

end Formulary.Logic
