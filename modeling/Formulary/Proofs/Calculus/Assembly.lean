import Formulary.Calculus.Evaluation
import Formulary.Calculus.Expression
import Mathlib.Tactic.Common

/-! Running a program on expressions instead of numbers. A stack of expressions always spells the
program that built it, so a program leaves one expression exactly when it is that expression in
postfix order. Such a program finds every operand it takes. -/
namespace Formulary.Calculus

/-- The value of an expression at a point. -/
def Expression.value (point : Float) : Expression → Float
  | number v => v
  | x => point
  | pi => piValue
  | negate e => -(e.value point)
  | binary o l r => o.apply (l.value point) (r.value point)
  | call r e => r.apply (e.value point)

/-- Joins expressions as the instruction joins their values; `none` when an operand is missing. -/
def Instruction.grow : Instruction → List Expression → Option (List Expression)
  | number v,stack => some (.number v :: stack)
  | x,stack => some (.x :: stack)
  | pi,stack => some (.pi :: stack)
  | negate,e :: below => some (.negate e :: below)
  | call r,e :: below => some (.call r e :: below)
  | binary o,r :: l :: below => some (.binary o l r :: below)
  | _,_ => none

/-- The expressions on the stack after a program. -/
def Program.assemble : Program → List Expression → Option (List Expression)
  | [],stack => some stack
  | i :: rest,stack => (i.grow stack).bind (Program.assemble rest)

lemma assemble_append (p q : Program) (stack : List Expression) :
    Program.assemble (p ++ q) stack = (p.assemble stack).bind q.assemble := by
  induction p generalizing stack with
  | nil => rfl
  | cons i p ih =>
    rw [List.cons_append,Program.assemble,Program.assemble,Option.bind_assoc]
    exact congrArg _ (funext ih)

/-- The program of an expression puts that expression on the stack. -/
theorem assemble_postfixOrder (e : Expression) (stack : List Expression) :
    Program.assemble e.postfixOrder stack = some (e :: stack) := by
  induction e generalizing stack with
  | number v => rfl
  | x => rfl
  | pi => rfl
  | negate e ih =>
    rw [Expression.postfixOrder,assemble_append,ih]
    rfl
  | binary o l r ihl ihr =>
    rw [Expression.postfixOrder,assemble_append,assemble_append,ihl,Option.bind_some,ihr]
    rfl
  | call r e ih =>
    rw [Expression.postfixOrder,assemble_append,ih]
    rfl

/-- The program that builds a stack, its bottom first. -/
def stackProgram (stack : List Expression) : Program :=
  stack.reverse.flatMap Expression.postfixOrder

lemma stackProgram_cons (e : Expression) (stack : List Expression) :
    stackProgram (e :: stack) = stackProgram stack ++ e.postfixOrder := by
  simp [stackProgram]

lemma stackProgram_grow {i : Instruction} {stack stack' : List Expression}
    (h : i.grow stack = some stack') : stackProgram stack' = stackProgram stack ++ [i] := by
  cases i with
  | negate =>
    rcases stack with _ | ⟨e,below⟩ <;> cases h
    simp [stackProgram_cons,Expression.postfixOrder]
  | call r =>
    rcases stack with _ | ⟨e,below⟩ <;> cases h
    simp [stackProgram_cons,Expression.postfixOrder]
  | binary o =>
    rcases stack with _ | ⟨r,_ | ⟨l,below⟩⟩ <;> cases h
    simp [stackProgram_cons,Expression.postfixOrder]
  | _ =>
    cases h
    rw [stackProgram_cons,Expression.postfixOrder]

/-- The stack after a program spells what was on it and the program. -/
theorem stackProgram_assemble {p : Program} {stack stack' : List Expression}
    (h : p.assemble stack = some stack') : stackProgram stack' = stackProgram stack ++ p := by
  induction p generalizing stack with
  | nil =>
    cases h
    rw [List.append_nil]
  | cons i p ih =>
    obtain ⟨middle,hi,hp⟩ := Option.bind_eq_some_iff.mp h
    rw [ih hp,stackProgram_grow hi,List.append_assoc,List.singleton_append]

/-- A program leaves one expression exactly when it is that expression in postfix order. -/
theorem assemble_eq_singleton_iff {p : Program} {e : Expression} :
    p.assemble [] = some [e] ↔ p = e.postfixOrder := by
  constructor
  · intro h
    simpa [stackProgram] using (stackProgram_assemble h).symm
  · rintro rfl
    exact assemble_postfixOrder e []

theorem postfixOrder_injective : Function.Injective Expression.postfixOrder := by
  intro e e' h
  have he := assemble_postfixOrder e []
  rw [h,assemble_postfixOrder] at he
  cases he
  rfl

/-- An instruction fails to join expressions exactly when they are fewer than it takes. -/
lemma grow_isSome (i : Instruction) (stack : List Expression) :
    (i.grow stack).isSome = true ↔ i.arity ≤ stack.length := by
  rcases i with v | _ | _ | _ | o | r
  all_goals rcases stack with _ | ⟨e,_ | ⟨e',below⟩⟩
  all_goals simp [Instruction.grow,Instruction.arity]

/-- One expression takes the place of the operands, and its value that of their values. -/
lemma grow_cases {i : Instruction} {stack stack' : List Expression}
    (h : i.grow stack = some stack') : ∃ taken below e, stack = taken ++ below ∧
      taken.length = i.arity ∧ stack' = e :: below ∧ ∀ point values,
        i.step point (taken.map (Expression.value point) ++ values) = e.value point :: values := by
  cases i with
  | number v =>
    cases h
    exact ⟨[],stack,_,rfl,rfl,rfl,fun _ _ => rfl⟩
  | x =>
    cases h
    exact ⟨[],stack,_,rfl,rfl,rfl,fun _ _ => rfl⟩
  | pi =>
    cases h
    exact ⟨[],stack,_,rfl,rfl,rfl,fun _ _ => rfl⟩
  | negate =>
    rcases stack with _ | ⟨e,below⟩ <;> cases h
    exact ⟨[e],below,_,rfl,rfl,rfl,fun _ _ => rfl⟩
  | call r =>
    rcases stack with _ | ⟨e,below⟩ <;> cases h
    exact ⟨[e],below,_,rfl,rfl,rfl,fun _ _ => rfl⟩
  | binary o =>
    rcases stack with _ | ⟨r,_ | ⟨l,below⟩⟩ <;> cases h
    exact ⟨[r,l],below,_,rfl,rfl,rfl,fun _ _ => rfl⟩

lemma length_of_grow {i : Instruction} {stack stack' : List Expression}
    (h : i.grow stack = some stack') : stack'.length = stack.length - i.arity + 1 := by
  obtain ⟨taken,below,e,rfl,hn,rfl,-⟩ := grow_cases h
  rw [List.length_append,List.length_cons,hn]
  omega

/-- One instruction that finds its operands does to the values what it does to the expressions. -/
lemma step_map_value {i : Instruction} {stack stack' : List Expression}
    (h : i.grow stack = some stack') (point : Float) :
    i.step point (stack.map (Expression.value point)) = stack'.map (Expression.value point) := by
  obtain ⟨taken,below,e,rfl,-,rfl,hv⟩ := grow_cases h
  rw [List.map_append,hv,List.map_cons]

/-- A whole program that finds its operands does so too. -/
theorem run_map_value {p : Program} {stack stack' : List Expression}
    (h : p.assemble stack = some stack') (point : Float) :
    p.run point (stack.map (Expression.value point)) = stack'.map (Expression.value point) := by
  induction p generalizing stack with
  | nil =>
    cases h
    rfl
  | cons i p ih =>
    obtain ⟨middle,hi,hp⟩ := Option.bind_eq_some_iff.mp h
    rw [Program.run,List.foldl_cons,step_map_value hi]
    exact ih hp

lemma run_postfixOrder (e : Expression) (point : Float) :
    Program.run point e.postfixOrder [] = [e.value point] :=
  run_map_value (assemble_postfixOrder e []) point

lemma eval_postfixOrder (e : Expression) (point : Float) :
    Program.eval e.postfixOrder point = e.value point := by
  rw [Program.eval,run_postfixOrder]
  rfl

/-- No instruction of an expression in postfix order ever misses an operand. -/
theorem arity_le_of_postfixOrder {e : Expression} {before after : Program} {i : Instruction}
    (h : e.postfixOrder = before ++ i :: after) (point : Float) :
    i.arity ≤ (Program.run point before []).length := by
  have ha := assemble_postfixOrder e []
  rw [h,assemble_append] at ha
  obtain ⟨stack,hb,hi⟩ := Option.bind_eq_some_iff.mp ha
  obtain ⟨middle,hg,-⟩ := Option.bind_eq_some_iff.mp hi
  have hr := run_map_value hb point
  rw [List.map_nil] at hr
  rw [hr,List.length_map]
  exact (grow_isSome i stack).mp (by rw [hg]; rfl)

/-- What the discipline counts is the depth of the stack of expressions, and an operand is missing
for the count when it is missing on the stack. -/
lemma depth?_length (p : Program) (stack : List Expression) :
    p.depth? stack.length = (p.assemble stack).map List.length := by
  induction p generalizing stack with
  | nil => rfl
  | cons i p ih =>
    rw [Program.depth?,Program.assemble]
    cases hi : i.grow stack with
    | none =>
      have ha : ¬i.arity ≤ stack.length := fun h => by
        simpa [hi] using (grow_isSome i stack).mpr h
      rw [if_pos (Nat.lt_of_not_le ha)]
      rfl
    | some middle =>
      have ha := (grow_isSome i stack).mp (by rw [hi]; rfl)
      rw [if_neg (Nat.not_lt_of_le ha),← length_of_grow hi]
      exact ih middle

/-- A program is disciplined exactly when it is some expression in postfix order. -/
theorem isDisciplined_iff_exists (p : Program) :
    p.isDisciplined = true ↔ ∃ e : Expression, p = e.postfixOrder := by
  have hd : p.depth? 0 = (p.assemble []).map List.length := depth?_length p []
  simp only [Program.isDisciplined,hd,beq_iff_eq,Option.map_eq_some_iff,List.length_eq_one_iff,
    ← assemble_eq_singleton_iff]
  constructor
  · rintro ⟨_,h,e,rfl⟩
    exact ⟨e,h⟩
  · rintro ⟨e,h⟩
    exact ⟨[e],h,e,rfl⟩

theorem isDisciplined_postfixOrder (e : Expression) :
    Program.isDisciplined e.postfixOrder = true :=
  (isDisciplined_iff_exists _).mpr ⟨e,rfl⟩

end Formulary.Calculus
