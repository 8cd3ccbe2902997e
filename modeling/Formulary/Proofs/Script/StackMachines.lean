import Formulary.Proofs.Script.Rendering

/-! A program is read by three machines: one counts, one computes values and one writes texts. The
last two are one machine over different items, which goes on with a stand-in where an operand is
missing. On an expression in postfix order no stand-in is ever taken and one item is left, and the
count lets no other program through. -/
namespace Formulary

namespace Calculus

/-- What the instructions make of the items on a stack. -/
structure Items (α : Type) where
  number : Float → α
  x : α
  pi : α
  negate : α → α
  binary : Operator → α → α → α
  call : Routine → α → α

namespace Items
variable {α : Type} (k : Items α)

/-- The item of an expression, from the items of its operands. -/
def of : Expression → α
  | .number v => k.number v
  | .x => k.x
  | .pi => k.pi
  | .negate e => k.negate (of e)
  | .binary o l r => k.binary o (of l) (of r)
  | .call r e => k.call r (of e)

/-- One instruction on a stack of items; `none` when an operand is missing. -/
def step? : Instruction → List α → Option (List α)
  | .number v,stack => some (k.number v :: stack)
  | .x,stack => some (k.x :: stack)
  | .pi,stack => some (k.pi :: stack)
  | .negate,a :: below => some (k.negate a :: below)
  | .call r,a :: below => some (k.call r a :: below)
  | .binary o,right :: left :: below => some (k.binary o left right :: below)
  | _,_ => none

/-- The items on the stack after a program; `none` when an operand was missing. -/
def run? : Program → List α → Option (List α)
  | [],stack => some stack
  | i :: rest,stack => (k.step? i stack).bind (run? rest)

/-- Items join as the expressions they belong to, and are missing where those are. -/
lemma step?_map_of (i : Instruction) (stack : List Expression) :
    k.step? i (stack.map k.of) = (i.grow stack).map (List.map k.of) := by
  rcases i with v | _ | _ | _ | o | r
  all_goals rcases stack with _ | ⟨e,_ | ⟨e',below⟩⟩ <;> rfl

theorem run?_map_of (p : Program) (stack : List Expression) :
    k.run? p (stack.map k.of) = (p.assemble stack).map (List.map k.of) := by
  induction p generalizing stack with
  | nil => rfl
  | cons i p ih =>
    rw [run?,Program.assemble,step?_map_of]
    cases i.grow stack with
    | none => rfl
    | some middle => exact ih middle

/-- A program leaves one item exactly when it is an expression in postfix order, and then it is the
item of that expression. -/
theorem run?_eq_singleton_iff {p : Program} {a : α} :
    k.run? p [] = some [a] ↔ ∃ e : Expression, p = e.postfixOrder ∧ a = k.of e := by
  have h := k.run?_map_of p []
  rw [List.map_nil] at h
  simp only [h,Option.map_eq_some_iff,List.map_eq_singleton_iff,← assemble_eq_singleton_iff]
  constructor
  · rintro ⟨_,he,e,rfl,rfl⟩
    exact ⟨e,he,rfl⟩
  · rintro ⟨e,he,rfl⟩
    exact ⟨[e],he,e,rfl,rfl⟩

end Items

/-- The stack of a machine after a program. -/
def stackAfter {α : Type} (step : Instruction → List α → List α) (p : Program) (stack : List α) :
    List α :=
  p.foldl (fun stack i => step i stack) stack

/-- As long as no operand is missing, a machine makes these items. -/
def Makes {α : Type} (step : Instruction → List α → List α) (k : Items α) : Prop :=
  ∀ i stack, k.step? i stack = if i.arity ≤ stack.length then some (step i stack) else none

/-- No instruction of a program meets fewer items on the stack than it takes. -/
def Supplied {α : Type} (step : Instruction → List α → List α) (p : Program) (stack : List α) :
    Prop :=
  ∀ before i after, p = before ++ i :: after → i.arity ≤ (stackAfter step before stack).length

section
variable {α : Type} {step : Instruction → List α → List α} {k : Items α}

lemma supplied_nil (stack : List α) : Supplied step [] stack := by
  intro before i after h
  simp at h

lemma supplied_cons {i : Instruction} {p : Program} {stack : List α} :
    Supplied step (i :: p) stack ↔ i.arity ≤ stack.length ∧ Supplied step p (step i stack) := by
  constructor
  · intro h
    exact ⟨h [] i p rfl,fun before j after hp => h (i :: before) j after (by rw [hp]; rfl)⟩
  · rintro ⟨hi,hp⟩ before j after h
    rcases List.cons_eq_append_iff.mp h with ⟨rfl,hj⟩ | ⟨before,rfl,hj⟩
    · cases hj
      exact hi
    · exact hp before j after hj

/-- The machine without stand-ins reaches the end exactly when the other is never short of an
operand, and both leave the same. -/
theorem run?_eq_some_iff (hk : Makes step k) {p : Program} {stack stack' : List α} :
    k.run? p stack = some stack' ↔ Supplied step p stack ∧ stackAfter step p stack = stack' := by
  induction p generalizing stack with
  | nil => simp [Items.run?,stackAfter,supplied_nil]
  | cons i p ih =>
    rw [Items.run?,hk,supplied_cons,stackAfter,List.foldl_cons]
    by_cases hi : i.arity ≤ stack.length
    · rw [if_pos hi,Option.bind_some,ih,and_iff_right hi]
      rfl
    · simp [hi]

/-- A machine completes a program when one item is left and no operand was a stand-in: every
instruction finds as many items as it takes, and without stand-ins the machine gets as far. -/
structure Completes (step : Instruction → List α → List α) (k : Items α) (p : Program) (a : α) :
    Prop where
  makes : Makes step k
  strictly : k.run? p [] = some [a]
  supplied : Supplied step p []
  leaves : stackAfter step p [] = [a]

lemma completes_iff (hk : Makes step k) {p : Program} {a : α} :
    Completes step k p a ↔ ∃ e : Expression, p = e.postfixOrder ∧ a = k.of e := by
  rw [← k.run?_eq_singleton_iff]
  constructor
  · exact Completes.strictly
  · intro h
    obtain ⟨hs,hl⟩ := (run?_eq_some_iff hk).mp h
    exact ⟨hk,h,hs,hl⟩

end

/-- The values at a point. -/
def values (point : Float) : Items Float where
  number v := v
  x := point
  pi := piValue
  negate v := -v
  binary := Operator.apply
  call := Routine.apply

lemma values_of (point : Float) (e : Expression) : (values point).of e = e.value point := by
  induction e with
  | number v => rfl
  | x => rfl
  | pi => rfl
  | negate e ih => rw [Items.of,ih]; rfl
  | binary o l r ihl ihr => rw [Items.of,ihl,ihr]; rfl
  | call r e ih => rw [Items.of,ih]; rfl

lemma makes_values (point : Float) : Makes (Instruction.step point) (values point) := by
  intro i stack
  rcases i with v | _ | _ | _ | o | r
  all_goals rcases stack with _ | ⟨a,_ | ⟨b,below⟩⟩
  all_goals simp [Items.step?,Instruction.arity,Instruction.step,values,pop]

end Calculus

namespace Script
open Calculus

/-- The texts of a script. -/
def texts : Items String where
  number := numberLiteral
  x := "x"
  pi := "pi"
  negate t := "(-" ++ t ++ ")"
  binary o l r := "(" ++ l ++ " " ++ elementwise o ++ " " ++ r ++ ")"
  call r t := r.name ++ "(" ++ t ++ ")"

lemma texts_of (e : Expression) : texts.of e = spelling e := by
  induction e with
  | number v => rfl
  | x => rfl
  | pi => rfl
  | negate e ih => rw [Items.of,ih]; rfl
  | binary o l r ihl ihr => rw [Items.of,ihl,ihr]; rfl
  | call r e ih => rw [Items.of,ih]; rfl

lemma makes_texts : Makes writeStep texts := by
  intro i stack
  rcases i with v | _ | _ | _ | o | r
  all_goals rcases stack with _ | ⟨a,_ | ⟨b,below⟩⟩
  all_goals simp [Items.step?,Instruction.arity,writeStep,texts,popText]

/-- The count lets through the expressions in postfix order and nothing else. They are what the two
machines complete, with the value and the text of the expression. -/
theorem isDisciplined_exact (p : Program) :
    (p.isDisciplined = true ↔ ∃! e : Expression, p = e.postfixOrder) ∧
    (∀ point v, Completes (Instruction.step point) (values point) p v ↔
      ∃ e : Expression, p = e.postfixOrder ∧ v = e.value point) ∧
    (∀ t, Completes writeStep texts p t ↔ ∃ e : Expression, p = e.postfixOrder ∧ t = spelling e) ∧
    ∀ e : Expression, (∀ point, Program.run point e.postfixOrder [] = [e.value point] ∧
      Program.eval e.postfixOrder point = e.value point) ∧
      vectorized e.postfixOrder = spelling e := by
  refine ⟨?_,?_,?_,?_⟩
  · rw [isDisciplined_iff_exists]
    constructor
    · rintro ⟨e,he⟩
      exact ⟨e,he,fun e' he' => postfixOrder_injective (he'.symm.trans he)⟩
    · exact ExistsUnique.exists
  · intro point v
    simp only [completes_iff (makes_values point),values_of]
  · intro t
    simp only [completes_iff makes_texts,texts_of]
  · intro e
    exact ⟨fun point => ⟨run_postfixOrder e point,eval_postfixOrder e point⟩,
      vectorized_postfixOrder e⟩

end Script
end Formulary
