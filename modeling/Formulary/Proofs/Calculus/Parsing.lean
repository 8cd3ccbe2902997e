import Formulary.Proofs.Calculus.Assembly
import Formulary.Proofs.Calculus.OpenPhrases

/-! The compiler of functions accepts exactly the sentences of its grammar, and what it makes of one
is the only expression the sentence spells, in postfix order. -/
namespace Formulary.Calculus

/-- The token is refused. An unexpected one is refused in that way whatever follows it. -/
def Refused (operandNext : Bool) (w : List Pending) (last : Option Operator) (t : Placed)
    (ts : List Placed) : Prop :=
  ∃ e, reorder w operandNext last (t :: ts) = .error e ∧ ∀ u i, e = .unexpected u i →
    t = ⟨u,i⟩ ∧ ∀ rest, reorder w operandNext last (t :: rest) = .error e

/-- The tokens are taken in, and what is reached then does not depend on what follows them. -/
def TakenIn (operandNext : Bool) (w : List Pending) (last : Option Operator)
    (us front : List Placed) : Prop :=
  ∃ next w' last' out, Reached next w' (us ++ front) ∧ ∀ rest,
    reorder w operandNext last (front ++ rest) = (reorder w' next last' rest).map (out ++ ·)

lemma refused_unexpected {operandNext : Bool} {w : List Pending} {last : Option Operator}
    {t : Token} {i : ℕ} (h : ∀ rest, reorder w operandNext last (⟨t,i⟩ :: rest) =
      .error (.unexpected t i)) (ts : List Placed) : Refused operandNext w last ⟨t,i⟩ ts := by
  refine ⟨_,h ts,fun u j hu => ?_⟩
  cases hu
  exact ⟨rfl,h⟩

lemma refused_otherwise {operandNext : Bool} {w : List Pending} {last : Option Operator}
    {t : Placed} {ts : List Placed} {e : SyntaxError}
    (h : reorder w operandNext last (t :: ts) = .error e) (he : ∀ u i, e ≠ .unexpected u i) :
    Refused operandNext w last t ts :=
  ⟨e,h,fun u i hu => absurd hu (he u i)⟩

/-- Reading on where an operand belongs. A routine is taken in with its parenthesis. -/
lemma reached_operand_step {w : List Pending} {us : List Placed} (hr : Reached true w us)
    (last : Option Operator) (t : Placed) (ts : List Placed) : Refused true w last t ts ∨
      ∃ front rest, t :: ts = front ++ rest ∧ front ≠ [] ∧ TakenIn true w last us front := by
  obtain ⟨t,i⟩ := t
  cases t with
  | number v =>
    exact .inr ⟨[_],ts,rfl,by simp,false,w,last,[.number v],hr.operand (.number v i),fun _ => rfl⟩
  | x => exact .inr ⟨[_],ts,rfl,by simp,false,w,last,[.x],hr.operand (.x i),fun _ => rfl⟩
  | pi => exact .inr ⟨[_],ts,rfl,by simp,false,w,last,[.pi],hr.operand (.pi i),fun _ => rfl⟩
  | routine r =>
    obtain ⟨m,hm⟩ := hr
    cases hb : beginsOpening ts with
    | false => exact .inl (refused_otherwise (by simp [reorder,hb]; rfl) (by simp))
    | true =>
      obtain ⟨j,ts,rfl⟩ : ∃ j ts', ts = ⟨.opening,j⟩ :: ts' := by
        unfold beginsOpening at hb
        split at hb
        · exact ⟨_,_,rfl⟩
        · cases hb
      refine .inr ⟨[_,_],ts,rfl,by simp,true,_,last,[],⟨_,hm.call r i j⟩,fun rest => ?_⟩
      rw [map_nil_append]
      simp [reorder,beginsOpening]
  | operator o =>
    obtain ⟨m,hm⟩ := hr
    cases o with
    | subtract =>
      exact .inr ⟨[_],ts,rfl,by simp,true,_,_,[],⟨_,hm.minus i⟩,fun _ => (map_nil_append _).symm⟩
    | add =>
      exact .inr ⟨[_],ts,rfl,by simp,true,_,_,[],⟨_,hm.plus i⟩,fun _ => (map_nil_append _).symm⟩
    | _ => exact .inl (refused_otherwise rfl (by simp))
  | opening =>
    obtain ⟨m,hm⟩ := hr
    exact .inr ⟨[_],ts,rfl,by simp,true,_,last,[],⟨_,hm.opening i⟩,
      fun _ => (map_nil_append _).symm⟩
  | closing => exact .inl (refused_unexpected (fun _ => rfl) ts)
  | comma => exact .inl (refused_unexpected (fun _ => rfl) ts)

/-- Reading on behind an operand, where only an operator or a closing parenthesis is right. -/
lemma reached_operator_step {w : List Pending} {us : List Placed} (hr : Reached false w us)
    (last : Option Operator) (t : Placed) (ts : List Placed) : Refused false w last t ts ∨
      ∃ front rest, t :: ts = front ++ rest ∧ front ≠ [] ∧ TakenIn false w last us front := by
  obtain ⟨t,i⟩ := t
  cases t with
  | operator o =>
    obtain ⟨m,vs,e,zs,hx,he,rfl⟩ := hr
    exact .inr ⟨[_],ts,rfl,by simp,true,_,_,_,⟨_,hx.release_binary o i he⟩,fun _ => rfl⟩
  | closing =>
    cases hc : close? w with
    | none => exact .inl (refused_otherwise (by simp [reorder,hc]; rfl) (by simp))
    | some v =>
      exact .inr ⟨[_],ts,rfl,by simp,false,_,last,v.1,hr.closing hc i,fun rest => reorder_closing hc⟩
  | _ => exact .inl (refused_unexpected (fun _ => rfl) ts)

/-- From whatever has been reached, the next token is refused or a front of the rest taken in. -/
theorem reached_step {operandNext : Bool} {w : List Pending} {us : List Placed}
    (hr : Reached operandNext w us) (last : Option Operator) (t : Placed) (ts : List Placed) :
    Refused operandNext w last t ts ∨ ∃ front rest, t :: ts = front ++ rest ∧ front ≠ [] ∧
      TakenIn operandNext w last us front := by
  cases operandNext with
  | true => exact reached_operand_step hr last t ts
  | false => exact reached_operator_step hr last t ts

/-- Reading on to the end without a fault finishes a sentence. -/
theorem reached_sentence {operandNext : Bool} {w : List Pending} {last : Option Operator}
    {us ts : List Placed} {p : Program} (hr : Reached operandNext w us)
    (h : reorder w operandNext last ts = .ok p) : ∃ e, Spells .sum e (us ++ ts) := by
  -- By length, since a routine is read together with its parenthesis.
  induction ts using (measure List.length).wf.induction generalizing operandNext w last us p with
  | h ts ih =>
    rcases ts with _ | ⟨t,ts⟩
    · cases operandNext with
      | true => cases last <;> simp [reorder] at h
      | false =>
        cases hw : w.any Pending.isOpening with
        | true => simp [reorder,hw] at h
        | false => simpa using hr.sentence hw
    · rcases reached_step hr last t ts with ⟨e,he,-⟩ | ⟨front,rest,hts,hne,next,w',last',out,hr',ho⟩
      · rw [he] at h
        cases h
      · rw [hts,ho] at h
        obtain ⟨q,hq,-⟩ := map_eq_ok_iff.mp h
        have hl : rest.length < (t :: ts).length := by
          rw [hts,List.length_append]
          exact Nat.lt_add_of_pos_left (List.length_pos_iff.mpr hne)
        rw [hts,← List.append_assoc]
        exact ih rest hl hr' hq

/-- Reordering accepts exactly the sentences. -/
theorem reorder_eq_ok_iff {ts : List Placed} {p : Program} :
    reorder [] true none ts = .ok p ↔ ∃ e, Spells .sum e ts ∧ p = e.postfixOrder := by
  constructor
  · intro h
    have hr : Reached true [] [] := ⟨.sum,.start⟩
    obtain ⟨e,he⟩ := reached_sentence hr h
    have ho := (reorder_sentence he).symm.trans h
    cases ho
    exact ⟨e,he,rfl⟩
  · rintro ⟨e,he,rfl⟩
    exact reorder_sentence he

/-- A sentence spells one expression only. -/
theorem Spells.unique {m k : Phrase} {e e' : Expression} {ts : List Placed} (h : Spells m e ts)
    (h' : Spells k e' ts) : e = e' := by
  have ho := (reorder_sentence h).symm.trans (reorder_sentence h')
  exact postfixOrder_injective (Except.ok.inj ho)

lemma ofTokens_eq_reorder {ts : List Placed} {p : Program} :
    Program.ofTokens ts = .ok p ↔ reorder [] true none ts = .ok p := by
  cases ts with
  | nil => simp [Program.ofTokens,reorder,throw,throwThe,MonadExceptOf.throw,bind,Except.bind]
  | cons t ts =>
    cases hr : reorder [] true none (t :: ts) with
    | error e => simp [Program.ofTokens,hr,bind,Except.bind]
    | ok q =>
      obtain ⟨e,he,rfl⟩ := reorder_eq_ok_iff.mp hr
      simp [Program.ofTokens,hr,bind,Except.bind,pure,Except.pure,isDisciplined_postfixOrder e]

/-- A text is compiled when it is not blank and its tokens are a sentence. -/
theorem compile_eq_ok_iff {text : String} {f : Compiled} :
    compile text = .ok f ↔ trimmed text ≠ "" ∧ ∃ ts e, tokens (trimmed text) = .ok ts ∧
      Spells .sum e ts ∧ f = ⟨trimmed text,e.postfixOrder⟩ := by
  by_cases hne : trimmed text = ""
  · simp [compile,hne,throw,throwThe,MonadExceptOf.throw,bind,Except.bind]
  · have hc : compile text = (tokens (trimmed text)).bind fun ts =>
        (Program.ofTokens ts).bind fun p => .ok ⟨trimmed text,p⟩ := by
      simp [compile,hne]
      rfl
    simp only [hc,bind_eq_ok_iff,ofTokens_eq_reorder,reorder_eq_ok_iff]
    constructor
    · rintro ⟨ts,htokens,p,⟨e,he,rfl⟩,⟨⟩⟩
      exact ⟨hne,ts,e,htokens,he,rfl⟩
    · rintro ⟨-,ts,e,htokens,he,rfl⟩
      exact ⟨ts,htokens,_,⟨e,he,rfl⟩,rfl⟩

/-- Tokens are accepted exactly when they are a sentence, and their program is the expression that the
sentence spells in postfix order. A sentence spells one expression only; the check of discipline
passes whenever the tokens came into an order; at every point the program computes the value of the
expression and no instruction of it misses an operand. -/
theorem ofTokens_eq_ok_iff (ts : List Placed) :
    (∀ p, Program.ofTokens ts = .ok p ↔ ∃ e, Spells .sum e ts ∧ p = e.postfixOrder) ∧
    (∀ e e', Spells .sum e ts → Spells .sum e' ts → e = e') ∧
    (∀ p, reorder [] true none ts = .ok p → p.isDisciplined = true) ∧
    ∀ e, Spells .sum e ts → ∀ point, e.postfixOrder.eval point = e.value point ∧
      e.postfixOrder.run point [] = [e.value point] ∧
      ∀ before i after, e.postfixOrder = before ++ i :: after →
        i.arity ≤ (Program.run point before []).length := by
  refine ⟨fun p => ?_,fun e e' h h' => h.unique h',fun p h => ?_,fun e _ point => ?_⟩
  · rw [ofTokens_eq_reorder,reorder_eq_ok_iff]
  · obtain ⟨e,-,rfl⟩ := reorder_eq_ok_iff.mp h
    exact isDisciplined_postfixOrder e
  · exact ⟨eval_postfixOrder e point,run_postfixOrder e point,
      fun before i after h => arity_le_of_postfixOrder h point⟩

/-- The tokens of `-x^-+2*x`: the first sign is outside the power, and the power inside the product. -/
theorem ofTokens_signed_power :
    Program.ofTokens [⟨.operator .subtract,0⟩,⟨.x,1⟩,⟨.operator .power,2⟩,⟨.operator .subtract,3⟩,
      ⟨.operator .add,4⟩,⟨.number 2,5⟩,⟨.operator .multiply,6⟩,⟨.x,7⟩] =
      .ok [.x,.number 2,.negate,.binary .power,.negate,.x,.binary .multiply] := by
  have hpower : Spells .power (.binary .power .x (.negate (.number 2)))
      [⟨.x,1⟩,⟨.operator .power,2⟩,⟨.operator .subtract,3⟩,⟨.operator .add,4⟩,⟨.number 2,5⟩] :=
    .binary .power 2 (.x 1) (.minus 3 (.plus 4 (.loosen (by decide) (.number 2 5))))
  have hsigned := Spells.minus 0 (.loosen (m := .unary) (by decide) hpower)
  have hproduct := Spells.binary .multiply 6 (.loosen (by decide) hsigned)
    (.loosen (by decide) (.x 7))
  exact ((ofTokens_eq_ok_iff _).1 _).mpr ⟨_,.loosen (by decide) hproduct,rfl⟩

end Formulary.Calculus
