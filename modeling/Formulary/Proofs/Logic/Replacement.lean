import Formulary.Proofs.Logic.Reordering

/-! Parentheses as walls. What stands between a pair of parentheses is reordered as if it stood alone,
so its program is a piece of the whole program, and the pieces around it do not depend on it. A piece
that runs to one value adds that value to the stack, whatever lies below. -/
namespace Formulary.Logic

/-! Reordering between parentheses -/

section Walls
variable {q : Pending → Bool} (w below : List Pending)

lemma takeWhile_wall (h : q .opening = false) :
    (w ++ .opening :: below).takeWhile q = w.takeWhile q := by
  induction w with
  | nil => simp [h]
  | cons p w ih =>
    rw [List.cons_append,List.takeWhile_cons,List.takeWhile_cons,ih]

lemma dropWhile_wall (h : q .opening = false) :
    (w ++ .opening :: below).dropWhile q = w.dropWhile q ++ .opening :: below := by
  induction w with
  | nil => simp [h]
  | cons p w ih =>
    rw [List.cons_append,List.dropWhile_cons,List.dropWhile_cons,ih]
    split <;> rfl

end Walls

/-- Up to the parenthesis that closes them, tokens are reordered as if nothing waited below the one
that opened them. -/
theorem reorder_enclosed {w : List Pending} {ts : List Token} {p : Postfix}
    (h : reorder w ts = .ok p) (below : List Pending) (rest : List Token) :
    reorder (w ++ .opening :: below) (ts ++ .closing :: rest) =
      (reorder below rest).map (p ++ ·) := by
  induction ts generalizing w p with
  | nil =>
    rw [reorder] at h
    split at h
    · cases h
    · rename_i hw
      cases h
      exact reorder_closing (by simpa using hw)
  | cons t ts ih =>
    rcases t with l | o | _ | _ | ⟨l,r⟩
    · rw [reorder] at h
      obtain ⟨p',hp,rfl⟩ := map_eq_ok_iff.mp h
      rw [List.cons_append,reorder,ih hp]
      exact map_append_map [_] _ _
    · rw [reorder] at h
      obtain ⟨p',hp,rfl⟩ := map_eq_ok_iff.mp h
      rw [List.cons_append,reorder,takeWhile_wall _ _ rfl,dropWhile_wall _ _ rfl]
      exact (congrArg (Except.map _) (ih (w := .operator o :: _) hp)).trans (map_append_map _ _ _)
    · rw [reorder] at h
      rw [List.cons_append,reorder]
      exact ih (w := .opening :: w) h
    · rw [reorder] at h
      cases hd : w.dropWhile (!·.isOpening) with
      | nil => simp [hd] at h
      | cons p₀ left =>
        simp only [hd] at h
        obtain ⟨p',hp,rfl⟩ := map_eq_ok_iff.mp h
        rw [List.cons_append,reorder,takeWhile_wall _ _ rfl,dropWhile_wall _ _ rfl,hd]
        exact (congrArg (Except.map _) (ih hp)).trans (map_append_map _ _ _)
    · rw [reorder] at h
      obtain ⟨p',hp,rfl⟩ := map_eq_ok_iff.mp h
      rw [List.cons_append,reorder,ih hp]
      exact map_append_map [_] _ _

lemma map_around (out p : Postfix) (around : Except SyntaxError (Postfix × Postfix)) :
    (around.map fun r => r.1 ++ p ++ r.2).map (out ++ ·) =
      (around.map fun r => (out ++ r.1,r.2)).map fun r => r.1 ++ p ++ r.2 := by
  cases around <;> simp [Except.map]

/-- What is made of the tokens around a pair of parentheses: the fault they have, or the instructions
that go before and behind those between the parentheses, whichever these are. -/
theorem exists_around (w : List Pending) (before behind : List Token) :
    ∃ around : Except SyntaxError (Postfix × Postfix), ∀ (ts : List Token) (p : Postfix),
      Postfix.ofTokens ts = .ok p →
        reorder w (before ++ .opening :: (ts ++ .closing :: behind)) =
          around.map fun r => r.1 ++ p ++ r.2 := by
  induction before generalizing w with
  | nil =>
    refine ⟨(reorder w behind).map fun q => ([],q),fun ts p h => ?_⟩
    rw [List.nil_append,reorder]
    refine (reorder_enclosed (w := []) h w behind).trans ?_
    cases reorder w behind <;> rfl
  | cons t before ih =>
    rcases t with l | o | _ | _ | ⟨j,k⟩
    · obtain ⟨around,ha⟩ := ih w
      refine ⟨around.map fun r => ([.letter l] ++ r.1,r.2),fun ts p h => ?_⟩
      rw [List.cons_append,reorder,ha ts p h]
      exact map_around [.letter l] p around
    · obtain ⟨around,ha⟩ := ih (.operator o :: w.dropWhile (·.goesBefore o))
      let out := (w.takeWhile (·.goesBefore o)).filterMap Pending.instruction?
      refine ⟨around.map fun r => (out ++ r.1,r.2),fun ts p h => ?_⟩
      rw [List.cons_append,reorder,ha ts p h]
      exact map_around out p around
    · obtain ⟨around,ha⟩ := ih (.opening :: w)
      exact ⟨around,ha⟩
    · cases hd : w.dropWhile (!·.isOpening) with
      | nil => exact ⟨.error .unbalanced,fun ts p h => by simp [reorder,hd,Except.map]⟩
      | cons p₀ left =>
        obtain ⟨around,ha⟩ := ih left
        let out := (w.takeWhile (!·.isOpening)).filterMap Pending.instruction?
        refine ⟨around.map fun r => (out ++ r.1,r.2),fun ts p h => ?_⟩
        rw [List.cons_append,reorder,hd]
        dsimp only
        rw [ha ts p h]
        exact map_around out p around
    · obtain ⟨around,ha⟩ := ih w
      refine ⟨around.map fun r => ([.xor j k] ++ r.1,r.2),fun ts p h => ?_⟩
      rw [List.cons_append,reorder,ha ts p h]
      exact map_around [.xor j k] p around

/-! Running a piece of a program -/

section Pieces
variable {s : Assignment}

lemma run_append (p q : Postfix) (stack : List Bool) :
    Postfix.run s (p ++ q) stack = (Postfix.run s p stack).bind (Postfix.run s q) := by
  induction p generalizing stack with
  | nil => rfl
  | cons i p ih =>
    rw [List.cons_append,Postfix.run,Postfix.run]
    cases i.step s stack with
    | error e => rfl
    | ok stack' => exact ih stack'

/-- An instruction that finds its operands does not look below them. -/
lemma step_above {i : Instruction} {stack stack' : List Bool} (h : i.step s stack = .ok stack')
    (below : List Bool) : i.step s (stack ++ below) = .ok (stack' ++ below) := by
  rcases i with l | ⟨l,r⟩ | (_ | c)
  · rw [Instruction.step] at h ⊢
    obtain ⟨b,hb,rfl⟩ := map_eq_ok_iff.mp h
    rw [hb]
    rfl
  · obtain ⟨x,hx,h⟩ := bind_eq_ok_iff.mp h
    obtain ⟨y,hy,h⟩ := bind_eq_ok_iff.mp h
    cases h
    simp [Instruction.step,hx,hy,bind,Except.bind,pure,Except.pure]
  · rcases stack with _ | ⟨x,stack⟩ <;> cases h
    rfl
  · rcases stack with _ | ⟨y,_ | ⟨x,stack⟩⟩ <;> cases h
    rfl

lemma run_above {p : Postfix} {stack stack' : List Bool} (h : Postfix.run s p stack = .ok stack')
    (below : List Bool) : Postfix.run s p (stack ++ below) = .ok (stack' ++ below) := by
  induction p generalizing stack with
  | nil =>
    cases h
    rfl
  | cons i p ih =>
    obtain ⟨middle,hstep,hrest⟩ := bind_eq_ok_iff.mp h
    rw [Postfix.run,step_above hstep]
    exact ih hrest

lemma run_of_eval {p : Postfix} {b : Bool} (h : p.eval s = .ok b) (stack : List Bool) :
    Postfix.run s p stack = .ok (b :: stack) := by
  have hrun : Postfix.run s p [] = .ok [b] := by
    unfold Postfix.eval at h
    split at h
    · cases h
    · rename_i x hx
      cases h
      exact hx
    · cases h
  exact run_above hrun stack

/-- A piece that has a value may be exchanged for another one of that value. -/
lemma eval_exchange {p q : Postfix} {b : Bool} (hp : p.eval s = .ok b) (hq : q.eval s = .ok b)
    (before behind : Postfix) :
    Postfix.eval (before ++ p ++ behind) s = Postfix.eval (before ++ q ++ behind) s := by
  have hrun : Postfix.run s (before ++ p ++ behind) [] =
      Postfix.run s (before ++ q ++ behind) [] := by
    rw [List.append_assoc,List.append_assoc,run_append,run_append]
    refine congrArg _ (funext fun stack => ?_)
    rw [run_append,run_append,run_of_eval hp,run_of_eval hq]
  rw [Postfix.eval,Postfix.eval,hrun]

end Pieces

/-- What stands between a pair of parentheses can be replaced, whatever stands around them: the text
with the one and the text with the other have the same fault or both have programs, and these come to
the same value or the same fault under every assignment under which the two parts have the same value. -/
theorem ofTokens_replaced {ts us : List Token} {p q : Postfix} (hp : Postfix.ofTokens ts = .ok p)
    (hq : Postfix.ofTokens us = .ok q) (before behind : List Token) :
    (∃ e, Postfix.ofTokens (before ++ [.opening] ++ ts ++ [.closing] ++ behind) = .error e ∧
      Postfix.ofTokens (before ++ [.opening] ++ us ++ [.closing] ++ behind) = .error e) ∨
    ∃ p' q', Postfix.ofTokens (before ++ [.opening] ++ ts ++ [.closing] ++ behind) = .ok p' ∧
      Postfix.ofTokens (before ++ [.opening] ++ us ++ [.closing] ++ behind) = .ok q' ∧
      ∀ s b, p.eval s = .ok b → q.eval s = .ok b → p'.eval s = q'.eval s := by
  obtain ⟨around,ha⟩ := exists_around [] before behind
  have hsplit (xs : List Token) : before ++ [.opening] ++ xs ++ [.closing] ++ behind =
      before ++ .opening :: (xs ++ .closing :: behind) := by simp
  rw [hsplit,hsplit,Postfix.ofTokens,Postfix.ofTokens,ha ts p hp,ha us q hq]
  cases around with
  | error e => exact .inl ⟨e,rfl,rfl⟩
  | ok r =>
    refine .inr ⟨_,_,rfl,rfl,fun s b hps hqs => ?_⟩
    exact eval_exchange hps hqs r.1 r.2

/-- In `C | ( ) C &`, where an operand is missing in front of the last one, a conjunction is replaced by
the negation of two negations. -/
theorem ofTokens_replaced_conjunction :
    let ts : List Token := [.letter .a,.operator (.binary .and),.letter .b]
    let us : List Token := [.operator .not,.opening,.operator .not,.letter .a,
      .operator (.binary .or),.operator .not,.letter .b,.closing]
    let before : List Token := [.letter .c,.operator (.binary .or)]
    let behind : List Token := [.letter .c,.operator (.binary .and)]
    let s := Assignment.ofList [(.a,true),(.b,false),(.c,true)]
    ∃ p' q', Postfix.ofTokens (before ++ [.opening] ++ ts ++ [.closing] ++ behind) = .ok p' ∧
      Postfix.ofTokens (before ++ [.opening] ++ us ++ [.closing] ++ behind) = .ok q' ∧
      p'.eval s = q'.eval s := by
  intro ts us before behind s
  have hp : Postfix.ofTokens ts = .ok [.letter .a,.letter .b,.operator (.binary .and)] := by decide
  have hq : Postfix.ofTokens us = .ok [.letter .a,.operator .not,.letter .b,.operator .not,
      .operator (.binary .or),.operator .not] := by decide
  obtain ⟨e,he,-⟩ | ⟨p',q',hp',hq',heval⟩ := ofTokens_replaced hp hq before behind
  · cases he
  · exact ⟨p',q',hp',hq',heval s false rfl rfl⟩

end Formulary.Logic
