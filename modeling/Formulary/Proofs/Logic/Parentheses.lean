import Formulary.Logic.Compile
import Formulary.Proofs.Release
import Mathlib.Data.List.Infix

/-! Which tokens can be reordered: those whose parentheses balance, in whatever order the others
stand. -/
namespace Formulary.Logic

/-- Below so many open parentheses, no parenthesis closes on nothing and all are closed in the end. -/
def ClosesFrom (depth : ℕ) (ts : List Token) : Prop :=
  (∀ us, us <+: ts → us.count .closing ≤ depth + us.count .opening) ∧
    ts.count .closing = depth + ts.count .opening

/-- Every front part opens at least as many parentheses as it closes, and the whole as many. -/
def IsBalanced (ts : List Token) : Prop :=
  (∀ us, us <+: ts → us.count .closing ≤ us.count .opening) ∧ ts.count .closing = ts.count .opening

lemma closesFrom_zero (ts : List Token) : ClosesFrom 0 ts ↔ IsBalanced ts := by
  simp [ClosesFrom,IsBalanced]

lemma closesFrom_nil (depth : ℕ) : ClosesFrom depth [] ↔ depth = 0 := by
  simp [ClosesFrom,eq_comm]

lemma forall_prefix_cons {t : Token} {ts : List Token} {P : List Token → Prop} :
    (∀ us, us <+: t :: ts → P us) ↔ P [] ∧ ∀ us, us <+: ts → P (t :: us) := by
  simp only [List.prefix_cons_iff]
  constructor
  · intro h
    exact ⟨h [] (.inl rfl),fun us hus => h (t :: us) (.inr ⟨us,rfl,hus⟩)⟩
  · rintro ⟨hnil,hcons⟩ us (rfl | ⟨us,rfl,hus⟩)
    · exact hnil
    · exact hcons us hus

/-- A token that is no parenthesis counts for nothing. -/
lemma closesFrom_cons {t : Token} (ho : t ≠ .opening) (hc : t ≠ .closing) (depth : ℕ)
    (ts : List Token) : ClosesFrom depth (t :: ts) ↔ ClosesFrom depth ts := by
  simp only [ClosesFrom,forall_prefix_cons,List.count_cons_of_ne ho,List.count_cons_of_ne hc,
    List.count_nil,Nat.zero_le,true_and]

lemma closesFrom_opening (depth : ℕ) (ts : List Token) :
    ClosesFrom depth (.opening :: ts) ↔ ClosesFrom (depth + 1) ts := by
  have hne : Token.opening ≠ .closing := by decide
  simp only [ClosesFrom,forall_prefix_cons,List.count_cons_self,List.count_cons_of_ne hne,
    List.count_nil,Nat.zero_le,true_and]
  exact and_congr (forall₂_congr fun us _ => by omega) (by omega)

lemma closesFrom_closing_zero (ts : List Token) : ¬ClosesFrom 0 (.closing :: ts) := by
  intro h
  have h1 := h.1 [.closing] (List.prefix_cons_iff.mpr (.inr ⟨[],rfl,List.nil_prefix⟩))
  simp at h1

lemma closesFrom_closing (depth : ℕ) (ts : List Token) :
    ClosesFrom (depth + 1) (.closing :: ts) ↔ ClosesFrom depth ts := by
  have hne : Token.closing ≠ .opening := by decide
  simp only [ClosesFrom,forall_prefix_cons,List.count_cons_self,List.count_cons_of_ne hne,
    List.count_nil,Nat.zero_le,true_and]
  exact and_congr (forall₂_congr fun us _ => by omega) (by omega)

/-- Operators that go out of the waiting entries take no parenthesis with them. -/
lemma countP_dropWhile (o : Operator) (w : List Pending) :
    (w.dropWhile (·.goesBefore o)).countP Pending.isOpening = w.countP Pending.isOpening := by
  induction w with
  | nil => rfl
  | cons p w ih =>
    rw [List.dropWhile_cons]
    split
    · cases p with
      | opening => rename_i h; cases h
      | operator o' => rw [ih,List.countP_cons]; rfl
    · rfl

/-- A closing parenthesis takes the latest open one away. -/
lemma countP_of_dropWhile {w left : List Pending} {p : Pending}
    (h : w.dropWhile (!·.isOpening) = p :: left) :
    w.countP Pending.isOpening = left.countP Pending.isOpening + 1 := by
  induction w with
  | nil => cases h
  | cons q w ih =>
    cases q with
    | opening =>
      cases h
      exact List.countP_cons_of_pos rfl
    | operator o => exact ih h

/-- Tokens are reordered exactly when, below the open parentheses that wait, theirs balance. -/
theorem exists_reorder_iff {w : List Pending} {ts : List Token} :
    (∃ p, reorder w ts = .ok p) ↔ ClosesFrom (w.countP Pending.isOpening) ts := by
  have hmap (out : Postfix) (x : Except SyntaxError Postfix) :
      (∃ p, x.map (out ++ ·) = .ok p) ↔ ∃ p, x = .ok p := by
    cases x <;> simp [Except.map]
  induction ts generalizing w with
  | nil =>
    rw [closesFrom_nil,reorder,List.countP_eq_zero]
    cases h : w.any Pending.isOpening with
    | true => simpa using h
    | false => simpa using h
  | cons t ts ih =>
    rcases t with l | o | _ | _ | ⟨l,r⟩
    · rw [closesFrom_cons (by simp) (by simp),reorder]
      exact (hmap [_] _).trans ih
    · rw [closesFrom_cons (by simp) (by simp),reorder]
      refine (hmap _ _).trans (ih.trans ?_)
      rw [List.countP_cons_of_neg (by simp [Pending.isOpening]),countP_dropWhile]
    · have hw : (Pending.opening :: w).countP Pending.isOpening = w.countP Pending.isOpening + 1 :=
        List.countP_cons_of_pos rfl
      rw [closesFrom_opening,reorder,← hw]
      exact ih
    · rw [reorder]
      cases hd : w.dropWhile (!·.isOpening) with
      | nil =>
        have hzero : w.countP Pending.isOpening = 0 := by
          rw [List.countP_eq_zero]
          simpa [List.dropWhile_eq_nil_iff] using hd
        rw [hzero]
        simp [closesFrom_closing_zero]
      | cons p left =>
        rw [countP_of_dropWhile hd,closesFrom_closing]
        exact (hmap _ _).trans ih
    · rw [closesFrom_cons (by simp) (by simp),reorder]
      exact (hmap [_] _).trans ih

theorem exists_ofTokens_iff {ts : List Token} :
    (∃ p, Postfix.ofTokens ts = .ok p) ↔ IsBalanced ts :=
  exists_reorder_iff.trans (closesFrom_zero ts)

end Formulary.Logic
