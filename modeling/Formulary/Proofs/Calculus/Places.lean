import Formulary.Calculus.Compile
import Formulary.Proofs.Outcome
import Mathlib.Data.List.Nodup
import Mathlib.Data.Set.Finite.Basic

/-! Where tokens stand in their text plays no part in what is made of them: the same tokens at other
places give the same program, or the same fault but for its place. -/
namespace Formulary.Calculus

/-- A fault without its place. -/
def SyntaxError.unplaced : SyntaxError → SyntaxError
  | unsafeCharacter c _ => .unsafeCharacter c 0
  | invalidSymbol _ => .invalidSymbol 0
  | unknownIdentifier name _ => .unknownIdentifier name 0
  | unexpected t _ => .unexpected t 0
  | e => e

lemma beginsOpening_eq {ts us : List Placed} (h : ts.map Placed.token = us.map Placed.token) :
    beginsOpening ts = beginsOpening us := by
  rcases ts with _ | ⟨⟨t,i⟩,ts⟩ <;> rcases us with _ | ⟨⟨u,j⟩,us⟩
  · rfl
  · cases h
  · cases h
  · obtain rfl : t = u := (List.cons.inj h).1
    cases t <;> rfl

lemma reorder_unplaced {ts us : List Placed} (h : ts.map Placed.token = us.map Placed.token)
    (waiting : List Pending) (operandNext : Bool) (last : Option Operator) :
    (reorder waiting operandNext last ts).mapError SyntaxError.unplaced =
      (reorder waiting operandNext last us).mapError SyntaxError.unplaced := by
  induction ts generalizing us waiting operandNext last with
  | nil =>
    obtain rfl : us = [] := by simpa using h.symm
    rfl
  | cons t ts ih =>
    obtain ⟨u,us,rfl⟩ : ∃ u us', us = u :: us' := by
      cases us with
      | nil => cases h
      | cons u us => exact ⟨u,us,rfl⟩
    obtain ⟨t,i⟩ := t
    obtain ⟨u,j⟩ := u
    obtain ⟨rfl,htail⟩ : t = u ∧ ts.map Placed.token = us.map Placed.token := List.cons.inj h
    have hmap : ∀ f : Program → Program, ∀ w b l, ((reorder w b l ts).map f).mapError
        SyntaxError.unplaced = ((reorder w b l us).map f).mapError SyntaxError.unplaced := by
      intro f w b l
      rw [mapError_map,mapError_map,ih htail]
    cases t with
    | number v => cases operandNext <;> [rfl; exact hmap _ _ _ _]
    | x => cases operandNext <;> [rfl; exact hmap _ _ _ _]
    | pi => cases operandNext <;> [rfl; exact hmap _ _ _ _]
    | routine r =>
      cases operandNext with
      | false => rfl
      | true =>
        simp only [reorder,beginsOpening_eq htail]
        cases beginsOpening us with
        | true => exact ih htail _ _ _
        | false => rfl
    | opening => cases operandNext <;> [rfl; exact ih htail _ _ _]
    | closing =>
      cases operandNext with
      | true => rfl
      | false =>
        simp only [reorder]
        cases close? waiting with
        | none => rfl
        | some p => exact hmap _ _ _ _
    | operator o =>
      cases operandNext with
      | false => exact hmap _ _ _ _
      | true =>
        cases o with
        | subtract => exact ih htail _ _ _
        | add => exact ih htail _ _ _
        | _ => rfl
    | comma => cases operandNext <;> rfl

/-- The same tokens at other places are accepted or refused alike. -/
theorem ofTokens_unplaced {ts us : List Placed}
    (h : ts.map Placed.token = us.map Placed.token) :
    (Program.ofTokens ts).mapError SyntaxError.unplaced =
      (Program.ofTokens us).mapError SyntaxError.unplaced := by
  have hempty : ts.isEmpty = us.isEmpty := by
    cases ts <;> cases us <;> first | rfl | cases h
  have hr := reorder_unplaced h [] true none
  rw [Program.ofTokens,Program.ofTokens,hempty]
  cases us.isEmpty with
  | true => rfl
  | false =>
    cases ht : reorder [] true none ts with
    | error e =>
      cases hu : reorder [] true none us with
      | error e' => simpa [ht,hu,Except.mapError,bind,Except.bind] using hr
      | ok q => simp [ht,hu,Except.mapError] at hr
    | ok p =>
      cases hu : reorder [] true none us with
      | error e' => simp [ht,hu,Except.mapError] at hr
      | ok q =>
        obtain rfl : p = q := by simpa [ht,hu,Except.mapError] using hr
        rfl

lemma ofTokens_eq_ok_of_tokens {ts us : List Placed} {p : Program}
    (h : ts.map Placed.token = us.map Placed.token) (hp : Program.ofTokens ts = .ok p) :
    Program.ofTokens us = .ok p := by
  have hu := ofTokens_unplaced h
  rw [hp] at hu
  exact mapError_eq_ok_iff.mp hu.symm

/-- Tokens can be put behind others at places of their own. -/
lemma exists_distinct {ts : List Placed} (hd : (ts.map Placed.position).Nodup)
    (us : List Placed) : ∃ vs, vs.map Placed.token = us.map Placed.token ∧
      ((ts ++ vs).map Placed.position).Nodup := by
  induction us generalizing ts with
  | nil => exact ⟨[],rfl,by simpa using hd⟩
  | cons u us ih =>
    obtain ⟨i,hi⟩ := Infinite.exists_notMem_finset (ts.map Placed.position).toFinset
    have hd' : ((ts ++ [Placed.mk u.token i]).map Placed.position).Nodup := by
      rw [List.map_append]
      exact hd.append (by simp) (by simpa using hi)
    obtain ⟨vs,hv,hn⟩ := ih hd'
    refine ⟨⟨u.token,i⟩ :: vs,by simp [hv],?_⟩
    rwa [List.append_assoc] at hn

end Formulary.Calculus
