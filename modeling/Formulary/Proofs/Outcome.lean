import Mathlib.Tactic.Common

/-! Computations that may fail, taken apart one step at a time. -/
namespace Formulary

variable {ε δ α β : Type*}

lemma bind_eq_ok_iff {x : Except ε α} {f : α → Except ε β} {b : β} :
    x.bind f = .ok b ↔ ∃ a, x = .ok a ∧ f a = .ok b := by
  cases x <;> simp [Except.bind]

lemma bind_eq_error_iff {x : Except ε α} {f : α → Except ε β} {e : ε} :
    x.bind f = .error e ↔ x = .error e ∨ ∃ a, x = .ok a ∧ f a = .error e := by
  cases x <;> simp [Except.bind]

lemma mapError_eq_error_iff {x : Except ε α} {g : ε → δ} {e : δ} :
    x.mapError g = .error e ↔ ∃ e', x = .error e' ∧ g e' = e := by
  cases x <;> simp [Except.mapError]

lemma mapError_eq_ok_iff {x : Except ε α} {g : ε → δ} {a : α} :
    x.mapError g = .ok a ↔ x = .ok a := by
  cases x <;> simp [Except.mapError]

lemma map_eq_ok_iff {x : Except ε α} {g : α → β} {b : β} :
    x.map g = .ok b ↔ ∃ a, x = .ok a ∧ g a = b := by
  cases x <;> simp [Except.map]

@[simp] lemma map_eq_error_iff {x : Except ε α} {g : α → β} {e : ε} :
    x.map g = .error e ↔ x = .error e := by
  cases x <;> simp [Except.map]

lemma mapError_map (x : Except ε α) (f : α → β) (g : ε → δ) :
    (x.map f).mapError g = (x.mapError g).map f := by
  cases x <;> rfl

lemma isOk_iff {x : Except ε α} : x.isOk = true ↔ ∃ a, x = .ok a := by
  cases x <;> simp [Except.isOk,Except.toBool]

lemma isOk_map (x : Except ε α) (g : α → β) : (x.map g).isOk = x.isOk := by
  cases x <;> rfl

lemma isOk_mapError (x : Except ε α) (g : ε → δ) : (x.mapError g).isOk = x.isOk := by
  cases x <;> rfl

lemma isOk_bind_iff {x : Except ε α} {f : α → Except ε β} :
    (x.bind f).isOk = true ↔ ∃ a, x = .ok a ∧ (f a).isOk = true := by
  cases x <;> simp [Except.bind,Except.isOk,Except.toBool]

lemma isSome_toOption_bind_iff {x : Except ε α} {f : α → Option β} :
    (x.toOption.bind f).isSome = true ↔ ∃ a, x = .ok a ∧ (f a).isSome = true := by
  cases x <;> simp [Except.toOption]

lemma any_toOption_iff {x : Except ε α} {p : α → Bool} :
    x.toOption.any p = true ↔ ∃ a, x = .ok a ∧ p a = true := by
  cases x <;> simp [Except.toOption]

/-! Lists of values that may be missing -/

lemma length_of_mapM {f : α → Option β} {l : List α} {bs : List β} (h : l.mapM f = some bs) :
    bs.length = l.length := by
  induction l generalizing bs with
  | nil =>
    cases h
    rfl
  | cons a l ih =>
    rw [List.mapM_cons] at h
    obtain ⟨b,-,h⟩ := Option.bind_eq_some_iff.mp h
    obtain ⟨bs,hbs,h⟩ := Option.bind_eq_some_iff.mp h
    cases h
    rw [List.length_cons,List.length_cons,ih hbs]

/-- What is spelled item by item comes back exactly if each item does. -/
lemma mapM_map_eq_some_iff {f : α → Option β} {g : β → α} {bs : List β} :
    (bs.map g).mapM f = some bs ↔ ∀ b ∈ bs, f (g b) = some b := by
  induction bs with
  | nil => simp
  | cons b bs ih => simp [List.mapM_cons,Option.bind_eq_some_iff,← ih]

end Formulary
