import Formulary.Proofs.Outcome
import Mathlib.Data.List.TakeWhile

/-! Entries that wait on a stack and the ones a coming token releases. What goes out is put in
front of whatever the rest of the text gives. -/
namespace Formulary

lemma takeWhile_append_of_head {α : Type*} {q : α → Bool} {held waiting : List α}
    (hh : ∀ p ∈ held, q p = true) (hw : ∀ p ∈ waiting.head?, q p = false) :
    (held ++ waiting).takeWhile q = held := by
  rw [List.takeWhile_append_of_pos hh]
  cases waiting with
  | nil => simp
  | cons p below => simp [hw p rfl]

lemma dropWhile_append_of_head {α : Type*} {q : α → Bool} {held waiting : List α}
    (hh : ∀ p ∈ held, q p = true) (hw : ∀ p ∈ waiting.head?, q p = false) :
    (held ++ waiting).dropWhile q = waiting := by
  rw [List.dropWhile_append_of_pos hh]
  cases waiting with
  | nil => rfl
  | cons p below => simp [hw p rfl]

lemma map_append_map {ε α : Type*} (a b : List α) (x : Except ε (List α)) :
    (x.map (b ++ ·)).map (a ++ ·) = x.map (a ++ b ++ ·) := by
  cases x <;> simp [Except.map]

lemma map_nil_append {ε α : Type*} (x : Except ε (List α)) :
    x.map (fun l => [] ++ l) = x := by
  cases x <;> rfl

end Formulary
