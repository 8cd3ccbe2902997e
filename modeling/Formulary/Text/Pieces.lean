/-! Cutting a text at every occurrence of a separator character. The pieces hold no separator, and
joining them with it gives the text back. -/
namespace Formulary.Text

/-- The pieces between the separators; a text without one is its only piece. -/
def pieces (separator : Char) : List Char → List (List Char)
  | [] => [[]]
  | c :: rest =>
    if c = separator then [] :: pieces separator rest
    else match pieces separator rest with
      | [] => [[c]]
      | piece :: more => (c :: piece) :: more

theorem pieces_ne_nil (separator : Char) (s : List Char) : pieces separator s ≠ [] := by
  cases s with
  | nil => simp [pieces]
  | cons c rest =>
    rw [pieces]
    split
    · simp
    · split <;> simp

theorem pieces_separator (separator : Char) (s : List Char) :
    pieces separator (separator :: s) = [] :: pieces separator s := by
  simp [pieces]

theorem not_mem_of_mem_pieces {separator : Char} {s p : List Char} (h : p ∈ pieces separator s) :
    separator ∉ p := by
  induction s generalizing p with
  | nil => simp_all [pieces]
  | cons c rest ih =>
    rw [pieces] at h
    split at h
    · rcases List.mem_cons.mp h with rfl | h
      · simp
      · exact ih h
    · rename_i hc
      split at h
      · simp_all [pieces_ne_nil]
      · rename_i piece more hp
        rcases List.mem_cons.mp h with rfl | h
        · simpa [Ne.symm hc] using ih (by simp [hp])
        · exact ih (by simp [hp,h])

end Formulary.Text
