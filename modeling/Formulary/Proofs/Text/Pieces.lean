import Formulary.Proofs.Text.Trimming
import Formulary.Text.Pieces

/-! The pieces of a text, each between two separators, and what is found of texts put between commas. -/
namespace Formulary.Text
variable {separator : Char} {piece : List Char}

lemma pieces_of_not_mem (h : separator ∉ piece) : pieces separator piece = [piece] := by
  induction piece with
  | nil => rfl
  | cons c piece ih =>
    rw [List.mem_cons,not_or] at h
    rw [pieces,if_neg (Ne.symm h.1),ih h.2]

/-- A separator ends the pieces before it, whatever follows. -/
lemma pieces_append_separator (s t : List Char) :
    pieces separator (s ++ separator :: t) = pieces separator s ++ pieces separator t := by
  induction s with
  | nil => exact pieces_separator separator t
  | cons c s ih =>
    rw [List.cons_append,pieces,pieces,ih]
    split_ifs with hc
    · rfl
    · cases hs : pieces separator s with
      | nil => exact absurd hs (pieces_ne_nil separator s)
      | cons piece more => rfl

lemma pieces_append (h : separator ∉ piece) (s : List Char) :
    pieces separator (piece ++ separator :: s) = piece :: pieces separator s := by
  rw [pieces_append_separator,pieces_of_not_mem h]
  rfl

lemma pieces_eq_splitOn (separator : Char) (s : List Char) :
    pieces separator s = s.splitOn separator := by
  induction s with
  | nil => rfl
  | cons c s ih =>
    have hcons : (c :: s).splitOn separator = if c = separator then [] :: s.splitOn separator
        else (s.splitOn separator).modifyHead (c :: ·) := by
      rw [List.splitOn,List.splitOnP_cons_eq_if_modifyHead]
      simp [List.splitOn]
    rw [pieces,hcons,← ih]
    split_ifs with hc
    · rfl
    · cases hs : pieces separator s with
      | nil => exact absurd hs (pieces_ne_nil separator s)
      | cons piece more => rfl

/-- Every separator begins a piece. -/
lemma length_pieces (separator : Char) (s : List Char) :
    (pieces separator s).length = s.count separator + 1 := by
  induction s with
  | nil => rfl
  | cons c s ih =>
    rw [pieces]
    split_ifs with hc
    · rw [List.length_cons,ih,hc,List.count_cons_self]
    · rw [List.count_cons_of_ne hc,← ih]
      split
      · exact absurd ‹_› (pieces_ne_nil separator s)
      · rename_i hpieces
        rw [hpieces]
        rfl

/-- What stands between commas is found there again, whatever blanks stand around it all. -/
lemma map_trim_pieces {ts : List String} (hne : ts ≠ []) (ht : ∀ t ∈ ts, ',' ∉ t.toList)
    {front back : List Char} (hf : ∀ c ∈ front, isBlank c = true)
    (hb : ∀ c ∈ back, isBlank c = true) :
    (pieces ',' (front ++ (", ".intercalate ts).toList ++ back)).map trim =
      ts.map fun t => trim t.toList := by
  have hblank {s : List Char} (hs : ∀ c ∈ s, isBlank c = true) : ',' ∉ s := by
    intro hc
    exact absurd (hs ',' hc) (by decide)
  induction ts generalizing front with
  | nil => exact absurd rfl hne
  | cons t ts ih =>
    rw [List.forall_mem_cons] at ht
    cases ts with
    | nil =>
      have hcomma : ',' ∉ front ++ t.toList ++ back := by simp [hblank hf,hblank hb,ht.1]
      rw [String.intercalate_singleton,pieces_of_not_mem hcomma,List.map_singleton,trim_padded hf hb]
      rfl
    | cons u us =>
      have hcomma : ',' ∉ front ++ t.toList := by simp [hblank hf,ht.1]
      have hfront : trim (front ++ t.toList) = trim t.toList := by
        simpa using @trim_padded front [] hf (by simp) t.toList
      -- The blank behind each comma belongs to the next piece.
      have hspace : ∀ c ∈ [' '], isBlank c = true := List.forall_mem_singleton.mpr rfl
      have hrest := ih (by simp) ht.2 hspace
      have hsplit : front ++ (", ".intercalate (t :: u :: us)).toList ++ back =
          front ++ t.toList ++ ',' :: ([' '] ++ (", ".intercalate (u :: us)).toList ++ back) := by
        simp [String.intercalate_cons_cons]
      rw [hsplit,pieces_append hcomma,List.map_cons,List.map_cons,hfront,hrest]

end Formulary.Text
