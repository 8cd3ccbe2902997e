/-! Where one text occurs within another. -/
namespace Formulary.Text

/-- Whether a part stands somewhere in a text, its characters side by side. -/
def occurs (part : List Char) : List Char → Bool
  | [] => part.isEmpty
  | c :: rest => part.isPrefixOf (c :: rest) || occurs part rest

theorem occurs_iff {part s : List Char} : occurs part s = true ↔ part <:+: s := by
  induction s with
  | nil => simp [occurs]
  | cons c rest ih => simp [occurs,ih,List.infix_cons_iff]

end Formulary.Text
