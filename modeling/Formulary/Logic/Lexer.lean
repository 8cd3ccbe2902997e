import Formulary.Logic.Error
import Formulary.Text.Blank

/-! Reading the tokens of a formula. Blanks are removed first, so positions refer to what is left.
The longest spelling wins, and `xor(` can only begin a call. -/
namespace Formulary.Logic

/-- The first token of a text without blanks and what follows it. -/
def firstToken? : List Char → Option (Token × List Char)
  | '(' :: rest => some (.opening,rest)
  | ')' :: rest => some (.closing,rest)
  | '~' :: rest => some (.operator .not,rest)
  | '&' :: rest => some (.operator (.binary .and),rest)
  | '|' :: rest => some (.operator (.binary .or),rest)
  | '-' :: '>' :: rest => some (.operator (.binary .implies),rest)
  | '<' :: '-' :: '>' :: rest => some (.operator (.binary .iff),rest)
  | 'x' :: 'o' :: 'r' :: '(' :: l :: ',' :: r :: ')' :: rest => do
    return (.xor (← Letter.ofChar? l) (← Letter.ofChar? r),rest)
  | c :: rest => (Letter.ofChar? c).map fun l => (.letter l,rest)
  | [] => none

/-- The token that is read is spelled at the front of the text. -/
theorem eq_append_of_firstToken? {s rest : List Char} {t : Token}
    (h : firstToken? s = some (t,rest)) : s = t.chars ++ rest := by
  unfold firstToken? at h
  split at h
  case h_8 l r _ =>
    simp only [Option.pure_def,Option.bind_eq_bind,Option.bind_eq_some_iff,Option.some.injEq,
      Prod.mk.injEq] at h
    obtain ⟨l',hl,r',hr,rfl,rfl⟩ := h
    simp [Token.chars,Letter.eq_char_of_ofChar? hl,Letter.eq_char_of_ofChar? hr]
  case h_9 =>
    obtain ⟨l,hl,hp⟩ := Option.map_eq_some_iff.1 h
    cases hp
    simp [Token.chars,Letter.eq_char_of_ofChar? hl]
  all_goals simp at h
  all_goals obtain ⟨rfl,rfl⟩ := h
  all_goals simp [Token.chars,Operator.chars]

theorem length_lt_of_firstToken? {s rest : List Char} {t : Token}
    (h : firstToken? s = some (t,rest)) : rest.length < s.length := by
  have hs := congrArg List.length (eq_append_of_firstToken? h)
  have ht := List.length_pos_iff.mpr t.chars_ne_nil
  simp only [List.length_append] at hs
  omega

/-- Whether a text begins like a call of `xor`. -/
def beginsXor : List Char → Bool
  | 'x' :: 'o' :: 'r' :: '(' :: _ => true
  | _ => false

/-- What is wrong where no token begins. -/
def SyntaxError.atText (s : List Char) (position : Nat) : SyntaxError :=
  if beginsXor s then .malformedXor position else .invalidSymbol position

/-- The tokens up to the end of the text or the first fault, after `before` characters. -/
def scan (before : Nat) (s : List Char) : List Token × Option SyntaxError :=
  match h : firstToken? s with
  | some (t,rest) =>
    have := length_lt_of_firstToken? h
    let r := scan (before + t.chars.length) rest
    (t :: r.1,r.2)
  | none => ([],if s.isEmpty then none else some (.atText s (before + 1)))
termination_by s.length

/-- The tokens of a text that are read before a fault, and the fault if there is one. -/
def scanText (text : String) : List Token × Option SyntaxError :=
  scan 0 (Text.strip text.toList)

def tokens (text : String) : Except SyntaxError (List Token) :=
  match scanText text with
  | (ts,none) => .ok ts
  | (_,some e) => .error e

end Formulary.Logic
