import Formulary.Json.Reader
import Mathlib.Tactic.Common

/-! Strings between quotes. Whatever the characters of a text are, reading gives back what was
written, and leaves what follows the closing quote. -/
namespace Formulary.Json

/-- How reading sees a character once it is written. -/
inductive Written (c : Char) : List Char → Spelled → Prop
  | letter (d : Char) (hu : d ≠ 'u') (hd : unescape? d = some c) : Written c ['\\',d] (.char c)
  | unit (h : c.toNat < 0x20) :
      Written c ['\\','u','0','0',hexDigit (c.toNat / 16),hexDigit c.toNat] (.unit c.toNat)
  | itself (hq : c ≠ '"') (hs : c ≠ '\\') (h : ¬ c.toNat < 0x20) : Written c [c] (.char c)

lemma written_escapeChar (c : Char) : ∃ s, Written c (escapeChar c) s := by
  unfold escapeChar
  split_ifs with hq hn hr ht hb hf hc
  · exact ⟨_,.letter c (by rintro rfl; simp at hq) (by simp [unescape?]; grind)⟩
  · exact ⟨_,.letter 'n' (by decide) (hn ▸ rfl)⟩
  · exact ⟨_,.letter 'r' (by decide) (hr ▸ rfl)⟩
  · exact ⟨_,.letter 't' (by decide) (ht ▸ rfl)⟩
  · exact ⟨_,.letter 'b' (by decide) (hb ▸ rfl)⟩
  · exact ⟨_,.letter 'f' (by decide) (hf ▸ rfl)⟩
  · exact ⟨_,.unit hc⟩
  · rw [not_or] at hq
    exact ⟨_,.itself hq.1 hq.2 hc⟩

lemma readUnit?_hexDigit :
    ∀ n < 0x20, readUnit? '0' '0' (hexDigit (n / 16)) (hexDigit n) = some n := by
  decide

/-- What is written for a character is read as one spelled character. -/
lemma Written.readSpelled? {c : Char} {w : List Char} {k : Spelled} (h : Written c w k)
    (s : List Char) :
    readSpelled? (w ++ s) = (readSpelled? s).map fun r => (k :: r.1,r.2) := by
  cases h with
  | letter d hu hd =>
    rw [List.cons_append,List.cons_append,List.nil_append,Json.readSpelled?]
    · simp only [hd,Option.map_eq_bind]
      rfl
    · exact fun _ _ _ _ _ h _ => hu h
  | unit h =>
    simp only [List.cons_append,List.nil_append,Json.readSpelled?,readUnit?_hexDigit c.toNat h,
      Option.map_eq_bind]
    rfl
  | itself hq hs h =>
    rw [List.cons_append,List.nil_append,Json.readSpelled?]
    · simp only [hq,hs,h,false_or,↓reduceIte,Option.map_eq_bind]
      rfl
    · exact fun _ _ _ _ _ h _ => hs h
    · exact fun _ _ h _ => hs h

/-- Joining units gives the character back: a control character is no surrogate. -/
lemma Written.joinUnits? {c : Char} {w : List Char} {k : Spelled} (h : Written c w k)
    (more : List Spelled) : joinUnits? (k :: more) = (joinUnits? more).map (c :: ·) := by
  cases h with
  | letter d hu hd => rfl
  | itself hq hs h => rfl
  | unit h =>
    have hhigh : isHighSurrogate c.toNat = false := by simp [isHighSurrogate]; omega
    have hlow : isLowSurrogate c.toNat = false := by simp [isLowSurrogate]; omega
    have hc : Char.ofNat c.toNat = c := Char.ofNat_toNat c
    cases more with
    | nil => simp [Json.joinUnits?,hhigh,hlow,hc]
    | cons k' more => cases k' <;> simp [Json.joinUnits?,hhigh,hlow,hc]

lemma readSpelled?_written (s rest : List Char) :
    ∃ ks, readSpelled? (s.flatMap escapeChar ++ '"' :: rest) = some (ks,rest) ∧
      joinUnits? ks = some s := by
  induction s with
  | nil => exact ⟨[],by simp [readSpelled?],rfl⟩
  | cons c s ih =>
    obtain ⟨ks,hr,hj⟩ := ih
    obtain ⟨k,hk⟩ := written_escapeChar c
    refine ⟨k :: ks,?_,?_⟩
    · rw [List.flatMap_cons,List.append_assoc,hk.readSpelled?,hr]
      rfl
    · rw [hk.joinUnits?,hj]
      rfl

/-- A string is read as it was written, its opening quote aside. -/
theorem readString?_written (s rest : List Char) :
    readString? (s.flatMap escapeChar ++ '"' :: rest) = some (some (String.ofList s),rest) := by
  obtain ⟨ks,hr,hj⟩ := readSpelled?_written s rest
  simp [readString?,hr,hj]

end Formulary.Json
