import Formulary.Proofs.Json.Numerals
import Formulary.Proofs.Text.Trimming

/-! The characters of a JSON text on one line. Whatever the strings in a value are, its compact text
has no control character, and so no line break. -/
namespace Formulary.Json
open Text (isAlpha_iff isDigit_iff)

/-- A character that stands on its line. -/
def isPrinted (c : Char) : Bool := 0x20 ≤ c.toNat

variable {c : Char}

lemma isPrinted_hexDigit (n : ℕ) : isPrinted (hexDigit n) = true := by
  have hall : ∀ k < 16, isPrinted (Nat.digitChar k) = true := by decide
  exact hall (n % 16) (Nat.mod_lt n (by decide))

/-- A control character is written by name or by number. -/
lemma all_isPrinted_escapeChar (d : Char) : (escapeChar d).all isPrinted = true := by
  unfold escapeChar
  split_ifs with hq hn hr ht hb hf hlow
  any_goals rfl
  · rcases hq with rfl | rfl <;> rfl
  · simp only [List.all_cons,isPrinted_hexDigit]
    rfl
  · simpa [isPrinted] using hlow

lemma isPrinted_of_mem_quote {s : List Char} (h : c ∈ quote s) : isPrinted c = true := by
  simp only [quote,List.cons_append,List.mem_cons,List.mem_append,List.mem_flatMap,List.not_mem_nil,
    or_false] at h
  rcases h with rfl | ⟨d,-,hd⟩ | rfl
  · rfl
  · exact List.all_eq_true.mp (all_isPrinted_escapeChar d) c hd
  · rfl

lemma isPrinted_of_inNumber (h : inNumber c = true) : isPrinted c = true := by
  simp only [inNumber,Char.isAlphanum,Bool.or_eq_true,beq_iff_eq,isAlpha_iff,isDigit_iff] at h
  rcases h with ((h | rfl) | rfl) | rfl
  · simp only [isPrinted,decide_eq_true_eq]
    omega
  all_goals rfl

mutual

theorem Value.isPrinted_of_mem_chars : ∀ (v : Value) (level : ℕ), ∀ c ∈ v.chars .compact level,
    isPrinted c = true
  | .null,_ => List.all_eq_true.mp rfl
  | .bool true,_ => List.all_eq_true.mp rfl
  | .bool false,_ => List.all_eq_true.mp rfl
  | .number n,_ => fun c hc => isPrinted_of_inNumber (n.text_spec.2 c hc)
  | .string _,_ => fun _ => isPrinted_of_mem_quote
  | .array [],_ => List.all_eq_true.mp rfl
  | .array (v :: items),level => by
    simp only [Value.chars,Form.break,List.cons_append,List.nil_append,List.forall_mem_cons,
      List.forall_mem_append]
    exact ⟨rfl,v.isPrinted_of_mem_chars _,isPrinted_of_mem_moreItems items level⟩
  | .object [],_ => List.all_eq_true.mp rfl
  | .object ((_,v) :: fields),level => by
    simp only [Value.chars,Form.break,Form.colon,List.cons_append,List.nil_append,
      List.forall_mem_cons,List.forall_mem_append]
    exact ⟨rfl,⟨fun _ => isPrinted_of_mem_quote,rfl,List.forall_mem_nil _⟩,
      v.isPrinted_of_mem_chars _,isPrinted_of_mem_moreFields fields level⟩

theorem isPrinted_of_mem_moreItems : ∀ (items : List Value) (level : ℕ),
    ∀ c ∈ moreItems .compact items level, isPrinted c = true
  | [],_ => List.all_eq_true.mp rfl
  | v :: rest,level => by
    simp only [moreItems,Form.break,List.cons_append,List.nil_append,List.forall_mem_cons,
      List.forall_mem_append]
    exact ⟨rfl,v.isPrinted_of_mem_chars _,isPrinted_of_mem_moreItems rest level⟩

theorem isPrinted_of_mem_moreFields : ∀ (fields : List (String × Value)) (level : ℕ),
    ∀ c ∈ moreFields .compact fields level, isPrinted c = true
  | [],_ => List.all_eq_true.mp rfl
  | (_,v) :: rest,level => by
    simp only [moreFields,Form.break,Form.colon,List.cons_append,List.nil_append,
      List.forall_mem_cons,List.forall_mem_append]
    exact ⟨rfl,⟨fun _ => isPrinted_of_mem_quote,rfl,List.forall_mem_nil _⟩,
      v.isPrinted_of_mem_chars _,isPrinted_of_mem_moreFields rest level⟩

end

end Formulary.Json
