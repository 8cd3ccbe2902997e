import Formulary.Proofs.Logic.OpenPhrases
import Formulary.Proofs.Logic.Tables

/-! Which malformed texts get a table. Reordering keeps every operand and operator, so a program that
leaves one value has one operand more than connectives. That settles all misplaced connectives,
negations and parentheses, unless an operand stands directly behind an operand. -/
namespace Formulary.Logic

/-- The instruction that a token becomes; parentheses become none. -/
def Token.instruction? : Token → Option Instruction
  | letter l => some (.letter l)
  | xor l r => some (.xor l r)
  | operator o => some (.operator o)
  | opening => none
  | closing => none

def Instruction.isOperand : Instruction → Bool
  | letter _ => true
  | xor _ _ => true
  | operator _ => false

def Instruction.isConnective : Instruction → Bool
  | operator (.binary _) => true
  | _ => false

/-- Reordering loses and invents nothing, whatever the order of the tokens. -/
theorem reorder_perm {w : List Pending} {ts : List Token} {p : Postfix}
    (h : reorder w ts = .ok p) :
    p.Perm (w.filterMap Pending.instruction? ++ ts.filterMap Token.instruction?) := by
  induction ts generalizing w p with
  | nil =>
    rw [reorder] at h
    split at h
    · cases h
    · cases h
      simp
  | cons t ts ih =>
    rcases t with l | o | _ | _ | ⟨l,r⟩
    · rw [reorder] at h
      obtain ⟨q,hq,rfl⟩ := map_eq_ok_iff.mp h
      exact ((ih hq).cons _).trans List.perm_middle.symm
    · rw [reorder] at h
      obtain ⟨q,hq,rfl⟩ := map_eq_ok_iff.mp h
      have hw := List.takeWhile_append_dropWhile (p := (·.goesBefore o)) (l := w)
      conv => rhs; rw [← hw]
      rw [List.filterMap_append,List.append_assoc]
      exact ((ih hq).trans List.perm_middle.symm).append_left _
    · rw [reorder] at h
      simpa [List.filterMap_cons,Pending.instruction?,Token.instruction?] using ih h
    · rw [reorder] at h
      have hw := List.takeWhile_append_dropWhile (p := (!Pending.isOpening ·)) (l := w)
      cases hd : w.dropWhile (!·.isOpening) with
      | nil => simp [hd] at h
      | cons p left =>
        obtain rfl : p = .opening := eq_opening_of_dropWhile hd
        simp only [hd] at h
        obtain ⟨q,hq,rfl⟩ := map_eq_ok_iff.mp h
        conv => rhs; rw [← hw,hd]
        rw [List.filterMap_append,List.append_assoc]
        exact (ih hq).append_left _
    · rw [reorder] at h
      obtain ⟨q,hq,rfl⟩ := map_eq_ok_iff.mp h
      exact ((ih hq).cons _).trans List.perm_middle.symm

/-- A formula has one operand more than connectives. -/
lemma operands_postfixOrder (f : Formula) :
    f.postfixOrder.countP Instruction.isOperand =
      f.postfixOrder.countP Instruction.isConnective + 1 := by
  induction f with
  | letter l => rfl
  | xor l r => rfl
  | not f ih => simpa [Formula.postfixOrder,Instruction.isOperand,Instruction.isConnective] using ih
  | binary c f g ihf ihg =>
    simp only [Formula.postfixOrder,List.countP_append,ihf,ihg]
    simp [Instruction.isOperand,Instruction.isConnective]
    omega

/-- No operand begins directly behind the end of another. -/
def KeepsApart (ts : List Token) : Prop :=
  ts.IsChain fun t u => t.endsOperand = true → u.beginsOperand = false

instance (ts : List Token) : Decidable (KeepsApart ts) :=
  inferInstanceAs (Decidable (ts.IsChain _))

/-- In a phrase there is always something between two operands. -/
theorem Spells.keepsApart {m : Phrase} {f : Formula} {ts : List Token} (h : Spells m f ts) :
    KeepsApart ts := by
  induction h with
  | letter l => exact .singleton _
  | xor l r => exact .singleton _
  | group inner ih =>
    refine List.isChain_cons.mpr ⟨by simp [Token.endsOperand],?_⟩
    refine List.isChain_append.mpr ⟨ih,.singleton _,?_⟩
    simp [Token.beginsOperand]
  | not inner ih => exact List.isChain_cons.mpr ⟨by simp [Token.endsOperand],ih⟩
  | binary c left right ihf ihg =>
    refine List.isChain_append.mpr ⟨ihf,List.isChain_cons.mpr ⟨by simp [Token.endsOperand],ihg⟩,?_⟩
    simp [Token.beginsOperand]
  | loosen h inner ih => exact ih

def operands (ts : List Token) : ℕ :=
  (ts.filterMap Token.instruction?).countP Instruction.isOperand

def connectives (ts : List Token) : ℕ :=
  (ts.filterMap Token.instruction?).countP Instruction.isConnective

/-- What one token adds to the count of operands, of connectives and of missing operands. -/
lemma count_cons (t : Token) (ts : List Token) :
    operands (t :: ts) + connectives ts + (!t.endsOperand).toNat =
      operands ts + connectives (t :: ts) + t.beginsOperand.toNat := by
  rcases t with l | (_ | c) | _ | _ | ⟨l,r⟩ <;>
    simp [operands,connectives,List.filterMap_cons,List.countP_cons,Token.instruction?,
      Instruction.isOperand,Instruction.isConnective,Token.endsOperand,Token.beginsOperand]
  all_goals omega

/-- Operands that are kept apart are never more than the connectives can take. A connective without
a left operand and a parenthesis that closes on nothing make them too few. -/
lemma alternates_of_operands {operandNext : Bool} {ts : List Token} (h : KeepsApart ts)
    (hn : operandNext = false → ∀ t ∈ ts.head?, t.beginsOperand = false) :
    operands ts ≤ connectives ts + operandNext.toNat ∧
      (operands ts = connectives ts + operandNext.toNat → alternates operandNext ts = true) := by
  induction ts generalizing operandNext with
  | nil => cases operandNext <;> simp [operands,connectives,alternates]
  | cons t ts ih =>
    obtain ⟨hb,hc⟩ := List.isChain_cons.mp h
    have hnext : (!t.endsOperand) = false → ∀ u ∈ ts.head?, u.beginsOperand = false :=
      fun he u hu => hb u hu (by simpa using he)
    obtain ⟨hle,heq⟩ := ih hc hnext
    have hcount := count_cons t ts
    -- Where no operand is missing none begins, so a token never adds more operands than are missing.
    have hbegin : t.beginsOperand.toNat ≤ operandNext.toNat := by
      cases operandNext with
      | false => rw [hn rfl t rfl]
      | true => exact Bool.toNat_le _
    refine ⟨by omega,fun htotal => ?_⟩
    have hflag : t.beginsOperand = operandNext := by
      have hnat : t.beginsOperand.toNat = operandNext.toNat := by omega
      revert hnat
      cases t.beginsOperand <;> cases operandNext <;> decide
    rw [alternates,hflag,beq_self_eq_true,Bool.true_and]
    exact heq (by omega)

/-- Among the texts that get a table, the sentences are exactly those in which no operand stands
directly behind another. -/
theorem isSentence_iff_keepsApart {a : Alphabet} {text : String} {t : Table}
    (h : Table.ofText a text = .ok t) :
    ∃ ts, tokens text = .ok ts ∧ (IsSentence ts ↔ KeepsApart ts) := by
  obtain ⟨f,hf,-⟩ := table_eq_ok_iff.mp h
  obtain ⟨ts,ht,-,hp⟩ := compile_eq_ok_iff.mp (compileOver_eq_ok_iff.mp hf).1
  refine ⟨ts,ht,fun ⟨g,hg⟩ => hg.keepsApart,fun hk => isSentence_of_alternates ?_ hp⟩
  have hc := reorder_perm hp
  refine (alternates_of_operands hk (by simp)).2 ?_
  have ho := operands_postfixOrder f
  rwa [hc.countP_eq,hc.countP_eq] at ho

/-- A table of a sentence: nothing in it is juxtaposed. -/
theorem isSentence_iff_keepsApart_negation : ∃ t, Table.ofText .two "~(A|B)" = .ok t ∧
    ∃ ts, tokens "~(A|B)" = .ok ts ∧ (IsSentence ts ↔ KeepsApart ts) := by
  have hc : compileOver .two "~(A|B)" =
      .ok (Formula.not (.binary .or (.letter .a) (.letter .b))).postfixOrder := by decide +kernel
  have ht := table_eq_ok_iff.mpr ⟨_,hc,rfl⟩
  exact ⟨_,ht,isSentence_iff_keepsApart ht⟩

/-- A connective behind both its operands is no sentence, yet its table is that of the sentence with
the connective between them. -/
theorem table_of_connective_last :
    ¬ ∀ (a : Alphabet) (text : String) (t : Table), Table.ofText a text = .ok t →
      ∃ ts, tokens text = .ok ts ∧ IsSentence ts := by
  intro h
  have hc : compileOver .two "A B &" =
      .ok (Formula.binary .and (.letter .a) (.letter .b)).postfixOrder := by decide +kernel
  obtain ⟨ts,ht,f,hf⟩ := h .two "A B &" _ (table_eq_ok_iff.mpr ⟨_,hc,rfl⟩)
  have hts : tokens "A B &" = .ok [.letter .a,.letter .b,.operator (.binary .and)] := by
    decide +kernel
  rw [hts] at ht
  cases ht
  exact absurd hf.keepsApart (by decide)

end Formulary.Logic
