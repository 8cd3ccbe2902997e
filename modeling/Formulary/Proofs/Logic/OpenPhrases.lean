import Formulary.Proofs.Logic.Reordering

/-! What has been read of a sentence at each moment. The waiting entries are the unfinished phrases
around the place where the next operand belongs; releasing one of them finishes its phrase. Where
operands and connectives alternate, every text whose parentheses balance is a sentence. -/
namespace Formulary.Logic

/-- After the tokens, with these entries waiting, a phrase of the kind is expected. -/
inductive Expects : Phrase → List Pending → List Token → Prop
  | start : Expects .iff [] []
  | opening {m w ts} (outer : Expects m w ts) : Expects .iff (.opening :: w) (ts ++ [.opening])
  | not {m w ts} (outer : Expects m w ts) :
      Expects .not (.operator .not :: w) (ts ++ [.operator .not])
  | binary {m w ts f us} (c : Connective) (outer : Expects m w ts)
      (fits : m.rank ≤ c.phrase.rank) (left : Spells c.leftPhrase f us) :
      Expects c.rightPhrase (.operator (.binary c) :: w) (ts ++ us ++ [.operator (.binary c)])

/-- A negation may begin every phrase that is ever expected. -/
lemma Expects.rank_le {m : Phrase} {w : List Pending} {ts : List Token} (h : Expects m w ts) :
    m.rank ≤ Phrase.not.rank := by
  cases h with
  | start => decide
  | opening outer => decide
  | not outer => decide
  | binary c outer fits left => cases c <;> decide

/-- The waiting entries that a coming token releases take the operand before it into a phrase of
the wanted kind, and the place where that phrase began takes one of the given kind. -/
theorem Expects.release {q : Pending → Bool} (wanted place : Phrase) (ho : q .opening = false)
    (hq : ∀ o, q (.operator o) = true → wanted.rank ≤ o.phrase.rank)
    (hn : ∀ o, q (.operator o) = false → o.operandPhrase.rank ≤ place.rank)
    {m k : Phrase} {w : List Pending} {ts us : List Token} {f : Formula} (h : Expects m w ts)
    (hf : Spells k f us) (hm : m.rank ≤ k.rank) (hk : wanted.rank ≤ k.rank) :
    ∃ m' ts' f' us', Expects m' (w.dropWhile q) ts' ∧ m'.rank ≤ place.rank ∧
      Spells wanted f' us' ∧ ts' ++ us' = ts ++ us := by
  have hi : Phrase.iff.rank ≤ place.rank := by cases place <;> decide
  -- From the latest waiting entry down: a released one makes the operand behind it a longer one.
  induction h generalizing k f us with
  | start => exact ⟨.iff,[],f,us,.start,hi,hf.loosen hk,rfl⟩
  | @opening m w ts outer ih =>
    rw [List.dropWhile_cons_of_neg (by simp [ho])]
    exact ⟨.iff,_,f,us,.opening outer,hi,hf.loosen hk,rfl⟩
  | @not m w ts outer ih =>
    cases hp : q (.operator .not) with
    | false =>
      rw [List.dropWhile_cons_of_neg (by simp [hp])]
      exact ⟨.not,_,f,us,.not outer,hn .not hp,hf.loosen hk,rfl⟩
    | true =>
      rw [List.dropWhile_cons_of_pos hp]
      obtain ⟨m',ts',f',us',he,hm',hs,ht⟩ :=
        ih (.not (hf.loosen hm)) outer.rank_le (hq .not hp)
      exact ⟨m',ts',f',us',he,hm',hs,by simp [ht]⟩
  | @binary m w ts f₁ us₁ c outer fits left ih =>
    cases hp : q (.operator (.binary c)) with
    | false =>
      rw [List.dropWhile_cons_of_neg (by simp [hp])]
      exact ⟨_,_,f,us,.binary c outer fits left,hn (.binary c) hp,hf.loosen hk,rfl⟩
    | true =>
      rw [List.dropWhile_cons_of_pos hp]
      obtain ⟨m',ts',f',us',he,hm',hs,ht⟩ :=
        ih (.binary c left (hf.loosen hm)) fits (hq (.binary c) hp)
      exact ⟨m',ts',f',us',he,hm',hs,by simp [ht]⟩

/-- A connective finds a finished left operand. -/
lemma Expects.release_binary (c : Connective) {m : Phrase} {w : List Pending} {ts us : List Token}
    {f : Formula} (h : Expects m w ts) (hf : Spells .atom f us) :
    ∃ ts', Expects c.rightPhrase
      (.operator (.binary c) :: w.dropWhile (·.goesBefore (.binary c))) ts' ∧
      ts' = ts ++ us ++ [.operator (.binary c)] := by
  have hm := h.rank_le.trans (show Phrase.not.rank ≤ Phrase.atom.rank by decide)
  have hk : c.leftPhrase.rank ≤ Phrase.atom.rank := by cases c <;> decide
  obtain ⟨m',ts',f',us',he,hp,hs,ht⟩ := h.release (q := (·.goesBefore (.binary c)))
    c.leftPhrase c.phrase rfl (fun o => (o.bindsBefore_binary c).mp)
    (fun o => (o.bindsBefore_eq_false _).mp) hf hm hk
  exact ⟨_,.binary c he hp hs,by rw [ht]⟩

/-- At a closing parenthesis or the end all phrases back to the last open parenthesis are finished. -/
lemma Expects.release_inner {m : Phrase} {w : List Pending} {ts us : List Token}
    {f : Formula} (h : Expects m w ts) (hf : Spells .atom f us) :
    ∃ m' ts' f' us', Expects m' (w.dropWhile (!·.isOpening)) ts' ∧ Spells .iff f' us' ∧
      ts' ++ us' = ts ++ us := by
  have hm := h.rank_le.trans (show Phrase.not.rank ≤ Phrase.atom.rank by decide)
  obtain ⟨m',ts',f',us',he,-,hs,ht⟩ := h.release (q := (!·.isOpening)) .iff .iff rfl
    (fun o _ => by cases o.phrase <;> decide)
    (fun o ho => by simp [Pending.isOpening] at ho) hf hm (by decide)
  exact ⟨m',ts',f',us',he,hs,ht⟩

lemma Expects.of_opening {m : Phrase} {w : List Pending} {ts : List Token}
    (h : Expects m (.opening :: w) ts) : ∃ m' us, Expects m' w us ∧ ts = us ++ [.opening] := by
  cases h with
  | opening outer => exact ⟨_,_,outer,rfl⟩

lemma Expects.of_nil {m : Phrase} {ts : List Token} (h : Expects m [] ts) : ts = [] := by
  cases h
  rfl

/-- Whether a token is the first one of an operand. -/
def Token.beginsOperand : Token → Bool
  | letter _ => true
  | xor _ _ => true
  | opening => true
  | operator .not => true
  | _ => false

/-- Whether a token is the last one of an operand. -/
def Token.endsOperand : Token → Bool
  | letter _ => true
  | xor _ _ => true
  | closing => true
  | _ => false

/-- Whether an operand begins exactly where one is missing, at first if the flag is set and then
behind every token that does not end one. -/
def alternates : Bool → List Token → Bool
  | operandNext,[] => !operandNext
  | operandNext,t :: rest => t.beginsOperand == operandNext && alternates (!t.endsOperand) rest

/-- What has been read where an operand belongs, and behind an operand. -/
def Reached : Bool → List Pending → List Token → Prop
  | true,w,ts => ∃ m, Expects m w ts
  | false,w,ts => ∃ m us f vs, Expects m w us ∧ Spells .atom f vs ∧ ts = us ++ vs

lemma Reached.operand {w : List Pending} {ts us : List Token} {f : Formula} (h : Reached true w ts)
    (hf : Spells .atom f us) : Reached false w (ts ++ us) := by
  obtain ⟨m,hm⟩ := h
  exact ⟨m,ts,f,us,hm,hf,rfl⟩

lemma Reached.closing {w left : List Pending} {ts : List Token} (h : Reached false w ts)
    (hw : w.dropWhile (!·.isOpening) = .opening :: left) :
    Reached false left (ts ++ [.closing]) := by
  obtain ⟨m,us,f,vs,he,hf,rfl⟩ := h
  obtain ⟨m',ts',f',us',he',hf',ht⟩ := he.release_inner hf
  rw [hw] at he'
  obtain ⟨m₀,ts₀,he₀,rfl⟩ := he'.of_opening
  refine ⟨m₀,ts₀,f',_,he₀,.group hf',?_⟩
  rw [← ht]
  simp

lemma Reached.sentence {w : List Pending} {ts : List Token} (h : Reached false w ts)
    (hw : w.any Pending.isOpening = false) : IsSentence ts := by
  obtain ⟨m,us,f,vs,he,hf,rfl⟩ := h
  obtain ⟨m',ts',f',us',he',hf',ht⟩ := he.release_inner hf
  have hd : w.dropWhile (!·.isOpening) = [] := by
    rw [List.dropWhile_eq_nil_iff]
    simpa using hw
  rw [hd] at he'
  obtain rfl := he'.of_nil
  exact ⟨f',by simpa [← ht] using hf'⟩

/-- Where operands and connectives alternate, reordering refuses nothing but a text whose
parentheses do not balance. -/
theorem reached_sentence {operandNext : Bool} {w : List Pending} {us ts : List Token} {p : Postfix}
    (hr : Reached operandNext w us) (ha : alternates operandNext ts = true)
    (h : reorder w ts = .ok p) : IsSentence (us ++ ts) := by
  induction ts generalizing operandNext w us p with
  | nil =>
    obtain rfl : operandNext = false := by simpa [alternates] using ha
    rw [reorder] at h
    cases hw : w.any Pending.isOpening with
    | true => simp [hw] at h
    | false => simpa using hr.sentence hw
  | cons t ts ih =>
    rw [List.append_cons]
    rw [alternates,Bool.and_eq_true,beq_iff_eq] at ha
    obtain ⟨rfl,ha⟩ := ha
    rcases t with l | (_ | c) | _ | _ | ⟨l,r⟩
    · rw [reorder] at h
      obtain ⟨q,hq,-⟩ := map_eq_ok_iff.mp h
      exact ih (hr.operand (.letter l)) ha hq
    · obtain ⟨m,hm⟩ := hr
      have hr : Reached true (.operator .not :: w) (us ++ [.operator .not]) := ⟨.not,hm.not⟩
      rw [reorder_not] at h
      exact ih hr ha h
    · obtain ⟨m,vs,f,ws,he,hf,rfl⟩ := hr
      obtain ⟨ts',he',rfl⟩ := he.release_binary c hf
      have hr : Reached true _ _ := ⟨c.rightPhrase,he'⟩
      rw [reorder] at h
      obtain ⟨q,hq,-⟩ := map_eq_ok_iff.mp h
      exact ih hr ha hq
    · obtain ⟨m,hm⟩ := hr
      have hr : Reached true (.opening :: w) (us ++ [.opening]) := ⟨.iff,hm.opening⟩
      rw [reorder] at h
      exact ih hr ha h
    · rw [reorder] at h
      cases hd : w.dropWhile (!·.isOpening) with
      | nil => simp [hd] at h
      | cons p left =>
        obtain rfl : p = .opening := eq_opening_of_dropWhile hd
        simp only [hd] at h
        obtain ⟨q,hq,-⟩ := map_eq_ok_iff.mp h
        exact ih (hr.closing hd) ha hq
    · rw [reorder] at h
      obtain ⟨q,hq,-⟩ := map_eq_ok_iff.mp h
      exact ih (hr.operand (.xor l r)) ha hq

theorem isSentence_of_alternates {ts : List Token} {p : Postfix} (ha : alternates true ts = true)
    (h : Postfix.ofTokens ts = .ok p) : IsSentence ts := by
  have hr : Reached true [] [] := ⟨.iff,.start⟩
  exact reached_sentence hr ha h

end Formulary.Logic
