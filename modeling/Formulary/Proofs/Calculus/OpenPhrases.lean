import Formulary.Proofs.Calculus.Reordering

/-! What has been read of a sentence at each moment. The waiting entries are the unfinished phrases
around the place where the next operand belongs, up to plus signs, which wait nowhere. Whatever is
accepted has been finished phrase by phrase, so it is a sentence. -/
namespace Formulary.Calculus

/-- After the tokens, with these entries waiting, a phrase of the kind is expected. -/
inductive Expects : Phrase → List Pending → List Placed → Prop
  | start : Expects .sum [] []
  | opening (i : ℕ) {m w ts} (outer : Expects m w ts) :
      Expects .sum (.opening :: w) (ts ++ [⟨.opening,i⟩])
  | call (r : Routine) (i j : ℕ) {m w ts} (outer : Expects m w ts) :
      Expects .sum (.opening :: .routine r :: w) (ts ++ [⟨.routine r,i⟩,⟨.opening,j⟩])
  | minus (i : ℕ) {m w ts} (outer : Expects m w ts) :
      Expects .unary (.negate :: w) (ts ++ [⟨.operator .subtract,i⟩])
  | plus (i : ℕ) {m w ts} (outer : Expects m w ts) :
      Expects .unary w (ts ++ [⟨.operator .add,i⟩])
  | binary (o : Operator) (i : ℕ) {m w ts l us} (outer : Expects m w ts)
      (fits : m.rank ≤ o.phrase.rank) (left : Spells o.leftPhrase l us) :
      Expects o.rightPhrase (.binary o :: w) (ts ++ us ++ [⟨.operator o,i⟩])

namespace Expects

/-- A sign may begin every phrase that is ever expected. -/
lemma rank_le {m : Phrase} {w : List Pending} {ts : List Placed} (h : Expects m w ts) :
    m.rank ≤ Phrase.unary.rank := by
  cases h with
  | start => decide
  | opening i outer => decide
  | call r i j outer => decide
  | minus i outer => decide
  | plus i outer => decide
  | binary o i outer fits left => cases o <;> decide

lemma head_ne_routine {m : Phrase} {w : List Pending} {ts : List Placed} (h : Expects m w ts)
    (r : Routine) : w.head? ≠ some (.routine r) := by
  induction h with
  | plus i outer ih => exact ih
  | _ => simp

/-- The waiting entries that a coming token releases take the operand before it into a phrase of
the kind, and where that phrase began nothing looser was expected. -/
theorem release {q : Pending → Bool} {k : Phrase} (hk : k.rank < Phrase.unary.rank)
    (ho : q .opening = false)
    (hq : ∀ p j, p.phrase? = some j → q p = true → k.rank ≤ j.rank)
    (hn : ∀ p, q p = false → p.operandPhrase.rank ≤ k.rank)
    {m j : Phrase} {w : List Pending} {ts us : List Placed} {e : Expression} (h : Expects m w ts)
    (he : Spells j e us) (hm : m.rank ≤ j.rank) (hj : k.rank ≤ j.rank) :
    ∃ m' ts' e' us', Expects m' (w.dropWhile q) ts' ∧ m'.rank ≤ k.rank ∧ Spells k e' us' ∧
      ts' ++ us' = ts ++ us := by
  have hs : Phrase.sum.rank ≤ k.rank := by cases k <;> decide
  -- From the latest waiting entry down: a released one makes the operand behind it a longer one. A
  -- plus sign waits nowhere, so it is taken in even where nothing is released.
  induction h generalizing j e us with
  | start => exact ⟨.sum,[],e,us,.start,hs,he.loosen hj,rfl⟩
  | @opening i m w ts outer ih =>
    rw [List.dropWhile_cons_of_neg (by simp [ho])]
    exact ⟨.sum,_,e,us,.opening i outer,hs,he.loosen hj,rfl⟩
  | @call r i i' m w ts outer ih =>
    rw [List.dropWhile_cons_of_neg (by simp [ho])]
    exact ⟨.sum,_,e,us,.call r i i' outer,hs,he.loosen hj,rfl⟩
  | @minus i m w ts outer ih =>
    cases hp : q .negate with
    | false =>
      rw [List.dropWhile_cons_of_neg (by simp [hp])]
      exact ⟨.unary,_,e,us,.minus i outer,hn .negate hp,he.loosen hj,rfl⟩
    | true =>
      rw [List.dropWhile_cons_of_pos hp]
      obtain ⟨m',ts',e',us',hx,hm',he',ht⟩ :=
        ih (.minus i (he.loosen hm)) outer.rank_le hk.le
      exact ⟨m',ts',e',us',hx,hm',he',by simp [ht]⟩
  | @plus i m w ts outer ih =>
    obtain ⟨m',ts',e',us',hx,hm',he',ht⟩ := ih (.plus i (he.loosen hm)) outer.rank_le hk.le
    exact ⟨m',ts',e',us',hx,hm',he',by simp [ht]⟩
  | @binary o i m w ts l vs outer fits left ih =>
    cases hp : q (.binary o) with
    | false =>
      rw [List.dropWhile_cons_of_neg (by simp [hp])]
      exact ⟨_,_,e,us,.binary o i outer fits left,hn (.binary o) hp,he.loosen hj,rfl⟩
    | true =>
      rw [List.dropWhile_cons_of_pos hp]
      obtain ⟨m',ts',e',us',hx,hm',he',ht⟩ :=
        ih (.binary o i left (he.loosen hm)) fits (hq (.binary o) _ rfl hp)
      exact ⟨m',ts',e',us',hx,hm',he',by simp [ht]⟩

/-- An operator finds a finished left operand. A power takes the operand as it is. -/
lemma release_binary (o : Operator) (i : ℕ) {m : Phrase} {w : List Pending}
    {ts us : List Placed} {e : Expression} (h : Expects m w ts) (he : Spells .atom e us) :
    Expects o.rightPhrase (.binary o :: w.dropWhile (·.goesBefore o))
      (ts ++ us ++ [⟨.operator o,i⟩]) := by
  have hm := h.rank_le.trans (show Phrase.unary.rank ≤ Phrase.atom.rank by decide)
  by_cases ho : o = .power
  · subst o
    have hw : w.dropWhile (·.goesBefore .power) = w := by
      cases w with
      | nil => rfl
      | cons p w => rw [List.dropWhile_cons_of_neg (by simp [Pending.goesBefore_power])]
    rw [hw]
    exact .binary .power i h (h.rank_le.trans (by decide)) he
  · have hl := Operator.leftPhrase_eq_phrase ho
    obtain ⟨m',ts',e',us',hx,hm',he',ht⟩ := h.release (q := (·.goesBefore o)) (k := o.phrase)
      (Operator.rank_le_unary ho) rfl
      (fun p j hj hp => by
        obtain ⟨j',hj',hr⟩ := (Pending.goesBefore_iff o p).mp hp
        rw [hj] at hj'
        cases hj'
        rwa [hl] at hr)
      (fun p => (Pending.goesBefore_eq_false o p).mp) he hm (by cases o <;> decide)
    rw [← ht]
    exact .binary o i hx hm' (hl ▸ he')

/-- At a closing parenthesis or the end all phrases back to the last open parenthesis are finished. -/
lemma release_inner {m : Phrase} {w : List Pending} {ts us : List Placed}
    {e : Expression} (h : Expects m w ts) (he : Spells .atom e us) :
    ∃ ts' e' us', Expects .sum (w.dropWhile (!·.isOpening)) ts' ∧ Spells .sum e' us' ∧
      ts' ++ us' = ts ++ us := by
  have hm := h.rank_le.trans (show Phrase.unary.rank ≤ Phrase.atom.rank by decide)
  obtain ⟨m',ts',e',us',hx,hm',he',ht⟩ := h.release (q := (!·.isOpening)) (k := .sum) (by decide)
    rfl (fun p j _ _ => by cases j <;> decide)
    (fun p hp => by cases p <;> simp_all [Pending.isOpening,Pending.operandPhrase])
    he hm (by decide)
  have hs : m' = .sum := by
    cases m' <;> simp [Phrase.rank] at hm'
    rfl
  exact ⟨ts',e',us',hs ▸ hx,he',ht⟩

/-- Where a whole sum is expected, the text begins or an open parenthesis was read last. -/
lemma sum_cases {m : Phrase} {w : List Pending} {ts : List Placed} (h : Expects m w ts)
    (hm : m = .sum) :
    (w = [] ∧ ts = []) ∨
    (∃ i k v us, w = .opening :: v ∧ Expects k v us ∧ ts = us ++ [⟨.opening,i⟩]) ∨
    ∃ r i j k v us, w = .opening :: .routine r :: v ∧ Expects k v us ∧
      ts = us ++ [⟨.routine r,i⟩,⟨.opening,j⟩] := by
  cases h with
  | start => exact .inl ⟨rfl,rfl⟩
  | opening i outer => exact .inr (.inl ⟨i,_,_,_,rfl,outer,rfl⟩)
  | call r i j outer => exact .inr (.inr ⟨r,i,j,_,_,_,rfl,outer,rfl⟩)
  | minus i outer => cases hm
  | plus i outer => cases hm
  | binary o i outer fits left => cases o <;> cases hm

end Expects

/-- What has been read where an operand belongs, and behind an operand. -/
def Reached : Bool → List Pending → List Placed → Prop
  | true,w,ts => ∃ m, Expects m w ts
  | false,w,ts => ∃ m us e vs, Expects m w us ∧ Spells .atom e vs ∧ ts = us ++ vs

lemma Reached.operand {w : List Pending} {ts us : List Placed} {e : Expression}
    (h : Reached true w ts) (he : Spells .atom e us) : Reached false w (ts ++ us) := by
  obtain ⟨m,hm⟩ := h
  exact ⟨m,ts,e,us,hm,he,rfl⟩

lemma Reached.closing {w left : List Pending} {ts : List Placed} {out : Program}
    (h : Reached false w ts) (hc : close? w = some (out,left)) (i : ℕ) :
    Reached false left (ts ++ [⟨.closing,i⟩]) := by
  obtain ⟨m,us,e,vs,hx,he,rfl⟩ := h
  obtain ⟨ts',e',us',hx',he',ht⟩ := hx.release_inner he
  rw [close?] at hc
  rcases hx'.sum_cases rfl with ⟨hw,-⟩ | ⟨j,k,v,zs,hw,hv,rfl⟩ | ⟨r,j,j',k,v,zs,hw,hv,rfl⟩
  · simp [hw] at hc
  · rw [hw] at hc
    have hl : left = v := by
      have hr := hv.head_ne_routine
      rcases v with _ | ⟨_ | _ | _ | r,v⟩ <;> simp_all
    subst hl
    refine ⟨k,zs,e',_,hv,.group j i he',?_⟩
    rw [← ht]
    simp
  · rw [hw] at hc
    cases hc
    refine ⟨k,zs,_,_,hv,.call r j j' i he',?_⟩
    rw [← ht]
    simp

lemma Reached.sentence {w : List Pending} {ts : List Placed} (h : Reached false w ts)
    (hw : w.any Pending.isOpening = false) : ∃ e, Spells .sum e ts := by
  obtain ⟨m,us,e,vs,hx,he,rfl⟩ := h
  obtain ⟨ts',e',us',hx',he',ht⟩ := hx.release_inner he
  have hd : w.dropWhile (!·.isOpening) = [] := by
    rw [List.dropWhile_eq_nil_iff]
    simpa using hw
  rw [hd] at hx'
  rcases hx'.sum_cases rfl with ⟨-,rfl⟩ | ⟨j,k,v,zs,hw,-⟩ | ⟨r,j,j',k,v,zs,hw,-⟩
  · exact ⟨e',by simpa [← ht] using he'⟩
  · cases hw
  · cases hw

end Formulary.Calculus
