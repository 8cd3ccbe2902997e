import Formulary.Proofs.Calculus.Grammar

/-! Sentences in postfix order. While a phrase is read, the entries that waited before it stay where
they are; what it leaves waiting itself binds at least as tightly as the phrase does. -/
namespace Formulary.Calculus

/-- No operator that may stand openly in such a phrase releases the latest waiting entry, and no
routine waits for an argument of its own. -/
structure Blocks (m : Phrase) (waiting : List Pending) : Prop where
  keeps : ∀ o : Operator, m.rank ≤ o.phrase.rank → ∀ p ∈ waiting.head?, p.goesBefore o = false
  routine : ∀ r, waiting.head? ≠ some (.routine r)

/-- The loosest phrase at the right end of a phrase: the exponent of a power may bear a sign. -/
def Phrase.tail : Phrase → Phrase
  | power => .unary
  | m => m

lemma Phrase.tail_rank_mono {m k : Phrase} (h : m.rank ≤ k.rank) : m.tail.rank ≤ k.tail.rank := by
  revert h
  cases m <;> cases k <;> decide

lemma Phrase.tail_rank_le (m : Phrase) : m.tail.rank ≤ m.rank := by
  cases m <;> decide

lemma tail_leftPhrase (o : Operator) : o.leftPhrase.tail = o.leftPhrase := by
  cases o <;> rfl

lemma tail_rightPhrase (o : Operator) : o.phrase.tail.rank ≤ o.rightPhrase.tail.rank := by
  cases o <;> decide

/-- Entries that such a phrase may leave waiting. -/
def LeftBy (m : Phrase) (held : List Pending) : Prop :=
  ∀ p ∈ held, ∃ k, p.phrase? = some k ∧ m.tail.rank ≤ k.rank

lemma Blocks.tighten {m k : Phrase} {waiting : List Pending} (hw : Blocks m waiting)
    (h : m.rank ≤ k.rank) : Blocks k waiting :=
  ⟨fun o ho => hw.keeps o (h.trans ho),hw.routine⟩

lemma LeftBy.loosen {m k : Phrase} {held : List Pending} (hh : LeftBy k held)
    (h : m.tail.rank ≤ k.tail.rank) : LeftBy m held := by
  intro p hp
  obtain ⟨j,hj,hk⟩ := hh p hp
  exact ⟨j,hj,h.trans hk⟩

lemma leftBy_nil (m : Phrase) : LeftBy m [] := by simp [LeftBy]

lemma LeftBy.append_singleton {m k : Phrase} {held : List Pending} {p : Pending}
    (hh : LeftBy m held) (hp : p.phrase? = some k) (h : m.tail.rank ≤ k.rank) :
    LeftBy m (held ++ [p]) := by
  intro p' hp'
  rcases List.mem_append.mp hp' with hp' | hp'
  · exact hh p' hp'
  · obtain rfl : p' = p := by simpa using hp'
    exact ⟨k,hp,h⟩

lemma blocks_nil (m : Phrase) : Blocks m [] := ⟨by simp,by simp⟩

/-- An entry blocks the phrases that may stand behind it. -/
lemma blocks_operandPhrase {p : Pending} (hp : ∀ r, p ≠ .routine r) (waiting : List Pending) :
    Blocks p.operandPhrase (p :: waiting) := by
  refine ⟨?_,fun r h => hp r (by simpa using h)⟩
  rintro o ho p' ⟨rfl⟩
  exact (Pending.goesBefore_eq_false o p).mpr ho

lemma LeftBy.not_opening {m : Phrase} {held : List Pending} (hh : LeftBy m held) {p : Pending}
    (hp : p ∈ held) : p.isOpening = false := by
  obtain ⟨k,hk,-⟩ := hh p hp
  cases p with
  | opening => cases hk
  | _ => rfl

/-- An operand lets go of everything on its left when its operator comes. -/
lemma LeftBy.goesBefore {o : Operator} {held : List Pending} (hh : LeftBy o.leftPhrase held)
    {p : Pending} (hp : p ∈ held) : p.goesBefore o = true := by
  rw [Pending.goesBefore_iff,← tail_leftPhrase]
  exact hh p hp

lemma reorder_operator {o : Operator} {i : ℕ} {held waiting : List Pending}
    {last : Option Operator} {rest : List Placed}
    (hh : ∀ p ∈ held, p.goesBefore o = true) (hw : ∀ p ∈ waiting.head?, p.goesBefore o = false) :
    reorder (held ++ waiting) false last (⟨.operator o,i⟩ :: rest) =
      (reorder (.binary o :: waiting) true (some o) rest).map
        (held.filterMap Pending.instruction? ++ ·) := by
  simp only [reorder,takeWhile_append_of_head hh hw,dropWhile_append_of_head hh hw]
  rfl

lemma takeWhile_opening {held waiting : List Pending} (hh : ∀ p ∈ held, p.isOpening = false) :
    (held ++ .opening :: waiting).takeWhile (!·.isOpening) = held ∧
      (held ++ .opening :: waiting).dropWhile (!·.isOpening) = .opening :: waiting := by
  have hh' : ∀ p ∈ held, (!p.isOpening) = true := by simpa using hh
  have hw : ∀ p ∈ (Pending.opening :: waiting).head?, (!p.isOpening) = false := by
    simp [Pending.isOpening]
  exact ⟨takeWhile_append_of_head hh' hw,dropWhile_append_of_head hh' hw⟩

lemma close?_group {held waiting : List Pending} (hh : ∀ p ∈ held, p.isOpening = false)
    (hw : ∀ r, waiting.head? ≠ some (.routine r)) :
    close? (held ++ .opening :: waiting) =
      some (held.filterMap Pending.instruction?,waiting) := by
  rw [close?,(takeWhile_opening hh).1,(takeWhile_opening hh).2]
  rcases waiting with _ | ⟨_ | _ | _ | r,below⟩
  all_goals simp_all

lemma close?_call {held waiting : List Pending} {r : Routine}
    (hh : ∀ p ∈ held, p.isOpening = false) :
    close? (held ++ .opening :: .routine r :: waiting) =
      some (held.filterMap Pending.instruction? ++ [.call r],waiting) := by
  rw [close?,(takeWhile_opening hh).1,(takeWhile_opening hh).2]

lemma reorder_closing {waiting left : List Pending} {out : Program} {i : ℕ}
    {last : Option Operator} {rest : List Placed} (h : close? waiting = some (out,left)) :
    reorder waiting false last (⟨.closing,i⟩ :: rest) =
      (reorder left false last rest).map (out ++ ·) := by
  simp [reorder,h]

/-- Reading a phrase sends out a front part of its program and leaves the operations of the rest on
top of what waited before. -/
theorem reorder_spells {m : Phrase} {e : Expression} {ts : List Placed} (h : Spells m e ts)
    {waiting : List Pending} (hw : Blocks m waiting) (last : Option Operator)
    (rest : List Placed) :
    ∃ out held last', LeftBy m held ∧
      out ++ held.filterMap Pending.instruction? = e.postfixOrder ∧
      reorder waiting true last (ts ++ rest) =
        (reorder (held ++ waiting) false last' rest).map (out ++ ·) := by
  induction h generalizing waiting last rest with
  | number v i => exact ⟨[.number v],[],last,leftBy_nil _,rfl,rfl⟩
  | x i => exact ⟨[.x],[],last,leftBy_nil _,rfl,rfl⟩
  | pi i => exact ⟨[.pi],[],last,leftBy_nil _,rfl,rfl⟩
  | @call r i j k e ts inner ih =>
    obtain ⟨out,held,last',hh,ho,hr⟩ := ih (blocks_operandPhrase (p := .opening) (by simp)
      (.routine r :: waiting)) last (⟨.closing,k⟩ :: rest)
    refine ⟨e.postfixOrder ++ [.call r],[],last',leftBy_nil _,by simp [Expression.postfixOrder],?_⟩
    have hs : reorder waiting true last
        (⟨.routine r,i⟩ :: ⟨.opening,j⟩ :: (ts ++ [⟨.closing,k⟩]) ++ rest) =
        reorder (.opening :: .routine r :: waiting) true last (ts ++ ⟨.closing,k⟩ :: rest) := by
      simp [reorder,beginsOpening]
    rw [hs,hr,reorder_closing (close?_call fun _ => hh.not_opening),map_append_map,
      ← List.append_assoc,ho,List.nil_append]
  | @group i j e ts inner ih =>
    obtain ⟨out,held,last',hh,ho,hr⟩ := ih (blocks_operandPhrase (p := .opening) (by simp)
      waiting) last (⟨.closing,j⟩ :: rest)
    refine ⟨e.postfixOrder,[],last',leftBy_nil _,by simp,?_⟩
    have hs : reorder waiting true last (⟨.opening,i⟩ :: (ts ++ [⟨.closing,j⟩]) ++ rest) =
        reorder (.opening :: waiting) true last (ts ++ ⟨.closing,j⟩ :: rest) := by
      simp [reorder]
    rw [hs,hr,reorder_closing (close?_group (fun _ => hh.not_opening) hw.routine),map_append_map,
      ho,List.nil_append]
  | @minus i e ts inner ih =>
    obtain ⟨out,held,last',hh,ho,hr⟩ := ih (blocks_operandPhrase (p := .negate) (by simp)
      waiting) (some .subtract) rest
    refine ⟨out,held ++ [.negate],last',hh.append_singleton rfl le_rfl,?_,?_⟩
    · rw [List.filterMap_append,← List.append_assoc,ho]
      rfl
    · rw [List.cons_append,reorder,if_pos rfl,hr,List.append_assoc,List.singleton_append]
  | @plus i e ts inner ih =>
    obtain ⟨out,held,last',hh,ho,hr⟩ := ih hw (some .add) rest
    exact ⟨out,held,last',hh,ho,hr⟩
  | @binary o i l r ts us left right ihl ihr =>
    obtain ⟨out,held,last',hh,ho,hr⟩ :=
      ihl (hw.tighten o.rank_le_leftPhrase) last (⟨.operator o,i⟩ :: (us ++ rest))
    obtain ⟨out',held',last'',hh',ho',hr'⟩ := ihr (blocks_operandPhrase (p := .binary o) (by simp)
      waiting) (some o) rest
    -- The operator sends out the rest of its left operand and then waits under the right one.
    refine ⟨l.postfixOrder ++ out',held' ++ [.binary o],last'',
      (hh'.loosen (tail_rightPhrase o)).append_singleton rfl (Phrase.tail_rank_le _),?_,?_⟩
    · rw [List.filterMap_append,List.append_assoc,← List.append_assoc out',ho',
        ← List.append_assoc]
      rfl
    · rw [List.append_assoc,List.cons_append,hr,
        reorder_operator (fun _ => hh.goesBefore) (hw.keeps o le_rfl),hr',map_append_map,
        map_append_map,ho,List.append_assoc held',List.singleton_append]
  | @loosen m k e ts h inner ih =>
    obtain ⟨out,held,last',hh,ho,hr⟩ := ih (hw.tighten h) last rest
    exact ⟨out,held,last',hh.loosen (Phrase.tail_rank_mono h),ho,hr⟩

/-- A sentence is brought into the postfix order of its expression. -/
theorem reorder_sentence {m : Phrase} {e : Expression} {ts : List Placed} (h : Spells m e ts) :
    reorder [] true none ts = .ok e.postfixOrder := by
  obtain ⟨out,held,last,hh,ho,hr⟩ := reorder_spells h (blocks_nil m) none []
  have hn : held.any Pending.isOpening = false := by
    simpa using fun p hp => hh.not_opening hp
  rw [List.append_nil,List.append_nil] at hr
  rw [hr,← ho]
  simp [reorder,hn,Except.map]

end Formulary.Calculus
