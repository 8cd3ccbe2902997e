import Formulary.Logic.Compile
import Formulary.Proofs.Logic.Grammar

/-! Sentences in postfix order. While a phrase is read, the entries that waited before it stay where
they are; what it leaves waiting itself binds at least as tightly as the phrase does. -/
namespace Formulary.Logic

/-- No operator that may stand openly in such a phrase releases the latest waiting entry. -/
def Blocks (m : Phrase) (waiting : List Pending) : Prop :=
  ∀ o : Operator, m.rank ≤ o.phrase.rank → ∀ p ∈ waiting.head?, p.goesBefore o = false

/-- Entries that such a phrase may leave waiting. -/
def LeftBy (m : Phrase) (held : List Pending) : Prop :=
  ∀ p ∈ held, ∃ o : Operator, p = .operator o ∧ m.rank ≤ o.phrase.rank

lemma Blocks.tighten {m k : Phrase} {waiting : List Pending} (hw : Blocks m waiting)
    (h : m.rank ≤ k.rank) : Blocks k waiting :=
  fun o ho => hw o (h.trans ho)

lemma LeftBy.loosen {m k : Phrase} {held : List Pending} (hh : LeftBy k held)
    (h : m.rank ≤ k.rank) : LeftBy m held := by
  intro p hp
  obtain ⟨o,ho,hk⟩ := hh p hp
  exact ⟨o,ho,h.trans hk⟩

lemma leftBy_nil (m : Phrase) : LeftBy m [] := by simp [LeftBy]

lemma LeftBy.append_operator {m : Phrase} {held : List Pending} {o : Operator}
    (hh : LeftBy m held) (ho : m.rank ≤ o.phrase.rank) : LeftBy m (held ++ [.operator o]) := by
  intro p hp
  rcases List.mem_append.mp hp with hp | hp
  · exact hh p hp
  · exact ⟨o,by simpa using hp,ho⟩

lemma blocks_nil (m : Phrase) : Blocks m [] := by simp [Blocks]

lemma blocks_opening (m : Phrase) (waiting : List Pending) : Blocks m (.opening :: waiting) := by
  simp [Blocks,Pending.goesBefore]

lemma LeftBy.not_opening {m : Phrase} {held : List Pending} (hh : LeftBy m held) {p : Pending}
    (hp : p ∈ held) : p.isOpening = false := by
  obtain ⟨o,rfl,-⟩ := hh p hp
  rfl

/-- An operand lets go of everything on its left when its connective comes. -/
lemma LeftBy.goesBefore {c : Connective} {held : List Pending} (hh : LeftBy c.leftPhrase held)
    {p : Pending} (hp : p ∈ held) : p.goesBefore (.binary c) = true := by
  obtain ⟨o,rfl,ho⟩ := hh p hp
  exact (o.bindsBefore_binary c).mpr ho

lemma blocks_operator (o : Operator) (waiting : List Pending) :
    Blocks o.operandPhrase (.operator o :: waiting) := by
  rintro coming h p ⟨rfl⟩
  exact (o.bindsBefore_eq_false coming).mpr h

/-- Nothing goes out before a negation, which has no operand on its left. -/
lemma goesBefore_not (p : Pending) : p.goesBefore .not = false := by
  rcases p with _ | (_ | (_ | _ | _ | _)) <;> rfl

lemma reorder_operator {o : Operator} {held waiting : List Pending} {rest : List Token}
    (hh : ∀ p ∈ held, p.goesBefore o = true) (hw : ∀ p ∈ waiting.head?, p.goesBefore o = false) :
    reorder (held ++ waiting) (.operator o :: rest) =
      (reorder (.operator o :: waiting) rest).map (held.filterMap Pending.instruction? ++ ·) := by
  rw [reorder,takeWhile_append_of_head hh hw,dropWhile_append_of_head hh hw]

lemma reorder_not (waiting : List Pending) (rest : List Token) :
    reorder waiting (.operator .not :: rest) = reorder (.operator .not :: waiting) rest :=
  (@reorder_operator .not [] waiting rest (by simp) (fun p _ => goesBefore_not p)).trans
    (map_nil_append _)

lemma reorder_closing {held waiting : List Pending} {rest : List Token}
    (hh : ∀ p ∈ held, p.isOpening = false) :
    reorder (held ++ .opening :: waiting) (.closing :: rest) =
      (reorder waiting rest).map (held.filterMap Pending.instruction? ++ ·) := by
  have hh' : ∀ p ∈ held, (!p.isOpening) = true := by simpa using hh
  have hw : ∀ p ∈ (Pending.opening :: waiting).head?, (!p.isOpening) = false := by
    simp [Pending.isOpening]
  rw [reorder,takeWhile_append_of_head hh' hw,dropWhile_append_of_head hh' hw]

/-- A closing parenthesis meets an open one or none. -/
lemma eq_opening_of_dropWhile {w left : List Pending} {p : Pending}
    (h : w.dropWhile (!·.isOpening) = p :: left) : p = .opening := by
  have hp := List.head?_dropWhile_not (!·.isOpening) w
  rw [h] at hp
  cases p with
  | opening => rfl
  | operator o => simp [Pending.isOpening] at hp

/-- Reading a phrase sends out a front part of its program and leaves the operators of the rest on
top of what waited before. -/
theorem reorder_spells {m : Phrase} {f : Formula} {ts : List Token} (h : Spells m f ts)
    {waiting : List Pending} (hw : Blocks m waiting) (rest : List Token) :
    ∃ out held, LeftBy m held ∧ out ++ held.filterMap Pending.instruction? = f.postfixOrder ∧
      reorder waiting (ts ++ rest) = (reorder (held ++ waiting) rest).map (out ++ ·) := by
  induction h generalizing waiting rest with
  | letter l => exact ⟨[.letter l],[],leftBy_nil _,rfl,rfl⟩
  | xor l r => exact ⟨[.xor l r],[],leftBy_nil _,rfl,rfl⟩
  | @group f ts inner ih =>
    obtain ⟨out,held,hh,ho,hr⟩ := ih (blocks_opening _ waiting) (.closing :: rest)
    refine ⟨f.postfixOrder,[],leftBy_nil _,by simp,?_⟩
    rw [List.cons_append,List.append_assoc,List.singleton_append,reorder,hr,
      reorder_closing (fun _ => hh.not_opening),map_append_map,ho,List.nil_append]
  | @not f ts inner ih =>
    obtain ⟨out,held,hh,ho,hr⟩ := ih (blocks_operator .not waiting) rest
    refine ⟨out,held ++ [.operator .not],hh.append_operator le_rfl,?_,?_⟩
    · rw [List.filterMap_append,← List.append_assoc,ho]
      rfl
    · rw [List.cons_append,reorder_not,hr,List.append_assoc,List.singleton_append]
  | @binary c f g ts us left right ihf ihg =>
    obtain ⟨out,held,hh,ho,hr⟩ :=
      ihf (hw.tighten c.rank_le_leftPhrase) (.operator (.binary c) :: (us ++ rest))
    obtain ⟨out',held',hh',ho',hr'⟩ := ihg (blocks_operator (.binary c) waiting) rest
    -- The connective sends out the rest of its left operand and then waits under the right one.
    refine ⟨f.postfixOrder ++ out',held' ++ [.operator (.binary c)],
      (hh'.loosen c.rank_le_rightPhrase).append_operator le_rfl,?_,?_⟩
    · rw [List.filterMap_append,List.append_assoc,← List.append_assoc out',ho',
        ← List.append_assoc]
      rfl
    · have hn : ∀ p ∈ waiting.head?, p.goesBefore (.binary c) = false :=
        hw (.binary c) le_rfl
      rw [List.append_assoc,List.cons_append,hr,reorder_operator (fun _ => hh.goesBefore) hn,hr',
        map_append_map,map_append_map,ho,List.append_assoc held',List.singleton_append]
  | @loosen m k f ts h inner ih =>
    obtain ⟨out,held,hh,ho,hr⟩ := ih (hw.tighten h) rest
    exact ⟨out,held,hh.loosen h,ho,hr⟩

/-- A sentence is brought into the postfix order of its formula. -/
theorem ofTokens_spells {m : Phrase} {f : Formula} {ts : List Token} (h : Spells m f ts) :
    Postfix.ofTokens ts = .ok f.postfixOrder := by
  obtain ⟨out,held,hh,ho,hr⟩ := reorder_spells h (blocks_nil m) []
  have hn : held.any Pending.isOpening = false := by
    simpa using fun p hp => hh.not_opening hp
  rw [List.append_nil,List.append_nil] at hr
  rw [Postfix.ofTokens,hr,reorder,hn,← ho]
  rfl

end Formulary.Logic
