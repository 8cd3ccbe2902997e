import Formulary.Logic.Table
import Formulary.Proofs.Logic.Assembly
import Formulary.Proofs.Logic.Reordering

/-! Truth tables of formulas. A table exists exactly when the program is a formula in postfix order;
its rows count in binary and hold the values of that formula. -/
namespace Formulary.Logic

lemma mapM_eq_ok_map {α β ε : Type*} {f : α → Except ε β} {g : α → β} {l : List α}
    (h : ∀ a ∈ l, f a = .ok (g a)) : l.mapM f = .ok (l.map g) := by
  induction l with
  | nil => rfl
  | cons a l ih =>
    rw [List.mapM_cons,h a (by simp),ih fun b hb => h b (by simp [hb])]
    rfl

lemma exists_ok_of_mapM {α β ε : Type*} {f : α → Except ε β} {l : List α} {bs : List β}
    (h : l.mapM f = .ok bs) : ∀ a ∈ l, ∃ b, f a = .ok b := by
  induction l generalizing bs with
  | nil => simp
  | cons a l ih =>
    rw [List.mapM_cons] at h
    cases ha : f a with
    | error e => simp [ha,bind,Except.bind] at h
    | ok b =>
      cases hl : l.mapM f with
      | error e => simp [ha,hl,bind,Except.bind] at h
      | ok bs' => simpa [ha] using ih hl

lemma compile_eq_ok_iff {text : String} {p : Postfix} :
    compile text = .ok p ↔ ∃ ts, tokens text = .ok ts ∧ ts ≠ [] ∧ Postfix.ofTokens ts = .ok p := by
  rw [compile]
  cases tokens text with
  | error e => simp [bind,Except.bind]
  | ok ts => cases ts <;> simp [bind,Except.bind,throw,throwThe,MonadExceptOf.throw]

lemma compileOver_eq_ok_iff {a : Alphabet} {text : String} {p : Postfix} :
    compileOver a text = .ok p ↔
      compile text = .ok p ∧ ∀ l, p.uses l = true → l ∈ a.letters := by
  rw [compileOver]
  cases compile text with
  | error e => simp
  | ok q =>
    have hl : (q.letters.find? (!a.letters.contains ·)) = none ↔
        ∀ l, q.uses l = true → l ∈ a.letters := by
      simp [Postfix.mem_letters]
    cases hf : q.letters.find? (!a.letters.contains ·) with
    | some l =>
      have hn : ¬ ∀ l, q.uses l = true → l ∈ a.letters := by
        rw [← hl,hf]
        simp
      simp only [hf,reduceCtorEq,Except.ok.injEq,false_iff,not_and]
      rintro rfl
      exact hn
    | none =>
      simp only [hf,Except.ok.injEq]
      constructor
      · rintro rfl
        exact ⟨rfl,hl.mp hf⟩
      · exact And.left

/-- The number whose binary digits are the values, the value of the first letter in front. -/
def Assignment.number (s : Assignment) : ℕ := s.values.foldl (fun n b => 2*n + b.toNat) 0

lemma value?_ofRow (a : Alphabet) (i : ℕ) (l : Letter) : (Assignment.ofRow a i).value? l =
    if l ∈ a.letters then some (i.testBit (a.size - 1 - l.index)) else none := by
  simp only [Assignment.ofRow,Alphabet.mem_letters]

lemma number_ofRow (a : Alphabet) : ∀ i < a.rowCount, (Assignment.ofRow a i).number = i := by
  cases a <;> decide

/-- The assignments of an alphabet cover the programs over its letters. -/
lemma covers_of_mem_assignments {a : Alphabet} {p : Postfix} {s : Assignment}
    (hp : ∀ l, p.uses l = true → l ∈ a.letters) (hs : s ∈ a.assignments) : s.Covers p := by
  obtain ⟨i,-,rfl⟩ := List.mem_map.mp hs
  intro l hl
  rw [value?_ofRow,if_pos (hp l hl)]
  rfl

lemma ofRow_zero_mem (a : Alphabet) : Assignment.ofRow a 0 ∈ a.assignments :=
  List.mem_map.mpr ⟨0,by cases a <;> decide,rfl⟩

lemma evaluate_eq_ok_iff {p : Postfix} {s : Assignment} {b : Bool} :
    p.evaluate s = .ok b ↔ p.eval s = .ok b := by
  rw [Postfix.evaluate]
  cases p.eval s <;> simp

lemma evaluate_postfixOrder {f : Formula} {s : Assignment} (hs : s.Covers f.postfixOrder) :
    Postfix.evaluate f.postfixOrder s = .ok (f.value s.total) :=
  evaluate_eq_ok_iff.mpr ((eval_eq_ok_iff hs).mpr ⟨f,rfl,rfl⟩)

/-- The rows of a formula over an alphabet. -/
def Formula.rows (f : Formula) (a : Alphabet) : List Row :=
  a.assignments.map fun s => ⟨s,f.value s.total⟩

lemma exists_formula_of_row {p : Postfix} {s : Assignment} {r : Row} (hs : s.Covers p)
    (h : p.row s = .ok r) : ∃ f : Formula, p = f.postfixOrder := by
  cases he : p.evaluate s with
  | error e => simp [Postfix.row,he,Except.map] at h
  | ok b =>
    obtain ⟨f,hf,-⟩ := (eval_eq_ok_iff hs).mp (evaluate_eq_ok_iff.mp he)
    exact ⟨f,hf⟩

lemma mapM_row {f : Formula} {a : Alphabet}
    (hl : ∀ l, Postfix.uses f.postfixOrder l = true → l ∈ a.letters) :
    a.assignments.mapM (Postfix.row f.postfixOrder) = .ok (f.rows a) := by
  apply mapM_eq_ok_map
  intro s hs
  rw [Postfix.row,evaluate_postfixOrder (covers_of_mem_assignments hl hs)]
  rfl

/-- A text has a table exactly when its program is a formula in postfix order. -/
theorem table_eq_ok_iff {a : Alphabet} {text : String} {t : Table} :
    Table.ofText a text = .ok t ↔
      ∃ f : Formula, compileOver a text = .ok f.postfixOrder ∧ t = ⟨a,text,f.rows a⟩ := by
  rw [Table.ofText]
  constructor
  · intro h
    cases hc : compileOver a text with
    | error e => simp [hc,bind,Except.bind] at h
    | ok p =>
      have hl := (compileOver_eq_ok_iff.mp hc).2
      cases hm : a.assignments.mapM p.row with
      | error e => simp [hc,hm,bind,Except.bind] at h
      | ok rows =>
        obtain ⟨r,hr⟩ := exists_ok_of_mapM hm _ (ofRow_zero_mem a)
        obtain ⟨f,rfl⟩ := exists_formula_of_row (covers_of_mem_assignments hl (ofRow_zero_mem a)) hr
        rw [mapM_row hl] at hm
        cases hm
        simp only [hc,mapM_row hl,bind,Except.bind] at h
        cases h
        exact ⟨f,rfl,rfl⟩
  · rintro ⟨f,hc,rfl⟩
    simp only [hc,mapM_row (compileOver_eq_ok_iff.mp hc).2,bind,Except.bind]
    rfl

lemma value_congr {f : Formula} {v w : Letter → Bool} (h : ∀ l ∈ f.letters, v l = w l) :
    f.value v = f.value w := by
  induction f with
  | letter l => exact h l (by simp [Formula.letters])
  | xor l r => simp [Formula.value,h l (by simp [Formula.letters]),h r (by simp [Formula.letters])]
  | not f ih => simp [Formula.value,ih h]
  | binary c f g ihf ihg =>
    have hf := ihf fun l hl => h l (by simp [Formula.letters,hl])
    have hg := ihg fun l hl => h l (by simp [Formula.letters,hl])
    rw [← apply_eq_value,← apply_eq_value,hf,hg]

/-- However a formula is written, with whatever parentheses beyond the needed ones, its program is
the formula in postfix order, runs to its truth value, and fills a table that counts in binary. -/
theorem spells_table {f : Formula} {ts : List Token} (h : Spells .iff f ts) :
    Postfix.ofTokens ts = .ok f.postfixOrder ∧
    (∀ (s : Assignment) (v : Letter → Bool), (∀ l ∈ f.letters, s.value? l = some (v l)) →
      Postfix.eval f.postfixOrder s = .ok (f.value v)) ∧
    ∀ (a : Alphabet) (text : String), tokens text = .ok ts → (∀ l ∈ f.letters, l ∈ a.letters) →
      ∃ t, Table.ofText a text = .ok t ∧ t.alphabet = a ∧ t.expression = text ∧
        t.rows.length = Nat.pow 2 a.size ∧ ∀ (i : ℕ) (hi : i < t.rows.length),
          t.rows[i].assignment.number = i ∧
          (∀ l, t.rows[i].assignment.value? l =
            if l ∈ a.letters then some (i.testBit (a.size - 1 - l.index)) else none) ∧
          t.rows[i].result = f.value fun l => i.testBit (a.size - 1 - l.index) := by
  refine ⟨ofTokens_spells h,?_,?_⟩
  · intro s v hv
    have hs : s.Covers f.postfixOrder := by
      intro l hl
      rw [hv l ((uses_postfixOrder f l).mp hl)]
      rfl
    refine (eval_eq_ok_iff hs).mpr ⟨f,rfl,value_congr fun l hl => ?_⟩
    rw [Assignment.total,hv l hl]
    rfl
  · intro a text ht hl
    have hc : compileOver a text = .ok f.postfixOrder :=
      compileOver_eq_ok_iff.mpr ⟨compile_eq_ok_iff.mpr ⟨ts,ht,h.ne_nil,ofTokens_spells h⟩,
        fun l hu => hl l ((uses_postfixOrder f l).mp hu)⟩
    have hn : (f.rows a).length = Nat.pow 2 a.size := by
      rw [Formula.rows,List.length_map]
      exact a.length_assignments
    refine ⟨_,table_eq_ok_iff.mpr ⟨f,hc,rfl⟩,rfl,rfl,hn,fun i hi => ?_⟩
    have hr : (f.rows a)[i] = ⟨Assignment.ofRow a i,f.value (Assignment.ofRow a i).total⟩ := by
      simp [Formula.rows,Alphabet.assignments]
    simp only [hr]
    refine ⟨number_ofRow a i (lt_of_lt_of_eq hi hn),value?_ofRow a i,value_congr fun l hl' => ?_⟩
    rw [Assignment.total,value?_ofRow,if_pos (hl l hl')]
    rfl

/-- A text with a pair of parentheses that it could do without, and arrows that group to the right. -/
theorem spells_table_arrows : ∃ f ts, Spells .iff f ts ∧ tokens "A->(B)->~xor(A,C)" = .ok ts ∧
    Postfix.ofTokens ts = .ok f.postfixOrder ∧
    ∃ t, Table.ofText .three "A->(B)->~xor(A,C)" = .ok t ∧ t.rows.length = 8 := by
  have hright : Spells .implies (.binary .implies (.letter .b) (.not (.xor .a .c)))
      [.opening,.letter .b,.closing,.operator (.binary .implies),.operator .not,.xor .a .c] :=
    .binary .implies (.loosen (by decide) (.group (.loosen (by decide) (.letter .b))))
      (.loosen (by decide) (.not (.loosen (by decide) (.xor .a .c))))
  have h := Spells.loosen (m := .iff) (by decide)
    (.binary .implies (.loosen (by decide) (.letter .a)) hright)
  have ht : tokens "A->(B)->~xor(A,C)" = .ok [.letter .a,.operator (.binary .implies),.opening,
      .letter .b,.closing,.operator (.binary .implies),.operator .not,.xor .a .c] := by
    decide +kernel
  obtain ⟨ho,-,htable⟩ := spells_table h
  obtain ⟨t,hrows,-,-,hn,-⟩ := htable .three _ ht (by decide)
  exact ⟨_,_,h,ht,ho,t,hrows,hn⟩

end Formulary.Logic
