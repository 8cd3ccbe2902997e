import Formulary.Proofs.Calculus.LexemeEnds

/-! Operators in their other spelling. A point may be put in front of `*`, `/` and `^` or taken away
from there wherever a text has such an operator: the tokens stay the same. The one lexeme that
changes with it is a number that ends with a point of its own. When the point of the operator behind
it goes, the operator takes the point of the number, which does not need it. -/
namespace Formulary.Calculus

/-- The text with the operators at the chosen places in their other spelling, with or without a
point. Places are counted from one, and so many characters stand before. -/
def respell (chosen : ℕ → Bool) : ℕ → List Char → List Char
  | _,[] => []
  | n,c :: s =>
    if chosen (n + 1) then
      if c = '.' then respell chosen (n + 1) s else '.' :: c :: respell chosen (n + 1) s
    else c :: respell chosen (n + 1) s

def respelled (chosen : ℕ → Bool) (text : String) : String :=
  String.ofList (respell chosen 0 text.toList)

/-- Only operators with a dotted spelling are chosen behind so many characters. -/
def Chooses (chosen : ℕ → Bool) (n : ℕ) (ts : List Placed) : Prop :=
  ∀ i, n < i → chosen i = true →
    ∃ o : Operator, Operator.ofDotted? o.char = some o ∧ ⟨.operator o,i⟩ ∈ ts

lemma respell_cons {chosen : ℕ → Bool} {n : ℕ} (h : chosen (n + 1) = false) (c : Char)
    (s : List Char) : respell chosen n (c :: s) = c :: respell chosen (n + 1) s := by
  simp [respell,h]

lemma respell_sign {chosen : ℕ → Bool} {n : ℕ} (h : chosen (n + 1) = true) (o : Operator)
    (s : List Char) :
    respell chosen n ([o.char] ++ s) = ['.',o.char] ++ respell chosen (n + 1) s := by
  simp [respell,h,char_ne_point]

lemma respell_point {chosen : ℕ → Bool} {n : ℕ} (h : chosen (n + 1) = true) (s : List Char) :
    respell chosen n ('.' :: s) = respell chosen (n + 1) s := by
  simp [respell,h]

lemma respell_append (chosen : ℕ → Bool) (n : ℕ) (s u : List Char) :
    respell chosen n (s ++ u) = respell chosen n s ++ respell chosen (n + s.length) u := by
  induction s generalizing n with
  | nil => rfl
  | cons c s ih =>
    have hn : n + 1 + s.length = n + (c :: s).length := by
      rw [List.length_cons]
      omega
    simp only [List.cons_append,respell,ih,hn]
    split_ifs <;> rfl

lemma respell_eq_self {chosen : ℕ → Bool} {n : ℕ} {s : List Char}
    (h : ∀ i, n < i → i ≤ n + s.length → chosen i = false) : respell chosen n s = s := by
  induction s generalizing n with
  | nil => rfl
  | cons c s ih =>
    rw [List.length_cons] at h
    rw [respell_cons (h _ (by omega) (by omega)),ih fun i h₁ h₂ => h i (by omega) (by omega)]

/-! The lexeme of an operator that is chosen -/

section

variable {chosen : ℕ → Bool} {n m k : ℕ} {t : Token} {ts : List Placed} {s : List Char}
  {e : Option SyntaxError}

lemma Chooses.eq_false_of_nil (h : Chooses chosen n []) {i : ℕ} (hi : n < i) :
    chosen i = false := by
  by_contra hc
  obtain ⟨o,-,hm⟩ := h i hi (by simpa using hc)
  cases hm

/-- Up to the end of a lexeme, only its own place can be chosen. -/
lemma Chooses.eq_of_le (h : Chooses chosen n (⟨t,m + 1⟩ :: ts)) (hk : Cutting k s ts e) {i : ℕ}
    (hi : n < i) (hik : i ≤ k) (hc : chosen i = true) :
    i = m + 1 ∧ ∃ o : Operator, Operator.ofDotted? o.char = some o ∧ t = .operator o := by
  obtain ⟨o,ho,hm⟩ := h i hi hc
  rcases List.mem_cons.mp hm with heq | hm
  · obtain ⟨ht,hp⟩ := Placed.mk.inj heq
    exact ⟨hp,o,ho,ht.symm⟩
  · have := hk.lt_position _ hm
    simp only at this
    omega

lemma Chooses.tail (h : Chooses chosen n (⟨t,m + 1⟩ :: ts)) (hn : n ≤ k) (hm : m < k) :
    Chooses chosen k ts := by
  intro i hi hc
  obtain ⟨o,ho,hmem⟩ := h i (by omega) hc
  refine ⟨o,ho,?_⟩
  rcases List.mem_cons.mp hmem with heq | hmem
  · have := congrArg Placed.position heq
    simp only at this
    omega
  · exact hmem

/-- Blanks stay as they are, and so does a lexeme, except that its first place may be chosen. -/
lemma Chooses.respell_append (h : Chooses chosen n (⟨t,m + 1⟩ :: ts)) (hk : Cutting k s ts e)
    {j : ℕ} {u : List Char} (hn : n ≤ j) (hle : j + u.length ≤ k)
    (hm : j + u.length ≤ m ∨ m + 1 ≤ j ∨ chosen (m + 1) = false) (v : List Char) :
    respell chosen j (u ++ v) = u ++ respell chosen (j + u.length) v := by
  rw [Calculus.respell_append,respell_eq_self]
  intro i hi hij
  by_contra hc
  have hc : chosen i = true := by simpa using hc
  obtain ⟨rfl,-⟩ := h.eq_of_le hk (by omega) (by omega) hc
  rcases hm with hm | hm | hm
  · omega
  · omega
  · rw [hm] at hc
    cases hc

/-- The sign of an operator stays behind its point. -/
lemma Chooses.respell_behind_point {o : Operator} (h : Chooses chosen n (⟨t,n + 1⟩ :: ts))
    (next : Cutting (n + 2) s ts e) :
    respell chosen (n + 1) (o.char :: s) = o.char :: respell chosen (n + 2) s :=
  h.respell_append next (u := [o.char]) (by omega) (by simp) (.inr (.inl le_rfl)) s

/-- The front of a text that is respelled there. -/
lemma Cutting.respell_chosen (h : Cutting n s ts none) (hc : Chooses chosen n ts)
    (hn : chosen (n + 1) = true) : ∃ (o : Operator) (u : List Char),
      Operator.ofDotted? o.char = some o ∧
      (s = o.char :: u ∧ respell chosen n s = '.' :: o.char :: respell chosen (n + 1) u ∨
        s = '.' :: o.char :: u ∧ respell chosen n s = o.char :: respell chosen (n + 2) u) := by
  obtain ⟨o,ho,hm⟩ := hc _ (Nat.lt_succ_self n) hn
  obtain ⟨w,rest,us,rfl,rfl,hs,hnext⟩ := h.of_operator hm
  refine ⟨o,rest,ho,?_⟩
  rcases hs.operator_cases with rfl | rfl
  · exact .inl ⟨rfl,respell_sign hn o rest⟩
  · exact .inr ⟨rfl,(respell_point hn _).trans (hc.respell_behind_point hnext)⟩

/-- A point in front of an operator that stays is still in front of one. -/
lemma Cutting.beginsDotted_respell (h : Cutting n ('.' :: s) ts none) (hc : Chooses chosen n ts)
    (hdot : beginsDotted s = true) : beginsDotted (respell chosen (n + 1) s) = true := by
  rcases s with _ | ⟨d,s⟩
  · cases hdot
  obtain ⟨o,ho⟩ := Option.isSome_iff_exists.mp hdot
  obtain rfl := char_of_ofDotted? ho
  obtain ⟨vs,rfl,hnext⟩ := h.of_spelling (w := ['.',o.char]) (.dotted ho s)
  rw [hc.respell_behind_point hnext]
  exact hdot

end

/-- Operators in their other spelling prolong nothing in front of them. -/
lemma keepsEnd_respell {chosen : ℕ → Bool} {n m : ℕ} {s : List Char} {ts us : List Placed}
    (h : Cutting n s ts none) (hc : Chooses chosen n ts)
    (h' : Cutting m (respell chosen n s) us none) : KeepsEnd s (respell chosen n s) := by
  have hsign : ∀ o : Operator, isWordPart o.char = false := fun o => by cases o <;> rfl
  cases hn : chosen (n + 1) with
  | true =>
    obtain ⟨o,u,ho,⟨rfl,hr⟩ | ⟨rfl,hr⟩⟩ := h.respell_chosen hc hn
    · refine ⟨?_,?_,h'.cutExponent⟩
      · rw [hr]
        rintro c ⟨⟩ hw
        cases hw
      · rw [hr]
        rintro v ⟨⟩ hno
        simp [beginsDotted,ho] at hno
    · refine ⟨?_,?_,h'.cutExponent⟩
      · rw [hr]
        rintro c ⟨⟩ hw
        rw [hsign] at hw
        cases hw
      · rw [hr]
        intro v hv
        exact absurd (List.cons.inj hv).1 (char_ne_point o)
  | false =>
    refine ⟨?_,?_,h'.cutExponent⟩
    · rcases s with _ | ⟨c,s⟩
      · simp [respell]
      · simp [respell_cons hn]
    · intro u hu hno
      rcases s with _ | ⟨c,s⟩
      · cases hu
      rw [respell_cons hn] at hu
      obtain ⟨rfl,rfl⟩ := List.cons.inj hu
      refine ⟨s,rfl,?_⟩
      by_contra hdot
      rw [h.beginsDotted_respell hc (by simpa using hdot)] at hno
      cases hno

/-- A text is cut into the same tokens with operators in their other spelling. -/
theorem Cutting.respell {chosen : ℕ → Bool} {n : ℕ} {s : List Char} {ts : List Placed}
    (h : Cutting n s ts none) (hc : Chooses chosen n ts) (m : ℕ) :
    ∃ us, Cutting m (Calculus.respell chosen n s) us none ∧
      us.map Placed.token = ts.map Placed.token := by
  -- The place is free in the induction, since points that come or go move what follows them.
  generalize he : (none : Option SyntaxError) = e at h
  induction h generalizing m with
  | @done n blanks hb =>
    rw [respell_eq_self fun i hi _ => hc.eq_false_of_nil hi]
    exact ⟨[],.done hb,rfl⟩
  | fault hb h => cases he
  | @lexeme n blanks w rest t ts e hb h next ih =>
    subst he
    have hpos : 0 < w.length := by
      obtain ⟨c,u,rfl,-⟩ := h.lexeme.head
      simp
    have hc' : Chooses chosen (n + blanks.length) (⟨t,n + blanks.length + 1⟩ :: ts) :=
      fun i hi => hc i (by omega)
    have hrest := hc.tail (k := n + blanks.length + w.length) (by omega) (by omega)
    rw [hc.respell_append next le_rfl (by omega) (.inl le_rfl)]
    cases hn : chosen (n + blanks.length + 1) with
    | true =>
      obtain ⟨-,o,ho,rfl⟩ := hc.eq_of_le next (by omega) (by omega) hn
      rcases h.operator_cases with rfl | rfl
      · obtain ⟨us,hus,heq⟩ := ih hrest (m + blanks.length + 2) rfl
        rw [respell_sign hn]
        exact ⟨_,.lexeme hb (.dotted ho _) hus,by simp [heq]⟩
      · obtain ⟨us,hus,heq⟩ := ih hrest (m + blanks.length + 1) rfl
        have hr : Calculus.respell chosen (n + blanks.length) (['.',o.char] ++ rest) =
            [o.char] ++ Calculus.respell chosen (n + blanks.length + 2) rest :=
          (respell_point hn _).trans (hc'.respell_behind_point next)
        rw [hr]
        exact ⟨_,.lexeme hb (.plain o _) hus,by simp [heq]⟩
    | false =>
      rw [hc.respell_append next (by omega) le_rfl (.inr (.inr hn))]
      obtain ⟨us,hus,heq⟩ := ih hrest (m + blanks.length + w.length) rfl
      by_cases hp : LeavesPoint w (Calculus.respell chosen (n + blanks.length + w.length) rest)
      · exact ⟨_,.lexeme hb ((keepsEnd_respell next hrest hus).spelling hp h) hus,by simp [heq]⟩
      · obtain ⟨vs,hvs,heq'⟩ := Cutting.take_point hb h hp hus
        exact ⟨_,hvs,by simp [heq,heq']⟩

/-- In a text that is accepted, any operators with a dotted spelling may be put in their other
spelling. The tokens stay the same, and so does the program or the fault but for its place. -/
theorem tokens_respelled {text : String} {ts : List Placed} (h : tokens text = .ok ts)
    {chosen : ℕ → Bool} (hc : Chooses chosen 0 ts) :
    (∃ us, tokens (respelled chosen text) = .ok us ∧
      us.map Placed.token = ts.map Placed.token) ∧
    ((compile (respelled chosen text)).map Compiled.program).mapError SyntaxError.unplaced =
      ((compile text).map Compiled.program).mapError SyntaxError.unplaced := by
  obtain ⟨us,hcut,hus⟩ := (tokens_eq_ok_iff_cutting.mp h).respell hc 0
  have hr : tokens (respelled chosen text) = .ok us :=
    tokens_eq_ok_iff_cutting.mpr (by rwa [respelled,String.toList_ofList])
  refine ⟨⟨us,hr,hus⟩,?_⟩
  rw [compile_of_tokens hr,compile_of_tokens h,ofTokens_unplaced hus]

/-- The number loses its point to the operator. -/
theorem respelled_two_points :
    tokens "2..*x" = .ok [⟨.number (Decimal.ofDecimal false 2 0),1⟩,⟨.operator .multiply,3⟩,⟨.x,5⟩] ∧
    respelled (· == 3) "2..*x" = "2.*x" ∧
    (∃ us, tokens "2.*x" = .ok us ∧ us.map Placed.token =
      [.number (Decimal.ofDecimal false 2 0),.operator .multiply,.x]) ∧
    ((compile "2.*x").map Compiled.program).mapError SyntaxError.unplaced =
      ((compile "2..*x").map Compiled.program).mapError SyntaxError.unplaced := by
  have h : tokens "2..*x" =
      .ok [⟨.number (Decimal.ofDecimal false 2 0),1⟩,⟨.operator .multiply,3⟩,⟨.x,5⟩] := by
    decide +kernel
  have hr : respelled (· == 3) "2..*x" = "2.*x" := by decide +kernel
  have hc : Chooses (· == 3) 0
      [⟨.number (Decimal.ofDecimal false 2 0),1⟩,⟨.operator .multiply,3⟩,⟨.x,5⟩] := by
    intro i _ hi
    obtain rfl : i = 3 := by simpa using hi
    exact ⟨.multiply,rfl,by simp⟩
  have := tokens_respelled h hc
  rw [hr] at this
  exact ⟨h,hr,this⟩

end Formulary.Calculus
