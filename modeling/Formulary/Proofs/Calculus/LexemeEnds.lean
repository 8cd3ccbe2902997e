import Formulary.Proofs.Calculus.Cutting
import Formulary.Proofs.Calculus.Places

/-! What stands behind a lexeme. A lexeme depends on it only as far as it could go on there, so it
stays what it is in front of another text that prolongs it no more. Blanks at the ends of a text
leave its tokens as they are. -/
namespace Formulary.Calculus

/-! The lexeme at the front -/

lemma char_ne_point (o : Operator) : o.char ≠ '.' := by
  cases o <;> simp [Operator.char]

lemma Cutting.lt_position {n : ℕ} {s : List Char} {ts : List Placed} {e : Option SyntaxError}
    (h : Cutting n s ts e) : ∀ p ∈ ts, n < p.position := by
  induction h with
  | done hb => simp
  | fault hb h => simp
  | lexeme hb h next ih =>
    intro p hp
    rcases List.mem_cons.mp hp with rfl | hp
    · simp only
      omega
    · have := ih p hp
      omega

lemma Spelling.operator_cases {w rest : List Char} {o : Operator}
    (h : Spelling w rest (.operator o)) : w = [o.char] ∨ w = ['.',o.char] := by
  generalize ht : Token.operator o = t at h
  cases h with
  | plain o' =>
    cases ht
    exact .inl rfl
  | dotted ho =>
    cases ht
    exact .inr rfl
  | opening => cases ht
  | closing => cases ht
  | comma => cases ht
  | name h => cases h <;> cases ht
  | number h => cases ht

lemma Spelling.names {c : Char} {u rest : List Char} {t : Token} (h : Spelling (c :: u) rest t)
    (hc : isWordStart c = true) : Names (c :: u) t := by
  rw [← readWord_eq_ok_iff 0,← readLexeme_of_isWordStart hc]
  exact h.lexeme.reads 0

/-- A text that is cut and begins with no blank begins with a lexeme. -/
lemma Cutting.of_cons {n : ℕ} {c : Char} {u : List Char} {ts : List Placed}
    (h : Cutting n (c :: u) ts none) (hc : Text.isBlank c = false) :
    ∃ w rest t, c :: u = w ++ rest ∧ Spelling w rest t := by
  generalize hs : c :: u = s at h
  generalize he : (none : Option SyntaxError) = e at h
  have hnil : ∀ {blanks v : List Char}, c :: u = blanks ++ v →
      (∀ d ∈ blanks, Text.isBlank d = true) → blanks = [] := by
    intro blanks v hv hb
    rcases blanks with _ | ⟨d,blanks⟩
    · rfl
    · obtain ⟨rfl,-⟩ := List.cons.inj hv
      rw [hb c (by simp)] at hc
      cases hc
  cases h with
  | done hb =>
    obtain rfl := hnil (by rw [List.append_nil,hs]) hb
    cases hs
  | fault hb h => cases he
  | @lexeme n blanks w rest t ts e hb h next =>
    obtain rfl := hnil hs hb
    exact ⟨w,rest,t,rfl,h⟩

/-- An operator that stands at the front of a text that is cut. -/
lemma Cutting.of_operator {n : ℕ} {s : List Char} {ts : List Placed} {o : Operator}
    (h : Cutting n s ts none) (ho : ⟨.operator o,n + 1⟩ ∈ ts) :
    ∃ w rest us, s = w ++ rest ∧ ts = ⟨.operator o,n + 1⟩ :: us ∧
      Spelling w rest (.operator o) ∧ Cutting (n + w.length) rest us none := by
  generalize he : (none : Option SyntaxError) = e at h
  cases h with
  | done hb => simp at ho
  | fault hb h => cases he
  | @lexeme n blanks w rest t ts e hb h next =>
    obtain ⟨c,u,rfl,-⟩ := h.lexeme.head
    rcases List.mem_cons.mp ho with heq | hm
    · obtain ⟨rfl,hn⟩ := Placed.mk.inj heq
      obtain rfl : blanks = [] := List.length_eq_zero_iff.mp (by omega)
      exact ⟨c :: u,rest,_,rfl,rfl,h,he ▸ next⟩
    · have := next.lt_position _ hm
      simp only [List.length_cons] at this
      omega

/-- A lexeme at the front of a text that is cut is cut off first. -/
lemma Cutting.of_spelling {n : ℕ} {w rest : List Char} {t : Token} {ts : List Placed}
    (h : Cutting n (w ++ rest) ts none) (hs : Spelling w rest t) :
    ∃ us, ts = ⟨t,n + 1⟩ :: us ∧ Cutting (n + w.length) rest us none := by
  have ha : ∀ c ∈ rest, isAllowed c = true := fun c hc => h.all_isAllowed c (by simp [hc])
  have hscan := h.scan_eq
  rw [scan_lexeme hs.lexeme] at hscan
  obtain ⟨hts,he⟩ := Prod.mk.inj hscan
  exact ⟨_,hts.symm,(cutting_iff_scan ha).mpr (Prod.ext rfl he)⟩

/-! What stands behind a lexeme -/

/-- What stands behind a lexeme prolongs it no more than what stood there before. -/
structure KeepsEnd (rest rest' : List Char) : Prop where
  word : ∀ c ∈ rest'.head?, isWordPart c = true → c ∈ rest.head?
  point : ∀ u, rest' = '.' :: u → beginsDotted u = false →
    ∃ v, rest = '.' :: v ∧ beginsDotted v = false
  power : cutExponent rest' = ([],rest')

lemma cutPlaces_eq_self_iff {s : List Char} :
    cutPlaces s = ([],s) ↔ ∀ u, s = '.' :: u → beginsDotted u = true := by
  unfold cutPlaces
  split
  · split <;> simp_all
  · simp_all

lemma cutNumber_eq_self_iff {s : List Char} :
    cutNumber s = ([],s) ↔
      s.takeWhile Char.isDigit = [] ∧ cutPlaces s = ([],s) ∧ cutExponent s = ([],s) := by
  constructor
  · intro h
    have hfront := congrArg Prod.fst h
    simp only [cutNumber,List.append_eq_nil_iff] at hfront
    obtain ⟨⟨hd,hp⟩,he⟩ := hfront
    rw [dropWhile_of_takeWhile hd] at hp he
    have hplaces := cutPlaces_append s
    rw [hp,List.nil_append] at hplaces
    rw [hplaces] at he
    have hexponent := cutExponent_append s
    rw [he,List.nil_append] at hexponent
    exact ⟨hd,Prod.ext hp hplaces,Prod.ext he hexponent⟩
  · rintro ⟨hd,hp,he⟩
    simp [cutNumber,hd,dropWhile_of_takeWhile hd,hp,he]

namespace KeepsEnd

variable {rest rest' : List Char}

lemma takeWhile (h : KeepsEnd rest rest') (hd : rest.takeWhile Char.isDigit = []) :
    rest'.takeWhile Char.isDigit = [] := by
  rw [takeWhile_eq_nil_iff] at hd ⊢
  intro c hc
  by_contra hdig
  have hdig : c.isDigit = true := by simpa using hdig
  rw [hd c (h.word c hc (isWordPart_of_isDigit hdig))] at hdig
  cases hdig

lemma cutNumber (h : KeepsEnd rest rest') (hn : Calculus.cutNumber rest = ([],rest)) :
    Calculus.cutNumber rest' = ([],rest') := by
  rw [cutNumber_eq_self_iff] at hn ⊢
  obtain ⟨hd,hp,-⟩ := hn
  refine ⟨h.takeWhile hd,?_,h.power⟩
  rw [cutPlaces_eq_self_iff] at hp ⊢
  intro u hu
  by_contra hdot
  obtain ⟨v,hv,hno⟩ := h.point u hu (by simpa using hdot)
  rw [hp v hv] at hno
  cases hno

/-- A number that was cut off whole still is, unless its last point becomes that of an operator. -/
lemma literal {w : List Char} {m : ℕ} {k : ℤ} (h : KeepsEnd rest rest')
    (hp : LeavesPoint w rest') (hl : LongestLiteral w rest m k) : LongestLiteral w rest' m k := by
  have hpoint := hl.leavesPoint
  obtain ⟨hlit,hcut⟩ := longestLiteral_iff.mp hl
  refine longestLiteral_iff.mpr ⟨hlit,?_⟩
  have hdrop : rest.takeWhile Char.isDigit = [] → rest'.dropWhile Char.isDigit = rest' :=
    fun hd => dropWhile_of_takeWhile (h.takeWhile hd)
  -- How a number could go on depends on the last part of its literal.
  cases hlit with
  | @mk whole places fraction power n hw hplaces he hne =>
    by_cases hpower : power = []
    · subst hpower
      cases hplaces with
      | none =>
        rw [List.append_nil,List.append_nil,cutNumber_whole hw] at hcut ⊢
        obtain ⟨hfront,hrest⟩ := Prod.mk.inj hcut
        rw [h.cutNumber (Prod.ext (by simpa using hfront) hrest)]
        simp
      | point hf =>
        rw [List.append_nil] at hcut hpoint hp ⊢
        rw [cutNumber_places hw hf (hpoint.beginsDotted hf)] at hcut
        have hd : rest.takeWhile Char.isDigit = [] := by
          have := (Prod.mk.inj hcut).1
          rw [List.append_right_eq_self,List.append_eq_nil_iff] at this
          exact this.1
        rw [cutNumber_places hw hf (hp.beginsDotted hf),h.takeWhile hd,hdrop hd,h.power]
        simp
    · rw [cutNumber_power hw hplaces he hpower] at hcut ⊢
      have hd : rest.takeWhile Char.isDigit = [] := by
        simpa using (Prod.mk.inj hcut).1
      rw [h.takeWhile hd,hdrop hd]
      simp

lemma spelling {w : List Char} {t : Token} (h : KeepsEnd rest rest') (hp : LeavesPoint w rest')
    (hs : Spelling w rest t) : Spelling w rest' t := by
  cases hs with
  | plain o => exact .plain o rest'
  | dotted ho => exact .dotted ho rest'
  | opening => exact .opening rest'
  | closing => exact .closing rest'
  | comma => exact .comma rest'
  | name hn ends =>
    refine .name hn fun c hc => ?_
    by_contra hpart
    have hpart : isWordPart c = true := by simpa using hpart
    rw [ends c (h.word c hc hpart)] at hpart
    cases hpart
  | number hl => exact .number (h.literal hp hl)

end KeepsEnd

/-- A name that begins with the mark of a power has no digit behind it. -/
lemma Names.eq_exp {e : Char} {u : List Char} {t : Token} (h : Names (e :: u) t)
    (he : e = 'e' ∨ e = 'E') : e :: u = ['e','x','p'] := by
  generalize hw : e :: u = w at h
  cases h with
  | x =>
    obtain ⟨rfl,-⟩ := List.cons.inj hw
    simp at he
  | pi hp hi =>
    obtain ⟨rfl,-⟩ := List.cons.inj hw
    rcases hp with rfl | rfl <;> simp at he
  | routine r => cases r <;> simp_all [Routine.name]

/-- A text that is cut does not begin with a power of ten. -/
lemma Cutting.cutExponent {n : ℕ} {s : List Char} {ts : List Placed} (h : Cutting n s ts none) :
    cutExponent s = ([],s) := by
  rcases s with _ | ⟨c,s⟩
  · rfl
  by_cases he : c = 'e' ∨ c = 'E'
  · obtain ⟨w,rest,t,hw,hs⟩ := h.of_cons (isBlank_of_isWordPart (isWordPart_e he))
    obtain ⟨d,u,rfl,-⟩ := hs.lexeme.head
    obtain ⟨rfl,-⟩ := List.cons.inj hw
    have hstart : isWordStart c = true := by rcases he with rfl | rfl <;> rfl
    rw [hw,(hs.names hstart).eq_exp he]
    rfl
  · have hmark : (c == 'e' || c == 'E') = false := by simpa using he
    simp [Calculus.cutExponent,hmark]

/-- A number that ends with a point is the same without it. -/
lemma Literal.of_point {w : List Char} {m : ℕ} {k : ℤ} (h : Literal w m k)
    (hw : w.getLast? = some '.') :
    ∃ whole, w = whole ++ ['.'] ∧ (∀ c ∈ whole, c.isDigit = true) ∧ Literal whole m k := by
  cases h with
  | @mk whole places fraction power n hwhole hp he hne =>
    by_cases hpower : power = []
    · subst hpower
      cases hp with
      | none =>
        rw [List.append_nil,List.append_nil] at hw
        cases hwhole '.' (List.mem_of_getLast? hw)
      | point hf =>
        rcases fraction.eq_nil_or_concat' with rfl | ⟨f,d,rfl⟩
        · refine ⟨whole,by simp,hwhole,?_⟩
          simpa using Literal.mk hwhole .none he hne
        · have hd := hf d (by simp)
          rw [List.append_nil,← List.cons_append,← List.append_assoc,List.getLast?_concat] at hw
          cases hw
          cases hd
    · rw [List.getLast?_append_of_ne_nil _ (by simp [hpower]),
        List.getLast?_append_of_ne_nil _ hpower] at hw
      cases he.getLast '.' hw

/-- Only a number ends with a point, which it does not need, and no operator takes that point. -/
lemma Spelling.of_point {w rest : List Char} {t : Token} (h : Spelling w rest t)
    (hw : w.getLast? = some '.') : beginsDotted rest = false ∧ ∃ whole m k, w = whole ++ ['.'] ∧
      (∀ c ∈ whole, c.isDigit = true) ∧ Literal whole m k ∧
      t = .number (Decimal.ofDecimal false m k) := by
  cases h with
  | plain o => simp [char_ne_point] at hw
  | dotted ho => simp [char_ne_point] at hw
  | opening => simp at hw
  | closing => simp at hw
  | comma => simp at hw
  | name h => cases h.isWord.isWordPart '.' (List.mem_of_getLast? hw)
  | number h =>
    obtain ⟨whole,rfl,hd,hl⟩ := h.literal.of_point hw
    exact ⟨h.leavesPoint hw,whole,_,_,rfl,hd,hl,rfl⟩

lemma Spelling.leavesPoint {w rest : List Char} {t : Token} (h : Spelling w rest t) :
    LeavesPoint w rest :=
  fun hw => (h.of_point hw).1

/-- Digits are a number in front of an operator with a point. -/
lemma Spelling.before_dotted {whole v : List Char} {o : Operator} {m : ℕ} {k : ℤ}
    (hd : ∀ c ∈ whole, c.isDigit = true) (hl : Literal whole m k)
    (ho : Operator.ofDotted? o.char = some o) :
    Spelling whole ('.' :: o.char :: v) (.number (Decimal.ofDecimal false m k)) := by
  refine .number (longestLiteral_iff.mpr ⟨hl,?_⟩)
  have hrest : cutNumber ('.' :: o.char :: v) = ([],'.' :: o.char :: v) := by
    rw [cutNumber_eq_self_iff,cutPlaces_eq_self_iff]
    refine ⟨by simp,?_,by simp [cutExponent]⟩
    rintro u ⟨⟩
    simp [beginsDotted,ho]
  rw [cutNumber_whole hd,hrest,List.append_nil]

/-- An operator without a point takes the point of the number in front of it. -/
lemma Cutting.take_point {n : ℕ} {blanks w rest rest' : List Char} {t : Token} {us : List Placed}
    (hb : ∀ c ∈ blanks, Text.isBlank c = true) (h : Spelling w rest t)
    (hp : ¬ LeavesPoint w rest')
    (next : Cutting (n + blanks.length + w.length) rest' us none) :
    ∃ vs, Cutting n (blanks ++ (w ++ rest')) (⟨t,n + blanks.length + 1⟩ :: vs) none ∧
      vs.map Placed.token = us.map Placed.token := by
  obtain ⟨hlast,hdot⟩ : w.getLast? = some '.' ∧ beginsDotted rest' = true := by
    simpa [LeavesPoint] using hp
  obtain ⟨-,whole,m,k,rfl,hd,hl,rfl⟩ := h.of_point hlast
  rcases rest' with _ | ⟨c,v⟩
  · cases hdot
  obtain ⟨o,ho⟩ : ∃ o, Operator.ofDotted? c = some o := by
    simpa [beginsDotted,Option.isSome_iff_exists] using hdot
  obtain rfl := char_of_ofDotted? ho
  obtain ⟨vs,rfl,hv⟩ := next.of_spelling (w := [o.char]) (.plain o v)
  rw [List.length_append,← Nat.add_assoc] at hv
  have hoperator : Cutting (n + blanks.length + whole.length) ([] ++ (['.',o.char] ++ v))
      (⟨.operator o,n + blanks.length + whole.length + 1⟩ :: vs) none :=
    .lexeme (by simp) (.dotted ho v) hv
  refine ⟨⟨.operator o,n + blanks.length + whole.length + 1⟩ :: vs,?_,rfl⟩
  rw [List.append_assoc]
  exact .lexeme hb (.before_dotted hd hl ho) hoperator

/-! Blanks at the ends of a text -/

lemma ofDotted?_of_isBlank {c : Char} (h : Text.isBlank c = true) : Operator.ofDotted? c = none := by
  unfold Operator.ofDotted?
  split
  · cases h
  · cases h
  · cases h
  · rfl

lemma beginsDotted_append_blanks {blanks : List Char}
    (hb : ∀ c ∈ blanks, Text.isBlank c = true) (s : List Char) :
    beginsDotted (s ++ blanks) = beginsDotted s := by
  rcases s with _ | ⟨c,s⟩
  · rcases blanks with _ | ⟨b,blanks⟩
    · rfl
    · simp [beginsDotted,ofDotted?_of_isBlank (hb b (by simp))]
  · rfl

/-- Blanks prolong nothing. -/
lemma keepsEnd_append_blanks {n : ℕ} {s blanks : List Char} {ts : List Placed}
    (hb : ∀ c ∈ blanks, Text.isBlank c = true) (h : Cutting n s ts none) :
    KeepsEnd (s ++ blanks) s where
  word c hc _ := by
    rw [List.head?_append]
    simp [Option.mem_def.mp hc]
  point u hu hno := by
    subst hu
    exact ⟨u ++ blanks,rfl,by rw [beginsDotted_append_blanks hb,hno]⟩
  power := h.cutExponent

lemma Spelling.not_isBlank {w rest : List Char} {t : Token} (h : Spelling w rest t) :
    ∀ c ∈ w, Text.isBlank c = false := by
  intro c hc
  cases h with
  | plain o =>
    obtain rfl := List.mem_singleton.mp hc
    cases o <;> rfl
  | @dotted o ho =>
    rcases List.mem_pair.mp hc with rfl | rfl
    · rfl
    · cases o <;> rfl
  | opening =>
    obtain rfl := List.mem_singleton.mp hc
    rfl
  | closing =>
    obtain rfl := List.mem_singleton.mp hc
    rfl
  | comma =>
    obtain rfl := List.mem_singleton.mp hc
    rfl
  | name h => exact isBlank_of_isWordPart (h.isWord.isWordPart c hc)
  | number h =>
    rcases h.literal.mem_cases hc with hc | rfl | rfl | rfl
    · exact isBlank_of_isWordPart hc
    · rfl
    · rfl
    · rfl

/-- A lexeme in front of blanks ends before them. -/
lemma Spelling.append_blanks {front w rest s blanks : List Char} {t : Token}
    (h : Spelling w rest t) (hb : ∀ c ∈ blanks, Text.isBlank c = true)
    (hs : s ++ blanks = front ++ (w ++ rest)) :
    ∃ r, rest = r ++ blanks ∧ s = front ++ (w ++ r) := by
  rw [← List.append_assoc] at hs
  rcases List.append_eq_append_iff.mp hs with ⟨d,hw,hd⟩ | ⟨d,rfl,hd⟩
  · rcases d.eq_nil_or_concat' with rfl | ⟨d,c,rfl⟩
    · exact ⟨[],by simpa using hd.symm,by simpa using hw.symm⟩
    · -- The last character of the lexeme would be a blank.
      obtain ⟨a,u,rfl,-⟩ := h.lexeme.head
      have hlast := congrArg List.getLast? hw
      rw [← List.append_assoc,List.getLast?_concat,
        List.getLast?_append_of_ne_nil _ (by simp)] at hlast
      have hc := h.not_isBlank c (List.mem_of_getLast? hlast)
      rw [hb c (by simp [hd])] at hc
      cases hc
  · exact ⟨d,hd,by rw [List.append_assoc]⟩

lemma Cutting.of_append_blanks {n : ℕ} {s blanks : List Char} {ts : List Placed}
    (h : Cutting n (s ++ blanks) ts none) (hb : ∀ c ∈ blanks, Text.isBlank c = true) :
    Cutting n s ts none := by
  generalize hs : s ++ blanks = u at h
  generalize he : (none : Option SyntaxError) = e at h
  induction h generalizing s with
  | done hu =>
    subst hs
    exact .done fun c hc => hu c (by simp [hc])
  | fault hu h => cases he
  | @lexeme n front w rest t ts e hfront hw next ih =>
    subst he
    obtain ⟨r,rfl,rfl⟩ := hw.append_blanks hb hs
    have hr := ih rfl rfl
    have hleaves : LeavesPoint w r := by
      intro hl
      rw [← beginsDotted_append_blanks hb]
      exact hw.leavesPoint hl
    exact .lexeme hfront ((keepsEnd_append_blanks hb hr).spelling hleaves hw) hr

lemma Cutting.of_blanks_append {n : ℕ} {s blanks : List Char} {ts : List Placed}
    (h : Cutting n (blanks ++ s) ts none) (hb : ∀ c ∈ blanks, Text.isBlank c = true) :
    Cutting (n + blanks.length) s ts none := by
  have ha : ∀ c ∈ s, isAllowed c = true := fun c hc => h.all_isAllowed c (by simp [hc])
  rw [cutting_iff_scan ha,← scan_blanks hb]
  exact h.scan_eq

/-- Behind any number of characters, a text is cut into the same tokens. -/
lemma Cutting.moved {n : ℕ} {s : List Char} {ts : List Placed} (h : Cutting n s ts none) (m : ℕ) :
    ∃ us, Cutting m s us none ∧ us.map Placed.token = ts.map Placed.token := by
  generalize he : (none : Option SyntaxError) = e at h
  induction h generalizing m with
  | done hb => exact ⟨[],.done hb,rfl⟩
  | fault hb h => cases he
  | @lexeme n blanks w rest t ts e hb h next ih =>
    obtain ⟨us,hc,hus⟩ := ih (m + blanks.length + w.length) he
    exact ⟨_,.lexeme hb h hc,by simp [hus]⟩

/-- Without the blanks at its ends, a text has the same tokens. -/
theorem tokens_trimmed {text : String} {ts : List Placed} (h : tokens text = .ok ts) :
    ∃ us, tokens (trimmed text) = .ok us ∧ us.map Placed.token = ts.map Placed.token := by
  obtain ⟨front,back,hs,hfront,hback⟩ := Text.exists_trim text.toList
  rw [tokens_eq_ok_iff_cutting,hs] at h
  obtain ⟨us,hc,hus⟩ := ((h.of_blanks_append hfront).of_append_blanks hback).moved 0
  refine ⟨us,tokens_eq_ok_iff_cutting.mpr ?_,hus⟩
  rwa [trimmed,String.toList_ofList]

lemma compile_of_trimmed {text : String} {ts : List Placed} (h : tokens (trimmed text) = .ok ts) :
    (compile text).map Compiled.program = Program.ofTokens ts := by
  unfold compile
  by_cases hempty : (trimmed text).isEmpty = true
  · have hnone : trimmed text = "" := by simpa using hempty
    rw [hnone] at h
    obtain ⟨-,hscan⟩ := tokens_eq_ok_iff.mp h
    obtain rfl : [] = ts := congrArg Prod.fst ((scan_of_blank rfl 0).symm.trans hscan)
    rw [if_pos hempty]
    rfl
  · rw [if_neg hempty]
    cases hp : Program.ofTokens ts with
    | error e => simp [h,hp,bind,Except.bind,Except.map]
    | ok p => simp [h,hp,bind,Except.bind,Except.map,pure,Except.pure]

/-- What a text is compiled to is made of its tokens. -/
theorem compile_of_tokens {text : String} {ts : List Placed} (h : tokens text = .ok ts) :
    ((compile text).map Compiled.program).mapError SyntaxError.unplaced =
      (Program.ofTokens ts).mapError SyntaxError.unplaced := by
  obtain ⟨us,htrim,hus⟩ := tokens_trimmed h
  rw [compile_of_trimmed htrim,ofTokens_unplaced hus]

end Formulary.Calculus
