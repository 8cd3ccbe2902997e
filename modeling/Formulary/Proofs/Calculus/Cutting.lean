import Formulary.Proofs.Calculus.Literals

/-! Function texts as blanks and lexemes. Each lexeme spells its token as long as it goes, and a text
is cut in one way only, so the tokens say how it is cut. Where the cutting stops, a point has no
digit, or a word is no name; nothing else that may be in a text can stop it. -/
namespace Formulary.Calculus

/-- The names of the language. That of pi may be in capitals. -/
inductive Names : List Char → Token → Prop
  | x : Names ['x'] .x
  | pi {p i : Char} (hp : p = 'p' ∨ p = 'P') (hi : i = 'i' ∨ i = 'I') : Names [p,i] .pi
  | routine (r : Routine) : Names r.name.toList (.routine r)

/-- A letter or an underscore, with letters, underscores and digits behind it. -/
inductive IsWord : List Char → Prop
  | mk {c : Char} {u : List Char} (hc : isWordStart c = true)
      (hu : ∀ d ∈ u, isWordPart d = true) : IsWord (c :: u)

/-- The characters spell the token in front of the rest. A name and a number go on as long as they
can, and a point in front of an operator is left to it. -/
inductive Spelling : List Char → List Char → Token → Prop
  | plain (o : Operator) (rest : List Char) : Spelling [o.char] rest (.operator o)
  | dotted {o : Operator} (ho : Operator.ofDotted? o.char = some o) (rest : List Char) :
      Spelling ['.',o.char] rest (.operator o)
  | opening (rest : List Char) : Spelling ['('] rest .opening
  | closing (rest : List Char) : Spelling [')'] rest .closing
  | comma (rest : List Char) : Spelling [','] rest .comma
  | name {w rest : List Char} {t : Token} (h : Names w t)
      (ends : ∀ c ∈ rest.head?, isWordPart c = false) : Spelling w rest t
  | number {w rest : List Char} {m : ℕ} {k : ℤ} (h : LongestLiteral w rest m k) :
      Spelling w rest (.number (Decimal.ofDecimal false m k))

/-- What is wrong where a text goes on with no token. -/
inductive Misspelling : List Char → ℕ → SyntaxError → Prop
  | point {rest : List Char} (digit : ∀ c ∈ rest.head?, c.isDigit = false)
      (operator : beginsDotted rest = false) (position : ℕ) :
      Misspelling ('.' :: rest) position (.invalidSymbol position)
  | word {w rest : List Char} (hw : IsWord w) (ends : ∀ c ∈ rest.head?, isWordPart c = false)
      (unknown : ∀ t, ¬ Names w t) (position : ℕ) :
      Misspelling (w ++ rest) position (.unknownIdentifier (String.ofList w) position)

/-- Behind so many characters, the text is cut into blanks and the lexemes of these tokens, which are
placed at their first characters, up to its end or to a fault. -/
inductive Cutting : ℕ → List Char → List Placed → Option SyntaxError → Prop
  | done {n : ℕ} {blanks : List Char} (hb : ∀ c ∈ blanks, Text.isBlank c = true) :
      Cutting n blanks [] none
  | fault {n : ℕ} {blanks rest : List Char} {e : SyntaxError}
      (hb : ∀ c ∈ blanks, Text.isBlank c = true)
      (h : Misspelling rest (n + blanks.length + 1) e) : Cutting n (blanks ++ rest) [] (some e)
  | lexeme {n : ℕ} {blanks w rest : List Char} {t : Token} {ts : List Placed}
      {e : Option SyntaxError} (hb : ∀ c ∈ blanks, Text.isBlank c = true) (h : Spelling w rest t)
      (next : Cutting (n + blanks.length + w.length) rest ts e) :
      Cutting n (blanks ++ (w ++ rest)) (⟨t,n + blanks.length + 1⟩ :: ts) e

/-! Names -/

/-- A letter in either case. -/
lemma toLower_eq_iff {c l u : Char} (hl : 97 ≤ l.toNat ∧ l.toNat ≤ 122)
    (hu : u.toNat + 32 = l.toNat) : c.toLower = l ↔ c = l ∨ c = u := by
  have hA : 'A'.val.toNat = 65 := rfl
  have hZ : 'Z'.val.toNat = 90 := rfl
  have hd : ('a'.val - 'A'.val).toNat = 32 := rfl
  simp only [Char.toLower,ge_iff_le,UInt32.le_iff_toNat_le,hA,hZ]
  simp only [Char.toNat] at hl hu
  split_ifs with h
  · simp only [Char.ext_iff,← UInt32.toNat_inj,UInt32.toNat_add,hd]
    omega
  · simp only [Char.ext_iff,← UInt32.toNat_inj]
    omega

lemma map_toLower_pi_iff {w : List Char} :
    w.map Char.toLower = ['p','i'] ↔ ∃ p i, w = [p,i] ∧ (p = 'p' ∨ p = 'P') ∧ (i = 'i' ∨ i = 'I') := by
  rcases w with _ | ⟨p,_ | ⟨i,_ | ⟨c,w⟩⟩⟩
  · simp
  · simp
  · simp [toLower_eq_iff (l := 'p') (u := 'P') (by decide) (by decide),
      toLower_eq_iff (l := 'i') (u := 'I') (by decide) (by decide)]
  · simp

lemma name_of_ofName? {s : String} {r : Routine} (h : Routine.ofName? s = some r) :
    r.name = s := by
  simpa using List.find?_some h

/-- A word is read as the token it names. -/
lemma readWord_eq_ok_iff {w : List Char} {t : Token} (position : ℕ) :
    readWord position w = .ok t ↔ Names w t := by
  constructor
  · intro h
    unfold readWord at h
    split_ifs at h with hx hpi
    · obtain rfl := hx
      cases h
      exact .x
    · obtain ⟨p,i,rfl,hp,hi⟩ := map_toLower_pi_iff.mp hpi
      cases h
      exact .pi hp hi
    · split at h
      · rename_i r hr
        cases h
        have hw : r.name.toList = w := by rw [name_of_ofName? hr,String.toList_ofList]
        exact hw ▸ .routine r
      · cases h
  · intro h
    cases h with
    | x => rfl
    | pi hp hi => rcases hp with rfl | rfl <;> rcases hi with rfl | rfl <;> rfl
    | routine r => exact readWord_name r position

lemma readWord_of_unknown {w : List Char} (h : ∀ t, ¬ Names w t) (position : ℕ) :
    readWord position w = .error (.unknownIdentifier (String.ofList w) position) := by
  have hno : ∀ t, readWord position w ≠ .ok t := fun t ht => h t ((readWord_eq_ok_iff position).mp ht)
  unfold readWord at hno ⊢
  split_ifs at hno ⊢
  · exact absurd rfl (hno _)
  · exact absurd rfl (hno _)
  · split at hno
    · exact absurd rfl (hno _)
    · rfl

lemma Names.isWord {w : List Char} {t : Token} (h : Names w t) : IsWord w := by
  cases h with
  | x => exact .mk rfl (by simp)
  | pi hp hi =>
    rcases hp with rfl | rfl <;> rcases hi with rfl | rfl <;> exact .mk rfl (by simp [isWordPart])
  | routine r =>
    obtain ⟨c,u,hcu,hc,hu⟩ := name_eq_cons r
    rw [hcu]
    exact .mk hc (List.all_eq_true.mp hu)

lemma IsWord.isWordPart {w : List Char} (h : IsWord w) : ∀ c ∈ w, isWordPart c = true := by
  obtain ⟨hc,hu⟩ := h
  intro d hd
  rcases List.mem_cons.mp hd with rfl | hd
  · exact isWordPart_of_isWordStart hc
  · exact hu d hd

/-! Reading a lexeme -/

lemma cut_eq_cutNumber {c : Char} {s : List Char} (hc : c.isDigit = true ∨ c = '.')
    (hd : ¬(c = '.' ∧ beginsDotted s = true)) : cut (c :: s) = cutNumber (c :: s) := by
  have h : (c == '.' && beginsDotted s) = false := by simpa using hd
  have h' : (c.isDigit || c == '.') = true := by simpa using hc
  simp [cut,h,h']

lemma cut_eq_word {c : Char} (hc : isWordStart c = true) (s : List Char) :
    cut (c :: s) = (c :: s.takeWhile isWordPart,s.dropWhile isWordPart) := by
  have hpoint : c ≠ '.' := by
    rintro rfl
    cases hc
  simp [cut,hc,hpoint,isDigit_of_isWordStart hc]

lemma readLexeme_of_numeral {c : Char} {u : List Char} (hc : c.isDigit = true ∨ c = '.')
    (hd : ¬(c = '.' ∧ beginsDotted u = true)) (position : ℕ) :
    readLexeme position (c :: u) = match Decimal.readChars? (c :: u) with
      | some v => .ok (.number v)
      | none => .error (.invalidSymbol position) := by
  have hs : isWordStart c = false := by
    rcases hc with hc | rfl
    · exact isWordStart_of_isDigit hc
    · rfl
  unfold readLexeme
  split
  case h_13 heq =>
    cases heq
    exact if_neg (by simp [hs])
  all_goals simp_all [beginsDotted,Operator.ofDotted?]

/-- A spelling is cut off whole and read as its token. -/
lemma Spelling.lexeme {w rest : List Char} {t : Token} (h : Spelling w rest t) :
    Lexeme w rest t := by
  cases h with
  | plain o => cases o <;> exact lexeme_mark (by decide) (by decide) fun _ => rfl
  | @dotted o ho =>
    refine lexeme_dotted ho fun position => ?_
    cases o with
    | add => cases ho
    | subtract => cases ho
    | _ => rfl
  | opening => exact lexeme_mark (by decide) (by decide) fun _ => rfl
  | closing => exact lexeme_mark (by decide) (by decide) fun _ => rfl
  | comma => exact lexeme_mark (by decide) (by decide) fun _ => rfl
  | name h ends =>
    obtain ⟨hc,hu⟩ := h.isWord
    refine lexeme_word hc hu ends fun position => ?_
    rw [readLexeme_of_isWordStart hc,readWord_eq_ok_iff]
    exact h
  | @number w rest m k h =>
    obtain ⟨hl,hcut⟩ := longestLiteral_iff.mp h
    obtain ⟨c,u,rfl,hc,-,hd⟩ := hl.begins
    have hnone : Text.isBlank c = false := by
      rcases hc with hc | rfl
      · exact isBlank_of_isWordPart (isWordPart_of_isDigit hc)
      · rfl
    refine ⟨⟨c,u,rfl,hnone⟩,?_,fun position => ?_⟩
    · rw [List.cons_append,cut_eq_cutNumber hc (hd rest)]
      exact hcut
    · rw [readLexeme_of_numeral hc (by simpa using hd []),readChars?_literal hl]

lemma Spelling.all_isAllowed {w rest : List Char} {t : Token} (h : Spelling w rest t) :
    ∀ c ∈ w, isAllowed c = true := by
  cases h with
  | plain o => cases o <;> exact List.all_eq_true.mp rfl
  | @dotted o ho => cases o <;> exact List.all_eq_true.mp rfl
  | opening => exact List.all_eq_true.mp rfl
  | closing => exact List.all_eq_true.mp rfl
  | comma => exact List.all_eq_true.mp rfl
  | name h ends =>
    intro c hc
    simp [isAllowed,h.isWord.isWordPart c hc]
  | number h => exact h.literal.all_isAllowed

/-- A misspelling is refused where it begins. -/
lemma Misspelling.readLexeme {s : List Char} {position : ℕ} {e : SyntaxError}
    (h : Misspelling s position e) : ∃ c u, s = c :: u ∧ Text.isBlank c = false ∧
      readLexeme position (cut s).1 = .error e := by
  cases h with
  | @point rest digit operator =>
    have hd : ¬('.' = '.' ∧ beginsDotted rest = true) := by simp [operator]
    refine ⟨'.',rest,rfl,rfl,?_⟩
    rw [cut_eq_cutNumber (.inr rfl) hd]
    rcases cutNumber_cases (.inr rfl) hd with ⟨m,k,hl⟩ | ⟨power,n,-,-,hp,hcut⟩
    · obtain ⟨c,u,hcu,-,hpoint,-⟩ := hl.begins
      have happ := cutNumber_append ('.' :: rest)
      rw [hcu,List.cons_append] at happ
      obtain ⟨rfl,hrest⟩ := List.cons.inj happ
      obtain ⟨d,hd,hdig⟩ := hpoint rfl
      rw [digit d (by rw [← hrest]; simp [Option.mem_def.mp hd])] at hdig
      cases hdig
    · have hnot : ¬('.' = '.' ∧ beginsDotted power = true) := by
        cases hp with
        | none => simp [beginsDotted]
        | exponent he => simp [beginsDotted_of_isWordPart (isWordPart_e he)]
      rw [hcut,readLexeme_of_numeral (.inr rfl) hnot,readChars?_point hp]
  | @word w rest hw ends unknown =>
    obtain @⟨c,u,hc,hu⟩ := hw
    refine ⟨c,u ++ rest,rfl,isBlank_of_isWordPart (isWordPart_of_isWordStart hc),?_⟩
    rw [List.cons_append,cut_eq_word hc,takeWhile_append_of_head hu ends,
      readLexeme_of_isWordStart hc,readWord_of_unknown unknown]

/-! Cutting a text -/

lemma scan_blanks {blanks : List Char} (hb : ∀ c ∈ blanks, Text.isBlank c = true) (n : ℕ)
    (s : List Char) : scan n (blanks ++ s) = scan (n + blanks.length) s := by
  induction blanks generalizing n with
  | nil => rfl
  | cons c blanks ih =>
    rw [List.cons_append,scan_blank (hb c (by simp)),ih fun d hd => hb d (by simp [hd])]
    congr 1
    simp only [List.length_cons]
    omega

/-- A cutting is what reading finds. -/
theorem Cutting.scan_eq {n : ℕ} {s : List Char} {ts : List Placed} {e : Option SyntaxError}
    (h : Cutting n s ts e) : scan n s = (ts,e) := by
  induction h with
  | done hb => exact scan_of_blank (List.dropWhile_eq_nil_iff.mpr hb) _
  | @fault n blanks rest e hb h =>
    obtain ⟨c,u,rfl,hc,hr⟩ := h.readLexeme
    have hd : (c :: u).dropWhile Text.isBlank = c :: u := by simp [hc]
    rw [scan_blanks hb,scan_of_dropWhile hd]
    simp [hr]
  | @lexeme n blanks w rest t ts e hb h next ih =>
    rw [scan_blanks hb,scan_lexeme h.lexeme,ih]
    rfl

lemma char_of_ofDotted? {c : Char} {o : Operator} (h : Operator.ofDotted? c = some o) :
    c = o.char := by
  unfold Operator.ofDotted? at h
  split at h <;> cases h <;> rfl

/-- At a character that may be in a text and is no blank, a token is spelled or misspelled. -/
lemma exists_spelling {c : Char} (s : List Char) (ha : isAllowed c = true)
    (hb : Text.isBlank c = false) : (∃ w rest t, c :: s = w ++ rest ∧ Spelling w rest t) ∨
      ∀ position, ∃ e, Misspelling (c :: s) position e := by
  by_cases hnum : c.isDigit = true ∨ c = '.'
  · by_cases hd : c = '.' ∧ beginsDotted s = true
    · obtain ⟨rfl,hdot⟩ := hd
      rcases s with _ | ⟨d,s⟩
      · cases hdot
      · obtain ⟨o,ho⟩ := Option.isSome_iff_exists.mp hdot
        obtain rfl := char_of_ofDotted? ho
        exact .inl ⟨_,s,_,rfl,.dotted ho s⟩
    · rcases cutNumber_cases hnum hd with ⟨m,k,hl⟩ | ⟨power,n,rfl,hdigit,-,-⟩
      · have happ := cutNumber_append (c :: s)
        exact .inl ⟨_,_,_,happ.symm,.number (longestLiteral_iff.mpr ⟨hl,by rw [happ]⟩)⟩
      · exact .inr fun position => ⟨_,.point hdigit (by simpa using hd) position⟩
  by_cases hword : isWordStart c = true
  · have happ : c :: s = (c :: s.takeWhile isWordPart) ++ s.dropWhile isWordPart := by
      simp [List.takeWhile_append_dropWhile]
    have hw : IsWord (c :: s.takeWhile isWordPart) := .mk hword fun d hd => List.mem_takeWhile_imp hd
    have hends : ∀ d ∈ (s.dropWhile isWordPart).head?, isWordPart d = false := by
      intro d hd
      have := List.head?_dropWhile_not isWordPart s
      simpa [Option.mem_def.mp hd] using this
    by_cases hname : ∃ t, Names (c :: s.takeWhile isWordPart) t
    · obtain ⟨t,ht⟩ := hname
      exact .inl ⟨_,_,t,happ,.name ht hends⟩
    · rw [happ]
      exact .inr fun position => ⟨_,.word hw hends (by simpa using hname) position⟩
  · left
    have hpart : isWordPart c = false := by
      simp only [isWordPart,Char.isAlphanum,isWordStart,Bool.or_eq_true] at hnum hword ⊢
      simp_all
    simp only [isAllowed,hpart,hb,Bool.or_false,Bool.false_or,Bool.or_eq_true,beq_iff_eq] at ha
    rcases ha with ((((((((rfl | rfl) | rfl) | rfl) | rfl) | rfl) | rfl) | rfl) | rfl)
    · exact ⟨_,s,_,rfl,.plain .add s⟩
    · exact ⟨_,s,_,rfl,.plain .subtract s⟩
    · exact ⟨_,s,_,rfl,.plain .multiply s⟩
    · exact ⟨_,s,_,rfl,.plain .divide s⟩
    · exact ⟨_,s,_,rfl,.plain .power s⟩
    · exact ⟨_,s,_,rfl,.opening s⟩
    · exact ⟨_,s,_,rfl,.closing s⟩
    · exact absurd (.inr rfl) hnum
    · exact ⟨_,s,_,rfl,.comma s⟩

/-- Every text without a character outside the language has a cutting. -/
theorem exists_cutting {s : List Char} (ha : ∀ c ∈ s, isAllowed c = true) (n : ℕ) :
    ∃ ts e, Cutting n s ts e := by
  -- By length, since a lexeme may take more than one character.
  induction s using (measure List.length).wf.induction generalizing n with
  | h s ih =>
    have happ := List.takeWhile_append_dropWhile (p := Text.isBlank) (l := s)
    have hb : ∀ c ∈ s.takeWhile Text.isBlank, Text.isBlank c = true :=
      fun c hc => List.mem_takeWhile_imp hc
    cases hd : s.dropWhile Text.isBlank with
    | nil =>
      rw [hd,List.append_nil] at happ
      exact ⟨[],none,happ ▸ .done hb⟩
    | cons c u =>
      have hc : Text.isBlank c = false := by
        have := List.head?_dropWhile_not Text.isBlank s
        simpa [hd] using this
      rw [hd] at happ
      have hmem : c ∈ s := by
        rw [← happ]
        simp
      rcases exists_spelling u (ha c hmem) hc with ⟨w,rest,t,hw,hs⟩ | hm
      · rw [hw] at happ
        have hne : w ≠ [] := by
          obtain ⟨c,u,rfl,-⟩ := hs.lexeme.head
          simp
        have hlt : rest.length < s.length := by
          have := List.length_pos_iff.mpr hne
          have hlen := congrArg List.length happ
          simp only [List.length_append] at hlen
          omega
        have har : ∀ d ∈ rest, isAllowed d = true := fun d hd => ha d (by rw [← happ]; simp [hd])
        obtain ⟨ts,e,hn⟩ := ih rest hlt har (n + (s.takeWhile Text.isBlank).length + w.length)
        rw [← happ]
        exact ⟨_,e,.lexeme hb hs hn⟩
      · obtain ⟨e,he⟩ := hm (n + (s.takeWhile Text.isBlank).length + 1)
        rw [← happ]
        exact ⟨[],some e,.fault hb he⟩

/-! The characters of a text -/

lemma screen_eq_ok_iff {s : List Char} : screen s = .ok () ↔ ∀ c ∈ s, isAllowed c = true := by
  rw [← List.dropWhile_eq_nil_iff,screen]
  split <;> simp_all

/-- The first character outside the language is the one that is refused. -/
lemma screen_eq_error_iff {s : List Char} {e : SyntaxError} :
    screen s = .error e ↔ ∃ u c v, s = u ++ c :: v ∧ (∀ d ∈ u, isAllowed d = true) ∧
      isAllowed c = false ∧ e = .unsafeCharacter c (u.length + 1) := by
  constructor
  · intro h
    have happ := List.takeWhile_append_dropWhile (p := isAllowed) (l := s)
    have hlen := congrArg List.length happ
    have hhead := List.head?_dropWhile_not isAllowed s
    unfold screen at h
    split at h
    · cases h
    · rename_i c v hd
      cases h
      rw [hd] at happ hlen hhead
      refine ⟨s.takeWhile isAllowed,c,v,happ.symm,fun d hd => List.mem_takeWhile_imp hd,
        by simpa using hhead,?_⟩
      simp only [List.length_append,List.length_cons] at hlen
      congr 1
      omega
  · rintro ⟨u,c,v,rfl,hu,hc,rfl⟩
    have hd : (u ++ c :: v).dropWhile isAllowed = c :: v :=
      dropWhile_append_of_head hu (by simpa using hc)
    rw [screen,hd]
    simp only [List.length_append,List.length_cons]
    congr 2
    omega

lemma Cutting.all_isAllowed {n : ℕ} {s : List Char} {ts : List Placed}
    (h : Cutting n s ts none) : ∀ c ∈ s, isAllowed c = true := by
  have hblank : ∀ {c : Char}, Text.isBlank c = true → isAllowed c = true := by
    intro c hc
    simp [isAllowed,hc]
  generalize he : (none : Option SyntaxError) = e at h
  induction h with
  | done hb => exact fun c hc => hblank (hb c hc)
  | fault hb h => cases he
  | lexeme hb h next ih =>
    intro c hc
    rcases List.mem_append.mp hc with hc | hc
    · exact hblank (hb c hc)
    rcases List.mem_append.mp hc with hc | hc
    · exact h.all_isAllowed c hc
    · exact ih he c hc

/-- A text has one cutting, which is what reading finds. -/
lemma cutting_iff_scan {n : ℕ} {s : List Char} {ts : List Placed} {e : Option SyntaxError}
    (ha : ∀ c ∈ s, isAllowed c = true) : Cutting n s ts e ↔ scan n s = (ts,e) := by
  constructor
  · exact Cutting.scan_eq
  · intro hscan
    obtain ⟨us,e',hc⟩ := exists_cutting ha n
    rw [hc.scan_eq] at hscan
    cases hscan
    exact hc

/-- A text is read as these tokens exactly when it is cut into their lexemes. -/
theorem tokens_eq_ok_iff_cutting {text : String} {ts : List Placed} :
    tokens text = .ok ts ↔ Cutting 0 text.toList ts none := by
  rw [tokens_eq_ok_iff]
  constructor
  · rintro ⟨hs,hscan⟩
    exact (cutting_iff_scan (screen_eq_ok_iff.mp hs)).mpr hscan
  · intro h
    exact ⟨screen_eq_ok_iff.mpr h.all_isAllowed,h.scan_eq⟩

lemma tokens_eq_error_iff {text : String} {e : SyntaxError} :
    tokens text = .error e ↔ screen text.toList = .error e ∨
      screen text.toList = .ok () ∧ ∃ ts, scan 0 text.toList = (ts,some e) := by
  cases hs : screen text.toList with
  | error e' => simp [tokens,scanText,hs,bind,Except.bind]
  | ok u =>
    rcases hr : scan 0 text.toList with ⟨us,_ | e'⟩
    all_goals simp [tokens,scanText,hs,hr,bind,Except.bind,pure,Except.pure]

/-- A text of allowed characters is refused exactly where a cutting stops. -/
theorem tokens_eq_error_iff_cutting {text : String} {e : SyntaxError} :
    tokens text = .error e ↔ screen text.toList = .error e ∨
      (∀ c ∈ text.toList, isAllowed c = true) ∧ ∃ ts, Cutting 0 text.toList ts (some e) := by
  rw [tokens_eq_error_iff,screen_eq_ok_iff]
  exact or_congr_right (and_congr_right fun ha => exists_congr fun ts => (cutting_iff_scan ha).symm)

/-! Points in front of operators -/

lemma Literal.ofDotted?_eq_none {w : List Char} {m : ℕ} {k : ℤ} (h : Literal w m k) {c : Char}
    (hc : c ∈ w) : Operator.ofDotted? c = none := by
  rcases h.mem_cases hc with hc | rfl | rfl | rfl
  · exact ofDotted?_of_isWordPart hc
  · rfl
  · rfl
  · rfl

/-- A point of a spelling that stands in front of an operator begins the spelling of it. -/
lemma Spelling.point {w rest u s v : List Char} {t : Token} {c : Char} {o : Operator}
    (h : Spelling w rest t) (hw : w = u ++ '.' :: s) (hs : c :: v = s ++ rest)
    (ho : Operator.ofDotted? c = some o) : u = [] ∧ t = .operator o := by
  cases h with
  | plain o' => cases o' <;> simp [Operator.char,List.cons_eq_append_iff] at hw
  | @dotted o' ho' =>
    rcases u with _ | ⟨d,u⟩
    · obtain rfl : s = [o'.char] := by simpa using hw.symm
      obtain ⟨rfl,-⟩ := List.cons.inj hs
      rw [ho'] at ho
      cases ho
      exact ⟨rfl,rfl⟩
    · cases o' <;> simp [Operator.char,List.cons_eq_append_iff] at hw
  | opening => simp [List.cons_eq_append_iff] at hw
  | closing => simp [List.cons_eq_append_iff] at hw
  | comma => simp [List.cons_eq_append_iff] at hw
  | name h ends => cases h.isWord.isWordPart '.' (by simp [hw])
  | number h =>
    rcases s with _ | ⟨d,s⟩
    · have hdot := h.leavesPoint (by simp [hw])
      rw [List.nil_append] at hs
      rw [← hs,beginsDotted,ho] at hdot
      cases hdot
    · obtain ⟨rfl,-⟩ := List.cons.inj hs
      rw [h.literal.ofDotted?_eq_none (c := c) (by simp [hw])] at ho
      cases ho

lemma Cutting.point {n : ℕ} {s : List Char} {ts : List Placed} (h : Cutting n s ts none)
    {u v : List Char} {c : Char} {o : Operator} (hs : s = u ++ '.' :: c :: v)
    (ho : Operator.ofDotted? c = some o) : ⟨.operator o,n + u.length + 1⟩ ∈ ts := by
  have hblank : ∀ {b : List Char}, (∀ c ∈ b, Text.isBlank c = true) → '.' ∉ b :=
    fun hb hm => by cases hb '.' hm
  generalize he : (none : Option SyntaxError) = e at h
  induction h generalizing u with
  | done hb => exact absurd (by simp [hs]) (hblank hb)
  | fault hb h => cases he
  | @lexeme n blanks w rest t ts e hb h next ih =>
    obtain ⟨a,rfl,ha⟩ : ∃ a, u = blanks ++ a ∧ w ++ rest = a ++ '.' :: c :: v := by
      rcases List.append_eq_append_iff.mp hs with h | ⟨d,rfl,hd⟩
      · exact h
      · rcases d with _ | ⟨d,ds⟩
        · exact ⟨[],by simp,by simpa using hd.symm⟩
        · obtain ⟨rfl,-⟩ := List.cons.inj hd
          exact absurd (by simp) (hblank hb)
    rcases List.append_eq_append_iff.mp ha with ⟨d,rfl,hd⟩ | ⟨d,hw,hd⟩
    · have := ih hd he
      simp only [List.length_append] at this ⊢
      exact List.mem_cons_of_mem _ (by rwa [show n + (blanks.length + (w.length + d.length)) + 1 =
        n + blanks.length + w.length + d.length + 1 by omega])
    · rcases d with _ | ⟨d,ds⟩
      · obtain rfl : a = w := by simpa using hw.symm
        have := ih (u := []) (by simpa using hd.symm) he
        simp only [List.length_append]
        exact List.mem_cons_of_mem _ (by simpa [Nat.add_assoc] using this)
      · obtain ⟨rfl,htail⟩ := List.cons.inj hd
        obtain ⟨rfl,rfl⟩ := h.point hw htail ho
        simp

/-- A text is read as these tokens exactly when it is cut into blanks and their lexemes, each placed
at its first character; then every point in front of `*`, `/` or `^` is the beginning of an
operator. A text is refused for its first character outside the language, if it has one, and else
where the cutting stops: at a point without a digit or at a word that is no name. -/
theorem tokens_iff_cutting (text : String) :
    (∀ ts, tokens text = .ok ts ↔ Cutting 0 text.toList ts none) ∧
    (∀ ts, tokens text = .ok ts → ∀ u c v o, text.toList = u ++ '.' :: c :: v →
      Operator.ofDotted? c = some o → ⟨.operator o,u.length + 1⟩ ∈ ts) ∧
    ∀ e, tokens text = .error e ↔
      (∃ u c v, text.toList = u ++ c :: v ∧ (∀ d ∈ u, isAllowed d = true) ∧
        isAllowed c = false ∧ e = .unsafeCharacter c (u.length + 1)) ∨
      (∀ c ∈ text.toList, isAllowed c = true) ∧ ∃ ts, Cutting 0 text.toList ts (some e) := by
  refine ⟨fun ts => tokens_eq_ok_iff_cutting,fun ts h u c v o hs ho => ?_,fun e => ?_⟩
  · simpa using (tokens_eq_ok_iff_cutting.mp h).point hs ho
  · rw [tokens_eq_error_iff_cutting,screen_eq_error_iff]

/-- The first point is left to the operator, the second one begins a number. -/
example : tokens "x.*.5e1PI" = .ok [⟨.x,1⟩,⟨.operator .multiply,2⟩,
    ⟨.number (Decimal.ofDecimal false 5 0),4⟩,⟨.pi,8⟩] := by
  decide +kernel

end Formulary.Calculus
