import Formulary.Calculus.Lexer
import Formulary.Proofs.Decimal.Binary64
import Formulary.Proofs.Decimal.Spelling
import Formulary.Proofs.Release
import Formulary.Proofs.Text.Trimming

/-! Texts that are cut into lexemes one at a time. A lexeme that what follows cannot prolong is cut off
whole, and its token comes first. A number among the tokens has no sign. -/
namespace Formulary.Calculus

/-- A lexeme is cut off a text whole and spells a token. -/
structure Lexeme (w rest : List Char) (t : Token) : Prop where
  head : ∃ c u, w = c :: u ∧ Text.isBlank c = false
  cut : Calculus.cut (w ++ rest) = (w,rest)
  reads : ∀ position, readLexeme position w = .ok t

/-- What a text gives from some place on, behind tokens that were read before. -/
def behind (ts : List Placed) (r : List Placed × Option SyntaxError) :
    List Placed × Option SyntaxError :=
  (ts ++ r.1,r.2)

lemma scan_of_blank {s : List Char} (h : s.dropWhile Text.isBlank = []) (before : ℕ) :
    scan before s = ([],none) := by
  rw [scan]
  split
  · rfl
  · simp_all

/-- At a character that is no blank, the next lexeme begins. -/
lemma scan_of_dropWhile {c : Char} {s rest : List Char} (h : s.dropWhile Text.isBlank = c :: rest)
    (before : ℕ) :
    let at' := before + (s.length - (c :: rest).length)
    scan before s = match readLexeme (at' + 1) (cut (c :: rest)).1 with
      | .error e => ([],some e)
      | .ok t => behind [⟨t,at' + 1⟩]
          (scan (at' + (cut (c :: rest)).1.length) (cut (c :: rest)).2) := by
  intro at'
  rw [scan]
  split
  · simp_all
  · rename_i heq
    rw [h] at heq
    cases heq
    dsimp only
    split <;> simp_all [behind,at']

lemma scan_blank {c : Char} (h : Text.isBlank c = true) (before : ℕ) (s : List Char) :
    scan before (c :: s) = scan (before + 1) s := by
  cases hs : s.dropWhile Text.isBlank with
  | nil => rw [scan_of_blank (by simpa [h] using hs),scan_of_blank hs]
  | cons d rest =>
    have hd : (c :: s).dropWhile Text.isBlank = d :: rest := by simp [h,hs]
    have hlen := length_dropWhile_le Text.isBlank s
    rw [hs] at hlen
    have hpos : before + ((c :: s).length - (d :: rest).length) =
        before + 1 + (s.length - (d :: rest).length) := by
      simp only [List.length_cons] at hlen ⊢
      omega
    rw [scan_of_dropWhile hd,scan_of_dropWhile hs,hpos]

lemma scan_lexeme {w rest : List Char} {t : Token} (h : Lexeme w rest t) (before : ℕ) :
    scan before (w ++ rest) = behind [⟨t,before + 1⟩] (scan (before + w.length) rest) := by
  obtain ⟨c,u,rfl,hc⟩ := h.head
  have hcut := h.cut
  have hd : (c :: (u ++ rest)).dropWhile Text.isBlank = c :: (u ++ rest) := by simp [hc]
  rw [List.cons_append] at hcut ⊢
  rw [scan_of_dropWhile hd,hcut,h.reads]
  simp

/-- The text is read as the tokens, and reading goes on behind it. -/
def Reads (s : List Char) (before : ℕ) (ts : List Placed) (rest : List Char) : Prop :=
  scan before (s ++ rest) = behind ts (scan (before + s.length) rest)

lemma Lexeme.reads_text {w rest : List Char} {t : Token} (h : Lexeme w rest t) (before : ℕ) :
    Reads w before [⟨t,before + 1⟩] rest :=
  scan_lexeme h before

lemma Reads.append {s u rest : List Char} {before : ℕ} {ts us : List Placed}
    (hs : Reads s before ts (u ++ rest)) (hu : Reads u (before + s.length) us rest) :
    Reads (s ++ u) before (ts ++ us) rest := by
  rw [Reads,List.append_assoc,hs,hu,List.length_append,← Nat.add_assoc]
  simp [behind]

lemma reads_space (before : ℕ) (rest : List Char) : Reads [' '] before [] rest := by
  simp [Reads,behind,scan_blank (show Text.isBlank ' ' = true by decide)]

/-! The lexemes of the language -/

/-- What follows can prolong neither a number nor a name. -/
def EndsLexeme (rest : List Char) : Prop := ∀ c ∈ rest.head?, isWordPart c = false ∧ c ≠ '.'

lemma isWordPart_of_isDigit {c : Char} (h : c.isDigit = true) : isWordPart c = true := by
  simp [isWordPart,Char.isAlphanum,h]

lemma isWordPart_of_isWordStart {c : Char} (h : isWordStart c = true) : isWordPart c = true := by
  simp only [isWordStart,isWordPart,Char.isAlphanum,Bool.or_eq_true] at h ⊢
  tauto

lemma EndsLexeme.isWordPart {rest : List Char} (h : EndsLexeme rest) :
    ∀ c ∈ rest.head?, isWordPart c = false :=
  fun c hc => (h c hc).1

lemma EndsLexeme.isDigit {rest : List Char} (h : EndsLexeme rest) :
    ∀ c ∈ rest.head?, c.isDigit = false := by
  intro c hc
  by_contra hd
  have := (h c hc).1
  rw [isWordPart_of_isDigit (by simpa using hd)] at this
  cases this

/-- A mark of one character. -/
lemma lexeme_mark {c : Char} {rest : List Char} {t : Token} (hblank : Text.isBlank c = false)
    (hc : c ≠ '.' ∧ c.isDigit = false ∧ isWordStart c = false)
    (hr : ∀ position, readLexeme position [c] = .ok t) : Lexeme [c] rest t where
  head := ⟨c,[],rfl,hblank⟩
  cut := by simp [cut,hc]
  reads := hr

/-- An operator behind a point. -/
lemma lexeme_dotted {c : Char} {rest : List Char} {o : Operator}
    (ho : Operator.ofDotted? c = some o)
    (hr : ∀ position, readLexeme position ['.',c] = .ok (.operator o)) :
    Lexeme ['.',c] rest (.operator o) where
  head := ⟨'.',[c],rfl,rfl⟩
  cut := by simp [cut,beginsDotted,ho]
  reads := hr

lemma isBlank_of_isWordPart {c : Char} (h : isWordPart c = true) : Text.isBlank c = false := by
  simp only [isWordPart,Bool.or_eq_true,beq_iff_eq] at h
  rcases h with h | rfl
  · exact Text.isBlank_of_isAlphanum h
  · rfl

lemma isDigit_of_isWordStart {c : Char} (h : isWordStart c = true) : c.isDigit = false := by
  simp only [isWordStart,Bool.or_eq_true,beq_iff_eq] at h
  rcases h with h | rfl
  · rw [Text.isAlpha_iff] at h
    rw [← Bool.not_eq_true,Text.isDigit_iff]
    omega
  · rfl

lemma isWordStart_of_isDigit {c : Char} (h : c.isDigit = true) : isWordStart c = false := by
  by_contra hc
  have := isDigit_of_isWordStart (by simpa using hc)
  simp_all

lemma readLexeme_of_isWordStart {c : Char} (hc : isWordStart c = true) (u : List Char)
    (position : ℕ) : readLexeme position (c :: u) = readWord position (c :: u) := by
  unfold readLexeme
  split
  case h_13 => simp_all
  all_goals simp_all [isWordStart]

/-- A name, in front of what is no part of it. -/
lemma lexeme_word {c : Char} {u rest : List Char} {t : Token} (hc : isWordStart c = true)
    (hu : ∀ d ∈ u, isWordPart d = true) (hrest : ∀ d ∈ rest.head?, isWordPart d = false)
    (hr : ∀ position, readLexeme position (c :: u) = .ok t) : Lexeme (c :: u) rest t where
  head := ⟨c,u,rfl,isBlank_of_isWordPart (isWordPart_of_isWordStart hc)⟩
  cut := by
    have hne : c ≠ '.' := by rintro rfl; simp [isWordStart] at hc
    have hd : c.isDigit = false := isDigit_of_isWordStart hc
    simp [cut,hne,hd,hc,takeWhile_append_of_head hu hrest,dropWhile_append_of_head hu hrest]
  reads := hr

lemma readWord_name (r : Routine) (position : ℕ) :
    readWord position r.name.toList = .ok (.routine r) := by
  have hx : r.name.toList ≠ ['x'] := by cases r <;> decide +kernel
  have hpi : r.name.toList.map Char.toLower ≠ ['p','i'] := by cases r <;> decide +kernel
  rw [readWord,if_neg hx,if_neg hpi,String.ofList_toList,Routine.ofName?_name]

lemma name_eq_cons (r : Routine) : ∃ c u, r.name.toList = c :: u ∧ isWordStart c = true ∧
    u.all isWordPart = true := by
  cases r <;> simp [Routine.name,isWordStart,isWordPart]

lemma lexeme_name (r : Routine) {rest : List Char}
    (hrest : ∀ d ∈ rest.head?, isWordPart d = false) :
    Lexeme r.name.toList rest (.routine r) := by
  obtain ⟨c,u,hcu,hc,hu⟩ := name_eq_cons r
  have hr (position : ℕ) : readLexeme position (c :: u) = .ok (.routine r) := by
    rw [readLexeme_of_isWordStart hc,← hcu,readWord_name]
  rw [hcu]
  exact lexeme_word hc (List.all_eq_true.mp hu) hrest hr

lemma cutExponent_of_ends {rest : List Char} (h : EndsLexeme rest) : cutExponent rest = ([],rest) := by
  cases rest with
  | nil => rfl
  | cons c rest =>
    have hc := (h c rfl).1
    have he : ¬(c = 'e' ∨ c = 'E') := by
      rintro (rfl | rfl) <;> simp [isWordPart] at hc
    simp [cutExponent]
    tauto

lemma cutPlaces_of_ends {rest : List Char} (h : EndsLexeme rest) : cutPlaces rest = ([],rest) := by
  unfold cutPlaces
  split
  · exact absurd rfl (h '.' rfl).2
  · rfl

lemma cutPlaces_point {fraction rest : List Char} (hne : fraction ≠ [])
    (hd : ∀ c ∈ fraction, c.isDigit = true) (h : EndsLexeme rest) :
    cutPlaces ('.' :: (fraction ++ rest)) = ('.' :: fraction,rest) := by
  have hdotted : beginsDotted (fraction ++ rest) = false := by
    obtain ⟨d,ds,rfl⟩ := List.exists_cons_of_ne_nil hne
    have hdigit := hd d List.mem_cons_self
    simp only [List.cons_append,beginsDotted]
    unfold Operator.ofDotted?
    split <;> simp_all
  simp [cutPlaces,hdotted,takeWhile_append_of_head hd h.isDigit,
    dropWhile_append_of_head hd h.isDigit]

/-- A number is cut off whole. -/
lemma cutNumber_positional {w rest : List Char} (hw : Decimal.IsPositional w)
    (h : EndsLexeme rest) : cutNumber (w ++ rest) = (w,rest) := by
  cases hw with
  | whole hne hw =>
    simp [cutNumber,takeWhile_append_of_head hw h.isDigit,dropWhile_append_of_head hw h.isDigit,
      cutPlaces_of_ends h,cutExponent_of_ends h]
  | @point whole fraction hne hw hf hd =>
    have hpoint : ∀ c ∈ ('.' :: (fraction ++ rest)).head?, c.isDigit = false := by simp
    simp [cutNumber,takeWhile_append_of_head hw hpoint,dropWhile_append_of_head hw hpoint,
      cutPlaces_point hf hd h,cutExponent_of_ends h]

/-- A number, in front of what cannot prolong it. -/
lemma lexeme_number {w rest : List Char} {v : Float} (hw : Decimal.IsPositional w)
    (hv : Decimal.readChars? w = some v) (hrest : EndsLexeme rest) :
    Lexeme w rest (.number v) := by
  obtain ⟨c,u,hcu,hc⟩ := hw.head
  have hne : c ≠ '.' := by rintro rfl; simp at hc
  refine ⟨⟨c,u,hcu,isBlank_of_isWordPart (isWordPart_of_isDigit hc)⟩,?_,fun position => ?_⟩
  · have hcut := cutNumber_positional hw hrest
    rw [hcu,List.cons_append] at hcut ⊢
    simp [cut,hne,hc,hcut]
  · rw [hcu] at hv ⊢
    unfold readLexeme
    split <;> simp_all [isWordStart_of_isDigit]

/-! The numbers of a text -/

lemma readWord_ne_number (position : ℕ) (word : List Char) (v : Float) :
    readWord position word ≠ .ok (.number v) := by
  unfold readWord
  split_ifs
  · simp
  · simp
  · split <;> simp

lemma readLexeme_number {position : ℕ} {w : List Char} {v : Float}
    (h : readLexeme position w = .ok (.number v)) :
    w ≠ ['-'] ∧ Decimal.readChars? w = some v := by
  refine ⟨by rintro rfl; simp [readLexeme] at h,?_⟩
  unfold readLexeme at h
  split at h
  case h_13 =>
    split_ifs at h
    · exact absurd h (readWord_ne_number _ _ _)
    · split at h <;> simp_all
  all_goals simp at h

/-- A minus sign is a lexeme by itself. -/
lemma cut_minus {c : Char} {rest : List Char} (h : (cut (c :: rest)).1.head? = some '-') :
    (cut (c :: rest)).1 = ['-'] := by
  have happ := cut_append (c :: rest)
  obtain ⟨u,hu⟩ := List.head?_eq_some_iff.mp h
  rw [hu,List.cons_append] at happ
  obtain rfl := (List.cons.inj happ).1
  simp [cut,isWordStart]

/-- A finite number among the tokens of a text has no sign. -/
theorem isUnsigned_of_mem_scan {s : List Char} {before : ℕ} {p : Placed} {v : Float}
    (hp : p ∈ (scan before s).1) (ht : p.token = .number v) (hv : v.isFinite = true) :
    Decimal.IsUnsigned v := by
  -- By length, since a lexeme may take more than one character.
  induction s using (measure List.length).wf.induction generalizing before with
  | h s ih =>
    cases hd : s.dropWhile Text.isBlank with
    | nil => simp [scan_of_blank hd] at hp
    | cons c rest =>
      rw [scan_of_dropWhile hd] at hp
      split at hp
      · simp at hp
      · rename_i t hr
        rcases List.mem_append.mp hp with hp | hp
        · obtain rfl := List.mem_singleton.mp hp
          obtain rfl : t = .number v := ht
          obtain ⟨hne,hv'⟩ := readLexeme_number hr
          exact Decimal.isUnsigned_of_readChars? hv' (fun hm => hne (cut_minus hm)) hv
        · have hlt := length_cut_lt c rest
          have hle := length_dropWhile_le Text.isBlank s
          rw [hd] at hle
          exact ih _ (hlt.trans_le hle) hp

lemma screen_eq_ok {s : List Char} (h : s.all isAllowed = true) : screen s = .ok () := by
  have hd : s.dropWhile isAllowed = [] := by
    rw [List.dropWhile_eq_nil_iff]
    exact List.all_eq_true.mp h
  simp [screen,hd]

lemma tokens_eq_ok_iff {text : String} {ts : List Placed} :
    tokens text = .ok ts ↔ screen text.toList = .ok () ∧ scan 0 text.toList = (ts,none) := by
  cases hs : screen text.toList with
  | error e => simp [tokens,scanText,hs,bind,Except.bind]
  | ok u =>
    rcases hr : scan 0 text.toList with ⟨us,_ | e⟩
    all_goals simp [tokens,scanText,hs,hr,bind,Except.bind,pure,Except.pure]

lemma isUnsigned_of_mem_tokens {text : String} {ts : List Placed} {p : Placed} {v : Float}
    (h : tokens text = .ok ts) (hp : p ∈ ts) (ht : p.token = .number v) (hv : v.isFinite = true) :
    Decimal.IsUnsigned v := by
  obtain ⟨-,hscan⟩ := tokens_eq_ok_iff.mp h
  have hmem : p ∈ (scan 0 text.toList).1 := by rwa [hscan]
  exact isUnsigned_of_mem_scan hmem ht hv

end Formulary.Calculus
