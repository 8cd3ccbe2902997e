import Formulary.Proofs.Json.Numerals

/-! Reading ahead. What is read of a text does not depend on what follows, unless it is a number with
nothing behind it. So an array that is cut short is not read, if the whole text is. -/
namespace Formulary.Json

variable {c : Char} {s r : List Char} {fuel : ℕ}

lemma skipSpace_append_of_cons (h : skipSpace s = c :: r) (q : List Char) :
    skipSpace (s ++ q) = c :: (r ++ q) := by
  have hne : ¬(s.dropWhile isSpace).isEmpty = true := by
    rw [skipSpace] at h
    simp [h]
  rw [skipSpace,List.dropWhile_append,if_neg hne]
  exact congrArg (· ++ q) h

lemma drop?_append {expected : List Char} (h : drop? expected s = some r) (q : List Char) :
    drop? expected (s ++ q) = some (r ++ q) := by
  induction expected generalizing s with
  | nil =>
    cases h
    rfl
  | cons c expected ih =>
    cases s with
    | nil => cases h
    | cons d s =>
      simp only [drop?,List.cons_append] at h ⊢
      split_ifs at h ⊢
      exact ih h

lemma readSpelled?_append {ks : List Spelled} (h : readSpelled? s = some (ks,r)) (q : List Char) :
    readSpelled? (s ++ q) = some (ks,r ++ q) := by
  fun_induction readSpelled? s generalizing ks r with
  | case1 => cases h
  | case2 a b c d s ih =>
    simp only [Option.bind_eq_bind,Option.bind_eq_some_iff] at h
    obtain ⟨n,hn,⟨more,left⟩,hm,he⟩ := h
    cases he
    simp [readSpelled?,hn,ih hm]
  | case3 c s hu ih =>
    simp only [Option.bind_eq_bind,Option.bind_eq_some_iff] at h
    obtain ⟨d,hd,⟨more,left⟩,hm,he⟩ := h
    cases he
    rw [List.cons_append,List.cons_append,readSpelled?]
    · simp [hd,ih hm]
    · -- a unit that is cut short does not become a letter
      rintro a b c' d' rest rfl -
      simp [unescape?] at hd
  | case4 s =>
    cases h
    simp [readSpelled?]
  | case5 c s => cases h
  | case6 c s hu hs hq hc ih =>
    simp only [Option.bind_eq_bind,Option.bind_eq_some_iff] at h
    obtain ⟨⟨more,left⟩,hm,he⟩ := h
    cases he
    rw [not_or] at hc
    rw [List.cons_append,readSpelled?]
    · simp [hq,hc,ih hm]
    · exact fun _ _ _ _ _ h _ => hc.1 h
    · exact fun _ _ h _ => hc.1 h

lemma readString?_append {text : Option String} (h : readString? s = some (text,r))
    (q : List Char) : readString? (s ++ q) = some (text,r ++ q) := by
  obtain ⟨⟨ks,left⟩,hk,he⟩ := Option.map_eq_some_iff.mp h
  cases he
  simp [readString?,readSpelled?_append hk]

lemma readNumber?_append_of_ne {negative : Bool} {source : Source}
    (h : readNumber? negative s = some (source,r)) (hr : r ≠ []) (q : List Char) :
    readNumber? negative (s ++ q) = some (source,r ++ q) := by
  obtain ⟨⟨n,left⟩,hn,he⟩ := Option.map_eq_some_iff.mp h
  cases he
  simp [readNumber?,readNumeral?_append hn fun h => absurd h hr]

/-- Nothing is read where there is nothing but space. -/
lemma skipSpace_of_readValue? {source : Source} (h : readValue? fuel s = some (source,r)) :
    ∃ c t, skipSpace s = c :: t := by
  cases fuel with
  | zero => cases h
  | succ fuel =>
    cases hs : skipSpace s with
    | nil => simp [readValue?,hs] at h
    | cons c t => exact ⟨c,t,rfl⟩

lemma skipSpace_of_readMoreItems? {items : List Source}
    (h : readMoreItems? fuel s = some (items,r)) : ∃ c t, skipSpace s = c :: t := by
  cases fuel with
  | zero => cases h
  | succ fuel =>
    obtain ⟨⟨source,left⟩,hv,-⟩ := Option.bind_eq_some_iff.mp h
    exact skipSpace_of_readValue? hv

lemma skipSpace_of_readMoreFields? {fields : List (Option String × Source)}
    (h : readMoreFields? fuel s = some (fields,r)) : ∃ c t, skipSpace s = c :: t := by
  cases fuel with
  | zero => cases h
  | succ fuel =>
    cases hs : skipSpace s with
    | nil => simp [readMoreFields?,hs] at h
    | cons c t => exact ⟨c,t,rfl⟩

/-- The same is read of a longer text with more fuel, and what follows is left. -/
def Goes {α : Type} (read : ℕ → List Char → Option (α × List Char)) (fuel : ℕ) : Prop :=
  ∀ fuel' s a r q, fuel ≤ fuel' → read fuel s = some (a,r) → read fuel' (s ++ q) = some (a,r ++ q)

/-- Up to some fuel, whatever closes itself is read alike in a longer text, and so is a number
behind which something stands. -/
structure ReadsAhead (fuel : ℕ) : Prop where
  value : ∀ fuel' s source r q, fuel ≤ fuel' → readValue? fuel s = some (source,r) → r ≠ [] →
    readValue? fuel' (s ++ q) = some (source,r ++ q)
  items : Goes readItems? fuel
  moreItems : Goes readMoreItems? fuel
  fields : Goes readFields? fuel
  moreFields : Goes readMoreFields? fuel

namespace ReadsAhead

lemma items_succ (ih : ReadsAhead fuel) : Goes readItems? (fuel + 1) := by
  intro fuel' s source r q hle h
  obtain ⟨fuel',rfl⟩ := Nat.exists_eq_add_of_le' (Nat.le_of_add_left_le hle)
  rw [readItems?] at h ⊢
  split at h
  · rename_i heq
    cases h
    simp [skipSpace_append_of_cons heq]
  · rename_i hs
    obtain ⟨⟨items,left⟩,hm,he⟩ := Option.map_eq_some_iff.mp h
    cases he
    obtain ⟨c,t,hc⟩ := skipSpace_of_readMoreItems? hm
    rw [skipSpace_append_of_cons hc,ih.moreItems _ _ _ _ q (Nat.le_of_succ_le_succ hle) hm]
    split
    · simp_all
    · rfl

lemma fields_succ (ih : ReadsAhead fuel) : Goes readFields? (fuel + 1) := by
  intro fuel' s source r q hle h
  obtain ⟨fuel',rfl⟩ := Nat.exists_eq_add_of_le' (Nat.le_of_add_left_le hle)
  rw [readFields?] at h ⊢
  split at h
  · rename_i heq
    cases h
    simp [skipSpace_append_of_cons heq]
  · rename_i hs
    obtain ⟨⟨fields,left⟩,hm,he⟩ := Option.map_eq_some_iff.mp h
    cases he
    obtain ⟨c,t,hc⟩ := skipSpace_of_readMoreFields? hm
    rw [skipSpace_append_of_cons hc,ih.moreFields _ _ _ _ q (Nat.le_of_succ_le_succ hle) hm]
    split
    · simp_all
    · rfl

lemma moreItems_succ (ih : ReadsAhead fuel) : Goes readMoreItems? (fuel + 1) := by
  intro fuel' s items r q hle h
  obtain ⟨fuel',rfl⟩ := Nat.exists_eq_add_of_le' (Nat.le_of_add_left_le hle)
  have hle' := Nat.le_of_succ_le_succ hle
  rw [readMoreItems?] at h ⊢
  obtain ⟨⟨source,left⟩,hv,h⟩ := Option.bind_eq_some_iff.mp h
  dsimp only at h
  have hne (c : Char) (t : List Char) (hs : skipSpace left = c :: t) : left ≠ [] := by
    rintro rfl
    cases hs
  split at h
  · rename_i rest heq
    obtain ⟨⟨more,left'⟩,hm,he⟩ := Option.map_eq_some_iff.mp h
    cases he
    simp [ih.value _ _ _ _ q hle' hv (hne _ _ heq),skipSpace_append_of_cons heq,
      ih.moreItems _ _ _ _ q hle' hm]
  · rename_i rest heq
    cases h
    simp [ih.value _ _ _ _ q hle' hv (hne _ _ heq),skipSpace_append_of_cons heq]
  · cases h

lemma moreFields_succ (ih : ReadsAhead fuel) : Goes readMoreFields? (fuel + 1) := by
  intro fuel' s fields r q hle h
  obtain ⟨fuel',rfl⟩ := Nat.exists_eq_add_of_le' (Nat.le_of_add_left_le hle)
  have hle' := Nat.le_of_succ_le_succ hle
  rw [readMoreFields?] at h ⊢
  split at h
  case h_2 => cases h
  rename_i behindQuote heq
  obtain ⟨⟨name,behindName⟩,hname,h⟩ := Option.bind_eq_some_iff.mp h
  dsimp only at h
  split at h
  case h_2 => cases h
  rename_i behindColon hcolon
  obtain ⟨⟨source,left⟩,hv,h⟩ := Option.bind_eq_some_iff.mp h
  dsimp only at h
  have hne (c : Char) (t : List Char) (hs : skipSpace left = c :: t) : left ≠ [] := by
    rintro rfl
    cases hs
  split at h
  · rename_i rest hcomma
    obtain ⟨⟨more,left'⟩,hm,he⟩ := Option.map_eq_some_iff.mp h
    cases he
    simp [skipSpace_append_of_cons heq,readString?_append hname,skipSpace_append_of_cons hcolon,
      ih.value _ _ _ _ q hle' hv (hne _ _ hcomma),skipSpace_append_of_cons hcomma,
      ih.moreFields _ _ _ _ q hle' hm]
  · rename_i rest hbrace
    cases h
    simp [skipSpace_append_of_cons heq,readString?_append hname,skipSpace_append_of_cons hcolon,
      ih.value _ _ _ _ q hle' hv (hne _ _ hbrace),skipSpace_append_of_cons hbrace]
  · cases h

lemma value_succ (ih : ReadsAhead fuel) (fuel' : ℕ) (s : List Char) (source : Source)
    (r q : List Char) (hle : fuel + 1 ≤ fuel') (h : readValue? (fuel + 1) s = some (source,r))
    (hr : r ≠ []) : readValue? fuel' (s ++ q) = some (source,r ++ q) := by
  obtain ⟨fuel',rfl⟩ := Nat.exists_eq_add_of_le' (Nat.le_of_add_left_le hle)
  have hle' := Nat.le_of_succ_le_succ hle
  rw [readValue?] at h ⊢
  split at h
  case h_1 => cases h
  case h_2 rest heq =>
    obtain ⟨⟨text,left⟩,ht,he⟩ := Option.map_eq_some_iff.mp h
    cases he
    simp [skipSpace_append_of_cons heq,readString?_append ht]
  case h_3 rest heq =>
    simpa [skipSpace_append_of_cons heq] using ih.items _ _ _ _ q hle' h
  case h_4 rest heq =>
    simpa [skipSpace_append_of_cons heq] using ih.fields _ _ _ _ q hle' h
  case h_5 rest heq =>
    simpa [skipSpace_append_of_cons heq] using readNumber?_append_of_ne h hr q
  case h_6 rest heq | h_7 rest heq | h_8 rest heq =>
    obtain ⟨left,hd,he⟩ := Option.map_eq_some_iff.mp h
    cases he
    simp [skipSpace_append_of_cons heq,drop?_append hd]
  case h_9 c rest _ _ _ _ _ _ _ heq =>
    have hn := readNumber?_append_of_ne h hr q
    rw [skipSpace_append_of_cons heq]
    split <;> simp_all

end ReadsAhead

/-- Whatever fuel is left, reading does not look at what follows. -/
theorem readsAhead (fuel : ℕ) : ReadsAhead fuel := by
  induction fuel with
  | zero => constructor <;> intro _ _ _ _ _ _ h <;> cases h
  | succ fuel ih =>
    exact ⟨ih.value_succ,ih.items_succ,ih.moreItems_succ,ih.fields_succ,ih.moreFields_succ⟩

lemma readValue?_bracket (s : List Char) (fuel : ℕ) :
    readValue? (fuel + 1) ('[' :: s) = readItems? fuel s := rfl

/-- Behind an array that is read, only space can be added so that the whole is read. -/
theorem isSpace_of_read?_append {part q : List Char} {a b : Source}
    (hpart : Source.read? (String.ofList ('[' :: part)) = some a)
    (hwhole : Source.read? (String.ofList ('[' :: part ++ q)) = some b) :
    ∀ c ∈ q, isSpace c = true := by
  simp only [Source.read?,String.toList_ofList,Option.bind_eq_bind,Option.bind_eq_some_iff]
    at hpart hwhole
  obtain ⟨⟨source,r⟩,hread,-⟩ := hpart
  obtain ⟨⟨source',r'⟩,hread',hspace⟩ := hwhole
  split_ifs at hspace with hnil
  rw [readValue?_bracket] at hread
  rw [List.cons_append,readValue?_bracket] at hread'
  have hfuel : 2 * ('[' :: part).length ≤ 2 * ('[' :: (part ++ q)).length := by
    simp only [List.length_cons,List.length_append]
    omega
  rw [(readsAhead _).items _ _ _ _ q hfuel hread] at hread'
  cases hread'
  simp only [skipSpace,List.isEmpty_iff,List.dropWhile_eq_nil_iff,List.mem_append] at hnil
  exact fun c hc => hnil c (.inr hc)

end Formulary.Json
