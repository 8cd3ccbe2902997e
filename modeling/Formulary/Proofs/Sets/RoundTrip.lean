import Formulary.Proofs.Sets.Algebra
import Formulary.Proofs.Text.Pieces
import Formulary.Proofs.Text.Trimming
import Mathlib.Logic.Relation

/-! Texts of finite sets. A text is cut into words, and its set has these words as its canonical texts,
each at its first appearance; kinds and numbers follow from the words. So a printed set is read as
itself, and two texts stand for one set exactly if their words do. -/
namespace Formulary.Sets

/-- The pieces of a text without the blanks at their ends, and without those that are blank. -/
def words (pieces : List (List Char)) : List String :=
  ((pieces.map Text.trim).filter (· ≠ [])).map String.ofList

namespace FiniteSet

lemma texts_insert (s : FiniteSet) (e : Element) :
    (s.insert e).texts = if e.canonical ∈ s.texts then s.texts else s.texts ++ [e.canonical] := by
  split_ifs with h
  · rw [insert,dif_pos (contains_iff.mpr h)]
  · rw [texts,elements_insert h,List.map_append]
    rfl

lemma ofList_append_singleton (l : List Element) (e : Element) :
    ofList (l ++ [e]) = (ofList l).insert e := List.foldl_append

/-- Of the elements with one text, the first is kept. -/
theorem texts_ofList (l : List Element) :
    (ofList l).texts = (l.map Element.canonical).eraseDups := by
  induction l using List.reverseRecOn with
  | nil => rfl
  | append_singleton l e ih =>
    rw [ofList_append_singleton,texts_insert,ih,List.map_append,List.eraseDups_append]
    by_cases h : e.canonical ∈ l.map Element.canonical
    · rw [if_pos (List.mem_eraseDups.mpr h)]
      simp [List.cons_removeAll,h]
    · rw [if_neg (mt List.mem_eraseDups.mp h)]
      simp [List.cons_removeAll,List.eraseDups_cons,h]

lemma eraseDups_texts (s : FiniteSet) : s.texts.eraseDups = s.texts := by
  have h := texts_ofList s.elements
  rw [ofList_elements] at h
  exact h.symm

lemma ofText_eq (raw : String) :
    ofText raw = ofList ((words (Text.pieces ',' raw.toList)).map Element.ofToken) := by
  rw [ofText,words]
  refine congrArg ofList ?_
  induction (Text.pieces ',' raw.toList).map Text.trim with
  | nil => rfl
  | cons piece pieces ih =>
    cases piece with
    | nil => simpa using ih
    | cons c piece => simpa using ih

theorem texts_ofText (raw : String) :
    (ofText raw).texts = (words (Text.pieces ',' raw.toList)).eraseDups := by
  have hcanonical : Element.canonical ∘ Element.ofToken = id := funext Element.canonical_ofToken
  rw [ofText_eq,texts_ofList,List.map_map,hcanonical,List.map_id]

/-- The elements that are read from a text are determined by their words. -/
lemma elements_ofText (raw : String) :
    (ofText raw).elements = (ofText raw).texts.map Element.ofToken := by
  rw [texts,List.map_map]
  refine (List.map_id _).symm.trans (List.map_congr_left fun e he => ?_)
  rw [ofText_eq] at he
  obtain he | he := mem_foldl_insert he
  · cases he
  · obtain ⟨t,-,rfl⟩ := List.mem_map.mp he
    simp

lemma ofText_eq_iff {raw other : String} : ofText raw = ofText other ↔
    (words (Text.pieces ',' raw.toList)).eraseDups =
      (words (Text.pieces ',' other.toList)).eraseDups := by
  rw [← texts_ofText,← texts_ofText]
  constructor
  · intro h
    rw [h]
  · intro h
    apply eq_of_elements
    rw [elements_ofText,elements_ofText,h]

end FiniteSet

/-! What is printed is read again -/

/-- A text that comes back as the only word when it stands between commas. -/
structure IsWord (t : String) : Prop where
  ne_nil : t.toList ≠ []
  trimmed : Text.trim t.toList = t.toList
  no_comma : ',' ∉ t.toList

lemma isWord_of_mem_words {s : List Char} {t : String} (h : t ∈ words (Text.pieces ',' s)) :
    IsWord t := by
  obtain ⟨w,hw,rfl⟩ := List.mem_map.mp h
  obtain ⟨hw,hne⟩ := List.mem_filter.mp hw
  obtain ⟨piece,hpiece,rfl⟩ := List.mem_map.mp hw
  obtain ⟨front,back,hsplit,-,-⟩ := Text.exists_trim piece
  have hcomma : ',' ∉ piece := Text.not_mem_of_mem_pieces hpiece
  refine ⟨by simpa using hne,by simp [Text.trim_trim],?_⟩
  rw [String.toList_ofList]
  intro hc
  refine hcomma ?_
  rw [hsplit]
  simp [hc]

/-- Words between commas are read one by one, whatever blanks stand around them all. -/
lemma words_intercalate {ts : List String} (hne : ts ≠ []) (ht : ∀ t ∈ ts, IsWord t)
    {front back : List Char} (hf : ∀ c ∈ front, Text.isBlank c = true)
    (hb : ∀ c ∈ back, Text.isBlank c = true) :
    words (Text.pieces ',' (front ++ (", ".intercalate ts).toList ++ back)) = ts := by
  have htrim : (ts.map fun t => Text.trim t.toList) = ts.map String.toList :=
    List.map_congr_left fun t h => (ht t h).trimmed
  have hkept : (ts.map String.toList).filter (· ≠ []) = ts.map String.toList := by
    rw [List.filter_eq_self]
    intro s hs
    obtain ⟨t,h,rfl⟩ := List.mem_map.mp hs
    simpa using (ht t h).ne_nil
  rw [words,Text.map_trim_pieces hne (fun t h => (ht t h).no_comma) hf hb,htrim,hkept,List.map_map]
  exact (List.map_congr_left fun t _ => String.ofList_toList).trans (List.map_id _)

/-- What is printed of a set, and what stands there between the braces. -/
inductive Encloses : String → String → Prop
  | nothing : Encloses "∅" ""
  | braces (inner : String) : Encloses ("\x7b" ++ inner ++ "\x7d") inner

/-- A printed set is read as itself. -/
lemma exists_encloses (raw : String) : ∃ inner, Encloses (FiniteSet.ofText raw).text inner ∧
    FiniteSet.ofText inner = FiniteSet.ofText raw := by
  have htexts := FiniteSet.texts_ofText raw
  rw [FiniteSet.text]
  split_ifs with hempty
  · have hnil : (FiniteSet.ofText raw).texts = [] := by
      rw [FiniteSet.texts,List.isEmpty_iff.mp hempty,List.map_nil]
    refine ⟨"",.nothing,FiniteSet.ofText_eq_iff.mpr ?_⟩
    rw [← htexts,hnil]
    rfl
  · have hne : (FiniteSet.ofText raw).texts ≠ [] := by
      rw [FiniteSet.texts,ne_eq,List.map_eq_nil_iff]
      exact fun hnil => hempty (List.isEmpty_iff.mpr hnil)
    have hword : ∀ t ∈ (FiniteSet.ofText raw).texts, IsWord t := by
      intro t ht
      rw [htexts,List.mem_eraseDups] at ht
      exact isWord_of_mem_words ht
    have hspace : ∀ c ∈ [' '], Text.isBlank c = true := List.forall_mem_singleton.mpr rfl
    have hread := words_intercalate hne hword hspace hspace
    refine ⟨" " ++ ", ".intercalate (FiniteSet.ofText raw).texts ++ " ",?_,?_⟩
    · convert Encloses.braces _ using 1
      rw [← String.toList_inj]
      simp
    · rw [FiniteSet.ofText_eq_iff,← htexts,String.toList_append,String.toList_append]
      exact (congrArg List.eraseDups hread).trans (FiniteSet.eraseDups_texts _)

/-! Texts of one set -/

/-- Changes of a text, cut at its commas, that its set does not notice. -/
inductive Edit : List (List Char) → List (List Char) → Prop
  /-- Blanks are put around a piece. -/
  | pad (before : List (List Char)) {front piece back : List Char} (after : List (List Char))
      (hf : ∀ c ∈ front, Text.isBlank c = true) (hb : ∀ c ∈ back, Text.isBlank c = true) :
      Edit (before ++ piece :: after) (before ++ (front ++ piece ++ back) :: after)
  /-- A blank piece is put in. -/
  | blank (before : List (List Char)) {piece : List Char} (after : List (List Char))
      (h : ∀ c ∈ piece, Text.isBlank c = true) : Edit (before ++ after) (before ++ piece :: after)
  /-- A piece is repeated anywhere behind its place. -/
  | repeated (before : List (List Char)) {piece : List Char} (after : List (List Char))
      (h : piece ∈ before) : Edit (before ++ after) (before ++ piece :: after)

lemma words_append (ps qs : List (List Char)) : words (ps ++ qs) = words ps ++ words qs := by
  simp [words]

@[simp] lemma words_nil : words [] = [] := rfl

lemma words_of_trim_eq_nil {piece : List Char} (h : Text.trim piece = []) (ps : List (List Char)) :
    words (piece :: ps) = words ps := by
  simp [words,h]

lemma words_of_trim_ne_nil {piece : List Char} (h : Text.trim piece ≠ [])
    (ps : List (List Char)) :
    words (piece :: ps) = String.ofList (Text.trim piece) :: words ps := by
  simp [words,h]

lemma eraseDups_repeated {xs ys : List String} {x : String} (h : x ∈ xs) :
    (xs ++ x :: ys).eraseDups = (xs ++ ys).eraseDups := by
  rw [List.eraseDups_append,List.eraseDups_append,List.cons_removeAll]
  simp [h]

lemma Edit.words_eq {ps qs : List (List Char)} (h : Edit ps qs) :
    (words ps).eraseDups = (words qs).eraseDups := by
  cases h with
  | @pad before front piece back after hf hb =>
    have htrim := Text.trim_padded hf hb piece
    rw [words_append,words_append,words,words,words,List.map_cons,List.map_cons,htrim]
  | blank before after h =>
    rw [words_append,words_append,words_of_trim_eq_nil (Text.trim_of_blank h)]
  | @repeated before piece after h =>
    rw [words_append,words_append]
    by_cases htrim : Text.trim piece = []
    · rw [words_of_trim_eq_nil htrim]
    · have hmem : String.ofList (Text.trim piece) ∈ words before := by
        refine List.mem_map_of_mem (List.mem_filter.mpr ⟨List.mem_map_of_mem h,?_⟩)
        simpa using htrim
      rw [words_of_trim_ne_nil htrim,eraseDups_repeated hmem]

lemma Edit.append_right {ps qs : List (List Char)} (h : Edit ps qs) (rest : List (List Char)) :
    Edit (ps ++ rest) (qs ++ rest) := by
  cases h with
  | pad before after hf hb => simpa using Edit.pad before (after ++ rest) hf hb
  | blank before after h => simpa using Edit.blank before (after ++ rest) h
  | repeated before after h => simpa using Edit.repeated before (after ++ rest) h

lemma eqvGen_append_right {ps qs : List (List Char)} (h : Relation.EqvGen Edit ps qs)
    (rest : List (List Char)) : Relation.EqvGen Edit (ps ++ rest) (qs ++ rest) := by
  induction h with
  | rel ps qs h => exact .rel _ _ (h.append_right rest)
  | refl ps => exact .refl _
  | symm ps qs h ih => exact .symm _ _ ih
  | trans ps qs rs h h' ih ih' => exact .trans _ _ _ ih ih'

lemma edit_trim (before : List (List Char)) (piece : List Char) :
    Edit (before ++ [Text.trim piece]) (before ++ [piece]) := by
  obtain ⟨front,back,hsplit,hf,hb⟩ := Text.exists_trim piece
  have h := @Edit.pad before front (Text.trim piece) back [] hf hb
  rwa [List.append_assoc,← hsplit] at h

/-- Every text comes by edits from its words alone, each written once. -/
theorem eqvGen_words (ps : List (List Char)) :
    Relation.EqvGen Edit ((words ps).eraseDups.map String.toList) ps := by
  induction ps using List.reverseRecOn with
  | nil => exact .refl _
  | append_singleton ps piece ih =>
    -- The pieces before the last are made plain first, then the blanks around the last one go.
    refine .trans _ _ _ ?_ (eqvGen_append_right ih [piece])
    let plain := (words ps).eraseDups.map String.toList
    refine .trans _ (plain ++ [Text.trim piece]) _ ?_ (.rel _ _ (edit_trim plain piece))
    rw [words_append]
    by_cases htrim : Text.trim piece = []
    · rw [words_of_trim_eq_nil htrim,words_nil,List.append_nil,htrim]
      refine .rel _ _ ?_
      simpa using @Edit.blank plain [] [] (by simp)
    · rw [words_of_trim_ne_nil htrim,words_nil]
      by_cases hseen : String.ofList (Text.trim piece) ∈ words ps
      · have hmem : Text.trim piece ∈ plain :=
          List.mem_map.mpr ⟨_,List.mem_eraseDups.mpr hseen,String.toList_ofList⟩
        rw [eraseDups_repeated hseen,List.append_nil]
        refine .rel _ _ ?_
        simpa using Edit.repeated plain [] hmem
      · have hlast : (words ps ++ [String.ofList (Text.trim piece)]).eraseDups =
            (words ps).eraseDups ++ [String.ofList (Text.trim piece)] := by
          simp [List.eraseDups_append,List.cons_removeAll,List.eraseDups_cons,hseen]
        rw [hlast,List.map_append,List.map_singleton,String.toList_ofList]
        exact .refl _

lemma eqvGen_iff {ps qs : List (List Char)} :
    Relation.EqvGen Edit ps qs ↔ (words ps).eraseDups = (words qs).eraseDups := by
  constructor
  · intro h
    induction h with
    | rel ps qs h => exact h.words_eq
    | refl ps => rfl
    | symm ps qs h ih => exact ih.symm
    | trans ps qs rs h h' ih ih' => exact ih.trans ih'
  · intro h
    have hps := Relation.EqvGen.symm _ _ (eqvGen_words ps)
    rw [h] at hps
    exact .trans _ _ _ hps (eqvGen_words qs)

/-- For every text, the canonical texts of its set are its trimmed pieces that are not blank, each at
its first appearance. Read again, the printed set is the same set, element by element. And exactly
those texts stand for this set that come from the given one by padding pieces, adding blank ones,
repeating pieces, and undoing that. -/
theorem ofText_roundTrip (raw : String) :
    (FiniteSet.ofText raw).texts = (words (raw.toList.splitOn ',')).eraseDups ∧
    (∃ inner, Encloses (FiniteSet.ofText raw).text inner ∧
      FiniteSet.ofText inner = FiniteSet.ofText raw) ∧
    ∀ other, FiniteSet.ofText other = FiniteSet.ofText raw ↔
      Relation.EqvGen Edit (raw.toList.splitOn ',') (other.toList.splitOn ',') := by
  rw [← Text.pieces_eq_splitOn]
  refine ⟨FiniteSet.texts_ofText raw,exists_encloses raw,fun other => ?_⟩
  rw [← Text.pieces_eq_splitOn,eqvGen_iff,FiniteSet.ofText_eq_iff,eq_comm]

end Formulary.Sets
