import Formulary.Proofs.Sets.RoundTrip

/-! Which of the elements supplied for a set are kept. Texts tell elements apart, so an element stays
out exactly if its text came before, whether as a number or as a symbol. -/
namespace Formulary.Sets
open Element

/-- The elements of a list whose texts do not come before them. -/
def firsts (l : List Element) : List Element :=
  (l.zipIdx.filter fun p => p.1.canonical ∉ (l.take p.2).map canonical).map Prod.fst

lemma firsts_append_singleton (l : List Element) (e : Element) :
    firsts (l ++ [e]) = if e.canonical ∈ l.map canonical then firsts l else firsts l ++ [e] := by
  -- what stands before an element of the front is not changed by the last one
  have hfront : l.zipIdx.filter (fun p => p.1.canonical ∉ ((l ++ [e]).take p.2).map canonical) =
      l.zipIdx.filter fun p => p.1.canonical ∉ (l.take p.2).map canonical := by
    refine List.filter_congr fun p hp => ?_
    have hlt := (List.getElem?_eq_some_iff.mp (List.mem_zipIdx_iff_getElem?.mp hp)).1
    rw [List.take_append_of_le_length hlt.le]
  rw [firsts,List.zipIdx_append,List.filter_append,hfront,List.map_append]
  split_ifs with he
  · simp [firsts,he]
  · simp [firsts,he]

lemma firsts_eq_self_of_length {l : List Element} (h : (firsts l).length = l.length) :
    firsts l = l := by
  rw [firsts,List.length_map,← List.length_zipIdx (l := l) (i := 0),
    List.length_filter_eq_length_iff] at h
  rw [firsts,List.filter_eq_self.mpr h,List.zipIdx_map_fst]

namespace FiniteSet

lemma mem_texts_ofList {l : List Element} {t : String} :
    t ∈ (ofList l).texts ↔ t ∈ l.map canonical := by
  rw [texts_ofList,List.mem_eraseDups]

theorem elements_ofList_eq_firsts (l : List Element) : (ofList l).elements = firsts l := by
  induction l using List.reverseRecOn with
  | nil => rfl
  | append_singleton l e ih =>
    rw [ofList_append_singleton,firsts_append_singleton,← ih]
    split_ifs with he
    · rw [insert,dif_pos (contains_iff.mpr (mem_texts_ofList.mpr he))]
    · exact elements_insert (mt mem_texts_ofList.mp he)

/-- A list no longer than its set is the list of its elements. -/
lemma eq_elements_of_length {l : List Element} {s : FiniteSet} (h : ofList l = s)
    (hl : l.length = s.elements.length) : l = s.elements := by
  subst h
  rw [elements_ofList_eq_firsts] at hl ⊢
  exact (firsts_eq_self_of_length hl.symm).symm

/-- What putting an element in tells and does. -/
lemma put_eq (s : FiniteSet) (e : Element) : s.put e = (decide (e.canonical ∉ s.texts),s.insert e) := by
  unfold put
  split_ifs with h
  · rw [insert,dif_pos h,decide_eq_false (not_not.mpr (contains_iff.mp h))]
  · rw [decide_eq_true (mt contains_iff.mpr h)]

end FiniteSet
end Formulary.Sets
