import Formulary.Sets.Operation
import Mathlib.Data.List.Dedup

/-! The algebra of two finite sets as lists. Collecting elements one by one drops those whose text has
been seen, so what is drawn from sets without repetition is collected as it stands; the regions of two
sets divide their union, and sizes add up accordingly. -/
namespace Formulary.Sets
open Element

namespace FiniteSet

/-- Two sets with the same elements in the same order are the same. -/
lemma eq_of_elements {s t : FiniteSet} (h : s.elements = t.elements) : s = t := by
  cases s
  cases t
  subst h
  rfl

lemma contains_eq (s : FiniteSet) : s.contains = fun e => decide (e.canonical ∈ s.texts) := by
  funext e
  rw [Bool.eq_iff_iff,decide_eq_true_iff,contains_iff]

lemma elements_insert {s : FiniteSet} {e : Element} (h : e.canonical ∉ s.texts) :
    (s.insert e).elements = s.elements ++ [e] := by
  have hc : ¬s.contains e = true := fun hc => h (contains_iff.mp hc)
  rw [insert,dif_neg hc]

/-- Elements of new texts are put behind the others one by one. -/
lemma elements_foldl_insert {s : FiniteSet} {l : List Element}
    (h : ((s.elements ++ l).map canonical).Nodup) :
    (l.foldl insert s).elements = s.elements ++ l := by
  induction l generalizing s with
  | nil => simp
  | cons e l ih =>
    have hnew : e.canonical ∉ s.texts := by
      simp only [List.map_append,List.map_cons,List.nodup_append,List.mem_cons] at h
      exact fun he => h.2.2 _ he _ (.inl rfl) rfl
    have he := elements_insert hnew
    rw [List.foldl_cons,ih (by rw [he,List.append_assoc]; exact h),he,List.append_assoc]
    rfl

/-- Elements of distinct texts are collected as they stand. -/
lemma elements_ofList {l : List Element} (h : (l.map canonical).Nodup) :
    (ofList l).elements = l :=
  elements_foldl_insert (s := empty) h

/-- Nothing gets into a set but what is put in. -/
lemma mem_foldl_insert {e : Element} {l : List Element} {s : FiniteSet}
    (h : e ∈ (l.foldl insert s).elements) : e ∈ s.elements ∨ e ∈ l := by
  induction l generalizing s with
  | nil => exact .inl h
  | cons d l ih =>
    rcases ih h with h | h
    · unfold insert at h
      split_ifs at h
      · exact .inl h
      · rcases List.mem_append.mp h with h | h
        · exact .inl h
        · exact .inr (by simp_all)
    · exact .inr (List.mem_cons_of_mem _ h)

/-- Collecting the elements of a set again gives the set. -/
lemma ofList_elements (s : FiniteSet) : ofList s.elements = s :=
  eq_of_elements (elements_ofList s.distinct)

/-! Sets drawn from another set -/

variable (a b : FiniteSet)

/-- What is drawn from a set has no text twice, so that collecting it keeps all of it. -/
lemma filterBy_eq_filter (keepMembers : Bool) :
    a.filterBy b keepMembers = a.filter fun e => b.contains e == keepMembers :=
  ofList_elements (a.filter fun e => b.contains e == keepMembers)

lemma elements_inter : (a.inter b).elements = a.elements.filter (·.canonical ∈ b.texts) := by
  simp [inter,filterBy_eq_filter,filter,contains_eq]

lemma elements_diff : (a.diff b).elements = a.elements.filter (·.canonical ∉ b.texts) := by
  simp [diff,filterBy_eq_filter,filter,contains_eq]

lemma texts_inter : (a.inter b).texts = a.texts.filter (· ∈ b.texts) := by
  change (a.inter b).elements.map canonical = (a.elements.map canonical).filter _
  rw [elements_inter,List.filter_map]
  rfl

lemma texts_diff : (a.diff b).texts = a.texts.filter (· ∉ b.texts) := by
  change (a.diff b).elements.map canonical = (a.elements.map canonical).filter _
  rw [elements_diff,List.filter_map]
  rfl

lemma size_eq_length_texts : a.size = a.texts.length := (List.length_map _).symm

/-- What two sets share has one size, whichever of them it is drawn from. -/
lemma size_inter_comm : (a.inter b).size = (b.inter a).size := by
  rw [size_eq_length_texts,size_eq_length_texts]
  refine ((List.perm_ext_iff_of_nodup (a.inter b).distinct (b.inter a).distinct).mpr ?_).length_eq
  intro t
  change t ∈ (a.inter b).texts ↔ t ∈ (b.inter a).texts
  simp only [texts_inter,List.mem_filter,decide_eq_true_iff]
  exact and_comm

/-- Each element of a set is in another one or not. -/
lemma size_eq_diff_add_inter : a.size = (a.diff b).size + (a.inter b).size := by
  have h := List.length_eq_length_filter_add (l := a.elements) (fun e => b.contains e)
  simp only [size,diff,inter,filterBy_eq_filter,filter,beq_true,beq_false]
  omega

end FiniteSet

open FiniteSet

/-- How the regions of two sets divide a union of them. -/
structure Regions.Divide (r : Regions) (a b union : FiniteSet) : Prop where
  leftOnly_both : r.leftOnly.texts.Disjoint r.both.texts
  leftOnly_rightOnly : r.leftOnly.texts.Disjoint r.rightOnly.texts
  both_rightOnly : r.both.texts.Disjoint r.rightOnly.texts
  mem_union : ∀ t, t ∈ union.texts ↔ t ∈ r.leftOnly.texts ∨ t ∈ r.both.texts ∨ t ∈ r.rightOnly.texts
  size_left : a.size = r.leftOnly.size + r.both.size
  size_right : b.size = r.both.size + r.rightOnly.size
  size_union : union.size = r.leftOnly.size + r.both.size + r.rightOnly.size

namespace Operation
variable (a b : FiniteSet)

/-- A set and what another one adds to it have no text in common. -/
lemma nodup_append_diff {s : FiniteSet} (h : s.texts ⊆ a.texts) :
    ((s.elements ++ (b.diff a).elements).map canonical).Nodup := by
  rw [List.map_append]
  refine s.distinct.append (b.diff a).distinct ?_
  intro t hs hd
  change t ∈ (b.diff a).texts at hd
  rw [texts_diff] at hd
  simp [h hs] at hd

lemma elements_union :
    (union.apply a b).elements = a.elements ++ b.elements.filter (·.canonical ∉ a.texts) := by
  rw [← elements_diff]
  exact elements_ofList (nodup_append_diff a b (List.Subset.refl _))

lemma elements_symmetricDifference : (symmetricDifference.apply a b).elements =
    (differenceAB.apply a b).elements ++ (differenceBA.apply a b).elements := by
  refine elements_ofList (nodup_append_diff a b (s := a.diff b) ?_)
  rw [texts_diff]
  exact List.filter_sublist.subset

lemma divide_regions : (Regions.of a b).Divide a b (union.apply a b) where
  leftOnly_both t hl hb := by
    rw [Regions.of,texts_diff,List.mem_filter] at hl
    rw [Regions.of,texts_inter,List.mem_filter] at hb
    simp_all
  leftOnly_rightOnly t hl hr := by
    rw [Regions.of,texts_diff,List.mem_filter] at hl hr
    simp_all
  both_rightOnly t hb hr := by
    rw [Regions.of,texts_inter,List.mem_filter] at hb
    rw [Regions.of,texts_diff,List.mem_filter] at hr
    simp_all
  mem_union t := by
    have hu : (union.apply a b).texts = a.texts ++ (b.diff a).texts := by
      rw [texts,elements_union,← elements_diff,List.map_append]
      rfl
    simp only [hu,Regions.of,texts_diff,texts_inter,List.mem_append,List.mem_filter,
      decide_eq_true_iff]
    tauto
  size_left := a.size_eq_diff_add_inter b
  size_right := by
    rw [b.size_eq_diff_add_inter a,Nat.add_comm,size_inter_comm]
    rfl
  size_union := by
    have ha := a.size_eq_diff_add_inter b
    rw [size,elements_union,← elements_diff,List.length_append]
    change a.size + (b.diff a).size = (a.diff b).size + (a.inter b).size + (b.diff a).size
    rw [← ha]

/-- The operations on two sets as lists of elements, told apart by their texts: what each one keeps
and in which order, that collecting it anew changes nothing, and how the sizes add up. -/
theorem elements_apply (a b : FiniteSet) :
    (union.apply a b).elements = a.elements ++ b.elements.filter (·.canonical ∉ a.texts) ∧
    (intersection.apply a b).elements = a.elements.filter (·.canonical ∈ b.texts) ∧
    (differenceAB.apply a b).elements = a.elements.filter (·.canonical ∉ b.texts) ∧
    (differenceBA.apply a b).elements = b.elements.filter (·.canonical ∉ a.texts) ∧
    (symmetricDifference.apply a b).elements =
      (differenceAB.apply a b).elements ++ (differenceBA.apply a b).elements ∧
    (∀ o : Operation, (o.apply a b).texts.Nodup ∧ ofList (o.apply a b).elements = o.apply a b) ∧
    Regions.of a b = ⟨differenceAB.apply a b,intersection.apply a b,differenceBA.apply a b⟩ ∧
    (Regions.of a b).Divide a b (union.apply a b) ∧
    (symmetricDifference.apply a b).size =
      (Regions.of a b).leftOnly.size + (Regions.of a b).rightOnly.size := by
  refine ⟨elements_union a b,elements_inter a b,elements_diff a b,elements_diff b a,
    elements_symmetricDifference a b,fun o => ⟨(o.apply a b).distinct,ofList_elements _⟩,rfl,
    divide_regions a b,?_⟩
  rw [size,elements_symmetricDifference,List.length_append]
  rfl

end Operation
end Formulary.Sets
