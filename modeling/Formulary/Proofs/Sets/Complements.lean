import Formulary.Proofs.Sets.Algebra
import Formulary.Sets.Universe

/-! The laws of complements as lists. A complement keeps the order of the universe, and it depends only
on what the set has inside the universe; what it has outside is told and changes nothing. -/
namespace Formulary.Sets
open Element FiniteSet
open Operation (union intersection)

namespace FiniteSet
variable {u a b : FiniteSet} {e : Element} {t : String}

lemma canonical_mem_texts (h : e ∈ a.elements) : e.canonical ∈ a.texts := List.mem_map_of_mem h

lemma mem_texts_iff : t ∈ a.texts ↔ ∃ e ∈ a.elements, e.canonical = t := List.mem_map

@[simp] lemma mem_texts_diff : t ∈ (a.diff b).texts ↔ t ∈ a.texts ∧ t ∉ b.texts := by
  simp [texts_diff]

@[simp] lemma mem_texts_intersection :
    t ∈ (intersection.apply a b).texts ↔ t ∈ a.texts ∧ t ∈ b.texts := by
  rw [show intersection.apply a b = a.inter b from rfl,texts_inter,List.mem_filter,
    decide_eq_true_iff]

@[simp] lemma mem_texts_union :
    t ∈ (union.apply a b).texts ↔ t ∈ a.texts ∨ t ∈ b.texts := by
  rw [(Operation.divide_regions a b).mem_union,Regions.of,texts_diff,texts_inter,texts_diff]
  simp only [List.mem_filter,decide_eq_true_iff]
  tauto

@[simp] lemma mem_texts_insert :
    t ∈ (a.insert e).texts ↔ t ∈ a.texts ∨ t = e.canonical := by
  by_cases h : e.canonical ∈ a.texts
  · rw [insert,dif_pos (contains_iff.mpr h)]
    exact (or_iff_left_of_imp fun ht => ht ▸ h).symm
  · rw [texts,elements_insert h,List.map_append,List.mem_append,List.map_singleton,
      List.mem_singleton]
    rfl

/-- Of the elements of a set, those pass into what is filtered whose text does. -/
lemma mem_texts_filter {keep : Element → Bool} (h : e ∈ a.elements) :
    e.canonical ∈ (a.filter keep).texts ↔ keep e = true := by
  rw [mem_texts_iff]
  constructor
  · rintro ⟨d,hd,htext⟩
    obtain ⟨hd,hkeep⟩ := List.mem_filter.mp hd
    exact List.inj_on_of_nodup_map a.distinct hd h htext ▸ hkeep
  · exact fun hkeep => ⟨e,List.mem_filter.mpr ⟨h,hkeep⟩,rfl⟩

lemma texts_filter_subset {keep : Element → Bool} : (a.filter keep).texts ⊆ a.texts :=
  (List.filter_sublist.map _).subset

end FiniteSet

variable (u a b : FiniteSet)

lemma elements_complement :
    (complement u a).elements = u.elements.filter (·.canonical ∉ a.texts) := elements_diff u a

@[simp] lemma mem_texts_complement {t : String} :
    t ∈ (complement u a).texts ↔ t ∈ u.texts ∧ t ∉ a.texts := mem_texts_diff

/-- Two complements are the same exactly if their sets have the same inside the universe. -/
lemma complement_eq_iff :
    complement u a = complement u b ↔ ∀ t ∈ u.texts, t ∈ a.texts ↔ t ∈ b.texts := by
  constructor
  · intro h t ht
    have hmem : t ∈ (complement u a).texts ↔ t ∈ (complement u b).texts := by rw [h]
    simpa [ht,not_iff_not] using hmem
  · intro h
    refine eq_of_elements ?_
    rw [elements_complement,elements_complement]
    refine List.filter_congr fun e he => ?_
    simp only [h e.canonical (canonical_mem_texts he)]

lemma complement_union : complement u (union.apply a b) =
    intersection.apply (complement u a) (complement u b) := by
  refine eq_of_elements ?_
  rw [show intersection.apply (complement u a) (complement u b) =
      (complement u a).inter (complement u b) from rfl,elements_inter,elements_complement,
    elements_complement,List.filter_filter]
  refine List.filter_congr fun e he => ?_
  have hu := canonical_mem_texts he
  simp [hu,Bool.and_comm]

lemma nodup_elements : u.elements.Nodup := u.distinct.of_map _

/-- The other law of the two holds up to order: a union has the first set in front. -/
lemma complement_intersection : (complement u (intersection.apply a b)).elements.Perm
    (union.apply (complement u a) (complement u b)).elements := by
  refine (List.perm_ext_iff_of_nodup (nodup_elements _) (nodup_elements _)).mpr fun e => ?_
  rw [Operation.elements_union,List.mem_append,List.mem_filter,decide_eq_true_iff,
    elements_complement,elements_complement,elements_complement]
  simp only [List.mem_filter,decide_eq_true_iff,mem_texts_intersection,mem_texts_complement]
  constructor
  · rintro ⟨he,hab⟩
    have hu := canonical_mem_texts he
    tauto
  · tauto

lemma complement_complement : complement u (complement u a) = intersection.apply u a := by
  refine eq_of_elements ?_
  rw [show intersection.apply u a = u.inter a from rfl,elements_inter,elements_complement]
  refine List.filter_congr fun e he => ?_
  simp [canonical_mem_texts he]

/-- A new element changes a complement exactly if it comes from the universe. -/
lemma complement_insert_iff (e : Element) : complement u (a.insert e) = complement u a ↔
    (e.canonical ∈ u.texts → e.canonical ∈ a.texts) := by
  rw [complement_eq_iff]
  constructor
  · exact fun h hu => (h _ hu).mp (mem_texts_insert.mpr (.inr rfl))
  · intro h t ht
    rw [mem_texts_insert]
    refine or_iff_left_of_imp ?_
    rintro rfl
    exact h ht

/-- What is dropped changes a complement exactly if any of it comes from the universe. -/
lemma complement_filter_iff (keep : Element → Bool) :
    complement u (a.filter keep) = complement u a ↔
      ∀ e ∈ a.elements, e.canonical ∈ u.texts → keep e = true := by
  rw [complement_eq_iff]
  constructor
  · exact fun h e he hu => (mem_texts_filter he).mp ((h _ hu).mpr (canonical_mem_texts he))
  · intro h t ht
    refine ⟨fun hk => texts_filter_subset hk,fun ha => ?_⟩
    obtain ⟨e,he,rfl⟩ := mem_texts_iff.mp ha
    exact (mem_texts_filter he).mpr (h e he ht)

/-- What is told of two sets in a universe: the sets themselves, their complements, and of what lies
outside the universe all, in the order of its set. -/
structure Complements.TellsOf (c : Complements) (u a b : FiniteSet) : Prop where
  sets : c.whole = u ∧ c.a = a ∧ c.b = b
  aComplement : c.aComplement.elements = u.elements.filter (·.canonical ∉ a.texts)
  bComplement : c.bComplement.elements = u.elements.filter (·.canonical ∉ b.texts)
  aOutside : c.aOutside.elements = a.elements.filter (·.canonical ∉ u.texts)
  bOutside : c.bOutside.elements = b.elements.filter (·.canonical ∉ u.texts)
  leaves_iff : c.leavesUniverse = true ↔ ∃ e ∈ a.elements ++ b.elements, e.canonical ∉ u.texts

/-- Something is outside exactly if the list of it is not empty. -/
lemma not_isEmpty_outside_iff :
    (!(outside u a).isEmpty) = true ↔ ∃ e ∈ a.elements, e.canonical ∉ u.texts := by
  rw [outside,FiniteSet.isEmpty,elements_diff]
  simp [List.filter_eq_nil_iff]

lemma Complements.tellsOf : Complements.TellsOf ⟨u,a,b⟩ u a b where
  sets := ⟨rfl,rfl,rfl⟩
  aComplement := elements_complement u a
  bComplement := elements_complement u b
  aOutside := elements_diff a u
  bOutside := elements_diff b u
  leaves_iff := by
    rw [leavesUniverse,Bool.or_eq_true,aOutside,bOutside,not_isEmpty_outside_iff,
      not_isEmpty_outside_iff]
    simp only [List.mem_append,or_and_right,exists_or]

/-- Complements in a universe, by the texts of elements: both laws for two sets, the complement of a
complement, the sizes, and that only what comes from the universe matters; and what is told when the
universe and the two sets are read from texts, each from its own. -/
theorem complement_laws (u a b : FiniteSet) :
    complement u (union.apply a b) = intersection.apply (complement u a) (complement u b) ∧
    (complement u (intersection.apply a b)).elements.Perm
      (union.apply (complement u a) (complement u b)).elements ∧
    complement u (complement u a) = intersection.apply u a ∧
    (complement u a).size + (intersection.apply u a).size = u.size ∧
    (∀ e : Element, complement u (a.insert e) = complement u a ↔
      (e.canonical ∈ u.texts → e.canonical ∈ a.texts)) ∧
    (∀ keep : Element → Bool, complement u (a.filter keep) = complement u a ↔
      ∀ e ∈ a.elements, e.canonical ∈ u.texts → keep e = true) ∧
    ∀ whole left right : String, (Complements.ofTexts whole left right).TellsOf
      (ofText whole) (ofText left) (ofText right) :=
  ⟨complement_union u a b,complement_intersection u a b,complement_complement u a,
    (u.size_eq_diff_add_inter a).symm,complement_insert_iff u a,complement_filter_iff u a,
    fun _ _ _ => Complements.tellsOf _ _ _⟩

end Formulary.Sets
