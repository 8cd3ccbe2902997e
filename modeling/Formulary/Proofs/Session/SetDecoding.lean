import Formulary.Session.Decoding
import Formulary.Session.Encoding
import Formulary.Proofs.Json.FloatTexts
import Formulary.Proofs.Outcome
import Formulary.Proofs.Sets.FirstAppearance

/-! Finite sets, however they come about. A set holds the elements supplied for it, each text at its
first appearance. Its JSON gives it back exactly if every number in it comes back by itself. -/
namespace Formulary.Session
open Json (Value Source Number)
open Sets (Element FiniteSet firsts words)

/-! Elements -/

lemma elementOfValue?_elementValue (e : Element) :
    elementOfValue? (elementValue e) = some e ↔ ∀ v, e = .numeric v → v.isFinite = true := by
  cases e with
  | numeric v =>
    cases hv : v.isFinite <;> simp [elementOfValue?,elementValue,Value.record?,elementOfRecord?,
      Json.Record.required?,Json.Record.part?,kindOfValue?,Value.float,hv,Value.toFloat?,
      Number.toFloat]
  | symbolic t =>
    simp [elementOfValue?,elementValue,Value.record?,elementOfRecord?,Json.Record.required?,
      Json.Record.part?,kindOfValue?,Value.toString?]

lemma elementOfSource?_spelled (e : Element) : elementOfSource? (elementValue e).spelled = some e ↔
    ∀ v, e = .numeric v → v.isFinite = true ∧ (Number.float v).ReadsBack := by
  cases e with
  | numeric v =>
    simp only [Element.numeric.injEq,forall_eq',← Json.toFloat?_spelled_iff Json.deepest]
    cases hv : ((Value.float v).spelled.value? Json.deepest).bind Value.toFloat? <;>
      simp [elementOfSource?,elementValue,Value.spelled,Json.fieldsSpelled,Source.record?,
        elementOfRecord?,Json.Record.required?,Json.Record.part?,kindOfSource?,hv]
  | symbolic t =>
    simp [elementOfSource?,elementValue,Value.spelled,Json.fieldsSpelled,Source.record?,
      elementOfRecord?,Json.Record.required?,Json.Record.part?,kindOfSource?,Source.value?,
      Value.toString?]

/-! Lists of elements -/

/-- A set comes back exactly if each of its elements does, for no other list of as many elements is
collected to it. -/
lemma ofList_mapM_eq_some_iff {α : Type} {encode : Element → α} {decode : α → Option Element}
    {s : FiniteSet} : ((s.elements.map encode).mapM decode).map FiniteSet.ofList = some s ↔
      ∀ e ∈ s.elements, decode (encode e) = some e := by
  rw [← mapM_map_eq_some_iff]
  constructor
  · intro h
    obtain ⟨l,hl,hs⟩ := Option.map_eq_some_iff.mp h
    have hlength : l.length = s.elements.length := (length_of_mapM hl).trans (List.length_map _)
    rw [hl,FiniteSet.eq_elements_of_length hs hlength]
  · intro h
    rw [h,Option.map_some,FiniteSet.ofList_elements]

lemma forall_numeric_iff {s : FiniteSet} {p : Float → Prop} :
    (∀ e ∈ s.elements, ∀ v, e = .numeric v → p v) ↔ ∀ v, .numeric v ∈ s.elements → p v :=
  ⟨fun h v hv => h _ hv v rfl,fun h _ he v hv => h v (hv ▸ he)⟩

lemma setOfValue?_setValue_iff {s : FiniteSet} :
    setOfValue? (setValue s) = some s ↔ ∀ v, .numeric v ∈ s.elements → v.isFinite = true := by
  rw [setOfValue?,setValue,elementsOfValue?,ofList_mapM_eq_some_iff]
  simp only [elementOfValue?_elementValue,forall_numeric_iff]

lemma readSet?_text_iff {s : FiniteSet} (form : Json.Form) :
    readSet? ((setValue s).text form) = some s ↔
      ∀ v, .numeric v ∈ s.elements → v.isFinite = true ∧ (Number.float v).ReadsBack := by
  have hread : readElements? ((setValue s).text form) =
      (s.elements.map fun e => (elementValue e).spelled).mapM elementOfSource? := by
    rw [readElements?,Source.read?_text,setValue,Value.spelled,Json.itemsSpelled_eq_map,
      List.map_map]
    rfl
  rw [readSet?,hread,ofList_mapM_eq_some_iff]
  simp only [elementOfSource?_spelled,forall_numeric_iff]

/-! Sets -/

/-- How a set comes about, with all the elements that were supplied for it in order. -/
inductive Built : List Element → FiniteSet → Prop
  | new : Built [] .empty
  | parsed (raw : String) :
      Built ((words (Text.pieces ',' raw.toList)).map .ofToken) (.ofText raw)
  | collected (l : List Element) : Built l (.ofList l)
  | decoded {v : Value} {l : List Element} {s : FiniteSet}
      (supplied : elementsOfValue? v = some l) (result : setOfValue? v = some s) : Built l s
  | read {text : String} {l : List Element} {s : FiniteSet}
      (supplied : readElements? text = some l) (result : readSet? text = some s) : Built l s
  | put {l : List Element} {s : FiniteSet} (e : Element) (before : Built l s) :
      Built (l ++ [e]) (s.put e).2

/-- However a set comes about, it is what the supplied elements are collected to. -/
lemma Built.eq_ofList {l : List Element} {s : FiniteSet} (h : Built l s) : s = .ofList l := by
  induction h with
  | new => rfl
  | parsed raw => exact FiniteSet.ofText_eq raw
  | collected l => rfl
  | decoded supplied result =>
    rw [setOfValue?,supplied] at result
    exact (Option.some.inj result).symm
  | read supplied result =>
    rw [readSet?,supplied] at result
    exact (Option.some.inj result).symm
  | put _ _ ih => rw [FiniteSet.put_eq,FiniteSet.ofList_append_singleton,ih]

/-- What holds of a set for which these elements were supplied. -/
structure FirstSeen (l : List Element) (s : FiniteSet) : Prop where
  distinct : s.texts.Nodup
  elements_eq : s.elements = firsts l
  /-- Putting an element in tells whether its text is new, and then adds it. -/
  put_new : ∀ e, (s.put e).1 = true ↔ e.canonical ∉ s.texts
  put_last : ∀ e, (s.put e).1 = true → (s.put e).2.elements = s.elements ++ [e]
  put_kept : ∀ e, (s.put e).1 = false → (s.put e).2 = s
  decoded_iff : setOfValue? (setValue s) = some s ↔
    ∀ v, .numeric v ∈ s.elements → v.isFinite = true
  read_iff : ∀ form, readSet? ((setValue s).text form) = some s ↔
    ∀ v, .numeric v ∈ s.elements → v.isFinite = true ∧ (Number.float v).ReadsBack

theorem firstSeen_of_built {l : List Element} {s : FiniteSet} (h : Built l s) : FirstSeen l s where
  distinct := s.distinct
  elements_eq := by rw [h.eq_ofList,FiniteSet.elements_ofList_eq_firsts]
  put_new e := by rw [FiniteSet.put_eq,decide_eq_true_iff]
  put_last e he := by
    rw [FiniteSet.put_eq,decide_eq_true_iff] at he
    rw [FiniteSet.put_eq,FiniteSet.elements_insert he]
  put_kept e he := by
    rw [FiniteSet.put_eq,decide_eq_false_iff_not,not_not] at he
    rw [FiniteSet.put_eq,FiniteSet.insert,dif_pos (FiniteSet.contains_iff.mpr he)]
  decoded_iff := setOfValue?_setValue_iff
  read_iff := readSet?_text_iff

/-- A list that no set is written as: a number, the symbol of its text, a symbol with a mark in it,
and a zero with its sign. -/
def overlappingText : String :=
  "[\x7b\"value\":2,\"kind\":\"numeric\"\x7d,[\"symbolic\",\"2\"]," ++
  "\x7b\"kind\":\x7b\"symbolic\":null\x7d,\"value\":\"a'b\"\x7d,[\"numeric\",-0.0]]"

def overlapping : List Element :=
  [.numeric 2.0,.symbolic "2",.symbolic "a'b",.numeric (-0.0)]

theorem firstSeen_overlapping : ∃ s, Built (overlapping ++ [.numeric 0.0]) s ∧
    s.elements = [.numeric 2.0,.symbolic "a'b",.numeric (-0.0)] ∧
    readSet? ((setValue s).text .compact) = some s := by
  have hread : readElements? overlappingText = some overlapping := by decide +kernel
  have hbuilt := (Built.read hread (by rw [readSet?,hread]; rfl)).put (.numeric 0.0)
  have hs := firstSeen_of_built hbuilt
  have helements := hs.elements_eq.trans
    (show firsts (overlapping ++ [.numeric 0.0]) =
      [.numeric 2.0,.symbolic "a'b",.numeric (-0.0)] by decide +kernel)
  refine ⟨_,hbuilt,helements,(hs.read_iff .compact).mpr fun v hv => ?_⟩
  rw [helements] at hv
  simp only [List.mem_cons,Element.numeric.injEq,reduceCtorEq,List.not_mem_nil,or_false,
    false_or] at hv
  rcases hv with rfl | rfl <;> decide +kernel

end Formulary.Session
