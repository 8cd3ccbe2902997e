import Formulary.History.Entry
import Formulary.Proofs.History.Timestamps
import Formulary.Proofs.Json.FloatTexts
import Formulary.Proofs.Outcome

/-! Entries are read back from the text of the history as they were written, whatever they hold,
exactly if each of their numbers is read back by itself. -/
namespace Formulary.History
open Json (Value Number Source)

/-- What a file can hold of a computation: finite numbers that are read back, and a number of points
that fits one machine word. -/
def Computation.Storable : Computation → Prop
  | .function _ p => p.points < Nat.pow 2 64 ∧
    ∀ v ∈ [p.xMin,p.xMax,p.x0,p.a,p.b], v.isFinite = true ∧ (Number.float v).ReadsBack
  | _ => True

namespace Computation

lemma toSize?_sizeValue (size : UInt8) : toSize? (sizeValue size) = some size := by
  have h : size.toNat < 256 := size.toNat_lt
  simp [toSize?,sizeValue,Value.toNatural?,Value.natural,h]

lemma toFloat?_float {v : Float} (h : v.isFinite = true) : (Value.float v).toFloat? = some v := by
  simp [Value.float,h,Value.toFloat?,Number.toFloat]

lemma toCount?_natural {n : ℕ} (h : n < Nat.pow 2 64) : (Value.natural n).toCount? = some n := by
  simp only [Value.toCount?,Value.toNatural?,Value.natural,h,↓reduceIte]

lemma ofRecord?_fields {c : Computation} (h : c.Storable) :
    ofRecord? c.kind (.named c.fields) = some c := by
  cases c with
  | function expression p =>
    obtain ⟨hpoints,hfloats⟩ := h
    simp only [List.mem_cons,List.not_mem_nil,or_false,forall_eq_or_imp,forall_eq] at hfloats
    simp [ofRecord?,kind,fields,Json.Record.required?,Json.Record.part?,Value.toString?,
      toFloat?_float,toCount?_natural hpoints,hfloats,Value.toBool?]
  | _ =>
    simp [ofRecord?,kind,fields,Json.Record.required?,Json.Record.part?,Value.toString?,
      toSize?_sizeValue]

/-- A computation is read back from its value. -/
theorem ofValue?_value {c : Computation} (h : c.Storable) : ofValue? c.value = some c := by
  have htags : c.fields.filter (·.1 == tagField) = [] := by cases c <;> simp [fields,tagField]
  have hrest : c.fields.filter (·.1 != tagField) = c.fields := by
    cases c <;> simp [fields,tagField]
  simp [value,ofValue?,htags,hrest,toKind?,Value.toString?,Kind.ofTag?_tag,ofRecord?_fields h]

/-- A computation is one object of plain parts. -/
lemma depth_value (c : Computation) : c.value.depth = 1 := by
  have hfloat (v : Float) : (Value.float v).depth = 0 := by
    unfold Value.float
    split <;> rfl
  cases c <;>
    simp [value,fields,Value.depth,Json.fieldsDepth,sizeValue,Value.natural,hfloat]

lemma readsBack_of_mem_numbers {c : Computation} (h : c.Storable) :
    ∀ n ∈ c.value.numbers, n.ReadsBack := by
  cases c with
  | function expression p =>
    obtain ⟨hpoints,hfloats⟩ := h
    simp only [List.mem_cons,List.not_mem_nil,or_false,forall_eq_or_imp,forall_eq] at hfloats
    simp [value,fields,Value.numbers,Json.fieldNumbers,Value.natural,Value.float,hfloats,
      Json.readsBack_natural_iff.mpr hpoints]
  | truthTable _ size | equivalence _ _ size =>
    have hsize : size.toNat < Nat.pow 2 64 := size.toNat_lt.trans (by decide)
    simp [value,fields,Value.numbers,Json.fieldNumbers,sizeValue,Value.natural,
      Json.readsBack_natural_iff.mpr hsize]
  | _ => simp [value,fields,Value.numbers,Json.fieldNumbers]

/-- The numbers of a computation that may be without end. -/
def floats : Computation → List Float
  | function _ p => [p.xMin,p.xMax,p.x0,p.a,p.b]
  | _ => []

/-- Every number of a computation is finite. -/
def IsFinite (c : Computation) : Prop := ∀ v ∈ c.floats, v.isFinite = true

/-- A computation can be held by a file exactly if its numbers are finite and are read back. -/
lemma storable_iff {c : Computation} :
    c.Storable ↔ c.IsFinite ∧ ∀ n ∈ c.value.numbers, n.ReadsBack := by
  refine ⟨fun h => ⟨?_,readsBack_of_mem_numbers h⟩,fun ⟨hfinite,hnumbers⟩ => ?_⟩
  · cases c with
    | function expression p => exact fun v hv => (h.2 v hv).1
    | _ => exact List.forall_mem_nil _
  · cases c with
    | function expression p =>
      simp only [IsFinite,floats,List.mem_cons,List.not_mem_nil,or_false,forall_eq_or_imp,forall_eq]
        at hfinite
      simp only [value,fields,Value.numbers,Json.fieldNumbers,Value.natural,Value.float,hfinite,
        ↓reduceIte,List.nil_append,List.cons_append,List.append_nil,List.forall_mem_cons,
        Json.readsBack_natural_iff] at hnumbers
      obtain ⟨hxMin,hxMax,hpoints,hx0,ha,hb,-⟩ := hnumbers
      refine ⟨hpoints,?_⟩
      simp only [List.mem_cons,List.not_mem_nil,or_false,forall_eq_or_imp,forall_eq,hfinite,true_and]
      exact ⟨hxMin,hxMax,hx0,ha,hb⟩
    | _ => trivial

lemma lt_of_toCount? {v : Value} {n : ℕ} (h : v.toCount? = some n) : n < Nat.pow 2 64 := by
  unfold Value.toCount? Value.toNatural? at h
  split at h
  · split_ifs at h
    cases h
    assumption
  · cases h

/-- What comes back of a computation comes back of its numbers. -/
lemma storable_of_ofValue? {c : Computation} {v : Value} {room : ℕ}
    (hv : c.value.spelled.value? (room + 1) = some v) (hc : ofValue? v = some c) : c.Storable := by
  cases c with
  | function expression p =>
    simp only [value,fields,Value.spelled,Json.fieldsSpelled,Source.value?,Json.fieldValues?,
      Nat.add_one_ne_zero,↓reduceIte,Nat.add_one_sub_one,Option.pure_def,Option.bind_eq_bind,
      Option.bind_some,Option.map_some,Option.map_eq_some_iff,Option.bind_eq_some_iff,
      Option.some.injEq,↓existsAndEq,and_true] at hv
    obtain ⟨xMin,xMax,points,x0,a,b,⟨hxMin,hxMax,-,hx0,ha,hb⟩,rfl⟩ := hv
    simp only [ofValue?,ofRecord?,toKind?,tagField,kind,Kind.ofTag?_tag,Value.toString?,
      Value.toBool?,Json.Record.required?,Json.Record.part?,List.filter_cons,List.filter_nil,
      String.reduceBEq,String.reduceBNe,BEq.rfl,bne_self_eq_false,Bool.false_eq_true,↓reduceIte,
      Option.pure_def,Option.bind_eq_bind,Option.bind_some,Option.bind_eq_some_iff,
      Option.some.injEq,function.injEq,true_and] at hc
    obtain ⟨_,hxMin',_,hxMax',_,hpoints,_,hx0',_,ha',_,hb',hp⟩ := hc
    obtain ⟨rfl,rfl,rfl,rfl,rfl,rfl,-⟩ := Calculus.Parameters.mk.inj hp
    refine ⟨lt_of_toCount? hpoints,?_⟩
    simp only [List.mem_cons,List.not_mem_nil,or_false,forall_eq_or_imp,forall_eq,
      ← Json.toFloat?_spelled_iff room,Option.bind_eq_some_iff]
    exact ⟨⟨_,hxMin,hxMin'⟩,⟨_,hxMax,hxMax'⟩,⟨_,hx0,hx0'⟩,⟨_,ha,ha'⟩,⟨_,hb,hb'⟩⟩
  | _ => trivial

end Computation

namespace Entry

lemma sourceComputation?_source {c : Computation} (h : c.Storable) :
    sourceComputation? c.value.source = some c := by
  have hroom : c.value.depth ≤ Json.deepest - 2 := by
    rw [c.depth_value]
    decide
  simp [sourceComputation?,c.value.value?_source _ hroom,Computation.ofValue?_value h]

/-- An entry is read back from its tree. -/
lemma ofSource?_source {e : Entry} (h : e.computation.Storable) :
    ofSource? e.value.source = some e := by
  simp [ofSource?,ofRecord?,value,Value.source,Json.fieldSources,Source.record?,
    Json.Record.required?,Json.Record.part?,sourceText?,Timestamp.read?_zuluText,
    sourceComputation?_source h]

lemma numbers_value (e : Entry) : e.value.numbers = e.computation.value.numbers := by
  simp [value,Value.numbers,Json.fieldNumbers]

lemma readsBack_of_mem_numbers {e : Entry} (h : e.computation.Storable) :
    ∀ n ∈ e.value.numbers, n.ReadsBack := by
  rw [numbers_value]
  exact Computation.readsBack_of_mem_numbers h

/-- Only the computation of an entry may come back as another one, or not at all. -/
lemma ofSource?_spelled (e : Entry) : ofSource? e.value.spelled =
    (sourceComputation? e.computation.value.spelled).map fun c => { e with computation := c } := by
  cases hc : sourceComputation? e.computation.value.spelled <;>
    simp [ofSource?,ofRecord?,value,Value.spelled,Json.fieldsSpelled,Source.record?,
      Json.Record.required?,Json.Record.part?,sourceText?,Timestamp.read?_zuluText,hc]

lemma storable_of_ofSource? {e : Entry} (h : ofSource? e.value.spelled = some e) :
    e.computation.Storable := by
  rw [ofSource?_spelled] at h
  obtain ⟨c,hc,he⟩ := Option.map_eq_some_iff.mp h
  obtain rfl : c = e.computation := congrArg Entry.computation he
  obtain ⟨v,hv,hc⟩ := Option.bind_eq_some_iff.mp hc
  exact Computation.storable_of_ofValue? hv hc

end Entry

/-- What a file can hold of a list of entries. -/
def Storable (entries : List Entry) : Prop := ∀ e ∈ entries, e.computation.Storable

lemma mapM_ofSource?_itemSources {entries : List Entry} (h : Storable entries) :
    (Json.itemSources (entries.map Entry.value)).mapM Entry.ofSource? = some entries := by
  induction entries with
  | nil => rfl
  | cons e entries ih =>
    simp only [Storable,List.mem_cons,forall_eq_or_imp] at h
    simp [Json.itemSources,Entry.ofSource?_source h.1,ih h.2]

/-- Entries are read back from their text. -/
theorem readEntries?_entriesText {entries : List Entry} (h : Storable entries) :
    readEntries? (entriesText entries) = some entries := by
  have hnumbers : ∀ n ∈ (Value.array (entries.map Entry.value)).numbers, n.ReadsBack := by
    rw [Value.numbers]
    induction entries with
    | nil => simp [Json.itemNumbers]
    | cons e entries ih =>
      simp only [Storable,List.mem_cons,forall_eq_or_imp] at h
      intro n hn
      rcases List.mem_append.mp hn with hn | hn
      · exact Entry.readsBack_of_mem_numbers h.1 n hn
      · exact ih h.2 n hn
  simp [readEntries?,entriesText,Json.read?_text hnumbers,Value.source,
    mapM_ofSource?_itemSources h]

/-- The trees of entries give the entries back exactly if each of them does. -/
lemma mapM_ofSource?_itemsSpelled_iff {entries : List Entry} :
    (Json.itemsSpelled (entries.map Entry.value)).mapM Entry.ofSource? = some entries ↔
      ∀ e ∈ entries, Entry.ofSource? e.value.spelled = some e := by
  rw [Json.itemsSpelled_eq_map,List.map_map]
  exact mapM_map_eq_some_iff

/-- Entries are read back from their text exactly if a file can hold them. -/
theorem readEntries?_entriesText_iff {entries : List Entry} :
    readEntries? (entriesText entries) = some entries ↔ Storable entries := by
  refine ⟨fun h e he => ?_,readEntries?_entriesText⟩
  have hitems : (Json.itemsSpelled (entries.map Entry.value)).mapM Entry.ofSource? = some entries := by
    simpa [readEntries?,entriesText,Source.read?_text,Value.spelled] using h
  exact Entry.storable_of_ofSource? (mapM_ofSource?_itemsSpelled_iff.mp hitems e he)

end Formulary.History
