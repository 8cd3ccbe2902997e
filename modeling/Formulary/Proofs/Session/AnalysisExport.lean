import Formulary.Proofs.Calculus.Finiteness
import Formulary.Proofs.History.Entries
import Formulary.Proofs.Session.LastAnalysis

/-! The export of an analysis. It has a null only for what is undefined, and is read back as the
analysis it was made of, exactly if no step to a padded window or to the tangent leaves the range. -/
namespace Formulary

namespace Calculus
open Decimal

/-- The numbers of an analysis that are given, lie on its grid, or are undefined unless finite. -/
def Analysis.filtered (a : Analysis) : List Float :=
  let p := a.parameters
  [p.xMin,p.xMax,p.x0,p.a,p.b] ++ a.xs ++ a.ys.filterMap id ++ a.value.toList ++ a.slope.toList ++
    a.area.toList

/-- The numbers of an analysis that are computed and kept as they come. -/
def Analysis.unfiltered (a : Analysis) : List Float :=
  [a.window.lo,a.window.hi] ++ a.tangent.getD []

/-- No step to the window or to the tangent, if it is shown, leaves the range. -/
structure Analysis.StaysInRange (settings : Settings) (a : Analysis) : Prop where
  window : PadsInRange settings a.ys
  tangent : a.parameters.showTangent = true → ∀ v d, a.value = some v → a.slope = some d →
    ∀ x ∈ a.xs, ReachesInRange a.parameters.x0 v d x

/-- Carries out one toggle after another. -/
def Analysis.toggles (a : Analysis) (switches : List (Option Bool × Option Bool)) : Analysis :=
  switches.foldl (fun a s => a.toggle s.1 s.2) a

variable {f : Compiled} {p : Parameters} {settings : Settings} {a : Analysis}

lemma isFinite_of_slope? {point step v : Float} (h : f.slope? point step = some v) :
    v.isFinite = true := by
  simp only [Compiled.slope?,bind,Option.bind_eq_some_iff] at h
  obtain ⟨_,-,_,-,h⟩ := h
  exact isFinite_of_finite? h

lemma isFinite_of_area? {a b v : Float} {samples : ℕ} (h : f.area? a b samples = some v) :
    v.isFinite = true := by
  unfold Compiled.area? at h
  split_ifs at h
  exact isFinite_of_finite? h

/-- Any number of toggles give an analysis of the same function with other overlays. -/
lemma analyze_toggles (h : f.analyze p settings = .ok a)
    (switches : List (Option Bool × Option Bool)) :
    ∃ p', f.analyze p' settings = .ok (a.toggles switches) := by
  induction switches generalizing p a with
  | nil => exact ⟨p,h⟩
  | cons s switches ih => exact ih (analyze_toggle h s.1 s.2)

/-- What passes through the filter, and the grid, is finite. -/
theorem isFinite_of_mem_filtered (h : f.analyze p settings = .ok a) (hm : settings.maxPoints ≤ 2 ^ 64) :
    ∀ v ∈ a.filtered, v.isFinite = true := by
  obtain ⟨hpoint,ha,hb,samples,hsample,rfl⟩ := analyze_eq_ok_iff.mp h
  obtain ⟨hlo,hhi,-,-,hpoints,rfl⟩ := sample_eq_ok_iff.mp hsample
  intro v hv
  simp only [Analysis.filtered,Analysis.setTangentVisible,Compiled.plainAnalysis,List.mem_append,
    Option.mem_toList] at hv
  rcases hv with (((((hv | hv) | hv) | hv) | hv) | hv)
  · simp only [List.mem_cons,List.not_mem_nil,or_false] at hv
    rcases hv with rfl | rfl | rfl | rfl | rfl
    · exact hlo
    · exact hhi
    · exact requireFinite_eq_ok_iff.mp hpoint
    · exact requireFinite_eq_ok_iff.mp ha
    · exact requireFinite_eq_ok_iff.mp hb
  · exact isFinite_of_mem_grid hlo hhi (hpoints.trans hm) v hv
  · simp only [List.mem_filterMap,List.mem_map,id_eq,exists_eq_right] at hv
    obtain ⟨x,-,hv⟩ := hv
    exact isFinite_of_finite? hv
  · exact isFinite_of_finite? hv
  · exact isFinite_of_slope? hv
  · exact isFinite_of_area? hv

lemma window_of_analyze (h : f.analyze p settings = .ok a) :
    a.window = Window.ofSamples settings a.ys := by
  obtain ⟨-,-,-,samples,-,rfl⟩ := analyze_eq_ok_iff.mp h
  rfl

lemma tangent_of_analyze (h : f.analyze p settings = .ok a) :
    a.tangent = if a.parameters.showTangent
      then tangentLine? a.xs a.parameters.x0 a.value a.slope else none := by
  obtain ⟨-,-,-,samples,-,rfl⟩ := analyze_eq_ok_iff.mp h
  rfl

/-- The rest is finite exactly if no step leaves the range. -/
theorem isFinite_unfiltered_iff (h : f.analyze p settings = .ok a) (hs : settings.IsFinite)
    (hm : settings.maxPoints ≤ 2 ^ 64) :
    (∀ v ∈ a.unfiltered, v.isFinite = true) ↔ a.StaysInRange settings := by
  have hfiltered := isFinite_of_mem_filtered h hm
  have hxs : ∀ x ∈ a.xs, x.isFinite = true := fun x hx => hfiltered x (by simp [Analysis.filtered,hx])
  have hys : ∀ y, some y ∈ a.ys → y.isFinite = true := fun y hy =>
    hfiltered y (by simp [Analysis.filtered,hy])
  have hpoint : a.parameters.x0.isFinite = true := hfiltered _ (by simp [Analysis.filtered])
  have hvalue : ∀ v, a.value = some v → v.isFinite = true := fun v hv =>
    hfiltered v (by simp [Analysis.filtered,hv])
  have hslope : ∀ d, a.slope = some d → d.isFinite = true := fun d hd =>
    hfiltered d (by simp [Analysis.filtered,hd])
  rw [Analysis.unfiltered,window_of_analyze h,tangent_of_analyze h]
  simp only [List.cons_append,List.nil_append,List.forall_mem_cons]
  rw [← and_assoc,isFinite_ofSamples hs hys]
  cases hshown : a.parameters.showTangent with
  | false =>
    constructor
    · exact fun h => ⟨h.1,fun ht => absurd ht (by simp [hshown])⟩
    · exact fun h => ⟨h.window,by simp⟩
  | true =>
    rw [if_pos rfl,isFinite_tangentLine hxs hpoint hvalue hslope]
    constructor
    · exact fun h => ⟨h.1,fun _ => h.2⟩
    · exact fun h => ⟨h.window,h.tangent hshown⟩

end Calculus

namespace Json

mutual

/-- How many nulls a value holds. -/
def Value.nulls : Value → ℕ
  | .null => 1
  | .array items => itemNulls items
  | .object fields => fieldNulls fields
  | _ => 0

def itemNulls : List Value → ℕ
  | [] => 0
  | v :: rest => v.nulls + itemNulls rest

def fieldNulls : List (String × Value) → ℕ
  | [] => 0
  | (_,v) :: rest => v.nulls + fieldNulls rest

end

/-- A value is read back from its text if its numbers are. -/
lemma Value.read?_text {v : Value} (h : ∀ n ∈ v.numbers, n.ReadsBack) (hd : v.depth ≤ deepest)
    (form : Form) : Value.read? (v.text form) = some v := by
  simp [Value.read?,Json.read?_text h form,v.value?_source deepest hd]

end Json

namespace Session
open Calculus
open Json (Value Record)

/-! Nulls -/

/-- The numbers of an analysis that are not finite. -/
def notFinite (vs : List Float) : ℕ := vs.countP fun v => !v.isFinite

/-- The marks of an analysis that something is undefined. -/
def undefinedMarks (a : Analysis) : ℕ :=
  a.ys.countP Option.isNone + [a.value,a.slope,a.area].countP Option.isNone +
    (if a.tangent.isNone then 1 else 0)

lemma notFinite_append (vs ws : List Float) : notFinite (vs ++ ws) = notFinite vs + notFinite ws :=
  List.countP_append

lemma notFinite_eq_zero_iff {vs : List Float} : notFinite vs = 0 ↔ ∀ v ∈ vs, v.isFinite = true := by
  simp [notFinite,List.countP_eq_zero]

lemma nulls_float (v : Float) : (Value.float v).nulls = notFinite [v] := by
  unfold Value.float
  split_ifs with h <;> simp [Value.nulls,notFinite,h]

lemma itemNulls_floats (vs : List Float) : Json.itemNulls (vs.map Value.float) = notFinite vs := by
  induction vs with
  | nil => rfl
  | cons v vs ih => rw [List.map_cons,Json.itemNulls,nulls_float,ih,← notFinite_append,List.singleton_append]

lemma nulls_option (o : Option Float) :
    (Value.option .float o).nulls = (if o.isNone then 1 else 0) + notFinite o.toList := by
  cases o with
  | none => rfl
  | some v => simp [Value.option,nulls_float]

lemma itemNulls_options (os : List (Option Float)) :
    Json.itemNulls (os.map (Value.option .float)) =
      os.countP Option.isNone + notFinite (os.filterMap id) := by
  induction os with
  | nil => rfl
  | cons o os ih =>
    have hdefined : (o :: os).filterMap id = o.toList ++ os.filterMap id := by cases o <;> rfl
    rw [List.map_cons,Json.itemNulls,nulls_option,ih,hdefined,notFinite_append,List.countP_cons]
    omega

/-- An export holds a null for each mark and for each number that is not finite. -/
theorem nulls_analysisValue (a : Analysis) :
    (analysisValue a).nulls = undefinedMarks a + notFinite (a.filtered ++ a.unfiltered) := by
  have htangent : (Value.option numbersValue a.tangent).nulls =
      (if a.tangent.isNone then 1 else 0) + notFinite (a.tangent.getD []) := by
    cases a.tangent with
    | none => rfl
    | some vs => simp [Value.option,numbersValue,Value.nulls,itemNulls_floats]
  simp only [analysisValue,parametersValue,windowValue,numbersValue,Value.nulls,Json.fieldNulls,
    nulls_float,nulls_option,itemNulls_floats,itemNulls_options,htangent,Value.natural,
    undefinedMarks,Analysis.filtered,Analysis.unfiltered,notFinite_append]
  simp only [notFinite,List.countP_cons,List.countP_nil]
  omega

/-! Reading back -/

lemma numbers_float_subset (v : Float) (ns : List Json.Number) :
    (Value.float v).numbers ⊆ .float v :: ns := by
  unfold Value.float
  split_ifs <;> simp [Value.numbers]

lemma itemNumbers_floats_subset (vs : List Float) :
    Json.itemNumbers (vs.map Value.float) ⊆ vs.map .float := by
  induction vs with
  | nil => simp [Json.itemNumbers]
  | cons v vs ih =>
    rw [List.map_cons,Json.itemNumbers,List.map_cons]
    exact List.append_subset.mpr ⟨numbers_float_subset v _,List.subset_cons_of_subset _ ih⟩

lemma numbers_option_subset (o : Option Float) :
    (Value.option .float o).numbers ⊆ o.toList.map .float := by
  cases o with
  | none => simp [Value.option,Value.numbers]
  | some v => exact numbers_float_subset v []

lemma itemNumbers_options_subset (os : List (Option Float)) :
    Json.itemNumbers (os.map (Value.option .float)) ⊆ (os.filterMap id).map .float := by
  induction os with
  | nil => simp [Json.itemNumbers]
  | cons o os ih =>
    have hdefined : (o :: os).filterMap id = o.toList ++ os.filterMap id := by cases o <;> rfl
    rw [List.map_cons,Json.itemNumbers,hdefined,List.map_append]
    exact List.append_subset.mpr ⟨List.subset_append_of_subset_left _ (numbers_option_subset o),
      List.subset_append_of_subset_right _ ih⟩

/-- The numbers of an export are the count of its points and numbers of the analysis. -/
lemma numbers_analysisValue_subset (a : Analysis) : (analysisValue a).numbers ⊆
    .natural a.parameters.points :: (a.filtered ++ a.unfiltered).map .float := by
  have htangent : (Value.option numbersValue a.tangent).numbers ⊆ (a.tangent.getD []).map .float := by
    cases a.tangent with
    | none => simp [Value.option,Value.numbers]
    | some vs => simpa [Value.option,numbersValue,Value.numbers] using itemNumbers_floats_subset vs
  intro n hn
  have hxs := @itemNumbers_floats_subset a.xs n
  have hys := @itemNumbers_options_subset a.ys n
  have hv := @numbers_option_subset a.value n
  have hd := @numbers_option_subset a.slope n
  have ha := @numbers_option_subset a.area n
  have hone := fun v => @numbers_float_subset v [] n
  have ht := @htangent n
  simp only [List.mem_singleton] at hone
  simp only [analysisValue,parametersValue,windowValue,numbersValue,Value.numbers,Json.fieldNumbers,
    Value.natural,List.mem_append,List.mem_cons,List.not_mem_nil,or_false,false_or] at hn
  simp only [Analysis.filtered,Analysis.unfiltered,List.map_append,List.map_cons,List.map_nil,
    List.mem_append,List.mem_cons,List.not_mem_nil,or_false]
  grind

/-- A part that is a list of numbers. -/
def toFloats? : Value → Option (List Float)
  | .array items => items.mapM Value.toFloat?
  | _ => none

/-- A part that is a list of numbers some of which are undefined. -/
def toSamples? : Value → Option (List (Option Float))
  | .array items => items.mapM (Value.toOption? Value.toFloat?)
  | _ => none

def toParameters? (v : Value) : Option Parameters := do
  let r ← v.record? 8
  return ⟨← r.required? 0 "xMin" Value.toFloat?,← r.required? 1 "xMax" Value.toFloat?,
    ← r.required? 2 "points" Value.toCount?,← r.required? 3 "x0" Value.toFloat?,
    ← r.required? 4 "a" Value.toFloat?,← r.required? 5 "b" Value.toFloat?,
    ← r.required? 6 "showTangent" Value.toBool?,← r.required? 7 "showArea" Value.toBool?⟩

def toWindow? (v : Value) : Option Window := do
  let r ← v.record? 2
  return ⟨← r.required? 0 "min" Value.toFloat?,← r.required? 1 "max" Value.toFloat?⟩

/-- The analysis that a value denotes, read part by part. -/
def toAnalysis? (v : Value) : Option Analysis := do
  let r ← v.record? 9
  return ⟨← r.required? 0 "expression" Value.toString?,← r.required? 1 "params" toParameters?,
    ← r.required? 2 "xs" toFloats?,← r.required? 3 "ys" toSamples?,
    ← r.optional? 4 "value" (Value.toOption? Value.toFloat?),
    ← r.optional? 5 "derivative" (Value.toOption? Value.toFloat?),
    ← r.optional? 6 "integral" (Value.toOption? Value.toFloat?),← r.required? 7 "range" toWindow?,
    ← r.optional? 8 "tangent" (Value.toOption? toFloats?)⟩

lemma toFloat?_float (v : Float) : (Value.float v).toFloat? = finite? v := by
  unfold Value.float finite?
  split_ifs <;> rfl

lemma mapM_toFloat? (vs : List Float) :
    (vs.map Value.float).mapM Value.toFloat? = if vs.all Float.isFinite then some vs else none := by
  induction vs with
  | nil => rfl
  | cons v vs ih =>
    rw [List.map_cons,List.mapM_cons,ih,toFloat?_float,finite?,List.all_cons]
    cases v.isFinite <;> cases vs.all Float.isFinite <;> rfl

/-- What is defined is read back if it is finite. -/
lemma toOption?_float {o : Option Float} (h : ∀ v, o = some v → v.isFinite = true) :
    (Value.option .float o).toOption? Value.toFloat? = some o := by
  cases o with
  | none => rfl
  | some v =>
    have hv : Value.float v = .number (.float v) := if_pos (h v rfl)
    rw [Value.option,hv]
    rfl

lemma mapM_toOption? {os : List (Option Float)} (h : ∀ v, some v ∈ os → v.isFinite = true) :
    (os.map (Value.option .float)).mapM (Value.toOption? Value.toFloat?) = some os := by
  induction os with
  | nil => rfl
  | cons o os ih =>
    rw [List.map_cons,List.mapM_cons,ih fun v hv => h v (List.mem_cons_of_mem _ hv),
      toOption?_float fun v hv => h v (hv ▸ List.mem_cons_self)]
    rfl

lemma toParameters?_parametersValue {p : Parameters} (hp : p.points < Nat.pow 2 64)
    (hf : ∀ v ∈ [p.xMin,p.xMax,p.x0,p.a,p.b], v.isFinite = true) :
    toParameters? (parametersValue p) = some p := by
  simp only [List.mem_cons,List.not_mem_nil,or_false,forall_eq_or_imp,forall_eq] at hf
  simp [toParameters?,parametersValue,Value.record?,Record.required?,Record.part?,toFloat?_float,
    finite?,hf,History.Computation.toCount?_natural hp,Value.toBool?]

lemma toWindow?_windowValue (w : Window) :
    toWindow? (windowValue w) = if w.lo.isFinite && w.hi.isFinite then some w else none := by
  simp only [toWindow?,windowValue,Value.record?,Record.required?,Record.part?]
  cases hlo : w.lo.isFinite <;> cases hhi : w.hi.isFinite <;> simp [toFloat?_float,finite?,hlo,hhi]

lemma toFloats?_numbersValue (vs : List Float) :
    toFloats? (numbersValue vs) = if vs.all Float.isFinite then some vs else none :=
  mapM_toFloat? vs

lemma toTangent?_value (t : Option (List Float)) :
    (Value.option numbersValue t).toOption? toFloats? =
      if (t.getD []).all Float.isFinite then some t else none := by
  cases t with
  | none => rfl
  | some vs =>
    change (toFloats? (numbersValue vs)).map some = _
    rw [toFloats?_numbersValue,Option.getD_some]
    split_ifs <;> rfl

/-- An analysis is read back from its value if all its numbers are finite, and else is not. -/
theorem toAnalysis?_analysisValue {a : Analysis} (hp : a.parameters.points < Nat.pow 2 64)
    (hf : ∀ v ∈ a.filtered, v.isFinite = true) :
    toAnalysis? (analysisValue a) = some a ↔ ∀ v ∈ a.unfiltered, v.isFinite = true := by
  have hparameters : toParameters? (parametersValue a.parameters) = some a.parameters :=
    toParameters?_parametersValue hp fun v hv => hf v (by simp [Analysis.filtered] at hv ⊢; tauto)
  have hxs : toFloats? (numbersValue a.xs) = some a.xs := by
    rw [toFloats?_numbersValue,if_pos]
    exact List.all_eq_true.mpr fun x hx => hf x (by simp [Analysis.filtered,hx])
  have hys : toSamples? (.array (a.ys.map (.option .float))) = some a.ys :=
    mapM_toOption? fun y hy => hf y (by simp [Analysis.filtered,hy])
  have hvalue := toOption?_float (o := a.value) fun v hv => hf v (by simp [Analysis.filtered,hv])
  have hslope := toOption?_float (o := a.slope) fun v hv => hf v (by simp [Analysis.filtered,hv])
  have harea := toOption?_float (o := a.area) fun v hv => hf v (by simp [Analysis.filtered,hv])
  -- only the range and the tangent may fail to be read
  have hparts : toAnalysis? (analysisValue a) =
      (toWindow? (windowValue a.window)).bind fun window =>
        ((Value.option numbersValue a.tangent).toOption? toFloats?).map fun tangent =>
          { a with window := window, tangent := tangent } := by
    simp only [toAnalysis?,analysisValue,Value.record?]
    simp [Record.required?,Record.optional?,Record.part?,hparameters,hxs,hys,hvalue,hslope,harea,
      Value.toString?,Option.map_eq_bind]
  have hread : toAnalysis? (analysisValue a) =
      if (a.window.lo.isFinite && a.window.hi.isFinite) && (a.tangent.getD []).all Float.isFinite
      then some a else none := by
    rw [hparts,toWindow?_windowValue,toTangent?_value]
    cases a.window.lo.isFinite && a.window.hi.isFinite <;>
      cases (a.tangent.getD []).all Float.isFinite <;> rfl
  rw [hread]
  simp [Analysis.unfiltered]

lemma depth_float (v : Float) : (Value.float v).depth = 0 := by
  unfold Value.float
  split_ifs <;> rfl

lemma itemsDepth_eq_zero {items : List Value} (h : ∀ v ∈ items, v.depth = 0) :
    Json.itemsDepth items = 0 := by
  induction items with
  | nil => rfl
  | cons v items ih =>
    rw [Json.itemsDepth,h v List.mem_cons_self,ih fun w hw => h w (List.mem_cons_of_mem _ hw)]
    rfl

lemma depth_numbersValue (vs : List Float) : (numbersValue vs).depth = 1 := by
  rw [numbersValue,Value.depth,itemsDepth_eq_zero]
  simp [depth_float]

/-- An analysis is one object of records and lists. -/
lemma depth_analysisValue (a : Analysis) : (analysisValue a).depth ≤ Json.deepest := by
  have hoption (o : Option Float) : (Value.option .float o).depth = 0 := by
    cases o with
    | none => rfl
    | some v => exact depth_float v
  have hys : Json.itemsDepth (a.ys.map (.option .float)) = 0 :=
    itemsDepth_eq_zero (by simp [hoption])
  have htangent : (Value.option numbersValue a.tangent).depth ≤ 1 := by
    cases a.tangent with
    | none => exact Nat.zero_le 1
    | some vs => exact (depth_numbersValue vs).le
  simp [analysisValue,parametersValue,windowValue,Value.depth,Json.fieldsDepth,hoption,hys,
    depth_numbersValue,depth_float,Value.natural,Json.deepest]
  omega

/-! The export -/

/-- Reads an exported text as an analysis. -/
def readAnalysis? (text : String) : Option Analysis := do
  toAnalysis? (← Value.read? text)

lemma points_of_analyze {f : Compiled} {p : Parameters} {settings : Settings} {a : Analysis}
    (h : f.analyze p settings = .ok a) : a.parameters.points ≤ settings.maxPoints := by
  obtain ⟨-,-,-,samples,hsample,rfl⟩ := analyze_eq_ok_iff.mp h
  obtain ⟨-,-,-,-,hpoints,-⟩ := sample_eq_ok_iff.mp hsample
  exact hpoints

/-- After any toggles, an analysis is finite where it passes the filter. What does not pass it is
finite exactly if no step leaves the range, and exactly then the export has no null but the marks of
what is undefined and is read back as the analysis, if each of its numbers is read back by itself. -/
theorem export_iff_staysInRange {f : Compiled} {p : Parameters} {settings : Settings} {a : Analysis}
    (h : f.analyze p settings = .ok a) (hs : settings.IsFinite) (hm : settings.maxPoints < 2 ^ 64)
    (switches : List (Option Bool × Option Bool)) :
    (∀ v ∈ (a.toggles switches).filtered, v.isFinite = true) ∧
    ((∀ v ∈ (a.toggles switches).unfiltered, v.isFinite = true) ↔
      (a.toggles switches).StaysInRange settings) ∧
    ((analysisValue (a.toggles switches)).nulls = undefinedMarks (a.toggles switches) ↔
      (a.toggles switches).StaysInRange settings) ∧
    ((∀ n ∈ (analysisValue (a.toggles switches)).numbers, n.ReadsBack) →
      (readAnalysis? ((analysisValue (a.toggles switches)).text .pretty) = some (a.toggles switches) ↔
        (a.toggles switches).StaysInRange settings)) := by
  obtain ⟨p',h'⟩ := analyze_toggles h switches
  generalize a.toggles switches = b at h' ⊢
  have hfiltered := isFinite_of_mem_filtered h' hm.le
  have hunfiltered := isFinite_unfiltered_iff h' hs hm.le
  refine ⟨hfiltered,hunfiltered,?_,fun hnumbers => ?_⟩
  · rw [nulls_analysisValue,notFinite_append,notFinite_eq_zero_iff.mpr hfiltered,← hunfiltered,
      ← notFinite_eq_zero_iff]
    omega
  · have hread : readAnalysis? ((analysisValue b).text .pretty) = toAnalysis? (analysisValue b) := by
      rw [readAnalysis?,Value.read?_text hnumbers (depth_analysisValue b)]
      rfl
    rw [hread,toAnalysis?_analysisValue ((points_of_analyze h').trans_lt hm) hfiltered,hunfiltered]

/-- Areas from three points, and the rest as usual. -/
def coarseSettings : Settings := { Settings.standard with integralSamples := 3 }

/-- A curve from -1 to 1, with its tangent hidden at first. -/
def hiddenParameters : Parameters := ⟨-1,1,3,0,0,1,false,false⟩

/-- A constant stays in range when its tangent is shown, and its export is read back. -/
theorem export_iff_of_constant :
    ∃ f a, Compiled.ofText "1" = .ok f ∧ f.analyze hiddenParameters coarseSettings = .ok a ∧
      coarseSettings.IsFinite ∧ coarseSettings.maxPoints < 2 ^ 64 ∧
      (a.toggles [(some true,none)]).StaysInRange coarseSettings ∧
      (∀ n ∈ (analysisValue (a.toggles [(some true,none)])).numbers, n.ReadsBack) ∧
      readAnalysis? ((analysisValue (a.toggles [(some true,none)])).text .pretty) =
        some (a.toggles [(some true,none)]) := by
  have hshown : ((Compiled.ofText "1").toOption.any fun f =>
      (f.analyze hiddenParameters coarseSettings).toOption.any fun a =>
        (a.toggles [(some true,none)]).unfiltered.all Float.isFinite &&
        ((a.toggles [(some true,none)]).filtered ++ (a.toggles [(some true,none)]).unfiltered).all
          fun v => decide (Json.Number.float v).ReadsBack) = true := by
    decide +kernel
  obtain ⟨f,hf,hshown⟩ := any_toOption_iff.mp hshown
  obtain ⟨a,ha,hshown⟩ := any_toOption_iff.mp hshown
  simp only [Bool.and_eq_true,List.all_eq_true,decide_eq_true_eq] at hshown
  obtain ⟨hfinite,hfloats⟩ := hshown
  have hs : coarseSettings.IsFinite := by constructor <;> decide
  have hm : coarseSettings.maxPoints < 2 ^ 64 := by decide
  have hnumbers : ∀ n ∈ (analysisValue (a.toggles [(some true,none)])).numbers, n.ReadsBack := by
    intro n hn
    rcases List.mem_cons.mp (numbers_analysisValue_subset _ hn) with rfl | hn
    · obtain ⟨p,hp⟩ := analyze_toggles ha [(some true,none)]
      exact Json.readsBack_natural_iff.mpr ((points_of_analyze hp).trans_lt hm)
    · obtain ⟨v,hv,rfl⟩ := List.mem_map.mp hn
      exact hfloats v hv
  obtain ⟨-,hrange,-,hread⟩ := export_iff_staysInRange ha hs hm [(some true,none)]
  have hstays := hrange.mp hfinite
  exact ⟨f,a,hf,ha,hs,hm,hstays,hnumbers,(hread hnumbers).mpr hstays⟩

/-- A constant over nearly the whole range, with its tangent at the upper end. -/
def farParameters : Parameters := ⟨-1.7e308,1.7e308,2,1.7e308,0,1,true,false⟩

/-- The usual configuration, but any grid will do that holds both ends. -/
def twoPointConfig : Config := { Config.standard with leastPoints := 2 }

/-- The offset of the first point of its tangent leaves the range, and the export has a null there. -/
theorem not_isFinite_farParameters :
    ∃ l, analysedOf twoPointConfig "1" farParameters = .ok l ∧ twoPointConfig.settings.IsFinite ∧
      ¬(∀ v ∈ l.analysis.unfiltered, v.isFinite = true) ∧
      (analysisValue l.analysis).nulls ≠ undefinedMarks l.analysis := by
  have hleaves : ((analysedOf twoPointConfig "1" farParameters).toOption.any fun l =>
      !l.analysis.unfiltered.all Float.isFinite) = true := by decide +kernel
  obtain ⟨l,hl,hleaves⟩ := any_toOption_iff.mp hleaves
  have hfinite : ¬∀ v ∈ l.analysis.unfiltered, v.isFinite = true := by simpa using hleaves
  refine ⟨l,hl,by constructor <;> decide,hfinite,fun hnulls => hfinite ?_⟩
  rw [nulls_analysisValue] at hnulls
  have hall := notFinite_eq_zero_iff.mp (Nat.add_eq_left.mp hnulls)
  exact fun v hv => hall v (List.mem_append_right _ hv)

end Session
end Formulary
