import Formulary.Proofs.Calculus.Parsing
import Formulary.Proofs.Outcome
import Formulary.Proofs.Session.Commands
import Formulary.Proofs.Text.Trimming

/-! The last analysis of a session. It is always the one that its expression and its parameters give
when they are analysed anew, so switching overlays shows nothing that a new analysis would not. -/
namespace Formulary

namespace Calculus

lemma source_of_compile {text : String} {f : Compiled} (h : compile text = .ok f) :
    f.source = trimmed text ∧ (trimmed text).isEmpty = false := by
  obtain ⟨hne,ts,e,-,-,rfl⟩ := compile_eq_ok_iff.mp h
  exact ⟨rfl,by simpa using hne⟩

lemma ofText_eq_ok_iff {text : String} {f : Compiled} :
    Compiled.ofText text = .ok f ↔ compile text = .ok f := by
  unfold Compiled.ofText
  cases compile text <;> simp

lemma requireFinite_eq_ok_iff {name : String} {v : Float} {u : Unit} :
    requireFinite name v = .ok u ↔ v.isFinite = true := by
  unfold requireFinite
  split_ifs <;> simp_all

/-- A grid is made exactly between finite bounds in order, and of an admitted size. -/
lemma requireGrid_eq_ok_iff {lo hi : Float} {points : ℕ} {settings : Settings} {u : Unit} :
    requireGrid lo hi points settings = .ok u ↔ lo.isFinite = true ∧ hi.isFinite = true ∧ ¬hi ≤ lo ∧
      leastPoints ≤ points ∧ points ≤ settings.maxPoints := by
  simp only [requireGrid,bind,bind_eq_ok_iff,requireFinite_eq_ok_iff,exists_const]
  refine and_congr_right fun _ => and_congr_right fun _ => ?_
  by_cases hempty : hi ≤ lo
  · simp [hempty,throw,throwThe,MonadExceptOf.throw,Except.bind]
  by_cases hcount : points < leastPoints ∨ settings.maxPoints < points
  · have hout (hl : leastPoints ≤ points) : settings.maxPoints < points := by omega
    simpa [hempty,hcount,throw,throwThe,MonadExceptOf.throw,Except.bind] using hout
  · have hin : leastPoints ≤ points ∧ points ≤ settings.maxPoints := by omega
    simp [hempty,hcount,hin,pure,Except.pure]

/-- A function is sampled exactly where its grid is made. -/
lemma sample_eq_ok_iff {f : Compiled} {lo hi : Float} {points : ℕ} {settings : Settings}
    {samples : Samples} : f.sample lo hi points settings = .ok samples ↔
      lo.isFinite = true ∧ hi.isFinite = true ∧ ¬hi ≤ lo ∧ leastPoints ≤ points ∧
        points ≤ settings.maxPoints ∧
        ⟨grid Float.ofNat lo hi points,(grid Float.ofNat lo hi points).map f.value?⟩ = samples := by
  simp only [Compiled.sample,bind,bind_eq_ok_iff,requireGrid_eq_ok_iff,exists_const,and_assoc]
  simp [pure,Except.pure,Compiled.samplesOn]

/-- The parameters with the overlays switched as told. -/
def Parameters.toggle (p : Parameters) (tangent shaded : Option Bool) : Parameters :=
  { p with showTangent := tangent.getD p.showTangent, showArea := shaded.getD p.showArea }

/-- The analysis before any tangent is drawn. -/
def Compiled.plainAnalysis (f : Compiled) (p : Parameters) (settings : Settings) (samples : Samples) :
    Analysis where
  expression := f.source
  parameters := p
  xs := samples.xs
  ys := samples.ys
  value := f.value? p.x0
  slope := f.slope? p.x0 settings.derivativeStep
  area := f.area? p.a p.b settings.integralSamples
  window := Window.ofSamples settings samples.ys
  tangent := none

lemma analyze_eq_ok_iff {f : Compiled} {p : Parameters} {settings : Settings} {a : Analysis} :
    f.analyze p settings = .ok a ↔ requireFinite "x0" p.x0 = .ok () ∧ requireFinite "a" p.a = .ok () ∧
      requireFinite "b" p.b = .ok () ∧ ∃ samples, f.sample p.xMin p.xMax p.points settings = .ok samples ∧
        (f.plainAnalysis p settings samples).setTangentVisible p.showTangent = a := by
  simp [Compiled.analyze,bind,bind_eq_ok_iff,pure,Except.pure,Compiled.plainAnalysis,
    Unique.exists_iff]

lemma expression_of_analyze {f : Compiled} {p : Parameters} {settings : Settings} {a : Analysis}
    (h : f.analyze p settings = .ok a) : a.expression = f.source := by
  obtain ⟨-,-,-,samples,-,rfl⟩ := analyze_eq_ok_iff.mp h
  rfl

lemma parameters_of_analyze {f : Compiled} {p : Parameters} {settings : Settings} {a : Analysis}
    (h : f.analyze p settings = .ok a) : a.parameters = p := by
  obtain ⟨-,-,-,samples,-,rfl⟩ := analyze_eq_ok_iff.mp h
  rfl

lemma expression_toggle (a : Analysis) (tangent shaded : Option Bool) :
    (a.toggle tangent shaded).expression = a.expression := by
  cases tangent <;> cases shaded <;> rfl

lemma parameters_toggle (a : Analysis) (tangent shaded : Option Bool) :
    (a.toggle tangent shaded).parameters = a.parameters.toggle tangent shaded := by
  cases tangent <;> cases shaded <;> rfl

/-- Switching overlays of an analysis gives what an analysis with those overlays gives. -/
theorem analyze_toggle {f : Compiled} {p : Parameters} {settings : Settings} {a : Analysis}
    (h : f.analyze p settings = .ok a) (tangent shaded : Option Bool) :
    f.analyze (p.toggle tangent shaded) settings = .ok (a.toggle tangent shaded) := by
  obtain ⟨hx,ha,hb,samples,hs,rfl⟩ := analyze_eq_ok_iff.mp h
  refine analyze_eq_ok_iff.mpr ⟨hx,ha,hb,samples,hs,?_⟩
  cases tangent <;> cases shaded <;> rfl

end Calculus

namespace Session
open Calculus

/-- An analysis that is what its own expression and parameters give under a configuration. -/
structure Analysed.IsFresh (l : Analysed) (config : Config) : Prop where
  compiled : Compiled.ofText l.analysis.expression = .ok l.function
  admitted : requireParameters config.leastPoints config.mostPoints l.analysis.parameters = .ok ()
  analyzed : l.function.analyze l.analysis.parameters config.settings = .ok l.analysis

/-- The computation of the analysed function with its overlays switched as told. -/
def Analysed.switched (l : Analysed) (tangent shaded : Option Bool) : History.Computation :=
  .function l.analysis.expression (l.analysis.parameters.toggle tangent shaded)

lemma requireParameters_toggle (least greatest : ℕ) (p : Parameters) (tangent shaded : Option Bool) :
    requireParameters least greatest (p.toggle tangent shaded) = requireParameters least greatest p :=
  rfl

lemma requireText_eq_ok_iff {field raw text : String} :
    requireText field raw = .ok text ↔ (trimmed raw).isEmpty = false ∧ text = trimmed raw := by
  cases h : (trimmed raw).isEmpty <;> simp [requireText,h,eq_comm]

/-- An analysis of an expression is one that is fresh, has these parameters, and has the expression
without the blanks around it. -/
lemma analysedOf_eq_ok_iff {config : Config} {expression : String} {p : Parameters} {l : Analysed} :
    analysedOf config expression p = .ok l ↔ (trimmed expression).isEmpty = false ∧
      l.IsFresh config ∧ l.analysis.expression = trimmed expression ∧ l.analysis.parameters = p := by
  simp only [analysedOf,bind,bind_eq_ok_iff,mapError_eq_ok_iff,requireText_eq_ok_iff]
  constructor
  · rintro ⟨_,⟨hne,rfl⟩,_,hp,f,hf,a,ha,hl⟩
    cases hl
    have he : a.expression = trimmed expression := by
      rw [expression_of_analyze ha,(source_of_compile (ofText_eq_ok_iff.mp hf)).1,trimmed_trimmed]
    obtain rfl := parameters_of_analyze ha
    exact ⟨hne,⟨he.symm ▸ hf,hp,ha⟩,he,rfl⟩
  · rintro ⟨hne,h,he,rfl⟩
    exact ⟨_,⟨hne,rfl⟩,(),h.admitted,l.function,he ▸ h.compiled,l.analysis,h.analyzed,rfl⟩

/-- A fresh analysis is what its own expression and parameters give. -/
lemma Analysed.IsFresh.analysedOf {config : Config} {l : Analysed} (h : l.IsFresh config) :
    analysedOf config l.analysis.expression l.analysis.parameters = .ok l := by
  obtain ⟨hs,hne⟩ := source_of_compile (ofText_eq_ok_iff.mp h.compiled)
  rw [← expression_of_analyze h.analyzed] at hs
  exact analysedOf_eq_ok_iff.mpr ⟨hne,h,hs,rfl⟩

/-- Switching overlays keeps an analysis fresh. -/
lemma Analysed.IsFresh.toggle {config : Config} {l : Analysed} (h : l.IsFresh config)
    (tangent shaded : Option Bool) :
    Analysed.IsFresh ⟨l.function,l.analysis.toggle tangent shaded⟩ config where
  compiled := by
    rw [expression_toggle]
    exact h.compiled
  admitted := by
    rw [parameters_toggle,requireParameters_toggle]
    exact h.admitted
  analyzed := by
    rw [parameters_toggle]
    exact analyze_toggle h.analyzed tangent shaded

/-- Only functions are answered by an analysis. -/
lemma isFresh_of_answerTo {config : Config} {c : History.Computation} {l : Analysed}
    (h : answerTo config c = .ok (.analysis l)) : l.IsFresh config := by
  cases c with
  | function expression p =>
    obtain ⟨l',hl,he⟩ := map_eq_ok_iff.mp h
    cases he
    exact (analysedOf_eq_ok_iff.mp hl).2.1
  | _ =>
    obtain ⟨_,-,he⟩ := map_eq_ok_iff.mp h
    cases he

namespace State
variable {path : String} {r r' : Files.Reading} {s s' : State} {o : Occasion} {q : Request}

/-- The last analysis of a session, if there is one, is fresh. -/
def LastIsFresh (s : State) : Prop := ∀ l, s.last = some l → l.IsFresh s.config

lemma lastIsFresh_start (config : Config) (history : History.Store) :
    (start config history).LastIsFresh := by
  intro l h
  cases h

lemma LastIsFresh.record (h : s.LastIsFresh) (c : History.Computation) :
    (s.record c.kind (answerTo s.config c)).LastIsFresh := by
  intro l hl
  rw [record_config]
  unfold State.record at hl
  split at hl
  · rename_i l' ha
    cases hl
    exact isFresh_of_answerTo ha
  · exact h l hl
  · split at hl
    · cases hl
    · exact h l hl

/-- Serving a request keeps the last analysis fresh. -/
lemma LastIsFresh.served (h : s.LastIsFresh) (hs : Served path s o r q s' r') : s'.LastIsFresh := by
  cases hs with
  | computed q c => exact h.record c
  | rejected form => exact fun l hl => absurd hl (by simp)
  | switched tangent shaded l hl =>
    rintro _ ⟨⟩
    exact (h l hl).toggle tangent shaded
  | saved c a n hc hw => exact hc ▸ h.record c
  | _ => exact h

/-- So does any number of commands. -/
theorem LastIsFresh.commands {admits : Occasion → Invocation → Prop} (h : s.LastIsFresh)
    (hc : Commands path admits (s,r) (s',r')) : s'.LastIsFresh ∧ s'.config = s.config := by
  refine hc.keeps (fun t _ => t.LastIsFresh ∧ t.config = s.config) ?_ ⟨h,rfl⟩
  rintro t r o i q t' r' - - hs ⟨ht,hconfig⟩
  exact ⟨ht.served hs,hs.config_eq.trans hconfig⟩

/-- Switching overlays answers what a new analysis with those overlays answers, and leaves the same
last analysis. -/
def OverlaysAsAnew (s : State) (l : Analysed) : Prop :=
  ∀ tangent shaded,
    (∃ shown, (s.compute (l.switched tangent shaded)).outcome = .ok (.analysis shown)) ∧
    (s.overlay tangent shaded).outcome = (s.compute (l.switched tangent shaded)).outcome ∧
    (s.overlay tangent shaded).state.last = (s.compute (l.switched tangent shaded)).state.last

lemma LastIsFresh.overlaysAsAnew (h : s.LastIsFresh) {l : Analysed} (hl : s.last = some l) :
    s.OverlaysAsAnew l := by
  intro tangent shaded
  have ha := ((h l hl).toggle tangent shaded).analysedOf
  rw [expression_toggle,parameters_toggle] at ha
  have hc : answerTo s.config (l.switched tangent shaded) =
      .ok (.analysis ⟨l.function,l.analysis.toggle tangent shaded⟩) := map_eq_ok_iff.mpr ⟨_,ha,rfl⟩
  refine ⟨⟨_,hc⟩,?_,?_⟩
  · simp [compute,hc,overlay,hl]
  · simp [compute,hc,overlay,hl,State.record]

/-- After any number of commands, the last analysis is the one that its expression and parameters
give anew, and so is each that switching its overlays gives. -/
theorem isFresh_last_of_commands {config : Config} {history : History.Store} {path : String}
    {r r' : Files.Reading} {s : State} {l : Analysed}
    (h : Commands path (fun _ _ => True) (start config history,r) (s,r')) (hl : s.last = some l) :
    l.IsFresh config ∧ s.OverlaysAsAnew l := by
  obtain ⟨hs,hconfig⟩ := (lastIsFresh_start config history).commands h
  have hl' : l.IsFresh s.config := hs l hl
  rw [hconfig] at hl'
  exact ⟨hl',hs.overlaysAsAnew hl⟩

/-- The square from -1 to 1, with the point at 1/2 and no overlays. -/
def squareForm : AnalysisForm := ⟨"x^2","-1","1","80","0.5","0","1",false,false⟩

/-- The state after the square is analysed and its tangent is shown. -/
def afterSquare : State :=
  (((start .standard .inMemory).analyze squareForm).state.overlay (some true) none).state

lemma commands_afterSquare (path : String) (r : Files.Reading) :
    Commands path (fun _ _ => True) (start .standard .inMemory,r) (afterSquare,r) := by
  let o : Occasion := ⟨"square",⟨⟨1970,1,1⟩,0,0,by decide⟩⟩
  have analyzed : Command path (fun _ _ => True) (start .standard .inMemory,r)
      (((start .standard .inMemory).analyze squareForm).state,r) :=
    ⟨o,⟨"analyze_function",.object [("expression",.string "x^2"),("xMin",.string "-1"),
      ("xMax",.string "1"),("points",.string "80"),("x0",.string "0.5"),("a",.string "0"),
      ("b",.string "1")]⟩,_,trivial,
      runs_dispatch_of_serve (q := .analyze squareForm) rfl (by simp [serve]; rfl),rfl⟩
  refine .tail (.single analyzed) ⟨o,⟨"update_function_overlays",
    .object [("showTangent",.bool true)]⟩,_,trivial,
    runs_dispatch_of_serve (q := .overlay (some true) none) rfl (by simp [serve]; rfl),rfl⟩

theorem isFresh_last_afterSquare :
    Commands "history.json" (fun _ _ => True) (start .standard .inMemory,.absent)
      (afterSquare,.absent) ∧
    ∃ l, afterSquare.last = some l ∧ l.IsFresh .standard ∧ afterSquare.OverlaysAsAnew l := by
  have h := commands_afterSquare "history.json" .absent
  have hsome : afterSquare.last.isSome = true := by decide +kernel
  obtain ⟨l,hl⟩ := Option.isSome_iff_exists.mp hsome
  exact ⟨h,l,hl,isFresh_last_of_commands h hl⟩

end State
end Session
end Formulary
