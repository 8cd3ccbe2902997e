import Formulary.Proofs.Session.LastAnalysis

/-! What a failed analysis leaves. Once its form has been read, whatever is wrong with it empties the
place of the last analysis, and the place stays empty until another analysis succeeds. A form that
cannot be read at all is no analysis yet, so what was there before stays. -/
namespace Formulary.Session
open Files (Plan Reading)
open Json (Value)

variable {path : String} {r r' : Reading} {s s' : State} {o : Occasion} {q : Request}
  {turn : Turn Value} {args : Value}

namespace State

/-- Serving a request comes to an analysis, be it on the way to an entry that is saved or replayed. -/
def Analyses (s : State) : Request → Prop
  | .compute c | .save c => ∃ l, answerTo s.config c = .ok (.analysis l)
  | .analyze form => ∃ p l, form.parameters s.config = .ok p ∧
      analysedOf s.config form.expression p = .ok l
  | .replay id => ∃ e l, s.entry id = .ok e ∧ answerTo s.config e.computation = .ok (.analysis l)
  | _ => False

/-- There is no analysis to be shown, exported or switched, whatever the arguments are. -/
structure HasNoAnalysis (s : State) : Prop where
  shown (o : Occasion) (args : Value) (path : String) (r r' : Reading) (turn : Turn Value) :
    (s.dispatch o ⟨"get_last_function",args⟩).Runs path r turn r' ↔ turn = ⟨.ok .null,s⟩ ∧ r' = r
  exported (o : Occasion) (args : Value) (path : String) (r r' : Reading) (turn : Turn Value) :
    (s.dispatch o ⟨"export_last_function",args⟩).Runs path r turn r' ↔
      turn = ⟨.error (.rejected .nothingToExport),s⟩ ∧ r' = r
  switched (o : Occasion) (args : Value) : ∃ e : Rejection, ∀ path r r' turn,
    (s.dispatch o ⟨"update_function_overlays",args⟩).Runs path r turn r' ↔
      turn = ⟨.error (.rejected e),s⟩ ∧ r' = r

/-- The request to switch overlays, if its arguments can be read. -/
lemma ofCommand_overlays (args : Value) :
    Request.ofCommand "update_function_overlays" args =
        .error (.badArguments "update_function_overlays") ∨
      ∃ tangent shaded,
        Request.ofCommand "update_function_overlays" args = .ok (.overlay tangent shaded) := by
  simp only [Request.ofCommand,Request.reader?]
  cases args.record? 2 with
  | none => exact .inl rfl
  | some parts =>
    simp only [Option.bind_eq_bind,Option.bind_some]
    cases parts.optional? 0 "showTangent" (Value.toOption? Value.toBool?) with
    | none => exact .inl rfl
    | some tangent =>
      cases parts.optional? 1 "showArea" (Value.toOption? Value.toBool?) with
      | none => exact .inl rfl
      | some shaded => exact .inr ⟨tangent,shaded,rfl⟩

/-- The request to analyse, if its arguments can be read as a form. -/
lemma ofCommand_analyze (args : Value) :
    Request.ofCommand "analyze_function" args = .error (.badArguments "analyze_function") ∨
      ∃ form, Request.ofCommand "analyze_function" args = .ok (.analyze form) := by
  simp only [Request.ofCommand,Request.reader?]
  cases args.record? 9 with
  | none => exact .inl rfl
  | some parts =>
    cases hform : Request.formOf? parts with
    | none => exact .inl (by simp [hform])
    | some form => exact .inr ⟨form,by simp [hform]⟩

/-- Nothing is there exactly if the place of the last analysis is empty. -/
lemma hasNoAnalysis_iff : s.HasNoAnalysis ↔ s.last = none := by
  constructor
  · intro h
    let o : Occasion := ⟨"",⟨⟨1970,1,1⟩,0,0,by decide⟩⟩
    let shown : Turn Value := s.still (.ok (.option (fun l => analysisValue l.analysis) s.last))
    have hrun : (s.dispatch o ⟨"get_last_function",.null⟩).Runs "" .absent shown .absent :=
      runs_dispatch_of_serve rfl (Plan.runs_pure.mpr ⟨rfl,rfl⟩)
    obtain ⟨hturn,-⟩ := (h.shown o .null "" .absent .absent _).mp hrun
    cases hl : s.last with
    | none => rfl
    | some l =>
      simp only [shown,hl] at hturn
      cases hturn
  · intro hl
    refine ⟨fun o args path r r' turn => ?_,fun o args path r r' turn => ?_,fun o args => ?_⟩
    · rw [runs_dispatch_iff]
      simp only [Request.ofCommand,Request.reader?,serve,Plan.runs_pure,hl]
      rfl
    · rw [runs_dispatch_iff]
      simp only [Request.ofCommand,Request.reader?,serve,Plan.runs_bind,NotedTurn.runs_tell,
        Plan.runs_pure,exportAnalysis,hl]
      constructor
      · rintro ⟨_,_,⟨rfl,rfl⟩,rfl,rfl⟩
        exact ⟨rfl,rfl⟩
      · rintro ⟨rfl,rfl⟩
        exact ⟨_,_,⟨rfl,rfl⟩,rfl,rfl⟩
    · rcases ofCommand_overlays args with hq | ⟨tangent,shaded,hq⟩
      · refine ⟨.badArguments "update_function_overlays",fun path r r' turn => ?_⟩
        rw [runs_dispatch_iff]
        simp only [hq,Plan.runs_pure]
        rfl
      · refine ⟨.nothingAnalysed,fun path r r' turn => ?_⟩
        rw [runs_dispatch_iff]
        simp only [hq,serve,Plan.runs_bind,NotedTurn.runs_tell,Plan.runs_pure,overlay,hl]
        constructor
        · rintro ⟨_,_,⟨rfl,rfl⟩,rfl,rfl⟩
          exact ⟨rfl,rfl⟩
        · rintro ⟨rfl,rfl⟩
          exact ⟨_,_,⟨rfl,rfl⟩,rfl,rfl⟩

/-- What comes to no analysis puts none into an empty place. -/
lemma last_record {c : History.Computation} (hl : s.last = none)
    (hc : ¬∃ l, answerTo s.config c = .ok (.analysis l)) :
    (s.record c.kind (answerTo s.config c)).last = none := by
  unfold record
  split
  · rename_i l ha
    exact absurd ⟨l,ha⟩ hc
  · exact hl
  · split
    · rfl
    · exact hl

/-- A request that comes to no analysis leaves an empty place empty. -/
lemma last_of_serve (h : (s.serve o q).Runs path r turn r') (hl : s.last = none)
    (hq : ¬s.Analyses q) : turn.state.last = none := by
  cases answered_of_serve h with
  | computed q c hc view =>
    refine last_record hl ?_
    rintro ⟨l,ha⟩
    cases q with
    | compute c' =>
      cases hc
      exact hq ⟨l,ha⟩
    | analyze form =>
      obtain ⟨p,hp,rfl⟩ := hc
      obtain ⟨l,ha,-⟩ := map_eq_ok_iff.mp ha
      exact hq ⟨p,l,hp,ha⟩
    | replay id =>
      obtain ⟨e,he,rfl⟩ := hc
      exact hq ⟨e,l,by simp [entry,he],ha⟩
    | _ => cases hc
  | unsaved c e hc =>
    rw [← hc]
    exact last_record hl hq
  | saved c a hc hw =>
    have hrecord := last_record hl hq
    rwa [hc] at hrecord
  | switched tangent shaded l hl' v =>
    rw [hl] at hl'
    cases hl'
  | rejected form e => rfl
  | _ => exact hl

/-- An analysis that fails empties the place. -/
lemma last_of_failed {form : AnalysisForm} {e : Fault}
    (h : (s.serve o (.analyze form)).Runs path r turn r') (he : turn.outcome = .error e) :
    turn.state.last = none := by
  cases answered_of_serve h with
  | looked hq => cases hq
  | computed _ c hc view =>
    obtain ⟨p,-,rfl⟩ := hc
    cases ha : answerTo s.config (.function form.expression p) with
    | error e => rfl
    | ok a =>
      rw [ha] at he
      cases he
  | rejected form e => rfl

/-- One command that comes to no analysis, whatever the world answers. -/
def QuietCommand (path : String) (x y : State × Reading) : Prop :=
  ∃ o i turn, (x.1.dispatch o i).Runs path x.2 turn y.2 ∧ turn.state = y.1 ∧
    ∀ q, Request.ofCommand i.command i.args = .ok q → ¬x.1.Analyses q

/-- Any number of commands none of which comes to an analysis. -/
def QuietCommands (path : String) : State × Reading → State × Reading → Prop :=
  Relation.ReflTransGen (QuietCommand path)

lemma last_of_quietCommands (hl : s.last = none) (h : QuietCommands path (s,r) (s',r')) :
    s'.last = none := by
  generalize hx : (s,r) = x at h
  generalize hy : (s',r') = y at h
  induction h generalizing s' r' with
  | refl =>
    obtain ⟨rfl,rfl⟩ := Prod.mk.inj (hx.trans hy.symm)
    exact hl
  | @tail y z _ hc ih =>
    subst hy
    obtain ⟨o,i,turn,hr,hs,hquiet⟩ := hc
    have hy : y.1.last = none := ih rfl
    rw [runs_dispatch_iff] at hr
    change turn.state = s' at hs
    rw [← hs]
    cases hq : Request.ofCommand i.command i.args with
    | error e =>
      simp only [hq,Plan.runs_pure] at hr
      rw [hr.1]
      exact hy
    | ok q =>
      simp only [hq] at hr
      exact last_of_serve hr hy (hquiet q hq)

/-- After an error reply to the command that analyses, nothing is there to be shown, exported or
switched exactly if nothing was there before or the arguments could be read as a form; else the
session is as it was. Where nothing is there, it stays so until a later analysis succeeds. -/
theorem hasNoAnalysis_iff_of_failed {e : Fault}
    (h : (s.dispatch o ⟨"analyze_function",args⟩).Runs path r turn r') (he : turn.outcome = .error e) :
    (turn.state.HasNoAnalysis ↔ s.HasNoAnalysis ∨
      ∃ form, Request.ofCommand "analyze_function" args = .ok (.analyze form)) ∧
    ((∀ form, Request.ofCommand "analyze_function" args ≠ .ok (.analyze form)) → turn.state = s) ∧
    ∀ s'' r'', turn.state.HasNoAnalysis → QuietCommands path (turn.state,r') (s'',r'') →
      s''.HasNoAnalysis := by
  rw [runs_dispatch_iff] at h
  simp only [hasNoAnalysis_iff]
  have hlater (s'' : State) (r'' : Reading) (hn : turn.state.last = none)
      (hc : QuietCommands path (turn.state,r') (s'',r'')) : s''.last = none :=
    last_of_quietCommands hn hc
  rcases ofCommand_analyze args with hq | ⟨form,hq⟩
  · simp only [hq,Plan.runs_pure] at h
    obtain ⟨rfl,rfl⟩ := h
    exact ⟨by simp [hq,still],fun _ => rfl,hlater⟩
  · simp only [hq] at h
    exact ⟨by simp [hq,last_of_failed h he],fun hform => absurd hq (hform form),hlater⟩

def morning : Occasion := ⟨"morning",⟨⟨1970,1,1⟩,0,0,by decide⟩⟩

lemma runs_dispatch_form {form : AnalysisForm}
    (hq : Request.ofCommand "analyze_function" args = .ok (.analyze form)) :
    (s.dispatch o ⟨"analyze_function",args⟩).Runs path r
      ((s.analyze form).toTurn.map (Answer.value s.settings)) r :=
  runs_dispatch_of_serve hq (by simp [serve])

/-- Asking for the counts comes to no analysis. -/
lemma quietCommand_usage : QuietCommand path (s,r) (s,r) := by
  refine ⟨morning,⟨"get_usage_stats",.null⟩,_,
    runs_dispatch_of_serve rfl (Plan.runs_pure.mpr ⟨rfl,rfl⟩),rfl,?_⟩
  rintro q ⟨⟩
  exact id

/-- A sum without its second operand, in the form that the square was filled into. -/
def danglingSum : Value :=
  .object [("expression",.string "x +"),("xMin",.string "-1"),("xMax",.string "1"),
    ("points",.string "80"),("x0",.string "0.5"),("a",.string "0"),("b",.string "1")]

/-- It is analysed after the square, and then the counts are asked for. -/
theorem hasNoAnalysis_after_danglingSum :
    ∃ e turn s'', (afterSquare.dispatch morning ⟨"analyze_function",danglingSum⟩).Runs
        "history.json" .absent turn .absent ∧
      turn.outcome = .error e ∧ ¬afterSquare.HasNoAnalysis ∧ turn.state.HasNoAnalysis ∧
      QuietCommands "history.json" (turn.state,.absent) (s'',.absent) ∧ s''.HasNoAnalysis := by
  let form : AnalysisForm := ⟨"x +","-1","1","80","0.5","0","1",false,false⟩
  have hq : Request.ofCommand "analyze_function" danglingSum = .ok (.analyze form) := rfl
  have hsome : afterSquare.last.isSome = true := by decide +kernel
  have hfails : (afterSquare.analyze form).outcome.isOk = false := by decide +kernel
  generalize afterSquare = s at hsome hfails ⊢
  cases he : (s.analyze form).outcome with
  | ok a =>
    rw [he] at hfails
    cases hfails
  | error e =>
    have hrun : (s.dispatch morning ⟨"analyze_function",danglingSum⟩).Runs "history.json" .absent
        ((s.analyze form).toTurn.map (Answer.value s.settings)) .absent := runs_dispatch_form hq
    obtain ⟨hiff,-,hlater⟩ := hasNoAnalysis_iff_of_failed (e := e) hrun (by rw [Turn.map,he]; rfl)
    have hnone := hiff.mpr (.inr ⟨form,hq⟩)
    have hquiet : QuietCommands "history.json"
        (((s.analyze form).toTurn.map (Answer.value s.settings)).state,.absent)
        (((s.analyze form).toTurn.map (Answer.value s.settings)).state,.absent) :=
      .single quietCommand_usage
    refine ⟨e,_,_,hrun,by rw [Turn.map,he]; rfl,?_,hnone,hquiet,hlater _ _ hnone hquiet⟩
    rw [hasNoAnalysis_iff]
    exact fun hn => by simp [hn] at hsome

/-- After the square, a form without fields is refused and the square is still there. -/
theorem not_hasNoAnalysis_after_emptyForm :
    ∃ s turn e, Commands "history.json" (fun _ _ => True) (start .standard .inMemory,.absent)
        (s,.absent) ∧
      (s.dispatch morning ⟨"analyze_function",.object []⟩).Runs "history.json" .absent turn .absent ∧
      turn.outcome = .error e ∧ ¬turn.state.HasNoAnalysis := by
  have hsome : afterSquare.last.isSome = true := by decide +kernel
  have hcommands := commands_afterSquare "history.json" .absent
  generalize afterSquare = s at hsome hcommands
  refine ⟨s,_,_,hcommands,runs_dispatch_iff.mpr (Plan.runs_pure.mpr ⟨rfl,rfl⟩),rfl,?_⟩
  rw [hasNoAnalysis_iff]
  exact fun hn => by simp [show s.last = none from hn] at hsome

end State
end Formulary.Session
