import Formulary.Proofs.History.Writing
import Formulary.Proofs.Session.Room
import Mathlib.Logic.Relation

/-! What a command may do to a session and to the file of its history. Everything a command can
change is said here once; what holds through any number of commands is read off from it. -/
namespace Formulary.Session
open Json (Value)
open Files (Plan Reading)

variable {α : Type} {path : String} {r r' : Reading} {s : State} {o : Occasion}

@[simp] lemma NotedTurn.runs_tell {t : NotedTurn α} {u : Turn α} :
    t.tell.Runs path r u r' ↔ u = t.toTurn ∧ r' = r := by
  simp only [NotedTurn.tell,Plan.runs_bind,Plan.runs_tellAll,Plan.runs_pure]
  constructor
  · rintro ⟨_,_,rfl,hu,hr⟩
    exact ⟨hu,hr⟩
  · rintro ⟨rfl,rfl⟩
    exact ⟨(),r',rfl,rfl,rfl⟩

@[simp] lemma NotedTurn.toTurn_after (ns : List Journal.Note) (t : NotedTurn α) :
    (t.after ns).toTurn = t.toTurn := rfl

/-- A request that only looks at what is there. -/
def Request.Looks : Request → Prop
  | .lastAnalysis | .exportAnalysis | .list _ _ | .entry _ | .exportAll | .usage => True
  | _ => False

/-- A fault that no computation gave: input that is refused, or a fault of the history. -/
def Fault.IsRefusal : Fault → Prop
  | .rejected _ | .history _ => True
  | _ => False

namespace State

/-- The entry that saving a computation with its answer makes. -/
def entryOf (s : State) (o : Occasion) (c : History.Computation) (a : Answer) : History.Entry :=
  ⟨o.id,o.time,c,(a.script s.settings).text⟩

/-- The computation that a request asks for, that of an entry to be saved aside. -/
def Asks (s : State) : Request → History.Computation → Prop
  | .compute c,c' => c' = c
  | .analyze form,c' => ∃ p, form.parameters s.config = .ok p ∧ c' = .function form.expression p
  | .replay id,c' => ∃ e, s.history.get? id = some e ∧ c' = e.computation
  | _,_ => False

/-- What serving a request comes to, and what it leaves of a session and of the file of its history. -/
inductive Answered (path : String) (s : State) (o : Occasion) (r : Reading) :
    Request → Turn Value → Reading → Prop
  | looked {q : Request} {outcome : Except Fault Value} (hq : q.Looks)
      (he : ∀ e, outcome = .error e → e.IsRefusal) : Answered path s o r q ⟨outcome,s⟩ r
  | computed (q : Request) (c : History.Computation) (hq : s.Asks q c) (view : Answer → Value) :
      Answered path s o r q
        ⟨(answerTo s.config c).map view,s.record c.kind (answerTo s.config c)⟩ r
  | rejected (form : AnalysisForm) (e : Rejection) :
      Answered path s o r (.analyze form) ⟨.error (.rejected e),{ s with last := none }⟩ r
  | unanalysed (tangent shaded : Option Bool) (hl : s.last = none) :
      Answered path s o r (.overlay tangent shaded) ⟨.error (.rejected .nothingAnalysed),s⟩ r
  | switched (tangent shaded : Option Bool) (l : Analysed) (hl : s.last = some l) (v : Value) :
      Answered path s o r (.overlay tangent shaded)
        ⟨.ok v,{ s with last := some ⟨l.function,l.analysis.toggle tangent shaded⟩ }⟩ r
  | unfound (id : String) (hn : s.history.get? id = none) :
      Answered path s o r (.replay id) ⟨.error (.history (.notFound id)),s⟩ r
  | unsaved (c : History.Computation) (e : Fault) (hc : answerTo s.config c = .error e) :
      Answered path s o r (.save c) ⟨.error e,s.record c.kind (.error e)⟩ r
  | saved (c : History.Computation) (a : Answer) {outcome history r'}
      (hc : answerTo s.config c = .ok a)
      (hw : (s.history.add (s.entryOf o c a)).Runs path r (outcome,history) r') :
      Answered path s o r (.save c)
        ⟨(outcome.map fun _ => itemValue (s.entryOf o c a)).mapError .history,
          { s.record c.kind (.ok a) with
            history := history, saved := s.saved + if outcome.isOk then 1 else 0 }⟩ r'
  | deleted (id : String) {outcome history r'}
      (hw : (s.history.remove id).Runs path r (outcome,history) r') :
      Answered path s o r (.delete id)
        ⟨(outcome.map unitValue).mapError .history,{ s with history := history }⟩ r'
  | cleared {outcome history r'} (hw : s.history.clear.Runs path r (outcome,history) r') :
      Answered path s o r .clear
        ⟨(outcome.map unitValue).mapError .history,{ s with history := history }⟩ r'
  | exported (q : String) {outcome r'} (hw : (s.history.exportTo q).Runs path r outcome r') :
      Answered path s o r (.exportTo q) ⟨(outcome.map unitValue).mapError .history,s⟩ r'

/-- What serving a request may leave of a session and of the file of its history. -/
inductive Served (path : String) (s : State) (o : Occasion) (r : Reading) :
    Request → State → Reading → Prop
  | still (q : Request) : Served path s o r q s r
  | computed (q : Request) (c : History.Computation) :
      Served path s o r q (s.record c.kind (answerTo s.config c)) r
  | rejected (form : AnalysisForm) : Served path s o r (.analyze form) { s with last := none } r
  | switched (tangent shaded : Option Bool) (l : Analysed) (hl : s.last = some l) :
      Served path s o r (.overlay tangent shaded)
        { s with last := some ⟨l.function,l.analysis.toggle tangent shaded⟩ } r
  | saved (c : History.Computation) (a : Answer) (n : ℕ) {outcome history r'}
      (hc : answerTo s.config c = .ok a)
      (hw : (s.history.add (s.entryOf o c a)).Runs path r (outcome,history) r') :
      Served path s o r (.save c)
        { s.record c.kind (.ok a) with history := history, saved := n } r'
  | deleted (id : String) {outcome history r'}
      (hw : (s.history.remove id).Runs path r (outcome,history) r') :
      Served path s o r (.delete id) { s with history := history } r'
  | cleared {outcome history r'} (hw : s.history.clear.Runs path r (outcome,history) r') :
      Served path s o r .clear { s with history := history } r'
  | exported (q : String) {outcome r'} (hw : (s.history.exportTo q).Runs path r outcome r') :
      Served path s o r (.exportTo q) s r'

lemma map_compute (c : History.Computation) (view : Answer → Value) :
    (s.compute c).toTurn.map view =
      ⟨(answerTo s.config c).map view,s.record c.kind (answerTo s.config c)⟩ := rfl

/-- A computation is counted if it succeeds. -/
lemma record_eq (s : State) (k : Kind) (a : Except Fault Answer) :
    ∃ l, s.record k a = { s with last := l, runs := s.runs + if a.isOk then 1 else 0 } := by
  unfold record
  split
  · exact ⟨_,rfl⟩
  · exact ⟨_,rfl⟩
  · split <;> exact ⟨_,rfl⟩

@[simp] lemma record_config (s : State) (k : Kind) (a : Except Fault Answer) :
    (s.record k a).config = s.config := by
  obtain ⟨l,hl⟩ := record_eq s k a
  rw [hl]

@[simp] lemma record_history (s : State) (k : Kind) (a : Except Fault Answer) :
    (s.record k a).history = s.history := by
  obtain ⟨l,hl⟩ := record_eq s k a
  rw [hl]

@[simp] lemma record_saved (s : State) (k : Kind) (a : Except Fault Answer) :
    (s.record k a).saved = s.saved := by
  obtain ⟨l,hl⟩ := record_eq s k a
  rw [hl]

@[simp] lemma record_runs (s : State) (k : Kind) (a : Except Fault Answer) :
    (s.record k a).runs = s.runs + if a.isOk then 1 else 0 := by
  obtain ⟨l,hl⟩ := record_eq s k a
  rw [hl]

/-- What cannot be computed is not stored. What is computed is stored with the script of its answer,
if the history can be written. -/
lemma runs_save {c : History.Computation} {turn : Turn History.Entry}
    (h : (s.save o c).Runs path r turn r') :
    (∃ e, answerTo s.config c = .error e ∧ turn = ⟨.error e,s.record c.kind (.error e)⟩ ∧ r' = r) ∨
    ∃ a outcome history, answerTo s.config c = .ok a ∧
      (s.history.add (s.entryOf o c a)).Runs path r (outcome,history) r' ∧
      turn = ⟨(outcome.map fun _ => s.entryOf o c a).mapError .history,
        { s.record c.kind (.ok a) with
          history := history, saved := s.saved + if outcome.isOk then 1 else 0 }⟩ := by
  simp only [save,Plan.runs_bind,Plan.runs_tell,NotedTurn.runs_tell] at h
  obtain ⟨_,_,rfl,computed,_,⟨rfl,rfl⟩,h⟩ := h
  cases hc : answerTo s.config c with
  | error e =>
    simp only [compute,hc,Plan.runs_pure] at h
    exact .inl ⟨e,rfl,h⟩
  | ok a =>
    have he : (s.record c.kind (.ok a)).entryOf o c a = s.entryOf o c a := by
      simp [entryOf,settings]
    simp only [compute,hc,store,Plan.runs_bind] at h
    obtain ⟨⟨outcome,history⟩,_,hw,h⟩ := h
    rw [record_history] at hw
    cases outcome with
    | error e =>
      simp only [Plan.runs_bind,Plan.runs_tell,Plan.runs_pure] at h
      obtain ⟨_,_,rfl,rfl,rfl⟩ := h
      exact .inr ⟨a,.error e,history,rfl,he ▸ hw,by rw [← record_saved s c.kind (.ok a)]; rfl⟩
    | ok u =>
      simp only [Plan.runs_bind,Plan.runs_tell,Plan.runs_pure] at h
      obtain ⟨_,_,rfl,rfl,rfl⟩ := h
      exact .inr ⟨a,.ok u,history,rfl,he ▸ hw,by rw [← he,← record_saved s c.kind (.ok a)]; rfl⟩

/-- What can be computed can be saved, if the world lets the file be written. -/
lemma exists_save {c : History.Computation} {a : Answer} (o : Occasion) (r : Reading)
    (hp : s.history.path = some path) (ha : answerTo s.config c = .ok a) :
    ∃ s', (s.save o c).Runs path r ⟨.ok (s.entryOf o c a),s'⟩ s'.history.written ∧
      s'.config = s.config ∧
      s'.history = { s.history with entries := s.entryOf o c a :: s.history.entries } := by
  let computed := s.record c.kind (.ok a)
  have hhistory : computed.history = s.history := record_history s _ _
  have hconfig : computed.config = s.config := record_config s _ _
  have he : computed.entryOf o c a = s.entryOf o c a := by simp [entryOf,settings,hconfig]
  have hw : (computed.history.add (computed.entryOf o c a)).Runs path r _ _ :=
    History.Store.runs_add_made (hhistory ▸ hp)
  rw [← he,← hhistory]
  refine ⟨{ computed with
    history := { computed.history with
      entries := computed.entryOf o c a :: computed.history.entries }
    saved := computed.saved + 1 },?_,hconfig,rfl⟩
  simp only [save,Plan.runs_bind,Plan.runs_tell,NotedTurn.runs_tell]
  refine ⟨(),r,rfl,_,r,⟨rfl,rfl⟩,?_⟩
  simp only [compute,ha,store,Plan.runs_bind]
  refine ⟨_,_,hw,?_⟩
  simp only [Plan.runs_bind,Plan.runs_tell,Plan.runs_pure]
  exact ⟨(),_,rfl,rfl,rfl⟩

/-- What cannot be computed cannot be saved. -/
lemma save_of_error {c : History.Computation} {e : Fault} (o : Occasion) (path : String) (r : Reading)
    (hc : answerTo s.config c = .error e) :
    (s.save o c).Runs path r ⟨.error e,s.record c.kind (.error e)⟩ r := by
  simp only [save,Plan.runs_bind,Plan.runs_tell,NotedTurn.runs_tell]
  refine ⟨(),r,rfl,_,r,⟨rfl,rfl⟩,?_⟩
  simp only [compute,hc]
  exact Plan.runs_pure.mpr ⟨rfl,rfl⟩

/-- The world may refuse to let the file be written, for any reason. -/
lemma save_of_refusal {c : History.Computation} {a : Answer} (o : Occasion) (r : Reading)
    (hp : s.history.path = some path) (ha : answerTo s.config c = .ok a) (reason : String) :
    (s.save o c).Runs path r ⟨.error (.history (.io reason)),s.record c.kind (.ok a)⟩ r := by
  let computed := s.record c.kind (.ok a)
  have hhistory : computed.history = s.history := record_history s _ _
  have hw : (computed.history.add (computed.entryOf o c a)).Runs path r _ _ :=
    History.Store.runs_add_refused (hhistory ▸ hp) reason
  simp only [save,Plan.runs_bind,Plan.runs_tell,NotedTurn.runs_tell]
  refine ⟨(),r,rfl,_,r,⟨rfl,rfl⟩,?_⟩
  simp only [compute,ha,store,Plan.runs_bind]
  refine ⟨_,_,hw,?_⟩
  simp only [Plan.runs_bind,Plan.runs_tell,Plan.runs_pure]
  exact ⟨(),_,rfl,rfl,rfl⟩

lemma isRefusal_of_eq_error {e : Fault} (he : e.IsRefusal) (e' : Fault)
    (h : (Except.error e : Except Fault Value) = .error e') : e'.IsRefusal :=
  Except.error.inj h ▸ he

lemma runs_delete {id : String} {turn : Turn Unit} (h : (s.delete id).Runs path r turn r') :
    ∃ outcome history, (s.history.remove id).Runs path r (outcome,history) r' ∧
      turn = ⟨outcome.mapError .history,{ s with history := history }⟩ := by
  simp only [delete,Plan.runs_bind,Plan.runs_tell,Plan.runs_pure] at h
  obtain ⟨_,_,rfl,⟨outcome,history⟩,_,hw,_,_,rfl,rfl,rfl⟩ := h
  exact ⟨outcome,history,hw,rfl⟩

lemma runs_clear {turn : Turn Unit} (h : s.clear.Runs path r turn r') :
    ∃ outcome history, s.history.clear.Runs path r (outcome,history) r' ∧
      turn = ⟨outcome.mapError .history,{ s with history := history }⟩ := by
  simp only [clear,Plan.runs_bind,Plan.runs_tell,Plan.runs_pure] at h
  obtain ⟨⟨outcome,history⟩,_,hw,_,_,rfl,rfl,rfl⟩ := h
  exact ⟨outcome,history,hw,rfl⟩

lemma runs_exportTo {q : String} {turn : Turn Unit} (h : (s.exportTo q).Runs path r turn r') :
    ∃ outcome, (s.history.exportTo q).Runs path r outcome r' ∧
      turn = ⟨outcome.mapError .history,s⟩ := by
  simp only [exportTo,Plan.runs_bind,Plan.runs_tell] at h
  obtain ⟨_,_,rfl,outcome,_,hw,h⟩ := h
  refine ⟨outcome,?_⟩
  cases outcome with
  | ok u =>
    simp only [Plan.runs_bind,Plan.runs_tell,Plan.runs_pure] at h
    obtain ⟨_,_,rfl,rfl,rfl⟩ := h
    exact ⟨hw,rfl⟩
  | error e =>
    obtain ⟨rfl,rfl⟩ := Plan.runs_pure.mp h
    exact ⟨hw,rfl⟩

/-- Whatever is requested, it is answered in one of the ways listed. -/
theorem answered_of_serve {q : Request} {turn : Turn Value}
    (h : (s.serve o q).Runs path r turn r') : Answered path s o r q turn r' := by
  cases q with
  | compute c =>
    simp only [serve,Plan.runs_bind,NotedTurn.runs_tell,Plan.runs_pure] at h
    obtain ⟨_,_,⟨rfl,rfl⟩,rfl,rfl⟩ := h
    exact .computed (.compute c) c rfl (Answer.value s.settings)
  | analyze form =>
    simp only [serve,Plan.runs_bind,NotedTurn.runs_tell,Plan.runs_pure] at h
    obtain ⟨_,_,⟨rfl,rfl⟩,rfl,rfl⟩ := h
    unfold analyze
    cases hp : form.parameters s.config with
    | error e => exact .rejected form e
    | ok p =>
      have hq : s.Asks (.analyze form) (.function form.expression p) := ⟨p,hp,rfl⟩
      rw [NotedTurn.toTurn_after,map_compute]
      exact .computed _ _ hq (Answer.value s.settings)
  | overlay tangent shaded =>
    simp only [serve,Plan.runs_bind,NotedTurn.runs_tell,Plan.runs_pure] at h
    obtain ⟨_,_,⟨rfl,rfl⟩,rfl,rfl⟩ := h
    unfold overlay
    cases hl : s.last with
    | none => exact .unanalysed tangent shaded hl
    | some l => exact .switched tangent shaded l hl _
  | exportAnalysis =>
    simp only [serve,Plan.runs_bind,NotedTurn.runs_tell,Plan.runs_pure] at h
    obtain ⟨_,_,⟨rfl,rfl⟩,rfl,rfl⟩ := h
    unfold exportAnalysis
    cases s.last with
    | none => exact .looked trivial (isRefusal_of_eq_error trivial)
    | some l => exact .looked trivial (by rintro _ ⟨⟩)
  | save c =>
    simp only [serve,Plan.runs_bind,Plan.runs_pure] at h
    obtain ⟨_,_,h,rfl,rfl⟩ := h
    rcases runs_save h with ⟨e,hc,rfl,rfl⟩ | ⟨a,outcome,history,hc,hw,rfl⟩
    · exact .unsaved c e hc
    · cases outcome <;> exact .saved c a hc hw
  | list query kind =>
    obtain ⟨rfl,rfl⟩ := NotedTurn.runs_tell.mp h
    unfold list
    cases kindFilter kind with
    | error e => exact .looked trivial (isRefusal_of_eq_error trivial)
    | ok wanted => exact .looked trivial (by rintro _ ⟨⟩)
  | entry id =>
    obtain ⟨rfl,rfl⟩ := Plan.runs_pure.mp h
    unfold entry
    cases s.history.get? id with
    | none => exact .looked trivial (isRefusal_of_eq_error trivial)
    | some e => exact .looked trivial (by rintro _ ⟨⟩)
  | replay id =>
    simp only [serve,Plan.runs_bind,NotedTurn.runs_tell,Plan.runs_pure] at h
    obtain ⟨_,_,⟨rfl,rfl⟩,rfl,rfl⟩ := h
    cases hf : s.history.get? id with
    | none =>
      simp only [replay,entry,hf]
      exact .unfound id hf
    | some e =>
      have hq : s.Asks (.replay id) e.computation := ⟨e,hf,rfl⟩
      simp only [replay,entry,hf]
      exact .computed _ _ hq (Answer.taggedValue s.settings)
  | delete id =>
    simp only [serve,Plan.runs_bind,Plan.runs_pure] at h
    obtain ⟨_,_,h,rfl,rfl⟩ := h
    obtain ⟨outcome,history,hw,rfl⟩ := runs_delete h
    cases outcome <;> exact .deleted id hw
  | clear =>
    simp only [serve,Plan.runs_bind,Plan.runs_pure] at h
    obtain ⟨_,_,h,rfl,rfl⟩ := h
    obtain ⟨outcome,history,hw,rfl⟩ := runs_clear h
    cases outcome <;> exact .cleared hw
  | exportTo q =>
    simp only [serve,Plan.runs_bind,Plan.runs_pure] at h
    obtain ⟨_,_,h,rfl,rfl⟩ := h
    obtain ⟨outcome,hw,rfl⟩ := runs_exportTo h
    cases outcome <;> exact .exported q hw
  | _ =>
    obtain ⟨rfl,rfl⟩ := Plan.runs_pure.mp h
    exact .looked trivial (by rintro _ ⟨⟩)

/-- Whatever is requested, the session and the file are left in one of the ways listed. -/
theorem runs_serve {q : Request} {turn : Turn Value} (h : (s.serve o q).Runs path r turn r') :
    Served path s o r q turn.state r' := by
  cases answered_of_serve h with
  | looked hq he => exact .still q
  | unanalysed tangent shaded hl => exact .still _
  | unfound id hn => exact .still _
  | computed q c hq view => exact .computed q c
  | rejected form e => exact .rejected form
  | switched tangent shaded l hl v => exact .switched tangent shaded l hl
  | unsaved c e hc =>
    rw [← hc]
    exact .computed _ c
  | saved c a hc hw => exact .saved c a _ hc hw
  | deleted id hw => exact .deleted id hw
  | cleared hw => exact .cleared hw
  | exported q hw => exact .exported q hw

/-- No request changes the configuration. -/
lemma Served.config_eq {q : Request} {s' : State} (h : Served path s o r q s' r') :
    s'.config = s.config := by
  cases h with
  | computed q c => exact record_config s _ _
  | saved c a n hc hw => exact record_config s _ _
  | _ => rfl

/-- No request moves the history to another file. -/
lemma Served.path_eq {q : Request} {s' : State} (h : Served path s o r q s' r') :
    s'.history.path = s.history.path := by
  cases h with
  | computed q c => rw [record_history]
  | saved c a n hc hw => exact (History.Store.runs_add hw).path_eq
  | cleared hw => exact (History.Store.runs_clear hw).path_eq
  | deleted id hw =>
    rcases History.Store.runs_remove hw with ⟨-,-,rfl,-⟩ | hw
    · rfl
    · exact hw.path_eq
  | _ => rfl

/-- A command is noted, and then its request is served or refused, unless there is no room for it. -/
lemma runs_dispatch_iff {i : Invocation} {turn : Turn Value} :
    (s.dispatch o i).Runs path r turn r' ↔
      Plan.Runs path (match Request.ofCommand i.command i.args with
        | .error e => pure (s.still (.error (.rejected e)))
        | .ok q => s.serve o q) r turn r' := by
  simp only [dispatch,Plan.runs_bind,Plan.runs_tell]
  cases Request.ofCommand i.command i.args with
  | error e => simp
  | ok q =>
    simp only [Plan.runs_bind,Plan.runs_room]
    constructor
    · rintro ⟨_,_,rfl,room,_,rfl,h⟩
      unfold serveWithin at h
      split at h
      · exact absurd h Plan.not_runs_endWith
      · exact h
    · intro h
      obtain ⟨room,hroom⟩ := exists_brokenNotes?_eq_none s q
      exact ⟨(),r,rfl,room,r,rfl,by rwa [serveWithin,hroom]⟩

/-- A command is a request or leaves everything as it is. -/
theorem runs_dispatch {i : Invocation} {turn : Turn Value}
    (h : (s.dispatch o i).Runs path r turn r') :
    (turn.state = s ∧ r' = r) ∨
      ∃ q, Request.ofCommand i.command i.args = .ok q ∧ Served path s o r q turn.state r' := by
  rw [runs_dispatch_iff] at h
  cases hq : Request.ofCommand i.command i.args with
  | error e =>
    simp only [hq,Plan.runs_pure] at h
    obtain ⟨rfl,rfl⟩ := h
    exact .inl ⟨rfl,rfl⟩
  | ok q =>
    simp only [hq] at h
    exact .inr ⟨q,rfl,runs_serve h⟩

/-- A request that can be served is served by its command. -/
lemma runs_dispatch_of_serve {i : Invocation} {q : Request} {turn : Turn Value}
    (hq : Request.ofCommand i.command i.args = .ok q) (h : (s.serve o q).Runs path r turn r') :
    (s.dispatch o i).Runs path r turn r' := by
  rw [runs_dispatch_iff,hq]
  exact h

end State

/-- One command served, whatever the world answers, among those that are let through. -/
def Command (path : String) (admits : Occasion → Invocation → Prop) (x y : State × Reading) : Prop :=
  ∃ o i turn, admits o i ∧ (x.1.dispatch o i).Runs path x.2 turn y.2 ∧ turn.state = y.1

/-- Any number of commands, one after the other. -/
def Commands (path : String) (admits : Occasion → Invocation → Prop) :
    State × Reading → State × Reading → Prop :=
  Relation.ReflTransGen (Command path admits)

/-- What every request that is let through keeps is kept by any number of commands. -/
theorem Commands.keeps {admits : Occasion → Invocation → Prop} (Holds : State → Reading → Prop)
    (served : ∀ ⦃s r o i q s' r'⦄, admits o i → Request.ofCommand i.command i.args = .ok q →
      State.Served path s o r q s' r' → Holds s r → Holds s' r')
    {x y : State × Reading} (h : Commands path admits x y) (hx : Holds x.1 x.2) : Holds y.1 y.2 := by
  induction h with
  | refl => exact hx
  | tail _ hc ih =>
    obtain ⟨o,i,turn,ha,hr,hs⟩ := hc
    rcases State.runs_dispatch hr with ⟨ht,hr⟩ | ⟨q,hq,hv⟩
    · rw [← hs,ht,hr]
      exact ih
    · exact served ha hq (hs ▸ hv) ih

/-- No number of commands changes the configuration. -/
lemma Commands.config_eq {admits : Occasion → Invocation → Prop} {s' : State}
    (h : Commands path admits (s,r) (s',r')) : s'.config = s.config :=
  h.keeps (fun t _ => t.config = s.config) (fun _ _ _ _ _ _ _ _ _ hs ht => hs.config_eq.trans ht) rfl

end Formulary.Session
