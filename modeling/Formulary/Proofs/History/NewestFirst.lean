import Formulary.Proofs.History.Writing

/-! A store as a list of entries with the newest first. Whatever writes fail, each task does what a
step on the list does or leaves the list as it is, and every such step is one that the store may take. -/
namespace Formulary.History
open Files

/-- What can be asked of a store. -/
inductive Task
  | add (e : Entry)
  | remove (id : String)
  | clear
  | save
  | exportTo (path : String)

/-- A task and what it came to; only a removal gives anything back. -/
structure Event where
  task : Task
  outcome : Except Fault (Option Entry)

/-- The list that a task leaves when it succeeds. -/
def Task.result (l : List Entry) : Task → List Entry
  | .add e => e :: l
  | .remove id => l.eraseP (·.id == id)
  | .clear => []
  | _ => l

/-- Whether a task comes to write a file; a store that is not kept writes none of its own. -/
def Task.Writes (kept : Prop) (l : List Entry) : Task → Prop
  | .remove id => kept ∧ ∃ e ∈ l, e.id = id
  | .exportTo _ => True
  | _ => kept

/-- The steps of a list of entries with the newest first. -/
inductive Step (kept : Prop) : List Entry → Event → List Entry → Prop
  | added (e : Entry) (l) : Step kept l ⟨.add e,.ok none⟩ (e :: l)
  | removed {newer e older} (first : ∀ d ∈ newer, d.id ≠ e.id) :
      Step kept (newer ++ e :: older) ⟨.remove e.id,.ok (some e)⟩ (newer ++ older)
  | missing {id l} (absent : ∀ d ∈ l, d.id ≠ id) :
      Step kept l ⟨.remove id,.error (.notFound id)⟩ l
  | cleared (l) : Step kept l ⟨.clear,.ok none⟩ []
  | saved (l) : Step kept l ⟨.save,.ok none⟩ l
  | exported (path l) : Step kept l ⟨.exportTo path,.ok none⟩ l
  | refused {task l} (reason : String) (writes : task.Writes kept l) :
      Step kept l ⟨task,.error (.io reason)⟩ l

lemma find?_eq_some_split {id : String} {l : List Entry} {e : Entry}
    (h : l.find? (·.id == id) = some e) :
    ∃ newer older, l = newer ++ e :: older ∧ l.eraseP (·.id == id) = newer ++ older ∧ e.id = id ∧
      ∀ d ∈ newer, d.id ≠ e.id := by
  obtain ⟨he,newer,older,rfl,hnewer⟩ := List.find?_eq_some_iff_append.mp h
  simp only [beq_iff_eq] at he
  subst he
  have hnot : ∀ d ∈ newer, d.id ≠ e.id := by simpa using hnewer
  refine ⟨newer,older,rfl,?_,rfl,hnot⟩
  rw [List.eraseP_append_right _ (by simpa using hnewer),List.eraseP_cons_of_pos (by simp)]

lemma find?_split {newer older : List Entry} {e : Entry} (h : ∀ d ∈ newer, d.id ≠ e.id) :
    (newer ++ e :: older).find? (·.id == e.id) = some e ∧
      (newer ++ e :: older).eraseP (·.id == e.id) = newer ++ older := by
  refine ⟨List.find?_eq_some_iff_append.mpr ⟨by simp,newer,older,rfl,by simpa using h⟩,?_⟩
  rw [List.eraseP_append_right _ (by simpa using h),List.eraseP_cons_of_pos (by simp)]

namespace Step
variable {kept : Prop} {l l' : List Entry} {given : Except Fault (Option Entry)}

/-- A task that removes nothing is done or refused. -/
lemma iff_of_ne {task : Task} (h : ∀ id, task ≠ .remove id) : Step kept l ⟨task,given⟩ l' ↔
    given = .ok none ∧ l' = task.result l ∨
      (∃ reason, given = .error (.io reason)) ∧ l' = l ∧ task.Writes kept l := by
  cases task with
  | remove id => exact absurd rfl (h id)
  | _ =>
    constructor
    · rintro (_ | _)
      · exact .inl ⟨rfl,rfl⟩
      · exact .inr ⟨⟨_,rfl⟩,rfl,‹_›⟩
    · rintro (⟨rfl,rfl⟩ | ⟨⟨reason,rfl⟩,rfl,hw⟩)
      · constructor
      · exact .refused reason hw

lemma remove_iff {id : String} : Step kept l ⟨.remove id,given⟩ l' ↔
    l.find? (·.id == id) = none ∧ given = .error (.notFound id) ∧ l' = l ∨
    ∃ e, l.find? (·.id == id) = some e ∧ (given = .ok (some e) ∧ l' = (Task.remove id).result l ∨
      (∃ reason, given = .error (.io reason)) ∧ l' = l ∧ kept) := by
  constructor
  · intro h
    cases h with
    | @removed newer e older first =>
      obtain ⟨hf,hl⟩ := find?_split first
      exact .inr ⟨e,hf,.inl ⟨rfl,hl.symm⟩⟩
    | missing absent => exact .inl ⟨by simpa using absent,rfl,rfl⟩
    | refused reason writes =>
      obtain ⟨hkept,d,hd,rfl⟩ := writes
      have hsome : (l.find? (·.id == d.id)).isSome = true :=
        List.find?_isSome.mpr ⟨d,hd,by simp⟩
      obtain ⟨e,hf⟩ := Option.isSome_iff_exists.mp hsome
      exact .inr ⟨e,hf,.inr ⟨⟨reason,rfl⟩,rfl,hkept⟩⟩
  · rintro (⟨hf,rfl,rfl⟩ | ⟨e,hf,⟨rfl,rfl⟩ | ⟨⟨reason,rfl⟩,rfl,hkept⟩⟩)
    · exact .missing (by simpa using hf)
    · obtain ⟨newer,older,rfl,hl,rfl,first⟩ := find?_eq_some_split hf
      rw [Task.result,hl]
      exact .removed first
    · exact .refused reason ⟨hkept,e,List.mem_of_find?_eq_some hf,by simpa using List.find?_some hf⟩

end Step

/-- Events one after the other, each by a step. -/
inductive Trace {σ : Type} (step : σ → Event → σ → Prop) : σ → List Event → σ → Prop
  | nil (x : σ) : Trace step x [] x
  | snoc {x events y v z} (events_before : Trace step x events y) (last : step y v z) :
      Trace step x (events ++ [v]) z

namespace Store

/-- What carries out a task, with what the task gives back and the store it leaves. -/
def perform (s : Store) : Task → Plan (Except Fault (Option Entry) × Store)
  | .add e => do
    let (outcome,changed) ← s.add e
    return (outcome.map fun _ => none,changed)
  | .remove id => do
    let (outcome,changed) ← s.take id
    return (outcome.map some,changed)
  | .clear => do
    let (outcome,changed) ← s.clear
    return (outcome.map fun _ => none,changed)
  | .save => do return ((← s.save).map fun _ => none,s)
  | .exportTo path => do return ((← s.exportTo path).map fun _ => none,s)

variable {path : String} {r r' : Reading} {s t : Store} {outcome : Except Fault Unit}
  {given : Except Fault (Option Entry)}

/-! What the world may answer to a write -/

lemma exists_runs_save : (∃ r', s.save.Runs path r outcome r') ↔
    outcome = .ok () ∨ (∃ reason, outcome = .error (.io reason)) ∧ s.path ≠ none := by
  cases hp : s.path with
  | none => simp [save,hp]
  | some q =>
    constructor
    · rintro ⟨r',h⟩
      rcases runs_save h with ⟨ho,-⟩ | ⟨reason,ho,-⟩
      · exact .inl ho
      · exact .inr ⟨⟨reason,ho⟩,by simp⟩
    · rintro (rfl | ⟨⟨reason,rfl⟩,-⟩)
      · exact ⟨_,runs_save_made hp⟩
      · exact ⟨r,runs_save_refused hp reason⟩

lemma exists_runs_exportTo {q : String} : (∃ r', (s.exportTo q).Runs path r outcome r') ↔
    outcome = .ok () ∨ ∃ reason, outcome = .error (.io reason) := by
  constructor
  · rintro ⟨r',h⟩
    exact (runs_exportTo h).imp And.left fun ⟨reason,ho,_⟩ => ⟨reason,ho⟩
  · rintro (rfl | ⟨reason,rfl⟩)
    · exact ⟨_,Plan.runs_bind.mpr ⟨.ok (),_,.write (.done _ _),.done _ _⟩⟩
    · exact ⟨r,Plan.runs_bind.mpr ⟨.error reason,r,.writeFails reason (.done _ _),.done _ _⟩⟩

/-- A change is made, or refused if there is a file to write. -/
lemma exists_runs_commit {entries : List Entry} :
    (∃ r', (s.commit entries).Runs path r (outcome,t) r') ↔
      (outcome = .ok () ∧ t = { s with entries := entries }) ∨
      (∃ reason, outcome = .error (.io reason)) ∧ t = s ∧ s.path ≠ none := by
  let changed : Store := { s with entries := entries }
  simp only [commit,Plan.runs_bind]
  constructor
  · rintro ⟨r',saved,r₁,hs,h⟩
    rcases exists_runs_save.mp ⟨r₁,hs⟩ with rfl | ⟨⟨reason,rfl⟩,hp⟩
    · exact .inl (Prod.mk.inj (Plan.runs_pure.mp h).1)
    · obtain ⟨ho,ht⟩ := Prod.mk.inj (Plan.runs_pure.mp h).1
      exact .inr ⟨⟨reason,ho⟩,ht,hp⟩
  · rintro (⟨rfl,rfl⟩ | ⟨⟨reason,rfl⟩,rfl,hp⟩)
    · have hmade : ∃ r', changed.save.Runs path r (.ok ()) r' := exists_runs_save.mpr (.inl rfl)
      obtain ⟨r₁,hs⟩ := hmade
      exact ⟨r₁,.ok (),r₁,hs,.done _ _⟩
    · have hrefused : ∃ r', changed.save.Runs path r (.error (.io reason)) r' :=
        exists_runs_save.mpr (.inr ⟨⟨reason,rfl⟩,hp⟩)
      obtain ⟨r₁,hs⟩ := hrefused
      exact ⟨r₁,.error (.io reason),r₁,hs,.done _ _⟩

/-! Each task by itself -/

/-- What a plan gives back does not touch what it does. -/
lemma exists_runs_given {α : Type} {p : Plan (Except Fault α × Store)} {f : α → Option Entry} :
    (∃ r', (do let (outcome,changed) ← p; return (outcome.map f,changed) : Plan _).Runs path r
      (given,t) r') ↔ ∃ outcome, given = outcome.map f ∧ ∃ r', p.Runs path r (outcome,t) r' := by
  simp only [Plan.runs_bind,Plan.runs_pure]
  constructor
  · rintro ⟨r₁,⟨outcome,_⟩,_,hp,he,rfl⟩
    cases he
    exact ⟨outcome,rfl,r₁,hp⟩
  · rintro ⟨outcome,rfl,r₁,hp⟩
    exact ⟨r₁,(outcome,t),r₁,hp,rfl,rfl⟩

lemma eq_iff_path_entries {entries : List Entry} :
    t = { s with entries := entries } ↔ t.path = s.path ∧ t.entries = entries := by
  constructor
  · rintro rfl
    exact ⟨rfl,rfl⟩
  · rintro ⟨hp,rfl⟩
    rw [← hp]

/-- A change of all the entries is made, or refused if there is a file to write. -/
lemma exists_runs_change {entries : List Entry} {f : Unit → Option Entry} :
    (∃ o, given = o.map f ∧ ∃ r', (s.commit entries).Runs path r (o,t) r') ↔ t.path = s.path ∧
      (given = .ok (f ()) ∧ t.entries = entries ∨
        (∃ reason, given = .error (.io reason)) ∧ t.entries = s.entries ∧ s.path ≠ none) := by
  have hs : t = s ↔ t.path = s.path ∧ t.entries = s.entries := eq_iff_path_entries
  simp only [exists_runs_commit,eq_iff_path_entries,hs]
  constructor
  · rintro ⟨_,rfl,⟨rfl,hpath,he⟩ | ⟨⟨reason,rfl⟩,⟨hpath,he⟩,hp⟩⟩
    · exact ⟨hpath,.inl ⟨rfl,he⟩⟩
    · exact ⟨hpath,.inr ⟨⟨reason,rfl⟩,he,hp⟩⟩
  · rintro ⟨hpath,⟨rfl,he⟩ | ⟨⟨reason,rfl⟩,he,hp⟩⟩
    · exact ⟨.ok (),rfl,.inl ⟨rfl,hpath,he⟩⟩
    · exact ⟨.error (.io reason),rfl,.inr ⟨⟨reason,rfl⟩,⟨hpath,he⟩,hp⟩⟩

/-- A write that changes no entry. -/
lemma exists_runs_write {p : Plan (Except Fault Unit)} :
    (∃ r', (do return ((← p).map fun _ => none,s) : Plan _).Runs path r (given,t) r') ↔
      t.path = s.path ∧ t.entries = s.entries ∧
        ∃ o, given = o.map (fun _ => none) ∧ ∃ r', p.Runs path r o r' := by
  have hs : t = s ↔ t.path = s.path ∧ t.entries = s.entries := eq_iff_path_entries
  simp only [Plan.runs_bind,Plan.runs_pure,← and_assoc,← hs]
  constructor
  · rintro ⟨r₁,o,_,⟨hp,he⟩,rfl⟩
    cases he
    exact ⟨rfl,o,rfl,r₁,hp⟩
  · rintro ⟨rfl,o,rfl,r₁,hp⟩
    exact ⟨r₁,o,r₁,⟨hp,rfl⟩,rfl⟩

/-- A task that writes what is there is done or refused, as its write is. -/
lemma exists_runs_writing {p : Plan (Except Fault Unit)} {writes : Prop}
    (h : ∀ o, (∃ r', p.Runs path r o r') ↔
      o = .ok () ∨ (∃ reason, o = .error (.io reason)) ∧ writes) :
    (∃ r', (do return ((← p).map fun _ => none,s) : Plan _).Runs path r (given,t) r') ↔
      t.path = s.path ∧ (given = .ok none ∧ t.entries = s.entries ∨
        (∃ reason, given = .error (.io reason)) ∧ t.entries = s.entries ∧ writes) := by
  rw [exists_runs_write]
  refine and_congr_right fun _ => ?_
  constructor
  · rintro ⟨he,o,rfl,hp⟩
    rcases (h o).mp hp with rfl | ⟨⟨reason,rfl⟩,hw⟩
    · exact .inl ⟨rfl,he⟩
    · exact .inr ⟨⟨reason,rfl⟩,he,hw⟩
  · rintro (⟨rfl,he⟩ | ⟨⟨reason,rfl⟩,he,hw⟩)
    · exact ⟨he,.ok (),rfl,(h _).mpr (.inl rfl)⟩
    · exact ⟨he,.error (.io reason),rfl,(h _).mpr (.inr ⟨⟨reason,rfl⟩,hw⟩)⟩

/-- A store that performs a task takes the event as a step of its list, and it may take each one. -/
lemma exists_runs_perform {task : Task} :
    (∃ r', (s.perform task).Runs path r (given,t) r') ↔
      t.path = s.path ∧ Step (s.path ≠ none) s.entries ⟨task,given⟩ t.entries := by
  cases task with
  | add e =>
    rw [Step.iff_of_ne (by simp),perform,add_eq_commit]
    exact exists_runs_given.trans exists_runs_change
  | clear =>
    rw [Step.iff_of_ne (by simp),perform,clear_eq_commit]
    exact exists_runs_given.trans exists_runs_change
  | save =>
    rw [Step.iff_of_ne (by simp)]
    exact exists_runs_writing fun o => exists_runs_save
  | exportTo q =>
    rw [Step.iff_of_ne (by simp)]
    exact exists_runs_writing fun o => by rw [exists_runs_exportTo,Task.Writes,and_true]
  | remove id =>
    rw [Step.remove_iff]
    refine exists_runs_given.trans ?_
    simp only [runs_take]
    constructor
    · rintro ⟨_,rfl,r₁,⟨hf,rfl,rfl,rfl⟩ | ⟨e,o,hf,rfl,hw⟩⟩
      · exact ⟨rfl,.inl ⟨hf,rfl,rfl⟩⟩
      · have hgiven : (o.map fun _ => e).map some = o.map fun _ => some e := by cases o <;> rfl
        obtain ⟨hpath,h⟩ := exists_runs_change.mp ⟨o,hgiven,r₁,hw⟩
        exact ⟨hpath,.inr ⟨e,hf,h⟩⟩
    · rintro ⟨hpath,⟨hf,rfl,he⟩ | ⟨e,hf,h⟩⟩
      · exact ⟨_,rfl,r,.inl ⟨hf,rfl,eq_iff_path_entries.mpr ⟨hpath,he⟩,rfl⟩⟩
      · obtain ⟨o,hg,r₁,hw⟩ := (exists_runs_change (f := fun _ => some e)).mpr ⟨hpath,h⟩
        refine ⟨o.map fun _ => e,?_,r₁,.inr ⟨e,o,hf,rfl,hw⟩⟩
        rw [hg]
        cases o <;> rfl

/-! Any number of tasks -/

/-- A task performed by a store, whatever the world answers. -/
def Performed (path : String) (x : Store × Reading) (v : Event) (y : Store × Reading) : Prop :=
  (x.1.perform v.task).Runs path x.2 (v.outcome,y.1) y.2

/-- What a store performs, its list of entries goes through. -/
lemma trace_of_performed {events : List Event} {x y : Store × Reading}
    (h : Trace (Performed path) x events y) :
    y.1.path = x.1.path ∧ Trace (Step (x.1.path ≠ none)) x.1.entries events y.1.entries := by
  induction h with
  | nil => exact ⟨rfl,.nil _⟩
  | snoc _ last ih =>
    obtain ⟨hpath,hstep⟩ := exists_runs_perform.mp ⟨_,last⟩
    rw [ih.1] at hpath hstep
    exact ⟨hpath,ih.2.snoc hstep⟩

/-- What a list of entries can go through, a store may perform. -/
lemma exists_performed {p : Option String} {events : List Event} {l l' : List Entry}
    (h : Trace (Step (p ≠ none)) l events l') (r : Reading) :
    ∃ r', Trace (Performed path) (⟨p,l⟩,r) events (⟨p,l'⟩,r') := by
  induction h with
  | nil => exact ⟨r,.nil _⟩
  | @snoc _ l₁ v l' _ last ih =>
    obtain ⟨r₁,hbefore⟩ := ih
    obtain ⟨r₂,hlast⟩ := (exists_runs_perform (s := ⟨p,l₁⟩) (t := ⟨p,l'⟩)).mpr ⟨rfl,last⟩
    exact ⟨r₂,hbefore.snoc hlast⟩

lemma exists_performed_iff {events : List Event} :
    (∃ r', Trace (Performed path) (s,r) events (t,r')) ↔
      t.path = s.path ∧ Trace (Step (s.path ≠ none)) s.entries events t.entries := by
  constructor
  · rintro ⟨r',h⟩
    exact trace_of_performed h
  · rintro ⟨hpath,h⟩
    obtain ⟨r',h⟩ := exists_performed h r
    have ht : (⟨s.path,t.entries⟩ : Store) = t := by rw [← hpath]
    exact ⟨r',ht ▸ h⟩

end Store

end Formulary.History
