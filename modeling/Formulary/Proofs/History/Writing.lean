import Formulary.History.Store
import Formulary.Proofs.Files.Runs
import Mathlib.Data.List.InsertIdx

/-! What the operations of a store do to its file. Undoing a change gives back the entries that were
there before it, so each change takes place once all the entries are written: then the file holds the
new ones, and else both the file and the entries stay as they were. -/
namespace Formulary.History.Store
open Files

/-! Changes take place or not at all -/

/-- The entries that a store shall have, once they are written; else the store as it is. -/
def commit (s : Store) (entries : List Entry) : Plan (Except Fault Unit × Store) := do
  let changed := { s with entries := entries }
  match ← changed.save with
  | .ok () => return (.ok (),changed)
  | .error e => return (.error e,s)

section
variable (s : Store)

/-- If the undoing gives back the entries, it makes no difference that the change was made first. -/
lemma change_eq_commit {entries : List Entry} {undo : List Entry → List Entry}
    (h : undo entries = s.entries) : s.change entries undo = s.commit entries := by
  refine congrArg (Plan.andThen _) (funext fun outcome => ?_)
  cases outcome with
  | ok u => rfl
  | error e =>
    change Plan.done (Except.error e,{ s with entries := undo entries }) = Plan.done (.error e,s)
    rw [h]

lemma add_eq_commit (e : Entry) : s.add e = s.commit (e :: s.entries) :=
  s.change_eq_commit rfl

lemma clear_eq_commit : s.clear = s.commit [] :=
  s.change_eq_commit rfl

/-- The place that is found is that of the first entry with the id, and an entry that was taken out
of a place is put back there. -/
lemma take_eq_commit (id : String) :
    s.take id = match s.get? id with
      | none => return (.error (.notFound id),s)
      | some e => do
        let (outcome,changed) ← s.commit (s.entries.eraseP (·.id == id))
        return (outcome.map fun _ => e,changed) := by
  unfold take
  cases hi : s.entries.findFinIdx? (·.id == id) with
  | none =>
    have hnone : s.get? id = none := List.find?_eq_none.mpr (List.findFinIdx?_eq_none_iff.mp hi)
    rw [hnone]
  | some i =>
    obtain ⟨hid,hnewer⟩ := List.findFinIdx?_eq_some_iff.mp hi
    have hsome : s.get? id = some s.entries[i] :=
      List.find?_eq_some_iff_getElem.mpr ⟨hid,i,i.isLt,rfl,fun j hj => by
        simpa using hnewer ⟨j,Nat.lt_trans hj i.isLt⟩ hj⟩
    have herase : s.entries.eraseIdx i = s.entries.eraseP (·.id == id) := by
      rw [List.eraseP_eq_eraseIdx,List.findIdx?_eq_map_findFinIdx?_val,hi]
      rfl
    have hchange : (s.change (s.entries.eraseIdx i) fun l => l.insertIdx i s.entries[i]) =
        s.commit (s.entries.eraseIdx i) :=
      s.change_eq_commit (List.insertIdx_eraseIdx_getElem i.isLt)
    simp only [hsome]
    rw [hchange,herase]

end

/-! What is written -/

/-- What the file of a store holds once the store has been written. -/
def written (s : Store) : Reading := .bytes s.exported.toUTF8

/-- A change of the entries takes place in the store and in its file, or not at all. A store that is
kept elsewhere, or nowhere, may leave the file alone. -/
inductive Changed (path : String) (s : Store) (entries : List Entry) (r : Reading) :
    Except Fault Unit → Store → Reading → Prop
  | made {r' : Reading}
      (hr : r' = written { s with entries := entries } ∨ s.path ≠ some path ∧ r' = r) :
      Changed path s entries r (.ok ()) { s with entries := entries } r'
  | refused (reason : String) : Changed path s entries r (.error (.io reason)) s r

variable {path : String} {r r' : Reading} {s t : Store} {outcome : Except Fault Unit}

lemma runs_save (h : s.save.Runs path r outcome r') :
    (outcome = .ok () ∧ (r' = s.written ∨ s.path ≠ some path ∧ r' = r)) ∨
      ∃ reason, outcome = .error (.io reason) ∧ r' = r := by
  unfold save at h
  cases hp : s.path with
  | none =>
    simp only [hp,Plan.runs_pure] at h
    exact .inl ⟨h.1,.inr ⟨by simp,h.2⟩⟩
  | some q =>
    simp only [hp,Plan.runs_bind] at h
    obtain ⟨made,r₁,hm,h⟩ := h
    obtain rfl := Plan.runs_makeParent hm
    cases made with
    | error reason => exact .inr ⟨reason,Plan.runs_pure.mp h⟩
    | ok u =>
      obtain ⟨written,r₂,hw,h⟩ := Plan.runs_bind.mp h
      obtain ⟨rfl,rfl⟩ := Plan.runs_pure.mp h
      rcases Plan.runs_writeFile hw with ⟨rfl,hr⟩ | ⟨rfl,hq,hr⟩ | ⟨reason,rfl,hr⟩
      · exact .inl ⟨rfl,.inl hr⟩
      · exact .inl ⟨rfl,.inr ⟨by simpa using hq,hr⟩⟩
      · exact .inr ⟨reason,rfl,hr⟩

/-- The world may let a store be written. -/
lemma runs_save_made {q : String} (hp : s.path = some q) :
    s.save.Runs path r (.ok ()) s.written := by
  simp only [save,hp]
  exact Plan.runs_bind.mpr ⟨_,r,Plan.runs_makeParent_made,
    Plan.runs_bind.mpr ⟨.ok (),_,.write (.done _ _),.done _ _⟩⟩

/-- The world may refuse to let a store be written, for any reason. -/
lemma runs_save_refused {q : String} (hp : s.path = some q) (reason : String) :
    s.save.Runs path r (.error (.io reason)) r := by
  simp only [save,hp]
  exact Plan.runs_bind.mpr ⟨_,r,Plan.runs_makeParent_made,
    Plan.runs_bind.mpr ⟨.error reason,_,.writeFails reason (.done _ _),.done _ _⟩⟩

lemma runs_commit {entries : List Entry} (h : (s.commit entries).Runs path r (outcome,t) r') :
    Changed path s entries r outcome t r' := by
  simp only [commit,Plan.runs_bind] at h
  obtain ⟨saved,r₁,hs,h⟩ := h
  rcases runs_save hs with ⟨rfl,hr⟩ | ⟨reason,rfl,rfl⟩
  · obtain ⟨he,rfl⟩ := Plan.runs_pure.mp h
    cases he
    exact .made hr
  · obtain ⟨he,rfl⟩ := Plan.runs_pure.mp h
    cases he
    exact .refused reason

/-- The world may let any change be made. -/
lemma runs_commit_made {entries : List Entry} (hp : s.path = some path) :
    (s.commit entries).Runs path r (.ok (),{ s with entries := entries })
      (written { s with entries := entries }) :=
  Plan.runs_bind.mpr ⟨_,_,runs_save_made hp,Plan.runs_pure.mpr ⟨rfl,rfl⟩⟩

/-- The world may refuse any change. -/
lemma runs_commit_refused {entries : List Entry} {q : String} (hp : s.path = some q)
    (reason : String) : (s.commit entries).Runs path r (.error (.io reason),s) r :=
  Plan.runs_bind.mpr ⟨.error (.io reason),r,
    runs_save_refused (s := { s with entries := entries }) hp reason,.done _ _⟩

lemma runs_add {e : Entry} (h : (s.add e).Runs path r (outcome,t) r') :
    Changed path s (e :: s.entries) r outcome t r' := runs_commit (s.add_eq_commit e ▸ h)

lemma runs_clear (h : s.clear.Runs path r (outcome,t) r') : Changed path s [] r outcome t r' :=
  runs_commit (s.clear_eq_commit ▸ h)

lemma runs_add_made {e : Entry} (hp : s.path = some path) :
    (s.add e).Runs path r (.ok (),{ s with entries := e :: s.entries })
      (written { s with entries := e :: s.entries }) :=
  s.add_eq_commit e ▸ runs_commit_made hp

lemma runs_add_refused {e : Entry} (hp : s.path = some path) (reason : String) :
    (s.add e).Runs path r (.error (.io reason),s) r :=
  s.add_eq_commit e ▸ runs_commit_refused hp reason

/-- Nothing is written for an entry that is not there; one that is there is given back. -/
lemma runs_take {id : String} {taken : Except Fault Entry} :
    (s.take id).Runs path r (taken,t) r' ↔
      (s.get? id = none ∧ taken = .error (.notFound id) ∧ t = s ∧ r' = r) ∨
      ∃ e outcome, s.get? id = some e ∧ taken = outcome.map (fun _ => e) ∧
        (s.commit (s.entries.eraseP (·.id == id))).Runs path r (outcome,t) r' := by
  rw [take_eq_commit]
  cases hf : s.get? id with
  | none => simp [and_assoc]
  | some e =>
    simp only [Plan.runs_bind,Plan.runs_pure]
    constructor
    · rintro ⟨⟨outcome,_⟩,_,hw,he,rfl⟩
      cases he
      exact .inr ⟨e,outcome,rfl,rfl,hw⟩
    · rintro (⟨hn,-⟩ | ⟨_,outcome,⟨⟩,rfl,hw⟩)
      · cases hn
      · exact ⟨(outcome,t),r',hw,rfl,rfl⟩

lemma runs_remove {id : String} (h : (s.remove id).Runs path r (outcome,t) r') :
    (s.get? id = none ∧ outcome = .error (.notFound id) ∧ t = s ∧ r' = r) ∨
      Changed path s (s.entries.eraseP (·.id == id)) r outcome t r' := by
  simp only [remove,Plan.runs_bind,Plan.runs_pure] at h
  obtain ⟨⟨taken,_⟩,_,hw,he,rfl⟩ := h
  cases he
  rcases runs_take.mp hw with ⟨hn,rfl,rfl,rfl⟩ | ⟨e,outcome,-,rfl,hc⟩
  · exact .inl ⟨hn,rfl,rfl,rfl⟩
  · refine .inr ?_
    cases outcome <;> exact runs_commit hc

/-- A copy is written or refused, and one that reaches the file itself is what a save writes. -/
lemma runs_exportTo {q : String} (h : (s.exportTo q).Runs path r outcome r') :
    (outcome = .ok () ∧ (r' = r ∨ r' = s.written)) ∨
      ∃ reason, outcome = .error (.io reason) ∧ r' = r := by
  obtain ⟨written,r₁,hw,h⟩ := Plan.runs_bind.mp h
  obtain ⟨rfl,rfl⟩ := Plan.runs_pure.mp h
  rcases Plan.runs_writeFile hw with ⟨rfl,hr⟩ | ⟨rfl,-,hr⟩ | ⟨reason,rfl,hr⟩
  · exact .inl ⟨rfl,.inr hr⟩
  · exact .inl ⟨rfl,.inl hr⟩
  · exact .inr ⟨reason,rfl,hr⟩

/-- No change moves the store to another file. -/
lemma Changed.path_eq {entries : List Entry} (h : Changed path s entries r outcome t r') :
    t.path = s.path := by
  cases h <;> rfl

lemma runs_tellDamage {text : Option String} {u : Unit} :
    (tellDamage path text).Runs path r u r' ↔ r' = r := by
  cases text with
  | none => simp [tellDamage]
  | some text => simp [tellDamage]

/-- Loading reads the file and changes nothing. -/
lemma runs_load {loaded : Except Fault Store} :
    (load path).Runs path r loaded r' ↔
      loaded = (Loaded.ofReading r).map (fun l => ⟨some path,l.entries⟩) ∧ r' = r := by
  simp only [load,Plan.runs_bind,Plan.runs_readFile]
  cases hl : Loaded.ofReading r with
  | error e =>
    constructor
    · rintro ⟨answer,r₁,⟨rfl,rfl⟩,h⟩
      simpa [hl,Except.map] using h
    · rintro ⟨rfl,rfl⟩
      exact ⟨r',r',⟨rfl,rfl⟩,by simp [hl,Except.map]⟩
  | ok l =>
    constructor
    · rintro ⟨answer,r₁,⟨rfl,rfl⟩,h⟩
      simp only [hl,Plan.runs_bind,runs_tellDamage,Plan.runs_tell,Plan.runs_pure] at h
      obtain ⟨_,_,rfl,_,_,rfl,hloaded,hr⟩ := h
      exact ⟨hloaded,hr⟩
    · rintro ⟨rfl,rfl⟩
      refine ⟨r',r',⟨rfl,rfl⟩,?_⟩
      simp [hl,Except.map,runs_tellDamage]

end Formulary.History.Store
