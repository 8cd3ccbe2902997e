import Formulary.Session.Opening
import Formulary.Proofs.History.Durability
import Formulary.Proofs.Session.LastAnalysis

/-! What has been saved can be replayed. As long as its entry is not deleted, a computation gives the
answer and the script that it gave when it was saved, in the same session and in a later one. -/
namespace Formulary

namespace History.Store
open Files

variable {path : String} {r r' : Reading} {s t : Store} {e : Entry}

/-- An entry is found by its name, in the store and in the file if that is the one of the store. -/
structure Holds (path : String) (e : Entry) (s : Store) (r : Reading) : Prop where
  found : s.get? e.id = some e
  written : s.path = some path → r = s.written

lemma Holds.changed {entries : List Entry} {outcome : Except Fault Unit} (h : s.Holds path e r)
    (he : entries.find? (·.id == e.id) = some e)
    (hc : Changed path s entries r outcome t r') : t.Holds path e r' := by
  cases hc with
  | refused => exact h
  | made hr =>
    refine ⟨he,fun hp => ?_⟩
    rcases hr with hr | ⟨hne,-⟩
    · exact hr
    · exact absurd hp hne

/-- A new entry is found at once. -/
lemma holds_add (h : (s.add e).Runs path r (.ok (),t) r') : t.Holds path e r' := by
  cases runs_add h with
  | made hr =>
    refine ⟨by simp [get?],fun hp => ?_⟩
    rcases hr with hr | ⟨hne,-⟩
    · exact hr
    · exact absurd hp hne

/-- An entry of another name does not hide it. -/
lemma Holds.add {e' : Entry} {outcome : Except Fault Unit} (h : s.Holds path e r)
    (hne : e'.id ≠ e.id) (hw : (s.add e').Runs path r (outcome,t) r') : t.Holds path e r' :=
  h.changed (by simpa [hne,get?] using h.found) (runs_add hw)

lemma find?_eraseP_of_ne {id id' : String} (h : id ≠ id') (entries : List Entry) :
    (entries.eraseP (·.id == id')).find? (·.id == id) = entries.find? (·.id == id) := by
  induction entries with
  | nil => rfl
  | cons e entries ih =>
    by_cases he : e.id = id'
    · simp [he,h.symm]
    · simp [he,List.find?_cons,ih]

lemma Holds.remove {id : String} {outcome : Except Fault Unit} (h : s.Holds path e r)
    (hne : e.id ≠ id) (hw : (s.remove id).Runs path r (outcome,t) r') : t.Holds path e r' := by
  rcases runs_remove hw with ⟨-,-,rfl,rfl⟩ | hc
  · exact h
  · exact h.changed ((find?_eraseP_of_ne hne s.entries).trans h.found) hc

lemma Holds.exportTo {q : String} {outcome : Except Fault Unit} (h : s.Holds path e r)
    (hw : (s.exportTo q).Runs path r outcome r') : s.Holds path e r' := by
  rcases runs_exportTo hw with ⟨-,rfl | hr⟩ | ⟨-,-,rfl⟩
  · exact h
  · exact ⟨h.found,fun _ => hr⟩
  · exact h

lemma Changed.entries_eq {entries : List Entry} {outcome : Except Fault Unit}
    (h : Changed path s entries r outcome t r') : t.entries = entries ∨ t.entries = s.entries := by
  cases h with
  | made => exact .inl rfl
  | refused => exact .inr rfl

end History.Store

namespace Session
open Files (Reading)
open History (Entry Storable)

variable {path : String} {r r' : Reading} {s s' : State} {o : Occasion} {q : Request} {e : Entry}

/-- Commands that let an entry be: they neither delete it nor clear the history, and what they save
gets another name. -/
def Spares (id : String) (o : Occasion) (i : Invocation) : Prop :=
  o.id ≠ id ∧ Request.ofCommand i.command i.args ≠ .ok (.delete id) ∧
    Request.ofCommand i.command i.args ≠ .ok .clear

namespace State

/-- Replaying an entry answers what its computation answers, with the script it was saved with. -/
structure Replays (s : State) (e : Entry) (a : Answer) : Prop where
  direct : (s.compute e.computation).outcome = .ok a
  replayed : (s.replay e.id).outcome = .ok a
  script : (a.script s.settings).text = e.script

/-- A session replays an entry if it finds it and its configuration is the one it was saved under. -/
lemma replays_of_found {c : History.Computation} {a : Answer} (ha : answerTo s.config c = .ok a)
    (hconfig : s'.config = s.config) (hf : s'.history.get? (s.entryOf o c a).id =
      some (s.entryOf o c a)) : s'.Replays (s.entryOf o c a) a := by
  have ha' : answerTo s'.config (s.entryOf o c a).computation = .ok a := by
    rw [hconfig]
    exact ha
  refine ⟨ha',?_,?_⟩
  · simp [replay,entry,hf,compute,ha']
  · rw [settings,hconfig]
    rfl

/-- A request that spares an entry leaves it in the history and in the file. -/
lemma Served.holds (hs : Served path s o r q s' r') (h : s.history.Holds path e r)
    (hid : o.id ≠ e.id) (hdelete : q ≠ .delete e.id) (hclear : q ≠ .clear) :
    s'.history.Holds path e r' := by
  cases hs with
  | computed q c =>
    rw [record_history]
    exact h
  | saved c a n hc hw => exact h.add hid hw
  | deleted id hw => exact h.remove (by rintro rfl; exact hdelete rfl) hw
  | cleared hw => exact absurd rfl hclear
  | exported q hw => exact h.exportTo hw
  | _ => exact h

/-- So does any number of commands that spare it. -/
lemma holds_commands (h : s.history.Holds path e r)
    (hc : Commands path (Spares e.id) (s,r) (s',r')) :
    s'.history.Holds path e r' ∧ s'.config = s.config ∧ s'.history.path = s.history.path := by
  refine hc.keeps (fun t r => t.history.Holds path e r ∧ t.config = s.config ∧
    t.history.path = s.history.path) ?_ ⟨h,rfl,rfl⟩
  rintro t r o i q t' r' ⟨hid,hdelete,hclear⟩ hq hs ⟨ht,hconfig,hpath⟩
  rw [hq] at hdelete hclear
  exact ⟨hs.holds ht hid (by simpa using hdelete) (by simpa using hclear),
    hs.config_eq.trans hconfig,hs.path_eq.trans hpath⟩

/-- A session that is opened on a file that can be loaded has the history of the file. -/
lemma runs_openState_iff {config : Config} {t : History.Store} {outcome : Except Fault State}
    (hpath : config.historyPath = some path) (hr : r = t.written) (ht : t.path = some path)
    (hs : Storable t.entries) :
    (openState config).Runs path r outcome r' ↔ outcome = .ok (.start config t) ∧ r' = r := by
  have hload {x : Except History.Fault History.Store} {r₁ : Reading} :
      (History.Store.load path).Runs path r x r₁ ↔ x = .ok t ∧ r₁ = r :=
    History.Store.IsKept.runs_load_iff ⟨ht,.inl hr⟩ hs
  simp only [openState,openHistory,hpath,Files.Plan.runs_bind,hload]
  constructor
  · rintro ⟨_,_,⟨rfl,rfl⟩,h⟩
    simpa using h
  · rintro ⟨rfl,rfl⟩
    exact ⟨_,_,⟨rfl,rfl⟩,by simp⟩

/-- What a successful save leaves: the entry of the answer, found in the history. -/
lemma holds_save {c : History.Computation} (h : (s.save o c).Runs path r ⟨.ok e,s'⟩ r') :
    ∃ a, answerTo s.config c = .ok a ∧ e = s.entryOf o c a ∧ s'.history.Holds path e r' ∧
      Served path s o r (.save c) s' r' := by
  rcases runs_save h with ⟨_,-,ht,-⟩ | ⟨a,outcome,history,ha,hw,ht⟩
  · cases ht
  · cases outcome with
    | error _ => cases ht
    | ok u =>
      cases ht
      exact ⟨a,ha,rfl,History.Store.holds_add hw,.saved c a _ ha hw⟩

/-- What has an answer has finite numbers. -/
lemma isFinite_of_answerTo {config : Config} {c : History.Computation} {a : Answer}
    (h : answerTo config c = .ok a) : c.IsFinite := by
  cases c with
  | function expression p =>
    obtain ⟨l,hl,-⟩ := map_eq_ok_iff.mp h
    obtain ⟨-,hfresh,-,rfl⟩ := analysedOf_eq_ok_iff.mp hl
    obtain ⟨hx0,ha,hb,samples,hsample,-⟩ := Calculus.analyze_eq_ok_iff.mp hfresh.analyzed
    obtain ⟨hlo,hhi,-⟩ := Calculus.sample_eq_ok_iff.mp hsample
    rw [Calculus.requireFinite_eq_ok_iff] at hx0 ha hb
    simp [History.Computation.IsFinite,History.Computation.floats,hlo,hhi,hx0,ha,hb]
  | _ => exact List.forall_mem_nil _

/-- Whatever a request adds to a history has finite numbers. -/
lemma Served.isFinite (hs : Served path s o r q s' r') {e : Entry} (he : e ∈ s'.history.entries) :
    e ∈ s.history.entries ∨ e.computation.IsFinite := by
  cases hs with
  | computed q c =>
    rw [record_history] at he
    exact .inl he
  | saved c a n hc hw =>
    rcases (History.Store.runs_add hw).entries_eq with h | h
    · rcases List.mem_cons.mp (h ▸ he) with rfl | he
      · exact .inr (isFinite_of_answerTo hc)
      · exact .inl he
    · exact .inl (h ▸ he)
  | deleted id hw =>
    rcases History.Store.runs_remove hw with ⟨-,-,rfl,-⟩ | hw
    · exact .inl he
    · rcases hw.entries_eq with h | h
      · exact .inl (List.mem_of_mem_eraseP (h ▸ he))
      · exact .inl (h ▸ he)
  | cleared hw =>
    rcases (History.Store.runs_clear hw).entries_eq with h | h
    · exact absurd (h ▸ he) List.not_mem_nil
    · exact .inl (h ▸ he)
  | _ => exact .inl he

/-- What was saved is replayed, after any commands that spare its entry, to the answer of its inputs
and the script of its entry; and so it is in a session that is then opened on the same file, if every
number in it is read back and what was there before the save is finite. -/
theorem replays_after_save {c : History.Computation} {s'' : State} {r'' : Reading}
    (hsave : (s.save o c).Runs path r ⟨.ok e,s'⟩ r')
    (hc : Commands path (Spares e.id) (s',r') (s'',r'')) :
    ∃ a, (s.compute c).outcome = .ok a ∧ e.computation = c ∧ s''.Replays e a ∧
      (s.config.historyPath = some path → s.history.path = some path →
        (∀ e' ∈ s''.history.entries, (e' ∈ s.history.entries → e'.computation.IsFinite) ∧
          ∀ n ∈ e'.value.numbers, n.ReadsBack) →
        ∃ anew, anew.Replays e a ∧ ∀ outcome r₁, (openState s.config).Runs path r'' outcome r₁ ↔
          outcome = .ok anew ∧ r₁ = r'') := by
  obtain ⟨a,ha,rfl,hholds,hserved⟩ := holds_save hsave
  obtain ⟨hholds,hconfig',hpath'⟩ := holds_commands hholds hc
  refine ⟨a,ha,rfl,replays_of_found ha (hconfig'.trans hserved.config_eq) hholds.found,?_⟩
  intro hfile hs hentries
  have hpath : s''.history.path = some path := (hpath'.trans hserved.path_eq).trans hs
  have hfinite : ∀ e ∈ s''.history.entries, e ∈ s.history.entries ∨ e.computation.IsFinite := by
    refine hc.keeps (fun t _ => ∀ e ∈ t.history.entries, e ∈ s.history.entries ∨
      e.computation.IsFinite) ?_ fun e he => hserved.isFinite he
    exact fun _ _ _ _ _ _ _ _ _ hs ht e he => (hs.isFinite he).elim (ht e) .inr
  have hstorable : Storable s''.history.entries := fun e he => by
    obtain ⟨hbefore,hnumbers⟩ := hentries e he
    exact History.Computation.storable_iff.mpr
      ⟨(hfinite e he).elim hbefore id,e.numbers_value ▸ hnumbers⟩
  exact ⟨start s.config s''.history,replays_of_found ha rfl hholds.found,
    fun outcome r₁ => runs_openState_iff hfile (hholds.written hpath) hpath hstorable⟩

/-- A session whose history is kept in a file, which is not there yet. -/
def keptSession : State :=
  start { Config.standard with historyPath := some "history.json" } ⟨some "history.json",[]⟩

def squareComputation : History.Computation :=
  .function "x^2" ⟨-1,1,80,0.5,0,0.1,true,false⟩

def tableComputation : History.Computation :=
  .truthTable "A & B" 2

/-- The square is saved, and then a table under another name. -/
theorem replays_square_after_table :
    ∃ e s₁ r₁ s₂ r₂, (keptSession.save ⟨"square",⟨⟨2024,2,29⟩,0,0,by decide⟩⟩
        squareComputation).Runs "history.json" .absent ⟨.ok e,s₁⟩ r₁ ∧
      Commands "history.json" (Spares e.id) (s₁,r₁) (s₂,r₂) ∧
      (∀ e' ∈ s₂.history.entries, ∀ n ∈ e'.value.numbers, n.ReadsBack) ∧ s₂.history.size = 2 ∧
      ∃ a, (keptSession.compute squareComputation).outcome = .ok a ∧ s₂.Replays e a ∧
        ∃ anew, anew.Replays e a ∧ ∀ outcome r₃,
          (openState keptSession.config).Runs "history.json" r₂ outcome r₃ ↔
            outcome = .ok anew ∧ r₃ = r₂ := by
  have hsquare : (answerTo keptSession.config squareComputation).isOk = true := by decide +kernel
  have htable : (answerTo keptSession.config tableComputation).isOk = true := by decide +kernel
  obtain ⟨a,ha⟩ := isOk_iff.mp hsquare
  obtain ⟨b,hb⟩ := isOk_iff.mp htable
  have hpath : keptSession.history.path = some "history.json" := rfl
  obtain ⟨s₁,hsave,hconfig,hhistory⟩ := exists_save
    ⟨"square",⟨⟨2024,2,29⟩,0,0,by decide⟩⟩ .absent hpath ha
  have hpath₁ : s₁.history.path = some "history.json" := by rw [hhistory,hpath]
  obtain ⟨s₂,hnext,-,hhistory'⟩ := exists_save
    ⟨"table",⟨⟨2024,2,29⟩,1,0,by decide⟩⟩ s₁.history.written hpath₁ (hconfig ▸ hb)
  have hserve : (s₁.serve ⟨"table",⟨⟨2024,2,29⟩,1,0,by decide⟩⟩ (.save tableComputation)).Runs
      "history.json" s₁.history.written _ _ :=
    Files.Plan.runs_bind.mpr ⟨_,_,hnext,Files.Plan.runs_pure.mpr ⟨rfl,rfl⟩⟩
  have hcommand : Command "history.json" (Spares "square") (s₁,s₁.history.written)
      (s₂,s₂.history.written) :=
    ⟨_,⟨"save_to_history",tableComputation.value⟩,_,⟨by decide,by rintro ⟨⟩,by rintro ⟨⟩⟩,
      runs_dispatch_of_serve rfl hserve,rfl⟩
  have hnumbers : ∀ e' ∈ s₂.history.entries, ∀ n ∈ e'.value.numbers, n.ReadsBack := by
    have htwo : ∀ n ∈ tableComputation.value.numbers, n.ReadsBack := by decide +kernel
    have hpoints : ∀ n ∈ squareComputation.value.numbers, n.ReadsBack := by decide +kernel
    rw [hhistory',hhistory]
    simp only [keptSession,start,List.forall_mem_cons,History.Entry.numbers_value]
    exact ⟨htwo,hpoints,List.forall_mem_nil _⟩
  obtain ⟨a',ha',-,hreplays,hopen⟩ := replays_after_save hsave (.single hcommand)
  exact ⟨_,s₁,_,s₂,_,hsave,.single hcommand,hnumbers,by rw [hhistory',hhistory]; rfl,a',ha',
    hreplays,hopen rfl rfl fun e' he' => ⟨fun h => absurd h List.not_mem_nil,hnumbers e' he'⟩⟩

end State
end Session
end Formulary
