import Formulary.Proofs.History.Entries
import Formulary.Proofs.History.Writing
import Formulary.Proofs.Outcome
import Mathlib.Logic.Relation

/-! The file of a store holds what the store holds, after any number of changes and of writes that
fail. Loading it again at any time gives the same entries in the same order. -/
namespace Formulary.History
open Files

/-- A text of entries is never blank: it begins with a bracket. -/
lemma isBlankText_entriesText (entries : List Entry) :
    isBlankText (entriesText entries) = false := by
  cases entries <;> simp [isBlankText,entriesText,Json.Value.text,Json.Value.chars,Text.isBlank]

lemma fromUTF8?_toUTF8 (s : String) : String.fromUTF8? s.toUTF8 = some s :=
  dif_pos s.isValidUTF8

namespace Store
variable {path : String} {r r' : Reading} {s t : Store}

/-- What a store has written is loaded as it was, if a file can hold it. -/
theorem ofReading_written (h : Storable s.entries) :
    Loaded.ofReading s.written = .ok ⟨s.entries,none⟩ := by
  simp only [written,Loaded.ofReading,fromUTF8?_toUTF8,Loaded.ofText,entriesOf?,exported]
  simp [isBlankText_entriesText,readEntries?_entriesText h]

/-- A call of one of the operations that a store offers for its entries, whatever the world
answers. -/
inductive Call (path : String) : Store × Reading → Store × Reading → Prop
  | add (e : Entry) {s t r r' outcome} (h : (s.add e).Runs path r (outcome,t) r') :
      Call path (s,r) (t,r')
  | remove (id : String) {s t r r' outcome} (h : (s.remove id).Runs path r (outcome,t) r') :
      Call path (s,r) (t,r')
  | clear {s t r r' outcome} (h : s.clear.Runs path r (outcome,t) r') : Call path (s,r) (t,r')
  | save {s r r' outcome} (h : s.save.Runs path r outcome r') : Call path (s,r) (s,r')

/-- Any number of calls, one after the other. -/
def Calls (path : String) : Store × Reading → Store × Reading → Prop :=
  Relation.ReflTransGen (Call path)

/-- A store is kept in a file that holds what the store would write, or that is still the one it was
loaded from. -/
structure IsKept (path : String) (s : Store) (r : Reading) : Prop where
  path : s.path = some path
  content : r = s.written ∨ ∃ damaged, Loaded.ofReading r = .ok ⟨s.entries,damaged⟩

lemma IsKept.changed {entries : List Entry} {outcome : Except Fault Unit} (h : IsKept path s r)
    (hc : Changed path s entries r outcome t r') : IsKept path t r' := by
  cases hc with
  | refused reason => exact h
  | made hr =>
    rcases hr with hr | ⟨hne,-⟩
    · exact ⟨h.path,.inl hr⟩
    · exact absurd h.path hne

/-- Every call leaves a store that is kept. -/
lemma IsKept.call (h : IsKept path s r) (hc : Call path (s,r) (t,r')) : IsKept path t r' := by
  cases hc with
  | add e hw => exact h.changed (runs_add hw)
  | clear hw => exact h.changed (runs_clear hw)
  | remove id hw =>
    rcases runs_remove hw with ⟨-,-,rfl,rfl⟩ | hw
    · exact h
    · exact h.changed hw
  | save hw =>
    rcases runs_save hw with ⟨-,hr | ⟨hne,-⟩⟩ | ⟨reason,-,rfl⟩
    · exact ⟨h.path,.inl hr⟩
    · exact absurd h.path hne
    · exact h

lemma IsKept.calls (h : IsKept path s r) (hc : Calls path (s,r) (t,r')) : IsKept path t r' := by
  generalize hx : (s,r) = x at hc
  generalize hy : (t,r') = y at hc
  induction hc generalizing t r' with
  | refl =>
    cases hx.trans hy.symm
    exact h
  | tail _ hc ih =>
    subst hy
    exact (ih rfl).call hc

lemma isKept_load {outcome : Except Fault Store} (h : (load path).Runs path r outcome r')
    (hs : outcome = .ok s) : IsKept path s r' := by
  obtain ⟨rfl,rfl⟩ := runs_load.mp h
  obtain ⟨l,hl,rfl⟩ := map_eq_ok_iff.mp hs
  exact ⟨rfl,.inr ⟨l.damaged,hl⟩⟩

/-- A store that is kept is what loading its file gives. -/
theorem IsKept.runs_load_iff (h : IsKept path s r) (hs : Storable s.entries)
    {outcome : Except Fault Store} :
    (load path).Runs path r outcome r' ↔ outcome = .ok s ∧ r' = r := by
  have hload : ∃ damaged, Loaded.ofReading r = .ok ⟨s.entries,damaged⟩ := by
    rcases h.content with rfl | hr
    · exact ⟨none,ofReading_written hs⟩
    · exact hr
  obtain ⟨damaged,hl⟩ := hload
  have hs' : s = ⟨some path,s.entries⟩ := by rw [← h.path]
  rw [runs_load,hl]
  simp only [Except.map]
  rw [← hs']

/-- After any calls and any failures, what the file is loaded as is the store itself. -/
theorem load_after_calls {outcome : Except Fault Store} {r'' : Reading}
    (hl : (load path).Runs path r (.ok s) r) (hc : Calls path (s,r) (t,r'))
    (ht : Storable t.entries) :
    (load path).Runs path r' outcome r'' ↔ outcome = .ok t ∧ r'' = r' :=
  ((isKept_load hl rfl).calls hc).runs_load_iff ht

/-- A function that was saved in a leap second, with numbers of either sign. -/
def waveEntry : Entry :=
  ⟨"wave",⟨⟨2016,12,31⟩,86399,1500000000,by decide⟩,
    .function "2*sin(x)" ⟨-6.25,1e22,120,0.1,-0.0,3e-7,true,false⟩,"% \"wave\"\nplot(x, y)"⟩

/-- The text of the file is damaged at first, an entry is added, and clearing fails. -/
theorem load_after_wave :
    let path := "history.json"
    let damaged : Reading := .bytes "[".toUTF8
    let s : Store := ⟨some path,[]⟩
    let t : Store := ⟨some path,[waveEntry]⟩
    (load path).Runs path damaged (.ok s) damaged ∧ Calls path (s,damaged) (t,t.written) ∧
      Storable t.entries ∧ (load path).Runs path t.written (.ok t) t.written := by
  intro path damaged s t
  have hload : (load path).Runs path damaged (.ok s) damaged := by
    rw [runs_load,show Loaded.ofReading damaged = .ok ⟨[],some "["⟩ by
      simp only [damaged,Loaded.ofReading,fromUTF8?_toUTF8]
      rfl]
    exact ⟨rfl,rfl⟩
  have hadd : Call path (s,damaged) (t,t.written) := .add waveEntry (runs_add_made rfl)
  have hclear : Call path (t,t.written) (t,t.written) :=
    .clear (t.clear_eq_commit ▸ runs_commit_refused rfl "Permission denied (os error 13)")
  have hcalls : Calls path (s,damaged) (t,t.written) := .tail (.single hadd) hclear
  have ht : Storable t.entries := by
    intro e he
    obtain rfl := List.mem_singleton.mp he
    exact ⟨by decide,by decide +kernel⟩
  exact ⟨hload,hcalls,ht,(load_after_calls hload hcalls ht).mpr ⟨rfl,rfl⟩⟩

end Store
end Formulary.History
