import Formulary.Proofs.History.NewestFirst
import Mathlib.Data.List.Nodup

/-! What is found in a store at any time. As long as no name is used twice, an entry is found exactly
if it was there or has been added, and has not been taken out since, whatever writes have failed. -/
namespace Formulary.History
open Files

/-- The name under which an event has put an entry in. -/
def Event.added? : Event → Option String
  | ⟨.add e,.ok _⟩ => some e.id
  | _ => none

/-- Whether an event takes out what goes by a name. -/
def Event.Drops (id : String) (v : Event) : Prop :=
  (v.task = .remove id ∨ v.task = .clear) ∧ ∃ gone, v.outcome = .ok gone

/-- Whether an entry that was there at first or has been added has not been taken out since. -/
def Survives (initial : List Entry) (events : List Event) (e : Entry) : Prop :=
  (e ∈ initial ∧ ∀ v ∈ events, ¬v.Drops e.id) ∨
    ∃ before after, events = before ++ ⟨.add e,.ok none⟩ :: after ∧ ∀ v ∈ after, ¬v.Drops e.id

variable {initial l l' : List Entry} {events : List Event} {v : Event} {e : Entry} {kept : Prop}

lemma survives_nil : Survives initial [] e ↔ e ∈ initial := by
  simp [Survives]

/-- One more event puts an entry in, or does not take it out. -/
lemma survives_snoc : Survives initial (events ++ [v]) e ↔
    v = ⟨.add e,.ok none⟩ ∨ (Survives initial events e ∧ ¬v.Drops e.id) := by
  constructor
  · rintro (⟨hin,hall⟩ | ⟨before,after,heq,hall⟩)
    · exact .inr ⟨.inl ⟨hin,fun w hw => hall w (List.mem_append_left _ hw)⟩,hall v (by simp)⟩
    · rcases after.eq_nil_or_concat with rfl | ⟨after,w,rfl⟩
      · exact .inl (List.singleton_inj.mp (List.append_inj' heq rfl).2)
      · rw [List.concat_eq_append] at heq hall
        rw [← List.cons_append,← List.append_assoc] at heq
        obtain ⟨rfl,hw⟩ := List.append_inj' heq rfl
        obtain rfl := List.singleton_inj.mp hw
        exact .inr ⟨.inr ⟨before,after,rfl,fun u hu => hall u (List.mem_append_left _ hu)⟩,
          hall v (by simp)⟩
  · rintro (rfl | ⟨⟨hin,hall⟩ | ⟨before,after,rfl,hall⟩,hv⟩)
    · exact .inr ⟨events,[],rfl,by simp⟩
    · exact .inl ⟨hin,by simpa [or_imp,forall_and] using ⟨hall,hv⟩⟩
    · exact .inr ⟨before,after ++ [v],by simp,by simpa [or_imp,forall_and] using ⟨hall,hv⟩⟩

lemma not_drops_of_error {task : Task} {f : Fault} {id : String} :
    ¬Event.Drops id ⟨task,.error f⟩ := by simp [Event.Drops]

/-- As long as names are distinct, a step keeps what it does not drop and adds what it says. -/
lemma Step.mem_iff (h : Step kept l v l') (hl : (l.map Entry.id).Nodup) :
    e ∈ l' ↔ v = ⟨.add e,.ok none⟩ ∨ (e ∈ l ∧ ¬v.Drops e.id) := by
  cases h with
  | added d => simp [Event.Drops,eq_comm]
  | @removed newer d older first =>
    have hne : e ∈ newer ++ older → e.id ≠ d.id := by
      rw [List.map_append,List.map_cons,List.nodup_middle,List.nodup_cons,← List.map_append] at hl
      intro he hid
      exact hl.1 (hid ▸ List.mem_map_of_mem he)
    have hmem : e ∈ newer ++ d :: older ↔ e = d ∨ e ∈ newer ++ older := by simp [or_left_comm]
    simp only [Event.mk.injEq,reduceCtorEq,false_and,false_or,hmem,Event.Drops,Task.remove.injEq,
      or_false,Except.ok.injEq,exists_eq',and_true]
    constructor
    · exact fun he => ⟨.inr he,(hne he).symm⟩
    · rintro ⟨rfl | he,hid⟩
      · exact absurd rfl hid
      · exact he
  | missing absent => simp [not_drops_of_error]
  | cleared => simp [Event.Drops]
  | saved => simp [Event.Drops]
  | exported path => simp [Event.Drops]
  | refused reason writes => simp [not_drops_of_error]

/-- A step keeps names distinct, unless it adds one that is there. -/
lemma Step.nodup (h : Step kept l v l') (hl : (l.map Entry.id).Nodup)
    (hnew : ∀ id ∈ v.added?, id ∉ l.map Entry.id) : (l'.map Entry.id).Nodup := by
  cases h with
  | added d => exact List.nodup_cons.mpr ⟨hnew d.id rfl,hl⟩
  | @removed newer d older first =>
    exact hl.sublist (((List.sublist_cons_self d older).append_left newer).map _)
  | cleared => exact List.nodup_nil
  | _ => exact hl

/-- Through any number of steps that add each name once, names stay distinct and the list holds the
entries that survive. -/
lemma Trace.survives (h : Trace (Step kept) initial events l)
    (hd : (initial.map Entry.id ++ events.filterMap Event.added?).Nodup) :
    (l.map Entry.id).Nodup ∧
      l.map Entry.id ⊆ initial.map Entry.id ++ events.filterMap Event.added? ∧
      ∀ e, e ∈ l ↔ Survives initial events e := by
  induction h with
  | nil => exact ⟨by simpa using hd,by simp,fun e => survives_nil.symm⟩
  | @snoc events l₁ v l' _ last ih =>
    rw [List.filterMap_append,← List.append_assoc,List.nodup_append] at hd
    obtain ⟨hbefore,-,hfresh⟩ := hd
    obtain ⟨hnodup,hsub,hmem⟩ := ih hbefore
    have hnew : ∀ id ∈ v.added?, id ∉ l₁.map Entry.id := by
      intro id hid hl
      exact hfresh id (hsub hl) id (by simpa using hid) rfl
    refine ⟨last.nodup hnodup hnew,?_,fun e => ?_⟩
    · intro id hid
      obtain ⟨e,he,rfl⟩ := List.mem_map.mp hid
      rw [List.filterMap_append,← List.append_assoc]
      rcases (last.mem_iff hnodup).mp he with rfl | ⟨he,-⟩
      · exact List.mem_append_right _ (by simp [Event.added?])
      · exact List.mem_append_left _ (hsub (List.mem_map_of_mem he))
    · rw [survives_snoc,last.mem_iff hnodup,hmem]

/-- With distinct names, the entry that is found under one is the entry of that name. -/
lemma find?_eq_some_iff_of_nodup {id : String} (hl : (l.map Entry.id).Nodup) :
    l.find? (·.id == id) = some e ↔ e.id = id ∧ e ∈ l := by
  constructor
  · intro h
    exact ⟨by simpa using List.find?_some h,List.mem_of_find?_eq_some h⟩
  · rintro ⟨rfl,he⟩
    obtain ⟨newer,older,rfl⟩ := List.append_of_mem he
    refine (find?_split fun d hd hid => ?_).1
    rw [List.map_append,List.map_cons,List.nodup_middle,List.nodup_cons] at hl
    exact hl.1 (hid ▸ List.mem_append_left _ (List.mem_map_of_mem hd))

/-- What a store performs, whatever writes fail, is what a list with the newest entry first goes
through; and if no name is used twice, what is found under a name at any time is the entry that was
there or has been added under it and not been taken out since. -/
theorem Store.performed_iff_newestFirst {path : String} {r : Reading} {s t : Store}
    {events : List Event} :
    ((∃ r', Trace (Performed path) (s,r) events (t,r')) ↔
      t.path = s.path ∧ Trace (Step (s.path ≠ none)) s.entries events t.entries) ∧
    ((∃ r', Trace (Performed path) (s,r) events (t,r')) →
      (s.entries.map Entry.id ++ events.filterMap Event.added?).Nodup →
      ∀ id e, t.get? id = some e ↔ e.id = id ∧ Survives s.entries events e) := by
  refine ⟨exists_performed_iff,?_⟩
  intro h hd id e
  obtain ⟨hnodup,-,hmem⟩ := (exists_performed_iff.mp h).2.survives hd
  rw [← hmem]
  exact find?_eq_some_iff_of_nodup hnodup

def tableEntry : Entry :=
  ⟨"table",⟨⟨2024,2,29⟩,0,0,by decide⟩,.truthTable "A & B" 2,"% A & B\n"⟩

def unionEntry : Entry :=
  ⟨"union",⟨⟨2024,2,29⟩,1,0,by decide⟩,.setOperation "1,a" "a" "union","% 1,a\n"⟩

/-- An entry is added in front of another, which is taken out at the second attempt only. -/
theorem Store.performed_iff_newestFirst_refused :
    let s : Store := ⟨some "history.json",[tableEntry]⟩
    let t : Store := ⟨some "history.json",[unionEntry]⟩
    let fault : Fault := .io "No space left on device (os error 28)"
    let events : List Event := [⟨.add unionEntry,.ok none⟩,⟨.remove "table",.error fault⟩,
      ⟨.remove "table",.ok (some tableEntry)⟩,⟨.remove "table",.error (.notFound "table")⟩]
    (∃ r', Trace (Performed "history.json") (s,.absent) events (t,r')) ∧
      (s.entries.map Entry.id ++ events.filterMap Event.added?).Nodup ∧
      ∀ id e, t.get? id = some e ↔ e.id = id ∧ Survives s.entries events e := by
  intro s t fault events
  have hadded : Trace (Step (s.path ≠ none)) s.entries [⟨.add unionEntry,.ok none⟩]
      [unionEntry,tableEntry] := (Trace.nil s.entries).snoc (.added unionEntry _)
  have hrefused : Step (s.path ≠ none) [unionEntry,tableEntry] ⟨.remove "table",.error fault⟩
      [unionEntry,tableEntry] := .refused _ ⟨by simp [s],tableEntry,by simp,rfl⟩
  have hremoved : Step (s.path ≠ none) [unionEntry,tableEntry]
      ⟨.remove "table",.ok (some tableEntry)⟩ [unionEntry] :=
    @Step.removed _ [unionEntry] tableEntry [] (by decide)
  have hmissing : Step (s.path ≠ none) [unionEntry]
      ⟨.remove "table",.error (.notFound "table")⟩ [unionEntry] := .missing (by decide)
  have hperformed : ∃ r', Trace (Performed "history.json") (s,.absent) events (t,r') :=
    performed_iff_newestFirst.1.mpr ⟨rfl,((hadded.snoc hrefused).snoc hremoved).snoc hmissing⟩
  have hnames : (s.entries.map Entry.id ++ events.filterMap Event.added?).Nodup := by decide
  exact ⟨hperformed,hnames,performed_iff_newestFirst.2 hperformed hnames⟩

end Formulary.History
