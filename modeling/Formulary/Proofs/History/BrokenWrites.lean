import Formulary.Proofs.Files.Stops
import Formulary.Proofs.History.Durability
import Formulary.Proofs.History.Survival
import Formulary.Proofs.Json.Continuation

/-! Changes that stop halfway. The front of a text of entries is never understood, so it is loaded as
no entries, or not at all if it ends inside a character. What was stored is then lost, although the
store still holds it. -/
namespace Formulary.History
open Files
open Plan (Reaches)

/-! The front of a text -/

/-- A text that is cut between two characters leaves a text. -/
lemma fromUTF8?_front {text : String} {n : ℕ} (h : (⟨n⟩ : String.Pos.Raw).IsValid text) :
    ∃ part rest, text = part ++ rest ∧ part.utf8ByteSize = n ∧
      String.fromUTF8? (text.toUTF8.extract 0 n) = some part := by
  obtain ⟨part,rest,rfl,hn⟩ := String.Pos.Raw.isValid_iff_exists_append.mp h
  obtain rfl : n = part.utf8ByteSize := congrArg String.Pos.Raw.byteIdx hn
  refine ⟨part,rest,rfl,rfl,?_⟩
  have hcut : (part ++ rest).toUTF8.extract 0 part.utf8ByteSize = part.toUTF8 := by
    rw [String.toUTF8_eq_toByteArray,String.toByteArray_append]
    exact ByteArray.extract_append_eq_left String.size_toByteArray.symm
  rw [hcut,fromUTF8?_toUTF8]

/-- One that is cut inside a character does not. -/
lemma fromUTF8?_front_eq_none {text : String} {n : ℕ} (hn : n ≤ text.utf8ByteSize)
    (h : ¬(⟨n⟩ : String.Pos.Raw).IsValid text) :
    String.fromUTF8? (text.toUTF8.extract 0 n) = none :=
  dif_neg fun hv => h (String.Pos.Raw.isValid_iff_isValidUTF8_extract_zero.mpr ⟨hn,hv⟩)

lemma head_entriesText (entries : List Entry) :
    ∃ body, (entriesText entries).toList = '[' :: body := by
  cases entries with
  | nil => exact ⟨[']'],by simp [entriesText,Json.Value.text,Json.Value.chars]⟩
  | cons e entries => exact ⟨_,by simp [entriesText,Json.Value.text,Json.Value.chars]; rfl⟩

lemma entriesText_size_pos (entries : List Entry) : 0 < (entriesText entries).utf8ByteSize := by
  obtain ⟨body,hbody⟩ := head_entriesText entries
  refine Nat.pos_of_ne_zero fun hzero => ?_
  rw [String.utf8ByteSize_eq_zero_iff.mp hzero] at hbody
  cases hbody

lemma getLast?_moreItems (form : Json.Form) (items : List Json.Value) (level : ℕ) :
    (Json.moreItems form items level).getLast? = some ']' := by
  induction items with
  | nil => simp [Json.moreItems]
  | cons v items ih => simp [Json.moreItems,List.getLast?_cons,List.getLast?_append,ih]

lemma getLast?_entriesText (entries : List Entry) :
    (entriesText entries).toList.getLast? = some ']' := by
  cases entries with
  | nil => simp [entriesText,Json.Value.text,Json.Value.chars]
  | cons e entries =>
    simp [entriesText,Json.Value.text,Json.Value.chars,List.getLast?_cons,List.getLast?_append,
      getLast?_moreItems]

/-- The front of a text of entries is not read, as the closing bracket is missing. -/
lemma readEntries?_front {entries : List Entry} {part rest : String} (h : Storable entries)
    (heq : entriesText entries = part ++ rest) (hpart : part ≠ "") (hrest : rest ≠ "") :
    readEntries? part = none := by
  have hlist : (entriesText entries).toList = part.toList ++ rest.toList := by
    rw [heq,String.toList_append]
  obtain ⟨c,front,hfront⟩ := List.exists_cons_of_ne_nil (mt String.toList_eq_nil_iff.mp hpart)
  obtain ⟨body,hbody⟩ := head_entriesText entries
  obtain rfl : c = '[' := by
    rw [hlist,hfront] at hbody
    exact (List.cons.inj hbody).1
  have hlast : ']' ∈ rest.toList := by
    have hend := getLast?_entriesText entries
    rw [hlist,List.getLast?_append_of_ne_nil _ (mt String.toList_eq_nil_iff.mp hrest)] at hend
    exact List.mem_of_getLast? hend
  by_contra hsome
  obtain ⟨read,hread⟩ := Option.ne_none_iff_exists'.mp hsome
  obtain ⟨a,ha,-⟩ := Option.bind_eq_some_iff.mp hread
  obtain ⟨b,hb,-⟩ := Option.bind_eq_some_iff.mp (readEntries?_entriesText h)
  have hpart' : part = String.ofList ('[' :: front) := by rw [← hfront,String.ofList_toList]
  have hwhole : entriesText entries = String.ofList ('[' :: front ++ rest.toList) := by
    rw [← hfront,← hlist,String.ofList_toList]
  rw [hpart'] at ha
  rw [hwhole] at hb
  exact absurd (Json.isSpace_of_read?_append ha hb ']' hlast) (by decide)

namespace Store

/-- So it counts as no entries. -/
lemma entries_ofText_front {entries : List Entry} {part rest : String} (h : Storable entries)
    (heq : entriesText entries = part ++ rest) (hrest : rest ≠ "") :
    (Loaded.ofText part).entries = [] := by
  by_cases hpart : part = ""
  · subst hpart
    rfl
  · unfold Loaded.ofText entriesOf?
    split_ifs
    · rfl
    · rw [readEntries?_front h heq hpart hrest]

variable {path : String} {r r' : Reading} {s t : Store}

/-- What is loaded from a file that reads so. -/
def LoadsAs (path : String) (r : Reading) (entries : List Entry) : Prop :=
  (load path).Runs path r (.ok ⟨some path,entries⟩) r

lemma loadsAs_iff {entries : List Entry} :
    LoadsAs path r entries ↔ ∃ damaged, Loaded.ofReading r = .ok ⟨entries,damaged⟩ := by
  rw [LoadsAs,runs_load]
  cases Loaded.ofReading r with
  | error f => simp [Except.map]
  | ok l => cases l; simp [Except.map,eq_comm]

lemma loadsAs_written {s : Store} (h : Storable s.entries) : LoadsAs path s.written s.entries :=
  loadsAs_iff.mpr ⟨none,ofReading_written h⟩

/-- The front of a text of entries is loaded as no entries, if it is a text. -/
theorem loadsAs_front {entries l : List Entry} {n : ℕ} (h : Storable entries)
    (hn : n < (entriesText entries).utf8ByteSize) :
    LoadsAs path (.front (entriesText entries) n) l ↔
      (⟨n⟩ : String.Pos.Raw).IsValid (entriesText entries) ∧ l = [] := by
  rw [loadsAs_iff,Reading.front,Loaded.ofReading]
  by_cases hv : (⟨n⟩ : String.Pos.Raw).IsValid (entriesText entries)
  · obtain ⟨part,rest,heq,hsize,hpart⟩ := fromUTF8?_front hv
    have hrest : rest ≠ "" := by
      rintro rfl
      rw [heq,String.utf8ByteSize_append,hsize] at hn
      simp at hn
    have hnone := entries_ofText_front h heq hrest
    rw [hpart]
    constructor
    · rintro ⟨damaged,hl⟩
      exact ⟨hv,by rw [← hnone,Except.ok.inj hl]⟩
    · rintro ⟨-,rfl⟩
      exact ⟨(Loaded.ofText part).damaged,congrArg Except.ok (by rw [← hnone])⟩
  · rw [fromUTF8?_front_eq_none hn.le hv]
    simp [hv]

/-! What a task leaves where it stops -/

/-- Whether a change is to be seen, half or whole, where its plan has stopped. Whatever has failed
leaves the store as it was, and then the change is not seen whole. -/
inductive Halted {β : Type} (s : Store) (entries : List Entry) (r : Reading)
    (p : Plan (Except Fault β × Store)) : Reading → Prop
  | before (undone : ∀ f t, p = .done (.error f,t) → t = s) : Halted s entries r p r
  | halfway (n : ℕ) (part : n < (entriesText entries).utf8ByteSize)
      (undone : ∀ f t, p = .done (.error f,t) → t = s) :
      Halted s entries r p (.front (entriesText entries) n)
  | after (made : ∀ f t, p ≠ .done (.error f,t)) :
      Halted s entries r p (.bytes (entriesText entries).toUTF8)

/-- Only the failures that a plan reports matter. -/
lemma Halted.mono {β γ : Type} {entries : List Entry} {u : Plan (Except Fault γ × Store)}
    {p : Plan (Except Fault β × Store)} (h : Halted s entries r u r')
    (hp : ∀ f t, p = .done (.error f,t) → u = .done (.error f,t)) : Halted s entries r p r' := by
  cases h with
  | before undone => exact .before fun f t ht => undone f t (hp f t ht)
  | halfway n part undone => exact .halfway n part fun f t ht => undone f t (hp f t ht)
  | after made => exact .after fun f t ht => made f t (hp f t ht)

lemma Halted.eq_of_error {β : Type} {entries : List Entry} {f : Fault}
    (h : Halted s entries r (.done (.error f,t) : Plan (Except Fault β × Store)) r') : t = s := by
  cases h with
  | before undone => exact undone f t rfl
  | halfway n part undone => exact undone f t rfl
  | after made => exact absurd rfl (made f t)

/-- Whether a text is to be seen where a plan to write it has stopped. It is seen whole only if no
failure is reported. -/
def Written (text : String) (r : Reading) (p : Plan (Except Fault Unit)) (r' : Reading) : Prop :=
  r' = r ∨ (∃ n < text.utf8ByteSize, r' = .front text n) ∨
    (∀ f, p ≠ .done (.error f)) ∧ r' = .bytes text.toUTF8

lemma reaches_exportTo {q : String} {p : Plan (Except Fault Unit)}
    (h : Reaches path (s.exportTo q) r p r') : Written s.exported r p r' := by
  cases Plan.reaches_andThen h with
  | first unfinished h =>
    rcases Plan.reaches_writeFile h with ⟨hr,-⟩ | ⟨-,hr⟩ | ⟨-,hr⟩
    · exact .inl hr
    · exact .inr (.inl hr)
    · exact .inr (.inr ⟨fun f => unfinished _,hr⟩)
  | @second written r₁ h rest =>
    obtain ⟨rfl,rfl⟩ := Plan.reaches_done rest
    rcases Plan.reaches_writeFile h with ⟨hr,-⟩ | ⟨-,hr⟩ | ⟨hw,hr⟩
    · exact .inl hr
    · exact .inr (.inl hr)
    · cases hw
      exact .inr (.inr ⟨by simp [Except.mapError],hr⟩)

lemma reaches_save {p : Plan (Except Fault Unit)} (h : Reaches path s.save r p r') :
    Written s.exported r p r' := by
  unfold save at h
  split at h
  · exact .inl (Plan.reaches_done h).2
  · cases Plan.reaches_andThen h with
    | first unfinished h => exact .inl (Plan.reaches_makeParent h)
    | @second made r₁ h rest =>
      obtain rfl := Plan.reaches_makeParent h
      cases made with
      | error reason => exact .inl (Plan.reaches_done rest).2
      | ok u => exact reaches_exportTo rest

/-- What comes of a write: the store as it shall be, or a failure and the store as it was. -/
lemma reaches_write {β : Type} {q : Plan (Except Fault Unit)} {a : β} {entries : List Entry}
    {k : Except Fault Unit → Plan (Except Fault β × Store)} {p : Plan (Except Fault β × Store)}
    (hmade : k (.ok ()) = .done (.ok a,t)) (hfailed : ∀ f, k (.error f) = .done (.error f,s))
    (hq : ∀ u r', Reaches path q r u r' → Written (entriesText entries) r u r')
    (h : Reaches path (q >>= k) r p r') : Halted s entries r p r' := by
  cases Plan.reaches_andThen h with
  | first unfinished h =>
    rcases hq _ _ h with rfl | ⟨n,hn,rfl⟩ | ⟨-,rfl⟩
    · exact .before fun f t ht => absurd ht (unfinished _)
    · exact .halfway n hn fun f t ht => absurd ht (unfinished _)
    · exact .after fun f t => unfinished _
  | @second outcome r₁ h rest =>
    have hwritten := hq _ _ h
    cases outcome with
    | ok u =>
      rw [hmade] at rest
      obtain ⟨rfl,rfl⟩ := Plan.reaches_done rest
      rcases hwritten with rfl | ⟨n,hn,rfl⟩ | ⟨-,rfl⟩
      · exact .before (by simp)
      · exact .halfway n hn (by simp)
      · exact .after (by simp)
    | error f =>
      rw [hfailed] at rest
      obtain ⟨rfl,rfl⟩ := Plan.reaches_done rest
      have hundone : ∀ f' t', (.done (.error f,s) : Plan (Except Fault β × Store)) =
          .done (.error f',t') → t' = s := by
        rintro f' t' ⟨⟩
        rfl
      rcases hwritten with rfl | ⟨n,hn,rfl⟩ | ⟨hreported,-⟩
      · exact .before hundone
      · exact .halfway n hn hundone
      · exact absurd rfl (hreported f)

lemma reaches_commit {entries : List Entry} {p : Plan (Except Fault Unit × Store)}
    (h : Reaches path (s.commit entries) r p r') : Halted s entries r p r' :=
  reaches_write rfl (fun _ => rfl) (fun _ _ => reaches_save) h

/-- What is given back does not touch what is left. -/
lemma reaches_given {β γ : Type} {p : Plan (Except Fault β × Store)} {f : β → γ}
    {q : Plan (Except Fault γ × Store)} {entries : List Entry}
    (hp : ∀ u r', Reaches path p r u r' → Halted s entries r u r')
    (h : Reaches path (do let (outcome,changed) ← p; return (outcome.map f,changed)) r q r') :
    Halted s entries r q r' := by
  cases Plan.reaches_andThen h with
  | first unfinished h => exact (hp _ _ h).mono fun f t ht => absurd ht (unfinished _)
  | @second a r₁ h rest =>
    obtain ⟨rfl,rfl⟩ := Plan.reaches_done rest
    refine (hp _ _ h).mono fun f t ht => ?_
    obtain ⟨outcome,changed⟩ := a
    cases outcome <;> simp_all [Except.map]

/-- A task stops with its file as it was, or with the front or the whole of what it shall hold. -/
theorem reaches_perform {task : Task} {p : Plan (Except Fault (Option Entry) × Store)}
    (h : Reaches path (s.perform task) r p r') : Halted s (task.result s.entries) r p r' := by
  cases task with
  | add e =>
    rw [perform,add_eq_commit] at h
    exact reaches_given (fun _ _ => reaches_commit) h
  | clear =>
    rw [perform,clear_eq_commit] at h
    exact reaches_given (fun _ _ => reaches_commit) h
  | save => exact reaches_write rfl (fun _ => rfl) (fun _ _ => reaches_save) h
  | exportTo q => exact reaches_write rfl (fun _ => rfl) (fun _ _ => reaches_exportTo) h
  | remove id =>
    refine reaches_given (fun u r' hu => ?_) h
    rw [take_eq_commit] at hu
    split at hu
    · obtain ⟨rfl,rfl⟩ := Plan.reaches_done hu
      refine .before fun f t ht => ?_
      cases ht
      rfl
    · exact reaches_given (fun _ _ => reaches_commit) hu

/-- Every front of the new text can be left by a task that reports a failure. -/
lemma reaches_commit_broken {entries : List Entry} {n : ℕ} (hs : s.path = some path)
    (hn : n < (entriesText entries).utf8ByteSize) (reason : String) :
    Reaches path (s.commit entries) r (.done (.error (.io reason),s))
      (.front (entriesText entries) n) := by
  have hbroken : Reaches path (save { s with entries := entries }) r
      (.done (.error (.io reason))) (.front (entriesText entries) n) := by
    simp only [save,hs]
    exact Plan.runs_makeParent_made.reaches.andThen (.writeBreaks n hn reason (.stop _ _))
  exact hbroken.andThen (.stop _ _)

lemma reaches_add_broken {e : Entry} {n : ℕ} (hs : s.path = some path)
    (hn : n < (entriesText (e :: s.entries)).utf8ByteSize) (reason : String) :
    Reaches path (s.perform (.add e)) r (.done (.error (.io reason),s))
      (.front (entriesText (e :: s.entries)) n) := by
  rw [perform,add_eq_commit]
  exact (reaches_commit_broken hs hn reason).andThen (.stop _ _)

/-- A file is safe if it is loaded as it was before a task or as it shall be, and if what is loaded
after a failure is what the store still holds. -/
structure IsSafe (path : String) (s : Store) (task : Task)
    (p : Plan (Except Fault (Option Entry) × Store)) (r : Reading) : Prop where
  loaded : LoadsAs path r s.entries ∨ LoadsAs path r (task.result s.entries)
  reported : ∀ f t, p = .done (.error f,t) → LoadsAs path r t.entries

/-- Wherever a task stops, its file is safe, unless the front of the new text is read there. Such a
front is loaded as no entries or not at all, so it is safe only if it ends between two characters
and nothing was stored before, or nothing is to be stored and no failure was reported. -/
theorem isSafe_iff {task : Task} {p : Plan (Except Fault (Option Entry) × Store)}
    (hr : LoadsAs path r s.entries) (hafter : Storable (task.result s.entries))
    (h : Reaches path (s.perform task) r p r') :
    IsSafe path s task p r' ↔
      ∀ n < (entriesText (task.result s.entries)).utf8ByteSize,
        r' = .front (entriesText (task.result s.entries)) n →
        (⟨n⟩ : String.Pos.Raw).IsValid (entriesText (task.result s.entries)) ∧
          (s.entries = [] ∨ task.result s.entries = [] ∧ ∀ f t, p ≠ .done (.error f,t)) := by
  have hhalted := reaches_perform h
  constructor
  · intro hsafe n hn hfront
    subst hfront
    obtain ⟨hvalid,hnone⟩ : (⟨n⟩ : String.Pos.Raw).IsValid (entriesText (task.result s.entries)) ∧
        (s.entries = [] ∨ task.result s.entries = []) := by
      rcases hsafe.loaded with hl | hl
      · exact ((loadsAs_front hafter hn).mp hl).imp_right .inl
      · exact ((loadsAs_front hafter hn).mp hl).imp_right .inr
    refine ⟨hvalid,or_iff_not_imp_left.mpr fun hne => ⟨hnone.resolve_left hne,?_⟩⟩
    rintro f t rfl
    obtain rfl := hhalted.eq_of_error
    exact hne ((loadsAs_front hafter hn).mp (hsafe.reported f t rfl)).2
  · intro hfront
    cases hhalted with
    | before undone => exact ⟨.inl hr,fun f t ht => undone f t ht ▸ hr⟩
    | halfway n part undone =>
      obtain ⟨hvalid,hnone⟩ := hfront n part rfl
      rcases hnone with hnone | ⟨hnone,hp⟩
      · have hbefore : LoadsAs path (.front (entriesText (task.result s.entries)) n) s.entries :=
          (loadsAs_front hafter part).mpr ⟨hvalid,hnone⟩
        exact ⟨.inl hbefore,fun f t ht => undone f t ht ▸ hbefore⟩
      · exact ⟨.inr ((loadsAs_front hafter part).mpr ⟨hvalid,hnone⟩),
          fun f t ht => absurd ht (hp f t)⟩
    | after made =>
      exact ⟨.inr (loadsAs_written (s := ⟨none,task.result s.entries⟩) hafter),
        fun f t ht => absurd ht (made f t)⟩

lemma storable_union_table : Storable [unionEntry,tableEntry] := by
  simp [Storable,unionEntry,tableEntry,Computation.Storable]

/-- A disk is full. -/
def noSpace : Fault := .io "No space left on device (os error 28)"

/-- An addition to one entry fails when its file is emptied, and the file is not safe. -/
theorem isSafe_iff_emptied :
    let s : Store := ⟨some "history.json",[tableEntry]⟩
    let p : Plan (Except Fault (Option Entry) × Store) := .done (.error noSpace,s)
    let emptied : Reading := .front (entriesText [unionEntry,tableEntry]) 0
    LoadsAs "history.json" s.written s.entries ∧
      Reaches "history.json" (s.perform (.add unionEntry)) s.written p emptied ∧
      ¬IsSafe "history.json" s (.add unionEntry) p emptied := by
  intro s p emptied
  have hsize := entriesText_size_pos [unionEntry,tableEntry]
  have hr : LoadsAs "history.json" s.written s.entries :=
    loadsAs_written fun e he => storable_union_table e (List.mem_cons_of_mem _ he)
  have hp : Reaches "history.json" (s.perform (.add unionEntry)) s.written p emptied :=
    reaches_add_broken (s := s) (e := unionEntry) rfl hsize _
  refine ⟨hr,hp,fun hsafe => ?_⟩
  have hafter : Storable ((Task.add unionEntry).result s.entries) := storable_union_table
  have hnone := ((isSafe_iff hr hafter hp).mp hsafe 0 hsize rfl).2
  simp [s,Task.result] at hnone

/-- What is stored is lost: the entry is still there in memory, and what is loaded is none. -/
theorem loadsAs_emptied :
    let s : Store := ⟨some "history.json",[tableEntry]⟩
    let emptied : Reading := .front (entriesText [unionEntry,tableEntry]) 0
    LoadsAs "history.json" s.written s.entries ∧
      Reaches "history.json" (s.perform (.add unionEntry)) s.written (.done (.error noSpace,s)) emptied ∧
      LoadsAs "history.json" emptied [] ∧ ¬LoadsAs "history.json" emptied s.entries ∧
      ¬LoadsAs "history.json" emptied ((Task.add unionEntry).result s.entries) := by
  intro s emptied
  have hsize := entriesText_size_pos [unionEntry,tableEntry]
  have hload (l : List Entry) : LoadsAs "history.json" emptied l ↔ l = [] := by
    rw [loadsAs_front storable_union_table hsize]
    simp [String.Pos.Raw.isValid_zero]
  refine ⟨loadsAs_written fun e he => storable_union_table e (List.mem_cons_of_mem _ he),
    reaches_add_broken (s := s) (e := unionEntry) rfl hsize _,(hload []).mpr rfl,?_,?_⟩ <;>
  simp [hload,s,Task.result]

end Store
end Formulary.History
