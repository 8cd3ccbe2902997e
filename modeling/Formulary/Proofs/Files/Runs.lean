import Formulary.Files.Plan
import Mathlib.Tactic.Common

/-! Runs of a plan in a world that may refuse anything. One path is followed: a run knows what is read
there before and after it. Nobody else writes, and a write that fails leaves what was there. Another
path may lead to the same file or not, so what is written there may be read here. There may be room
for any number of samples, and a plan that ends the program has no run. -/
namespace Formulary.Files.Plan

variable {α β : Type} {path : String} {r r' : Reading}

/-- A run with a result, from what is read at the path to what is read there in the end. -/
inductive Runs {α : Type} (path : String) : Plan α → Reading → α → Reading → Prop
  | done (a : α) (r : Reading) : Runs path (.done a) r a r
  | read {next r a r'} (rest : Runs path (next r) r a r') : Runs path (.read path next) r a r'
  | readOther {q next r a r'} (other : q ≠ path) (answer : Reading)
      (rest : Runs path (next answer) r a r') : Runs path (.read q next) r a r'
  | makeFolders {q next r a r'} (made : Attempt) (rest : Runs path (next made) r a r') :
      Runs path (.makeFolders q next) r a r'
  | write {q text next r a r'} (rest : Runs path (next (.ok ())) (.bytes text.toUTF8) a r') :
      Runs path (.write q text next) r a r'
  | writeOther {q text next r a r'} (other : q ≠ path) (rest : Runs path (next (.ok ())) r a r') :
      Runs path (.write q text next) r a r'
  | writeFails {q text next r a r'} (reason : String) (rest : Runs path (next (.error reason)) r a r') :
      Runs path (.write q text next) r a r'
  | beginJournal {q next r a r'} (ok : Bool) (rest : Runs path (next ok) r a r') :
      Runs path (.beginJournal q next) r a r'
  | limitDetail {threshold next r a r'} (rest : Runs path next r a r') :
      Runs path (.limitDetail threshold next) r a r'
  | note {n next r a r'} (rest : Runs path next r a r') : Runs path (.note n next) r a r'
  | reply {line next r a r'} (rest : Runs path next r a r') : Runs path (.reply line next) r a r'
  | explain {text next r a r'} (why : String) (rest : Runs path (next why) r a r') :
      Runs path (.explain text next) r a r'
  | measure {next r a r'} (room : ℕ) (rest : Runs path (next room) r a r') :
      Runs path (.measure next) r a r'

@[simp] lemma runs_done {a b : α} : Runs path (.done a) r b r' ↔ b = a ∧ r' = r := by
  constructor
  · rintro ⟨⟩
    exact ⟨rfl,rfl⟩
  · rintro ⟨rfl,rfl⟩
    exact .done _ _

@[simp] lemma runs_pure {a b : α} : Runs path (pure a) r b r' ↔ b = a ∧ r' = r := runs_done

@[simp] lemma runs_note {n : Journal.Note} {next : Plan α} {a : α} :
    Runs path (.note n next) r a r' ↔ Runs path next r a r' := by
  constructor
  · rintro ⟨⟩
    assumption
  · exact .note

/-- What is told to the journal neither changes the file nor decides a result. -/
@[simp] lemma runs_tell {n : Journal.Note} {a : Unit} : Runs path (tell n) r a r' ↔ r' = r := by
  simp [tell]

@[simp] lemma runs_tellAll {ns : List Journal.Note} {a : Unit} :
    Runs path (tellAll ns) r a r' ↔ r' = r := by
  induction ns with
  | nil => simp [tellAll]
  | cons n ns ih => simp [tellAll,ih]

/-- The JSON reader may say anything. -/
@[simp] lemma runs_wording {text why : String} : Runs path (wording text) r why r' ↔ r' = r := by
  constructor
  · rintro ⟨⟩
    simp_all
  · rintro rfl
    exact .explain why (.done _ _)

/-- There may be room for any number of samples. -/
@[simp] lemma runs_room {n : ℕ} : Runs path room r n r' ↔ r' = r := by
  constructor
  · rintro ⟨⟩
    simp_all
  · rintro rfl
    exact .measure n (.done _ _)

@[simp] lemma not_runs_endWith {ns : List Journal.Note} {a : α} : ¬Runs path (endWith ns) r a r' := by
  induction ns with
  | nil => rintro ⟨⟩
  | cons n ns ih => exact fun h => ih (runs_note.mp h)

lemma runs_makeAllFolders {q : String} {made : Attempt}
    (h : Runs path (makeAllFolders q) r made r') : r' = r := by
  rcases h
  simp_all

lemma runs_makeParent {q : String} {made : Attempt} (h : Runs path (makeParent q) r made r') :
    r' = r := by
  unfold makeParent at h
  split at h
  · exact (runs_pure.mp h).2
  · exact runs_makeAllFolders h

lemma runs_makeParent_made {q : String} : Runs path (makeParent q) r (.ok ()) r := by
  unfold makeParent
  split
  · exact runs_pure.mpr ⟨rfl,rfl⟩
  · exact .makeFolders (.ok ()) (.done _ _)

@[simp] lemma runs_readFile {answer : Reading} :
    Runs path (readFile path) r answer r' ↔ answer = r ∧ r' = r := by
  constructor
  · rintro ⟨⟩
    · simp_all
    · contradiction
  · rintro ⟨rfl,rfl⟩
    exact .read (.done _ _)

/-- A write leaves its text, if it succeeds, and else the file as it was. -/
lemma runs_writeFile {q text : String} {written : Attempt}
    (h : Runs path (writeFile q text) r written r') :
    (written = .ok () ∧ r' = .bytes text.toUTF8) ∨ (written = .ok () ∧ q ≠ path ∧ r' = r) ∨
      ∃ reason, written = .error reason ∧ r' = r := by
  cases h with
  | write rest => exact .inl (runs_done.mp rest)
  | writeOther other rest =>
    obtain ⟨hok,hr⟩ := runs_done.mp rest
    exact .inr (.inl ⟨hok,other,hr⟩)
  | writeFails reason rest => exact .inr (.inr ⟨reason,runs_done.mp rest⟩)

/-- A plan that goes on runs from what its first part leaves. -/
theorem runs_andThen {p : Plan α} {f : α → Plan β} {b : β} {r'' : Reading} :
    Runs path (p.andThen f) r b r'' ↔ ∃ a r', Runs path p r a r' ∧ Runs path (f a) r' b r'' := by
  constructor
  · intro h
    induction p generalizing r with
    | done a => exact ⟨a,r,.done a r,h⟩
    | read q next ih =>
      cases h with
      | read rest =>
        obtain ⟨a,r',hp,hf⟩ := ih _ rest
        exact ⟨a,r',.read hp,hf⟩
      | readOther other answer rest =>
        obtain ⟨a,r',hp,hf⟩ := ih _ rest
        exact ⟨a,r',.readOther other answer hp,hf⟩
    | makeFolders q next ih =>
      cases h with
      | makeFolders made rest =>
        obtain ⟨a,r',hp,hf⟩ := ih _ rest
        exact ⟨a,r',.makeFolders made hp,hf⟩
    | write q text next ih =>
      cases h with
      | write rest =>
        obtain ⟨a,r',hp,hf⟩ := ih _ rest
        exact ⟨a,r',.write hp,hf⟩
      | writeOther other rest =>
        obtain ⟨a,r',hp,hf⟩ := ih _ rest
        exact ⟨a,r',.writeOther other hp,hf⟩
      | writeFails reason rest =>
        obtain ⟨a,r',hp,hf⟩ := ih _ rest
        exact ⟨a,r',.writeFails reason hp,hf⟩
    | beginJournal q next ih =>
      cases h with
      | beginJournal ok rest =>
        obtain ⟨a,r',hp,hf⟩ := ih _ rest
        exact ⟨a,r',.beginJournal ok hp,hf⟩
    | limitDetail threshold next ih =>
      cases h with
      | limitDetail rest =>
        obtain ⟨a,r',hp,hf⟩ := ih rest
        exact ⟨a,r',.limitDetail hp,hf⟩
    | note n next ih =>
      cases h with
      | note rest =>
        obtain ⟨a,r',hp,hf⟩ := ih rest
        exact ⟨a,r',.note hp,hf⟩
    | reply line next ih =>
      cases h with
      | reply rest =>
        obtain ⟨a,r',hp,hf⟩ := ih rest
        exact ⟨a,r',.reply hp,hf⟩
    | explain text next ih =>
      cases h with
      | explain why rest =>
        obtain ⟨a,r',hp,hf⟩ := ih _ rest
        exact ⟨a,r',.explain why hp,hf⟩
    | measure next ih =>
      cases h with
      | measure room rest =>
        obtain ⟨a,r',hp,hf⟩ := ih _ rest
        exact ⟨a,r',.measure room hp,hf⟩
    | halt => cases h
  · rintro ⟨a,r',hp,hf⟩
    induction hp with
    | done a r => exact hf
    | read rest ih => exact .read (ih hf)
    | readOther other answer rest ih => exact .readOther other answer (ih hf)
    | makeFolders made rest ih => exact .makeFolders made (ih hf)
    | write rest ih => exact .write (ih hf)
    | writeOther other rest ih => exact .writeOther other (ih hf)
    | writeFails reason rest ih => exact .writeFails reason (ih hf)
    | beginJournal ok rest ih => exact .beginJournal ok (ih hf)
    | limitDetail rest ih => exact .limitDetail (ih hf)
    | note rest ih => exact .note (ih hf)
    | reply rest ih => exact .reply (ih hf)
    | explain why rest ih => exact .explain why (ih hf)
    | measure room rest ih => exact .measure room (ih hf)

@[simp] lemma runs_bind {p : Plan α} {f : α → Plan β} {b : β} {r'' : Reading} :
    Runs path (p >>= f) r b r'' ↔ ∃ a r', Runs path p r a r' ∧ Runs path (f a) r' b r'' :=
  runs_andThen

end Formulary.Files.Plan
