import Formulary.Proofs.Files.Runs

/-! Plans that stop on their way. A write empties its file and then fills it from the front, so it may
leave the front of its text where it stops or fails. Otherwise the world is that of a whole run. -/
namespace Formulary.Files

/-- A file into which the first bytes of a text have been written. -/
def Reading.front (text : String) (n : ℕ) : Reading := .bytes (text.toUTF8.extract 0 n)

namespace Plan

variable {α β : Type} {path : String} {r r' : Reading}

/-- What is left of a plan where it stops, and what is then read at the path. -/
inductive Reaches {α : Type} (path : String) : Plan α → Reading → Plan α → Reading → Prop
  | stop (p r) : Reaches path p r p r
  | read {next r p r'} (rest : Reaches path (next r) r p r') : Reaches path (.read path next) r p r'
  | readOther {q next r p r'} (other : q ≠ path) (answer : Reading)
      (rest : Reaches path (next answer) r p r') : Reaches path (.read q next) r p r'
  | makeFolders {q next r p r'} (made : Attempt) (rest : Reaches path (next made) r p r') :
      Reaches path (.makeFolders q next) r p r'
  | writing {q text next r} (n : ℕ) (part : n < text.utf8ByteSize) :
      Reaches path (.write q text next) r (.write q text next) (.front text n)
  | write {q text next r p r'} (rest : Reaches path (next (.ok ())) (.bytes text.toUTF8) p r') :
      Reaches path (.write q text next) r p r'
  | writeOther {q text next r p r'} (other : q ≠ path)
      (rest : Reaches path (next (.ok ())) r p r') : Reaches path (.write q text next) r p r'
  | writeFails {q text next r p r'} (reason : String)
      (rest : Reaches path (next (.error reason)) r p r') : Reaches path (.write q text next) r p r'
  | writeBreaks {q text next r p r'} (n : ℕ) (part : n < text.utf8ByteSize) (reason : String)
      (rest : Reaches path (next (.error reason)) (.front text n) p r') :
      Reaches path (.write q text next) r p r'
  | beginJournal {q next r p r'} (ok : Bool) (rest : Reaches path (next ok) r p r') :
      Reaches path (.beginJournal q next) r p r'
  | limitDetail {threshold next r p r'} (rest : Reaches path next r p r') :
      Reaches path (.limitDetail threshold next) r p r'
  | note {n next r p r'} (rest : Reaches path next r p r') : Reaches path (.note n next) r p r'
  | reply {line next r p r'} (rest : Reaches path next r p r') :
      Reaches path (.reply line next) r p r'
  | explain {text next r p r'} (why : String) (rest : Reaches path (next why) r p r') :
      Reaches path (.explain text next) r p r'
  | measure {next r p r'} (room : ℕ) (rest : Reaches path (next room) r p r') :
      Reaches path (.measure next) r p r'

/-- A whole run reaches its result. -/
theorem Runs.reaches {p : Plan α} {a : α} (h : Runs path p r a r') :
    Reaches path p r (.done a) r' := by
  induction h with
  | done a r => exact .stop _ _
  | read rest ih => exact .read ih
  | readOther other answer rest ih => exact .readOther other answer ih
  | makeFolders made rest ih => exact .makeFolders made ih
  | write rest ih => exact .write ih
  | writeOther other rest ih => exact .writeOther other ih
  | writeFails reason rest ih => exact .writeFails reason ih
  | beginJournal ok rest ih => exact .beginJournal ok ih
  | limitDetail rest ih => exact .limitDetail ih
  | note rest ih => exact .note ih
  | reply rest ih => exact .reply ih
  | explain why rest ih => exact .explain why ih
  | measure room rest ih => exact .measure room ih

lemma reaches_done {a : α} {p : Plan α} (h : Reaches path (.done a) r p r') :
    p = .done a ∧ r' = r := by
  cases h
  exact ⟨rfl,rfl⟩

lemma Reaches.andThen {p : Plan α} {f : α → Plan β} {a : α} {t : Plan β} {r₁ : Reading}
    (h : Reaches path p r (.done a) r₁) (rest : Reaches path (f a) r₁ t r') :
    Reaches path (p.andThen f) r t r' := by
  generalize hq : Plan.done a = q at h
  induction h with
  | stop =>
    cases hq
    exact rest
  | read _ ih => exact .read (ih rest hq)
  | readOther other answer _ ih => exact .readOther other answer (ih rest hq)
  | makeFolders made _ ih => exact .makeFolders made (ih rest hq)
  | writing => cases hq
  | write _ ih => exact .write (ih rest hq)
  | writeOther other _ ih => exact .writeOther other (ih rest hq)
  | writeFails reason _ ih => exact .writeFails reason (ih rest hq)
  | writeBreaks n part reason _ ih => exact .writeBreaks n part reason (ih rest hq)
  | beginJournal ok _ ih => exact .beginJournal ok (ih rest hq)
  | limitDetail _ ih => exact .limitDetail (ih rest hq)
  | note _ ih => exact .note (ih rest hq)
  | reply _ ih => exact .reply (ih rest hq)
  | explain why _ ih => exact .explain why (ih rest hq)
  | measure room _ ih => exact .measure room (ih rest hq)

/-- Where a plan that goes on stops: in its first part, with nothing to report, or behind it. -/
inductive StopsIn (path : String) (p : Plan α) (f : α → Plan β) (r : Reading) (t : Plan β)
    (r' : Reading) : Prop
  | first {u : Plan α} (unfinished : ∀ b, t ≠ .done b) (h : Reaches path p r u r')
  | second {a : α} {r₁ : Reading} (h : Reaches path p r (.done a) r₁)
      (rest : Reaches path (f a) r₁ t r')

/-- What leads to the first part leads to where it stops. -/
lemma StopsIn.lift {p q : Plan α} {f : α → Plan β} {r₁ : Reading} {t : Plan β}
    (h : StopsIn path p f r₁ t r')
    (lead : ∀ u r', Reaches path p r₁ u r' → Reaches path q r u r') : StopsIn path q f r t r' := by
  cases h with
  | first unfinished h => exact .first unfinished (lead _ _ h)
  | second h rest => exact .second (lead _ _ h) rest

theorem reaches_andThen {p : Plan α} {f : α → Plan β} {t : Plan β}
    (h : Reaches path (p.andThen f) r t r') : StopsIn path p f r t r' := by
  induction p generalizing r with
  | done a => exact .second (.stop _ _) h
  | read q next ih =>
    cases h with
    | stop => exact .first (by simp [andThen]) (.stop _ _)
    | read rest => exact (ih _ rest).lift fun _ _ => .read
    | readOther other answer rest => exact (ih _ rest).lift fun _ _ => .readOther other answer
  | makeFolders q next ih =>
    cases h with
    | stop => exact .first (by simp [andThen]) (.stop _ _)
    | makeFolders made rest => exact (ih _ rest).lift fun _ _ => .makeFolders made
  | write q text next ih =>
    cases h with
    | stop => exact .first (by simp [andThen]) (.stop _ _)
    | writing n part => exact .first (by simp) (.writing n part)
    | write rest => exact (ih _ rest).lift fun _ _ => .write
    | writeOther other rest => exact (ih _ rest).lift fun _ _ => .writeOther other
    | writeFails reason rest => exact (ih _ rest).lift fun _ _ => .writeFails reason
    | writeBreaks n part reason rest =>
      exact (ih _ rest).lift fun _ _ => .writeBreaks n part reason
  | beginJournal q next ih =>
    cases h with
    | stop => exact .first (by simp [andThen]) (.stop _ _)
    | beginJournal ok rest => exact (ih _ rest).lift fun _ _ => .beginJournal ok
  | limitDetail threshold next ih =>
    cases h with
    | stop => exact .first (by simp [andThen]) (.stop _ _)
    | limitDetail rest => exact (ih rest).lift fun _ _ => .limitDetail
  | note n next ih =>
    cases h with
    | stop => exact .first (by simp [andThen]) (.stop _ _)
    | note rest => exact (ih rest).lift fun _ _ => .note
  | reply line next ih =>
    cases h with
    | stop => exact .first (by simp [andThen]) (.stop _ _)
    | reply rest => exact (ih rest).lift fun _ _ => .reply
  | explain text next ih =>
    cases h with
    | stop => exact .first (by simp [andThen]) (.stop _ _)
    | explain why rest => exact (ih _ rest).lift fun _ _ => .explain why
  | measure next ih =>
    cases h with
    | stop => exact .first (by simp [andThen]) (.stop _ _)
    | measure room rest => exact (ih _ rest).lift fun _ _ => .measure room
  | halt =>
    cases h with
    | stop => exact .first (by simp [andThen]) (.stop _ _)

lemma reaches_makeParent {q : String} {p : Plan Attempt} (h : Reaches path (makeParent q) r p r') :
    r' = r := by
  unfold makeParent at h
  split at h
  · exact (reaches_done h).2
  · cases h with
    | stop => rfl
    | makeFolders made rest => exact (reaches_done rest).2

/-- A write leaves its whole text and has succeeded, the front of it, or what was there. -/
lemma reaches_writeFile {q text : String} {p : Plan Attempt}
    (h : Reaches path (writeFile q text) r p r') :
    (r' = r ∧ (q = path → p ≠ .done (.ok ()))) ∨
      (p ≠ .done (.ok ()) ∧ ∃ n < text.utf8ByteSize, r' = .front text n) ∨
      (p = .done (.ok ()) ∧ r' = .bytes text.toUTF8) := by
  cases h with
  | stop => exact .inl ⟨rfl,fun _ => by simp [writeFile]⟩
  | writing n part => exact .inr (.inl ⟨by simp,n,part,rfl⟩)
  | write rest => exact .inr (.inr (reaches_done rest))
  | writeOther other rest => exact .inl ⟨(reaches_done rest).2,fun h => absurd h other⟩
  | writeFails reason rest =>
    obtain ⟨rfl,rfl⟩ := reaches_done rest
    exact .inl ⟨rfl,fun _ => by simp⟩
  | writeBreaks n part reason rest =>
    obtain ⟨rfl,rfl⟩ := reaches_done rest
    exact .inr (.inl ⟨by simp,n,part,rfl⟩)

end Plan
end Formulary.Files
