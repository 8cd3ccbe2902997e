import Formulary.Files.World
import Formulary.Proofs.Files.Runs

/-! Plans in a world. What every answer of a world keeps is kept by every plan. A quiet plan reads no
file, replies nothing and does not end the program: in every world it comes to a result, and to one of
those that it has where anything may be refused. -/
namespace Formulary.Files

variable {α β W : Type} {world : World W} {P : W → Prop}

/-- Whatever is done in a world, a property of it stays. -/
structure World.Keeps (world : World W) (P : W → Prop) : Prop where
  read : ∀ path w, P w → P (world.read path w).2
  makeFolders : ∀ path w, P w → P (world.makeFolders path w).2
  write : ∀ path text w, P w → P (world.write path text w).2
  beginJournal : ∀ path w, P w → P (world.beginJournal path w).2
  limitDetail : ∀ threshold w, P w → P (world.limitDetail threshold w)
  note : ∀ n w, P w → P (world.note n w)

/-- What is kept whatever is done is kept by a plan. -/
theorem World.Keeps.runIn (h : world.Keeps P) (p : Plan α) {w : W} (hw : P w) :
    P (p.runIn world w).world := by
  induction p generalizing w with
  | done a => exact hw
  | read path next ih => exact ih _ (h.read path w hw)
  | makeFolders path next ih => exact ih _ (h.makeFolders path w hw)
  | write path text next ih => exact ih _ (h.write path text w hw)
  | beginJournal path next ih => exact ih _ (h.beginJournal path w hw)
  | limitDetail threshold next ih => exact ih (h.limitDetail threshold w hw)
  | note n next ih => exact ih (h.note n w hw)
  | reply line next ih => exact ih hw
  | explain text next ih => exact ih _ hw
  | measure next ih => exact ih _ hw
  | halt => exact hw

namespace Plan

/-- No file is read, nothing is replied and the program goes on, whatever is answered. -/
inductive IsQuiet {α : Type} : Plan α → Prop
  | done (a : α) : IsQuiet (.done a)
  | makeFolders {path next} (rest : ∀ made, IsQuiet (next made)) : IsQuiet (.makeFolders path next)
  | write {path text next} (rest : ∀ written, IsQuiet (next written)) :
      IsQuiet (.write path text next)
  | beginJournal {path next} (rest : ∀ ok, IsQuiet (next ok)) : IsQuiet (.beginJournal path next)
  | limitDetail {threshold next} (rest : IsQuiet next) : IsQuiet (.limitDetail threshold next)
  | note {n next} (rest : IsQuiet next) : IsQuiet (.note n next)
  | explain {text next} (rest : ∀ why, IsQuiet (next why)) : IsQuiet (.explain text next)
  | measure {next} (rest : ∀ room, IsQuiet (next room)) : IsQuiet (.measure next)

lemma isQuiet_pure (a : α) : (pure a : Plan α).IsQuiet := .done a

lemma IsQuiet.bind {p : Plan α} {f : α → Plan β} (hp : p.IsQuiet) (hf : ∀ a, (f a).IsQuiet) :
    (p >>= f).IsQuiet := by
  change (p.andThen f).IsQuiet
  induction hp with
  | done a => exact hf a
  | makeFolders rest ih => exact .makeFolders ih
  | write rest ih => exact .write ih
  | beginJournal rest ih => exact .beginJournal ih
  | limitDetail rest ih => exact .limitDetail ih
  | note rest ih => exact .note ih
  | explain rest ih => exact .explain ih
  | measure rest ih => exact .measure ih

/-- What is done with the result in the end makes no noise. -/
lemma IsQuiet.bind_pure {p : Plan α} (hp : p.IsQuiet) (f : α → β) :
    (p >>= fun a => pure (f a)).IsQuiet :=
  hp.bind fun a => isQuiet_pure (f a)

lemma isQuiet_tell (n : Journal.Note) : (tell n).IsQuiet := .note (.done ())

lemma isQuiet_tellAll (ns : List Journal.Note) : (tellAll ns).IsQuiet := by
  induction ns with
  | nil => exact .done ()
  | cons n ns ih => exact .note ih

lemma isQuiet_writeFile (path text : String) : (writeFile path text).IsQuiet := .write .done

lemma isQuiet_makeParent (path : String) : (makeParent path).IsQuiet := by
  unfold makeParent
  split
  · exact .done _
  · exact .makeFolders .done

/-- A quiet plan has a result in every world, which is one of those that it has anyway. -/
theorem IsQuiet.runIn {p : Plan α} (h : p.IsQuiet) (world : World W) (w : W) (path : String)
    (r : Reading) : ∃ a w' r', p.runIn world w = ⟨some a,"",w'⟩ ∧ p.Runs path r a r' := by
  induction h generalizing w r with
  | done a => exact ⟨a,w,r,rfl,.done a r⟩
  | @makeFolders q next rest ih =>
    obtain ⟨a,w',r',hrun,hruns⟩ := ih _ (world.makeFolders q w).2 r
    exact ⟨a,w',r',hrun,.makeFolders _ hruns⟩
  | @write q text next rest ih =>
    cases hw : (world.write q text w).1 with
    | error reason =>
      obtain ⟨a,w',r',hrun,hruns⟩ := ih (.error reason) (world.write q text w).2 r
      exact ⟨a,w',r',by rw [Plan.runIn,hw,hrun],.writeFails reason hruns⟩
    | ok u =>
      -- what is read at the path afterwards hangs on whether this was the path
      by_cases hq : q = path
      · subst hq
        obtain ⟨a,w',r',hrun,hruns⟩ := ih (.ok ()) (world.write q text w).2 (.bytes text.toUTF8)
        exact ⟨a,w',r',by rw [Plan.runIn,hw,hrun],.write hruns⟩
      · obtain ⟨a,w',r',hrun,hruns⟩ := ih (.ok ()) (world.write q text w).2 r
        exact ⟨a,w',r',by rw [Plan.runIn,hw,hrun],.writeOther hq hruns⟩
  | @beginJournal q next rest ih =>
    obtain ⟨a,w',r',hrun,hruns⟩ := ih _ (world.beginJournal q w).2 r
    exact ⟨a,w',r',hrun,.beginJournal _ hruns⟩
  | @limitDetail threshold next rest ih =>
    obtain ⟨a,w',r',hrun,hruns⟩ := ih (world.limitDetail threshold w) r
    exact ⟨a,w',r',hrun,.limitDetail hruns⟩
  | @note n next rest ih =>
    obtain ⟨a,w',r',hrun,hruns⟩ := ih (world.note n w) r
    exact ⟨a,w',r',hrun,.note hruns⟩
  | explain rest ih =>
    obtain ⟨a,w',r',hrun,hruns⟩ := ih _ w r
    exact ⟨a,w',r',hrun,.explain _ hruns⟩
  | measure rest ih =>
    obtain ⟨a,w',r',hrun,hruns⟩ := ih _ w r
    exact ⟨a,w',r',hrun,.measure _ hruns⟩

/-- Ending the program leaves no result, and no reply either. -/
lemma runIn_endWith (ns : List Journal.Note) (w : W) :
    ∃ w', (endWith ns : Plan α).runIn world w = ⟨none,"",w'⟩ := by
  induction ns generalizing w with
  | nil => exact ⟨w,rfl⟩
  | cons n ns ih => exact ih (world.note n w)

end Plan
end Formulary.Files
