import Formulary.Files.Machine
import Formulary.Proofs.Files.Worlds
import Mathlib.Data.List.Basic

/-! The file of the journal. A plan that neither writes to this file by another way nor opens a new one
only puts the records of what is kept behind those that are there, numbered one after another. -/
namespace Formulary.Files
open Journal (Note)

/-- Records of notes, numbered from a number on. -/
def records : ℕ → List Note → List String
  | _,[] => []
  | number,n :: rest => n.line number :: records (number + 1) rest

/-- Records as they stand in a file, each ended by a line break. -/
def recordsText : ℕ → List Note → String
  | _,[] => ""
  | number,n :: rest => n.line number ++ "\n" ++ recordsText (number + 1) rest

lemma recordsText_append (number : ℕ) (ns ns' : List Note) :
    recordsText number (ns ++ ns') =
      recordsText number ns ++ recordsText (number + ns.length) ns' := by
  induction ns generalizing number with
  | nil => simp [recordsText]
  | cons n ns ih =>
    simp only [List.cons_append,recordsText,ih,List.length_cons,Nat.add_assoc,Nat.add_comm 1,
      String.append_assoc]

lemma recordsText_singleton (number : ℕ) (n : Note) :
    recordsText number [n] = n.line number ++ "\n" := by
  simp [recordsText]

namespace Plan
variable {α β : Type}

/-- What a plan notes on a machine and the journal keeps. -/
def kept : Plan α → Machine → List Note
  | done _,_ => []
  | read path next,m => (next (m.read path)).kept m
  | makeFolders path next,m => (next (m.makeFolders path).1).kept (m.makeFolders path).2
  | write path text next,m => (next (m.write path text).1).kept (m.write path text).2
  | beginJournal path next,m => (next (m.beginJournal path).1).kept (m.beginJournal path).2
  | limitDetail threshold next,m =>
    next.kept { m with journal := { m.journal with threshold := threshold } }
  | note n next,m => (if m.journal.admits n then [n] else []) ++ next.kept (m.note n)
  | reply _ next,m => next.kept m
  | explain text next,m => (next (m.host.wording text)).kept m
  | measure next,m => (next m.host.room).kept m
  | halt,_ => []

/-- No text is written to a place, and no other file is opened for the journal. -/
def LeavesAlone (place : Place) : Plan α → Machine → Prop
  | done _,_ => True
  | read path next,m => (next (m.read path)).LeavesAlone place m
  | makeFolders path next,m =>
    (next (m.makeFolders path).1).LeavesAlone place (m.makeFolders path).2
  | write path text next,m => m.disk.filePlace? path ≠ some place ∧
    (next (m.write path text).1).LeavesAlone place (m.write path text).2
  | beginJournal path next,m => m.disk.filePlace? path = none ∧ (next false).LeavesAlone place m
  | limitDetail threshold next,m =>
    next.LeavesAlone place { m with journal := { m.journal with threshold := threshold } }
  | note n next,m => next.LeavesAlone place (m.note n)
  | reply _ next,m => next.LeavesAlone place m
  | explain text next,m => (next (m.host.wording text)).LeavesAlone place m
  | measure next,m => (next m.host.room).LeavesAlone place m
  | halt,_ => True

lemma run_bind (p : Plan α) (f : α → Plan β) (m : Machine) :
    (p >>= f).run m = (p.run m).andThen fun a => (f a).run := runIn_bind p f m

/-- What follows a plan that has a result is kept behind what the plan has noted. -/
lemma kept_bind (p : Plan α) (f : α → Plan β) (m : Machine) : (p >>= f).kept m =
    p.kept m ++ (p.run m).result.elim [] fun a => (f a).kept (p.run m).world := by
  change (p.andThen f).kept m = _
  induction p generalizing m with
  | done a => rfl
  | read path next ih => exact ih _ m
  | makeFolders path next ih => exact ih _ _
  | write path text next ih => exact ih _ _
  | beginJournal path next ih => exact ih _ _
  | limitDetail threshold next ih => exact ih _
  | note n next ih =>
    rw [andThen,kept,kept,ih,List.append_assoc]
    rfl
  | reply line next ih => exact ih m
  | explain text next ih => exact ih _ m
  | measure next ih => exact ih _ m
  | halt => rfl

/-- A plan comes to a result on a machine, leaves another machine and has these notes kept. -/
structure ComesTo (p : Plan α) (m : Machine) (a : α) (m' : Machine) (ns : List Note) : Prop where
  result : (p.run m).result = some a
  world : (p.run m).world = m'
  kept : p.kept m = ns

lemma comesTo_pure_iff {a b : α} {m m' : Machine} {ns : List Note} :
    (pure a : Plan α).ComesTo m b m' ns ↔ b = a ∧ m' = m ∧ ns = [] := by
  constructor
  · rintro ⟨hresult,hworld,hkept⟩
    exact ⟨(Option.some.inj hresult).symm,hworld.symm,hkept.symm⟩
  · rintro ⟨rfl,rfl,rfl⟩
    exact ⟨rfl,rfl,rfl⟩

lemma comesTo_bind_iff {p : Plan α} {f : α → Plan β} {b : β} {m m'' : Machine} {ns : List Note} :
    (p >>= f).ComesTo m b m'' ns ↔ ∃ a m' ns₁ ns₂,
      p.ComesTo m a m' ns₁ ∧ (f a).ComesTo m' b m'' ns₂ ∧ ns = ns₁ ++ ns₂ := by
  constructor
  · rintro ⟨hresult,hworld,hkept⟩
    rw [run_bind,Ran.andThen] at hresult hworld
    rw [kept_bind] at hkept
    cases ha : (p.run m).result with
    | none =>
      rw [ha] at hresult
      cases hresult
    | some a =>
      rw [ha] at hresult hworld hkept
      exact ⟨a,_,_,_,⟨ha,rfl,rfl⟩,⟨hresult,hworld,rfl⟩,hkept.symm⟩
  · rintro ⟨a,m',ns₁,ns₂,⟨ha,rfl,rfl⟩,⟨hresult,hworld,rfl⟩,rfl⟩
    refine ⟨?_,?_,?_⟩
    · rw [run_bind,Ran.andThen,ha]
      exact hresult
    · rw [run_bind,Ran.andThen,ha]
      exact hworld
    · rw [kept_bind,ha,Option.elim_some]

lemma leavesAlone_bind {place : Place} (p : Plan α) (f : α → Plan β) (m : Machine) :
    (p >>= f).LeavesAlone place m ↔ p.LeavesAlone place m ∧
      ∀ a, (p.run m).result = some a → (f a).LeavesAlone place (p.run m).world := by
  change (p.andThen f).LeavesAlone place m ↔ _
  induction p generalizing m with
  | done a =>
    refine ⟨fun h => ⟨trivial,?_⟩,fun h => h.2 a rfl⟩
    rintro _ ⟨⟩
    exact h
  | read path next ih => exact ih _ m
  | makeFolders path next ih => exact ih _ _
  | write path text next ih => exact (and_congr_right fun _ => ih _ _).trans and_assoc.symm
  | beginJournal path next ih =>
    rw [andThen,LeavesAlone,LeavesAlone,and_assoc]
    refine and_congr_right fun hnone => ?_
    have hbegun : m.beginJournal path = (false,m) := by rw [Machine.beginJournal,hnone]
    have hrun : (beginJournal path next).run m = (next false).run m := by
      change (next (m.beginJournal path).1).run (m.beginJournal path).2 = _
      rw [hbegun]
    rw [hrun]
    exact ih false m
  | limitDetail threshold next ih => exact ih _
  | note n next ih => exact ih _
  | reply line next ih => exact ih m
  | explain text next ih => exact ih _ m
  | measure next ih => exact ih _ m
  | halt => exact ⟨fun _ => ⟨trivial,by rintro _ ⟨⟩⟩,fun _ => trivial⟩

end Plan

/-- The file of the journal stands at a place and holds the records of these notes. -/
structure Logged (m : Machine) (place : Place) (first : ℕ) (notes : List Note) : Prop where
  file : m.file = some ⟨place,(recordsText first notes).toUTF8.size⟩
  content : m.disk place = some (.file (recordsText first notes).toUTF8)
  last : m.journal.last + 1 = first + notes.length

variable {m : Machine} {place : Place} {first : ℕ} {notes : List Note}

/-- A piece that is laid where a content ends is put behind it. -/
lemma overlay_end (content piece : ByteArray) :
    Disk.overlay content content.size piece = content ++ piece := by
  have hafter : content.extract (content.size + piece.size) content.size = ByteArray.empty :=
    ByteArray.extract_eq_empty_iff.mpr (by omega)
  have hgap : (⟨Array.replicate 0 0⟩ : ByteArray) = ByteArray.empty := rfl
  rw [Disk.overlay,ByteArray.extract_zero_size,hafter,Nat.sub_self,hgap,ByteArray.append_empty,
    ByteArray.append_empty]

/-- A note that is kept is written on a line of its own behind the others. -/
lemma Logged.note (h : Logged m place first notes) (n : Note) :
    Logged (m.note n) place first (notes ++ if m.journal.admits n then [n] else []) := by
  unfold Machine.note Journal.keep
  split_ifs with hn
  · let piece := (n.line (m.journal.last + 1) ++ "\n").toUTF8
    have htext : (recordsText first (notes ++ [n])).toUTF8 =
        (recordsText first notes).toUTF8 ++ piece := by
      rw [recordsText_append,recordsText_singleton,← h.last]
      exact String.toByteArray_append
    simp only [Machine.writeLine,h.file]
    refine ⟨?_,?_,?_⟩
    · rw [htext,ByteArray.size_append]
    · rw [htext]
      simp only [Disk.patch,h.content,overlay_end]
      exact Disk.put_self _ _ _
    · have hlast := h.last
      simp only [List.length_append,List.length_singleton]
      omega
  · rw [List.append_nil]
    exact ⟨h.file,h.content,h.last⟩

/-- Folders are made only where nothing stands. -/
lemma makeAlong_file {d : Disk} {content : ByteArray} (hc : d place = some (.file content))
    (start : Place) (names : List String) : (d.makeAlong start names).2 place = some (.file content) := by
  induction names generalizing d start with
  | nil => exact hc
  | cons name names ih =>
    rw [Disk.makeAlong]
    split
    · rename_i changed hmade
      refine ih ?_ _
      split_ifs at hmade
      unfold Disk.makeFolder? at hmade
      split at hmade
      · rename_i hnone
        cases hmade
        rwa [Disk.put_of_ne]
        rintro rfl
        rw [hc] at hnone
        cases hnone
      · cases hmade
        exact hc
      · cases hmade
    · exact hc

lemma Logged.makeFolders (h : Logged m place first notes) (path : String) :
    Logged (m.makeFolders path).2 place first notes := by
  refine ⟨h.file,?_,h.last⟩
  simp only [Machine.makeFolders,Disk.makeFolders]
  split_ifs
  · exact makeAlong_file h.content _ _
  · exact h.content

/-- A text that is written elsewhere changes nothing here. -/
lemma Logged.write (h : Logged m place first notes) {path : String} (text : String)
    (hne : m.disk.filePlace? path ≠ some place) :
    Logged (m.write path text).2 place first notes := by
  rw [Machine.write,Disk.write?]
  cases hp : m.disk.filePlace? path with
  | none => exact h
  | some place' =>
    have hother : place ≠ place' := by
      rintro rfl
      exact hne hp
    exact ⟨h.file,(Disk.put_of_ne _ _ hother).trans h.content,h.last⟩

/-- A plan that leaves the file alone puts the records of what is kept behind the others. -/
theorem Logged.run {α : Type} {p : Plan α} (h : Logged m place first notes)
    (ha : p.LeavesAlone place m) : Logged (p.run m).world place first (notes ++ p.kept m) := by
  induction p generalizing m notes with
  | done a =>
    rw [Plan.kept,List.append_nil]
    exact h
  | read path next ih => exact ih _ h ha
  | makeFolders path next ih => exact ih _ (h.makeFolders path) ha
  | write path text next ih => exact ih _ (h.write text ha.1) ha.2
  | beginJournal path next ih =>
    obtain ⟨hnone,ha⟩ := ha
    have hbegun : m.beginJournal path = (false,m) := by rw [Machine.beginJournal,hnone]
    rw [Plan.kept,hbegun]
    change Logged ((next (m.beginJournal path).1).run (m.beginJournal path).2).world place first _
    rw [hbegun]
    exact ih false h ha
  | limitDetail threshold next ih => exact ih ⟨h.file,h.content,h.last⟩ ha
  | note n next ih =>
    rw [Plan.kept,← List.append_assoc]
    exact ih (h.note n) ha
  | reply line next ih => exact ih h ha
  | explain text next ih => exact ih _ h ha
  | measure next ih => exact ih _ h ha
  | halt =>
    rw [Plan.kept,List.append_nil]
    exact h

/-- A journal that is begun holds nothing, and its first record has the next number. -/
lemma Logged.begin {path : String} (h : (m.beginJournal path).1 = true) :
    ∃ place, m.disk.filePlace? path = some place ∧
      Logged (m.beginJournal path).2 place (m.journal.last + 1) [] := by
  unfold Machine.beginJournal at h ⊢
  cases hp : m.disk.filePlace? path with
  | none =>
    rw [hp] at h
    cases h
  | some place => exact ⟨place,rfl,rfl,Disk.put_self _ _ _,rfl⟩

/-! Where the file is found: folders stay where they are, so a path leads where it led. -/

namespace Disk
variable {d d' : Disk} {path : String}

/-- Every folder of a disk is a folder of another. -/
def KeepsFolders (d d' : Disk) : Prop := ∀ place, d.isFolder place = true → d'.isFolder place = true

lemma keepsFolders_put_file (h : d.isFolder place = false) (content : ByteArray) :
    d.KeepsFolders (d.put place (.file content)) := by
  intro place' hplace'
  have hne : place' ≠ place := by
    rintro rfl
    rw [h] at hplace'
    cases hplace'
  rwa [isFolder,put_of_ne _ _ hne]

lemma isFolder_of_filePlace? (h : d.filePlace? path = some place) : d.isFolder place = false := by
  obtain ⟨place',-,h⟩ := Option.bind_eq_some_iff.mp h
  split_ifs at h with hfolder
  cases h
  exact Bool.not_eq_true _ ▸ hfolder

lemma place?_of_filePlace? (h : d.filePlace? path = some place) : d.place? path = some place := by
  obtain ⟨place',hplace,h⟩ := Option.bind_eq_some_iff.mp h
  split_ifs at h
  cases h
  exact hplace

lemma keepsFolders_makeAlong (d : Disk) (start : Place) (names : List String) :
    d.KeepsFolders (d.makeAlong start names).2 := by
  induction names generalizing d start with
  | nil => exact fun _ h => h
  | cons name names ih =>
    rw [makeAlong]
    split
    · rename_i changed hmade
      refine fun place' h => ih changed _ place' ?_
      split_ifs at hmade
      unfold makeFolder? at hmade
      split at hmade
      · cases hmade
        by_cases hplace : place' = follow start name
        · rw [hplace,isFolder,put_self]
        · rwa [isFolder,put_of_ne _ _ hplace]
      · cases hmade
        exact h
      · cases hmade
    · exact fun _ h => h

lemma keepsFolders_makeFolders (d : Disk) (path : String) :
    d.KeepsFolders (d.makeFolders path).2 := by
  unfold makeFolders
  split_ifs
  · exact keepsFolders_makeAlong d _ _
  · exact fun _ h => h

lemma keepsFolders_patch (d : Disk) (place : Place) (start : ℕ) (piece : ByteArray) :
    d.KeepsFolders (d.patch place start piece) := by
  unfold patch
  split
  · rename_i hfile
    exact keepsFolders_put_file (by rw [isFolder,hfile]) _
  · exact fun _ h => h

lemma KeepsFolders.walk (h : d.KeepsFolders d') {start : Place} {names : List String}
    (hw : d.walk start names = some place) : d'.walk start names = some place := by
  induction names generalizing start with
  | nil => exact hw
  | cons name names ih =>
    rw [Disk.walk] at hw ⊢
    split_ifs at hw with hname
    rw [Bool.and_eq_true] at hname
    rw [if_pos (Bool.and_eq_true_iff.mpr ⟨h _ hname.1,hname.2⟩)]
    exact ih hw

lemma KeepsFolders.place? (h : d.KeepsFolders d') (hp : d.place? path = some place) :
    d'.place? path = some place := by
  unfold Disk.place? at hp ⊢
  split_ifs at hp ⊢
  exact h.walk hp

end Disk

/-- A path leads where it led, whatever a plan does. -/
theorem place?_run {α : Type} (p : Plan α) {path : String} (h : m.disk.place? path = some place) :
    (p.run m).world.disk.place? path = some place := by
  induction p generalizing m with
  | done a => exact h
  | read q next ih => exact ih _ h
  | makeFolders q next ih => exact ih _ ((m.disk.keepsFolders_makeFolders q).place? h)
  | write q text next ih =>
    have hwritten : (m.write q text).2.disk.place? path = some place := by
      rw [Machine.write,Disk.write?]
      cases hp : m.disk.filePlace? q with
      | none => exact h
      | some place' =>
        exact (Disk.keepsFolders_put_file (Disk.isFolder_of_filePlace? hp) _).place? h
    exact ih _ hwritten
  | beginJournal q next ih =>
    have hbegun : (m.beginJournal q).2.disk.place? path = some place := by
      rw [Machine.beginJournal]
      cases hp : m.disk.filePlace? q with
      | none => exact h
      | some place' =>
        exact (Disk.keepsFolders_put_file (Disk.isFolder_of_filePlace? hp) _).place? h
    exact ih _ hbegun
  | limitDetail threshold next ih => exact ih h
  | note n next ih =>
    have hnoted : (m.note n).disk.place? path = some place := by
      simp only [Machine.note,Machine.writeLine]
      split
      · exact h
      · split
        · exact h
        · exact (Disk.keepsFolders_patch _ _ _ _).place? h
    exact ih hnoted
  | reply line next ih => exact ih h
  | explain text next ih => exact ih _ h
  | measure next ih => exact ih _ h
  | halt => exact h

/-- Nothing that is done changes what the machine answers apart from its files. -/
lemma keeps_host (P : Host → Prop) : Machine.world.Keeps fun m => P m.host where
  read _ _ h := h
  makeFolders _ _ h := h
  write path text m h := by
    change P (m.write path text).2.host
    unfold Machine.write
    split <;> exact h
  beginJournal path m h := by
    change P (m.beginJournal path).2.host
    unfold Machine.beginJournal
    split <;> exact h
  limitDetail _ _ h := h
  note n m h := by
    change P (m.note n).host
    simp only [Machine.note,Machine.writeLine]
    split
    · exact h
    · split <;> exact h

lemma host_run {α : Type} (p : Plan α) (m : Machine) : (p.run m).world.host = m.host :=
  (keeps_host (· = m.host)).runIn p rfl

/-- Reading the file gives the records. -/
lemma Logged.read {path : String} (h : Logged m place first notes)
    (hp : m.disk.place? path = some place) :
    m.read path = .bytes (recordsText first notes).toUTF8 := by
  have hcontent : m.disk.node? path = some (.file (recordsText first notes).toUTF8) :=
    Option.bind_eq_some_iff.mpr ⟨place,hp,h.content⟩
  rw [Machine.read,hcontent]

end Formulary.Files
