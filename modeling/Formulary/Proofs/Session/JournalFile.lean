import Formulary.Proofs.History.Durability
import Formulary.Proofs.Session.JournalLines
import Formulary.Proofs.Text.Pieces

/-! The file of the journal. A session that was opened with a journal puts its records into the file
at the path of the journal, and the lines of the file are its records exactly if no text that was told
as it is has a line break. -/
namespace Formulary.Session
open Files (Machine Place Plan Logged records recordsText)
open Journal (Note)
open Script (IsPlain isPlain_append isPlain_ofList isPlain_natural)

/-! Lines -/

/-- The lines of a text that ends each of its lines. -/
def endedLines (text : String) : List String :=
  (Text.pieces '\n' text.toList).dropLast.map String.ofList

lemma endedLines_append {line : String} (h : IsPlain line) (rest : String) :
    endedLines (line ++ "\n" ++ rest) = line :: endedLines rest := by
  have hchars : (line ++ "\n" ++ rest).toList = line.toList ++ '\n' :: rest.toList := by
    simp [String.toList_append]
  rw [endedLines,hchars,Text.pieces_append h,List.dropLast_cons_of_ne_nil (Text.pieces_ne_nil _ _),
    List.map_cons,String.ofList_toList]
  rfl

lemma length_endedLines (text : String) : (endedLines text).length = text.toList.count '\n' := by
  rw [endedLines,List.length_map,List.length_dropLast,Text.length_pieces,Nat.add_sub_cancel]

lemma isPlain_letter (l : Journal.Level) : IsPlain l.letter := by
  cases l <;> exact isPlain_ofList (by decide)

/-- The number, the level and the bars of a record never break it. -/
lemma isPlain_line (n : Note) (number : ℕ) : IsPlain (n.line number) ↔ IsOneLine n := by
  have hbar : IsPlain "|" := isPlain_ofList (by decide)
  simp only [Note.line,isPlain_append,IsOneLine]
  simp [hbar,isPlain_letter,show IsPlain number.repr from isPlain_natural number]

lemma count_recordsText (first : ℕ) (ns : List Note) : (recordsText first ns).toList.count '\n' =
    ns.length + ((records first ns).map fun l => l.toList.count '\n').sum := by
  induction ns generalizing first with
  | nil => rfl
  | cons n ns ih =>
    have hbreak : "\n".toList.count '\n' = 1 := by decide
    simp only [recordsText,records,String.toList_append,List.count_append,ih,hbreak,List.map_cons,
      List.sum_cons,List.length_cons]
    omega

lemma isPlain_records (first : ℕ) (ns : List Note) :
    (∀ l ∈ records first ns, IsPlain l) ↔ ∀ n ∈ ns, IsOneLine n := by
  induction ns generalizing first with
  | nil => simp [records]
  | cons n ns ih => rw [records,List.forall_mem_cons,List.forall_mem_cons,ih,isPlain_line]

/-- There are as many lines as records exactly if each record is one line. -/
lemma length_endedLines_recordsText (first : ℕ) (ns : List Note) :
    (endedLines (recordsText first ns)).length = ns.length ↔ ∀ n ∈ ns, IsOneLine n := by
  rw [length_endedLines,count_recordsText,Nat.add_eq_left,List.sum_eq_zero_iff,← isPlain_records first]
  simp [IsPlain,List.count_eq_zero]

lemma endedLines_recordsText {first : ℕ} {ns : List Note} (h : ∀ n ∈ ns, IsOneLine n) :
    endedLines (recordsText first ns) = records first ns := by
  induction ns generalizing first with
  | nil => rfl
  | cons n ns ih =>
    obtain ⟨hn,hns⟩ := List.forall_mem_cons.mp h
    rw [recordsText,records,endedLines_append ((isPlain_line n first).mpr hn),ih hns]

lemma length_records (first : ℕ) (ns : List Note) : (records first ns).length = ns.length := by
  induction ns generalizing first with
  | nil => rfl
  | cons n ns ih => rw [records,List.length_cons,ih,List.length_cons]

/-- Each record has the number that follows the one before. -/
lemma getElem?_records (first : ℕ) (ns : List Note) (i : ℕ) :
    (records first ns)[i]? = ns[i]?.map fun n => n.line (first + i) := by
  induction ns generalizing first i with
  | nil => rfl
  | cons n ns ih =>
    cases i with
    | zero => rfl
    | succ i => simpa [records,Nat.add_assoc,Nat.add_comm 1] using ih (first + 1) i

/-! Opening -/

variable {m m' opened : Machine} {place : Place} {path : String} {s : State} {ns before : List Note}

lemma leavesAlone_tellAll (ns : List Note) (m : Machine) :
    (Plan.tellAll ns).LeavesAlone place m := by
  induction ns generalizing m with
  | nil => exact trivial
  | cons n ns ih => exact ih (m.note n)

/-- Reading the configuration changes nothing and notes nothing. -/
lemma comesTo_loadConfig {r : Except SetupFault Config}
    (h : (Config.load path).ComesTo m r m' ns) : m' = m ∧ ns = [] := by
  obtain ⟨answer,m₁,ns₁,ns₂,⟨-,hworld,hkept⟩,h,rfl⟩ := Plan.comesTo_bind_iff.mp h
  obtain rfl : m = m₁ := hworld
  obtain rfl : [] = ns₁ := hkept
  have hpure {x : Except SetupFault Config} (hx : (pure x : Plan _).ComesTo m r m' ns₂) :
      m' = m ∧ ns₂ = [] := (Plan.comesTo_pure_iff.mp hx).2
  cases answer with
  | absent | unreadable => exact hpure h
  | bytes content =>
    dsimp only at h
    cases hc : String.fromUTF8? content with
    | none => exact hpure (by simpa [hc] using h)
    | some text =>
      simp only [hc] at h
      cases hread : Config.read? text with
      | none => exact hpure (by simpa [hread] using h)
      | some config => exact hpure (by simpa [hread] using h)

/-- A journal begins at its path, empty and with the next number. -/
lemma logged_beginJournal {q : String}
    (h : (beginJournal (some q)).ComesTo m (.ok ()) m' ns) :
    ns = [] ∧ ∃ place, m'.disk.place? q = some place ∧
      Logged m' place (m.journal.last + 1) [] := by
  obtain ⟨made,m₁,ns₁,ns₂,hmade,h,rfl⟩ := Plan.comesTo_bind_iff.mp h
  obtain ⟨hjournal,rfl⟩ : m₁.journal = m.journal ∧ ns₁ = [] := by
    obtain ⟨-,rfl,rfl⟩ := hmade
    unfold Plan.makeParent
    split <;> exact ⟨rfl,rfl⟩
  cases made with
  | error reason => cases (Plan.comesTo_pure_iff.mp h).1
  | ok u =>
    obtain ⟨ok,m₂,ns₃,ns₄,⟨hok,hworld,hkept⟩,h,rfl⟩ := Plan.comesTo_bind_iff.mp h
    obtain rfl : [] = ns₃ := hkept
    obtain rfl : (m₁.beginJournal q).1 = ok := Option.some.inj hok
    obtain rfl : (m₁.beginJournal q).2 = m₂ := hworld
    split_ifs at h with hbegun
    · obtain ⟨-,rfl,rfl⟩ := Plan.comesTo_pure_iff.mp h
      obtain ⟨place,hplace,hlogged⟩ := Logged.begin hbegun
      refine ⟨rfl,place,?_,hjournal ▸ hlogged⟩
      exact Files.place?_run (Plan.openJournal q) (Files.Disk.place?_of_filePlace? hplace)
    · cases (Plan.comesTo_pure_iff.mp h).1

lemma kept_beginJournal (q : Option String) (m : Machine) : (beginJournal q).kept m = [] := by
  cases q with
  | none => rfl
  | some q =>
    have hparent : (Plan.makeParent q).kept m = [] := by
      unfold Plan.makeParent
      split <;> rfl
    rw [beginJournal,Plan.kept_bind,hparent,List.nil_append]
    rcases ((Plan.makeParent q).run m).result with _ | ⟨reason⟩ | ⟨⟩
    · rfl
    · rfl
    · simp only [Option.elim_some,Plan.kept_bind]
      cases (Plan.run (Plan.openJournal q) _).result with
      | none => rfl
      | some ok => cases ok <;> rfl

lemma config_of_openState {config : Config} (h : (openState config).ComesTo m (.ok s) m' ns) :
    s.config = config := by
  obtain ⟨outcome,_,_,_,-,h,-⟩ := Plan.comesTo_bind_iff.mp h
  cases outcome with
  | error e => cases (Plan.comesTo_pure_iff.mp h).1
  | ok history =>
    obtain ⟨_,_,_,_,-,h,-⟩ := Plan.comesTo_bind_iff.mp h
    cases (Plan.comesTo_pure_iff.mp h).1
    rfl

lemma config_of_openNoted {greeting : List Note} {config : Config}
    (h : (openNoted path greeting config).ComesTo m (.ok s) m' ns) : s.config = config := by
  simp only [openNoted,Plan.comesTo_bind_iff] at h
  obtain ⟨_,_,_,_,-,⟨_,_,_,_,-,⟨_,_,_,_,-,h,-⟩,-⟩,-⟩ := h
  exact config_of_openState h

/-- A session that is opened has begun its journal, and nothing is noted before that. -/
lemma comesTo_openSession {greeting : List Note}
    (h : (openSession path greeting).ComesTo m (.ok s) opened before) :
    ∃ begun, (beginJournal s.config.logPath).ComesTo m (.ok ()) begun [] ∧
      (openNoted path greeting s.config).ComesTo begun (.ok s) opened before := by
  obtain ⟨loaded,_,_,_,hloaded,hrest,rfl⟩ := Plan.comesTo_bind_iff.mp h
  obtain ⟨rfl,rfl⟩ := comesTo_loadConfig hloaded
  cases loaded with
  | error e => cases (Plan.comesTo_pure_iff.mp hrest).1
  | ok config =>
    obtain ⟨began,begun,_,_,hbegun,hnoted,rfl⟩ := Plan.comesTo_bind_iff.mp hrest
    cases began with
    | error e => cases (Plan.comesTo_pure_iff.mp hnoted).1
    | ok u =>
      obtain rfl := config_of_openNoted hnoted
      obtain rfl := hbegun.kept.symm.trans (kept_beginJournal _ _)
      exact ⟨begun,hbegun,hnoted⟩

/-- The history is read and noted, and no file is written. -/
lemma leavesAlone_openState (config : Config) (m : Machine) :
    (openState config).LeavesAlone place m := by
  have hhistory (m : Machine) : (openHistory config).LeavesAlone place m := by
    unfold openHistory
    cases config.historyPath with
    | none => exact trivial
    | some path =>
      refine (Plan.leavesAlone_bind _ _ m).mpr ⟨trivial,fun answer _ => ?_⟩
      split
      · exact trivial
      · rename_i l _
        refine (Plan.leavesAlone_bind _ _ _).mpr ⟨?_,fun _ _ => trivial⟩
        cases l.damaged <;> exact trivial
  refine (Plan.leavesAlone_bind _ _ m).mpr ⟨hhistory m,fun outcome _ => ?_⟩
  cases outcome <;> exact trivial

/-- A session that was opened with a journal has its file open, behind what opening noted. -/
theorem logged_openSession {greeting : List Note} {q : String}
    (h : (openSession path greeting).ComesTo m (.ok s) opened before)
    (hq : s.config.logPath = some q) :
    ∃ place, opened.disk.place? q = some place ∧
      Logged opened place (m.journal.last + 1) before := by
  obtain ⟨begun,hbegun,-,rfl,rfl⟩ := comesTo_openSession h
  rw [hq] at hbegun
  obtain ⟨-,place,hplace,hlogged⟩ := logged_beginJournal hbegun
  have halone : (openNoted path greeting s.config).LeavesAlone place begun :=
    (Plan.leavesAlone_bind _ _ _).mpr ⟨leavesAlone_tellAll _ _,fun _ _ => leavesAlone_openState _ _⟩
  exact ⟨place,Files.place?_run _ hplace,hlogged.run halone⟩

/-! Serving -/

/-- A session that was opened with a journal serves lines, and nothing else writes to the file of the
journal. Then the file holds the records of what was kept, numbered one after another, and its lines
are these records, and as many, exactly if the notes of the opening are one line each and no text that
a line tells as it is has a line break. -/
theorem endedLines_journal_iff {greeting : List Note} {q : String} {lines : List (Occasion × String)}
    (hopen : (openSession path greeting).ComesTo m (.ok s) opened before)
    (hq : s.config.logPath = some q) (hid : ∀ l ∈ lines, IsPlain l.1.id)
    (halone : ∀ place, opened.disk.place? q = some place →
      (s.serveLines lines).LeavesAlone place opened) :
    let first := m.journal.last + 1
    let notes := before ++ (s.serveLines lines).kept opened
    let text := recordsText first notes
    let areOneLine := (∀ n ∈ before, IsOneLine n) ∧ ∀ t ∈ s.looseLines opened lines, IsPlain t
    ((s.serveLines lines).run opened).world.read q = .bytes text.toUTF8 ∧
      (∀ i, (records first notes)[i]? = notes[i]?.map fun n : Note => n.line (first + i)) ∧
      (endedLines text = records first notes ↔ areOneLine) ∧
      ((endedLines text).length = notes.length ↔ areOneLine) := by
  intro first notes text areOneLine
  obtain ⟨place,hplace,hlogged⟩ := logged_openSession hopen hq
  have hfile := (hlogged.run (halone place hplace)).read (Files.place?_run _ hplace)
  have hnotes : (∀ n ∈ notes, IsOneLine n) ↔ areOneLine := by
    rw [List.forall_mem_append]
    exact and_congr_right fun _ => s.lines_serveLines hid
  have hlength := (length_endedLines_recordsText first notes).trans hnotes
  refine ⟨hfile,getElem?_records first notes,
    ⟨fun h => hlength.mp ?_,fun h => endedLines_recordsText (hnotes.mpr h)⟩,hlength⟩
  rw [h,length_records]

lemma isOneLine_kept_tellAll {ns : List Note} (h : ∀ n ∈ ns, IsOneLine n) (m : Machine) :
    ∀ n ∈ (Plan.tellAll ns).kept m, IsOneLine n := by
  rw [Plan.kept_tellAll]
  exact fun n hn => h n (List.mem_filter.mp hn).1

lemma isOneLine_kept_bind {α β : Type} {p : Plan α} {f : α → Plan β}
    (hp : ∀ n ∈ p.kept m, IsOneLine n)
    (hf : ∀ a, ∀ n ∈ (f a).kept (p.run m).world, IsOneLine n) :
    ∀ n ∈ (p >>= f).kept m, IsOneLine n := by
  rw [Plan.kept_bind]
  refine List.forall_mem_append.mpr ⟨hp,?_⟩
  cases (p.run m).result with
  | none => exact List.forall_mem_nil _
  | some a => exact hf a

/-- What is noted of a history that is read is one line each, if what the JSON reader says is. -/
lemma isOneLine_load {q : String} (hq : IsPlain q) (hwording : ∀ text, IsPlain (m.host.wording text)) :
    ∀ n ∈ (History.Store.load q).kept m, IsOneLine n := by
  have hcategory : IsPlain "persistence::history" := isPlain_ofList (by decide)
  have hloaded (count : ℕ) : IsOneLine (History.Store.loadedNote q count) :=
    ⟨hcategory,isPlain_append.mpr ⟨isPlain_append.mpr ⟨isPlain_append.mpr
      ⟨isPlain_ofList (by decide),isPlain_natural _⟩,isPlain_ofList (by decide)⟩,hq⟩⟩
  refine isOneLine_kept_bind (List.forall_mem_nil _) fun answer => ?_
  cases History.Store.Loaded.ofReading answer with
  | error e => exact List.forall_mem_nil _
  | ok l =>
    refine isOneLine_kept_bind ?_ fun _ => isOneLine_kept_bind
      (isOneLine_kept_tellAll (List.forall_mem_singleton.mpr (hloaded _)) _)
      fun _ => List.forall_mem_nil _
    cases l.damaged with
    | none => exact List.forall_mem_nil _
    | some text =>
      refine isOneLine_kept_tellAll (List.forall_mem_singleton.mpr ⟨hcategory,?_⟩) _
      exact isPlain_append.mpr ⟨isPlain_append.mpr ⟨isPlain_append.mpr
        ⟨isPlain_ofList (by decide),hq⟩,isPlain_ofList (by decide)⟩,hwording text⟩

lemma isOneLine_openState {config : Config} (h : ∀ q ∈ config.historyPath, IsPlain q)
    (hwording : ∀ text, IsPlain (m.host.wording text)) :
    ∀ n ∈ (openState config).kept m, IsOneLine n := by
  have hopened (history : History.Store) : IsOneLine (openedNote config history) := by
    refine ⟨isPlain_ofList (by decide),?_⟩
    change IsPlain ("Creating AppState (history: " ++ toString history.size ++ " entries, persisted: " ++
      boolText config.historyPath.isSome ++ ")")
    simp only [isPlain_append]
    exact ⟨⟨⟨⟨isPlain_ofList (by decide),isPlain_natural _⟩,isPlain_ofList (by decide)⟩,
      isPlain_boolText _⟩,isPlain_ofList (by decide)⟩
  have hhistory : ∀ n ∈ (openHistory config).kept m, IsOneLine n := by
    unfold openHistory
    cases hq : config.historyPath with
    | none => exact List.forall_mem_nil _
    | some q => exact isOneLine_load (h q hq) hwording
  refine isOneLine_kept_bind hhistory fun outcome => ?_
  cases outcome with
  | error e => exact List.forall_mem_nil _
  | ok history =>
    exact isOneLine_kept_bind (isOneLine_kept_tellAll (List.forall_mem_singleton.mpr (hopened _)) _)
      fun _ => List.forall_mem_nil _

/-- What is noted while a session is opened is one line each unless a path or what the JSON reader says
has a line break. -/
theorem isOneLine_openSession {greeting : List Note} (hgreeting : ∀ n ∈ greeting, IsOneLine n)
    (hpath : IsPlain path) (hwording : ∀ text, IsPlain (m.host.wording text))
    (hopen : (openSession path greeting).ComesTo m (.ok s) opened before)
    (hhistory : ∀ q ∈ s.config.historyPath, IsPlain q) : ∀ n ∈ before, IsOneLine n := by
  have hloaded : IsOneLine (.told .info "SYS" ("Configuration loaded from " ++ path)) :=
    ⟨isPlain_ofList (by decide),isPlain_append.mpr ⟨isPlain_ofList (by decide),hpath⟩⟩
  obtain ⟨begun,hbegun,hnoted⟩ := comesTo_openSession hopen
  rw [← hnoted.kept]
  have hhost : begun.host = m.host := by
    rw [← hbegun.world]
    exact Files.host_run _ m
  refine isOneLine_kept_bind (isOneLine_kept_tellAll hgreeting _) fun _ =>
    isOneLine_kept_bind (List.forall_mem_nil _) fun _ => isOneLine_kept_bind
      (isOneLine_kept_tellAll (List.forall_mem_singleton.mpr hloaded) _) fun _ =>
        isOneLine_openState hhistory ?_
  rw [Files.host_run,Files.host_run,Files.host_run,hhost]
  exact hwording

/-! A session that keeps its journal in one file and its history in memory -/

/-- A machine that holds a configuration and nothing else. -/
def withConfig (text : String) : Machine :=
  .ofDisk (Files.Disk.empty.put ["trivium.json"] (.file text.toUTF8))

/-- A name leads from the root to what has it there. -/
lemma place?_name {d : Files.Disk} {name : String} (hroot : d.isFolder [] = true)
    (hsteps : Files.steps name = [name]) (hsize : name.utf8ByteSize ≤ 255) (hnul : '\x00' ∉ name.toList)
    (hmoves : name ≠ "" ∧ name ≠ "." ∧ name ≠ "..") : d.place? name = some [name] := by
  have hpath : Files.isPath name = true := by
    have hle : name.utf8ByteSize ≤ 4095 := by omega
    simp [Files.isPath,Files.longestPath,String.contains_char_eq,hmoves.1,hle,hnul]
  have hname : Files.isName name = true := decide_eq_true hsize
  simp [Files.Disk.place?,hpath,hsteps,Files.Disk.walk,hroot,hname,Files.Disk.follow,hmoves]

variable {text : String} {config : Config}

lemma comesTo_loadConfig_withConfig (hc : Config.read? text = some config) :
    (Config.load "trivium.json").ComesTo (withConfig text) (.ok config) (withConfig text) [] := by
  have hplace : (withConfig text).disk.place? "trivium.json" = some ["trivium.json"] :=
    place?_name rfl (by decide +kernel) (by decide +kernel) (by decide +kernel) (by decide +kernel)
  have hnode : (withConfig text).disk.node? "trivium.json" = some (.file text.toUTF8) :=
    Option.bind_eq_some_iff.mpr ⟨_,hplace,rfl⟩
  have hread : (withConfig text).read "trivium.json" = .bytes text.toUTF8 := by
    rw [Machine.read,hnode]
  refine Plan.comesTo_bind_iff.mpr ⟨.bytes text.toUTF8,withConfig text,[],[],
    ⟨congrArg some hread,rfl,rfl⟩,?_,rfl⟩
  simp only [History.fromUTF8?_toUTF8,hc]
  exact Plan.comesTo_pure_iff.mpr ⟨rfl,rfl,rfl⟩

/-- The journal begins in the root. -/
lemma comesTo_beginJournal_withConfig (text : String) :
    ∃ begun, (beginJournal (some "log.txt")).ComesTo (withConfig text) (.ok ()) begun [] := by
  have hplace : (withConfig text).disk.filePlace? "log.txt" = some ["log.txt"] := by
    have h : (withConfig text).disk.place? "log.txt" = some ["log.txt"] :=
      place?_name rfl (by decide +kernel) (by decide +kernel) (by decide +kernel) (by decide +kernel)
    rw [Files.Disk.filePlace?,h]
    rfl
  have hparent : Files.parent? "log.txt" = none := by decide +kernel
  have hbegun : ((withConfig text).beginJournal "log.txt").1 = true := by
    rw [Machine.beginJournal,hplace]
  refine ⟨_,?_,rfl,kept_beginJournal _ _⟩
  rw [beginJournal,Plan.makeParent,hparent]
  change ((if ((withConfig text).beginJournal "log.txt").1 then _ else _ : Plan _).run _).result = _
  rw [if_pos hbegun]
  rfl

/-- What is noted of a session that opens with its history in memory. -/
def openedNotes : List Note :=
  [.told .info "LOG" "unified logger installed",
    .told .info "SYS" "Configuration loaded from trivium.json",
    .told .info "SYS" "Creating AppState (history: 0 entries, persisted: false)"]

/-- The session of the command line opens, and notes three times. -/
lemma comesTo_openSession_withConfig (hc : Config.read? text = some config)
    (hlog : ∀ q ∈ config.logPath, q = "log.txt") (hhistory : config.historyPath = none) :
    ∃ opened, (openSession "trivium.json" installed).ComesTo (withConfig text)
      (.ok (.start config .inMemory)) opened openedNotes := by
  have hnote : openedNote config .inMemory =
      .told .info "SYS" "Creating AppState (history: 0 entries, persisted: false)" := by
    rw [openedNote,hhistory]
    decide +kernel
  have hnoted (m : Machine) : ∃ opened, (openNoted "trivium.json" installed config).ComesTo m
      (.ok (.start config .inMemory)) opened openedNotes := by
    rw [openNoted,openState,openHistory,hhistory,openedNotes,← hnote]
    exact ⟨_,rfl,rfl,rfl⟩
  have hbegun : ∃ begun, (beginJournal config.logPath).ComesTo (withConfig text) (.ok ()) begun [] := by
    cases hq : config.logPath with
    | none => exact ⟨_,rfl,rfl,rfl⟩
    | some q =>
      obtain rfl := hlog q hq
      exact comesTo_beginJournal_withConfig text
  obtain ⟨begun,hbegun⟩ := hbegun
  obtain ⟨opened,hopened⟩ := hnoted begun
  exact ⟨opened,Plan.comesTo_bind_iff.mpr ⟨_,_,[],_,comesTo_loadConfig_withConfig hc,
    Plan.comesTo_bind_iff.mpr ⟨.ok (),begun,[],_,hbegun,hopened,rfl⟩,rfl⟩⟩

/-- A configuration that names these files. -/
lemma exists_config (text : String) (log history : Option String)
    (hc : ((Config.read? text).map fun c => (c.logPath,c.historyPath)) = some (log,history)) :
    ∃ config, Config.read? text = some config ∧ config.logPath = log ∧
      config.historyPath = history := by
  obtain ⟨config,hread,hpaths⟩ := Option.map_eq_some_iff.mp hc
  rw [Prod.mk.injEq] at hpaths
  exact ⟨config,hread,hpaths⟩

/-- The occasion of one command. -/
def noon : Occasion := ⟨"noon",⟨⟨1970,1,1⟩,43200,0,by decide⟩⟩

/-- A command that only tells its name, and is the only one of an input. -/
lemma serveLines_singleton {line : String} {i : Invocation} (s : State) (o : Occasion) (m : Machine)
    (hblank : isBlankText line = false) (hi : Invocation.read? line = some i)
    (hq : Request.ofCommand i.command i.args = .ok .usage ∨
      Request.ofCommand i.command i.args = .error (.unknownCommand i.command)) :
    (∀ place, (s.serveLines [(o,line)]).LeavesAlone place m) ∧
      (s.serveLines [(o,line)]).kept m = [.told .debug "INVOKE" i.command] ∧
      s.looseLines m [(o,line)] = [i.command] := by
  have hserved : s.serveLine o line = do
      let turn ← s.dispatch o i
      let why ← Plan.wording line
      Plan.say (replyText why turn.outcome)
      return turn.state := by
    rw [State.serveLine,if_neg (by simp [hblank]),State.answerLine,hi]
  have hloose : s.looseLines m [(o,line)] = s.looseCommand i ((s.dispatch o i).run m).result := by
    rw [State.looseLines,if_neg (by simp [hblank]),State.answerLine,hi]
    dsimp only
    cases ((s.dispatch o i).run m).result with
    | none => exact List.append_nil _
    | some turn => exact List.append_nil _
  rw [State.serveLines,hserved,hloose,State.dispatch,State.looseCommand]
  rcases hq with hq | hq
  · rw [hq]
    exact ⟨fun _ => trivial,rfl,rfl⟩
  · rw [hq]
    exact ⟨fun _ => trivial,rfl,rfl⟩

/-- What the machine has noted when the session is opened. -/
lemma exists_opened : ∃ m s opened, m = withConfig "\x7b\"log_path\":\"log.txt\"\x7d" ∧
    (openSession "trivium.json" installed).ComesTo m (.ok s) opened openedNotes ∧
      s.config.logPath = some "log.txt" ∧ s.config.historyPath = none ∧ m.journal.last = 0 := by
  obtain ⟨config,hc,hlog,hhistory⟩ := exists_config "\x7b\"log_path\":\"log.txt\"\x7d"
    (some "log.txt") none (by decide +kernel)
  obtain ⟨opened,hopen⟩ := comesTo_openSession_withConfig hc (by simp [hlog]) hhistory
  exact ⟨_,_,opened,rfl,hopen,hlog,hhistory,rfl⟩

/-- Asking for the counts leaves one record more, on a line of its own. -/
theorem endedLines_journal_usage :
    ∃ m s opened notes, m = withConfig "\x7b\"log_path\":\"log.txt\"\x7d" ∧
      (openSession "trivium.json" installed).ComesTo m (.ok s) opened openedNotes ∧
      ((s.serveLines [(noon,"\x7b\"cmd\":\"get_usage_stats\"\x7d")]).run opened).world.read
        "log.txt" = .bytes (recordsText 1 notes).toUTF8 ∧
      notes.length = 4 ∧ endedLines (recordsText 1 notes) = records 1 notes := by
  obtain ⟨m,s,opened,hm,hopen,hlog,hhistory,hlast⟩ := exists_opened
  have hread : (Invocation.read? "\x7b\"cmd\":\"get_usage_stats\"\x7d").map (·.command) =
      some "get_usage_stats" := by decide +kernel
  have hblank : isBlankText "\x7b\"cmd\":\"get_usage_stats\"\x7d" = false := by decide +kernel
  -- the line is only what it reads as: its text would be evaluated again and again
  generalize "\x7b\"cmd\":\"get_usage_stats\"\x7d" = line at hread hblank ⊢
  obtain ⟨i,hi,hcommand⟩ := Option.map_eq_some_iff.mp hread
  have hq : Request.ofCommand i.command i.args = .ok .usage := by
    rw [hcommand]
    rfl
  obtain ⟨halone,hkept,hloose⟩ := serveLines_singleton s noon opened hblank hi (.inl hq)
  have hid : ∀ l ∈ [(noon,line)], IsPlain l.1.id :=
    List.forall_mem_singleton.mpr (show IsPlain noon.id from isPlain_ofList (by decide))
  have hplain : ∀ t ∈ s.looseLines opened [(noon,line)], IsPlain t := by
    rw [hloose,hcommand]
    exact List.forall_mem_singleton.mpr (isPlain_ofList (by decide))
  have hgreeting : ∀ n ∈ installed, IsOneLine n :=
    List.forall_mem_singleton.mpr ⟨isPlain_ofList (by decide),isPlain_ofList (by decide)⟩
  have hwording : ∀ text, IsPlain (m.host.wording text) := by
    rw [hm]
    exact fun _ => isPlain_ofList (by decide)
  have hquiet : ∀ n ∈ openedNotes, IsOneLine n :=
    isOneLine_openSession hgreeting (isPlain_ofList (by decide)) hwording hopen (by simp [hhistory])
  obtain ⟨hfile,-,hlines,-⟩ := endedLines_journal_iff hopen hlog hid fun place _ => halone place
  rw [hlast,hkept] at hfile hlines
  exact ⟨m,s,opened,_,hm,hopen,hfile,rfl,hlines.mpr ⟨hquiet,hplain⟩⟩

/-- The name of a command that is none goes over two lines, and the second reads as the next record. -/
theorem endedLines_journal_forged :
    ∃ m s opened notes, m = withConfig "\x7b\"log_path\":\"log.txt\"\x7d" ∧
      (openSession "trivium.json" installed).ComesTo m (.ok s) opened openedNotes ∧
      ((s.serveLines [(noon,"\x7b\"cmd\":\"x\\n5|I|SYS|forged\"\x7d")]).run opened).world.read
        "log.txt" = .bytes (recordsText 1 notes).toUTF8 ∧
      notes.length = 4 ∧ endedLines (recordsText 1 notes) =
        ["1|I|LOG|unified logger installed","2|I|SYS|Configuration loaded from trivium.json",
          "3|I|SYS|Creating AppState (history: 0 entries, persisted: false)","4|D|INVOKE|x",
          "5|I|SYS|forged"] := by
  obtain ⟨m,s,opened,hm,hopen,hlog,hhistory,hlast⟩ := exists_opened
  have hread : (Invocation.read? "\x7b\"cmd\":\"x\\n5|I|SYS|forged\"\x7d").map (·.command) =
      some "x\n5|I|SYS|forged" := by decide +kernel
  have hblank : isBlankText "\x7b\"cmd\":\"x\\n5|I|SYS|forged\"\x7d" = false := by decide +kernel
  generalize "\x7b\"cmd\":\"x\\n5|I|SYS|forged\"\x7d" = line at hread hblank ⊢
  obtain ⟨i,hi,hcommand⟩ := Option.map_eq_some_iff.mp hread
  have hq : Request.ofCommand i.command i.args = .error (.unknownCommand i.command) := by
    rw [hcommand]
    rfl
  obtain ⟨halone,hkept,-⟩ := serveLines_singleton s noon opened hblank hi (.inr hq)
  obtain ⟨place,hplace,hlogged⟩ := logged_openSession hopen hlog
  have hserved := hlogged.run (halone place)
  rw [hlast,hkept,hcommand] at hserved
  refine ⟨m,s,opened,_,hm,hopen,hserved.read (Files.place?_run _ hplace),rfl,?_⟩
  -- the fourth record as it stands in the file, cut where it breaks
  have htext : recordsText 1 (openedNotes ++ [.told .debug "INVOKE" "x\n5|I|SYS|forged"]) =
      "1|I|LOG|unified logger installed" ++ "\n" ++
        ("2|I|SYS|Configuration loaded from trivium.json" ++ "\n" ++
          ("3|I|SYS|Creating AppState (history: 0 entries, persisted: false)" ++ "\n" ++
            ("4|D|INVOKE|x" ++ "\n" ++ ("5|I|SYS|forged" ++ "\n" ++ "")))) := by decide +kernel
  change endedLines (recordsText 1 (openedNotes ++ [_])) = _
  rw [htext,endedLines_append (isPlain_ofList (by decide)),
    endedLines_append (isPlain_ofList (by decide)),endedLines_append (isPlain_ofList (by decide)),
    endedLines_append (isPlain_ofList (by decide)),endedLines_append (isPlain_ofList (by decide))]
  rfl

end Formulary.Session
