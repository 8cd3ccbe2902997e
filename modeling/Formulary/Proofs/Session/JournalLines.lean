import Formulary.Proofs.Files.Records
import Formulary.Proofs.Session.Commands
import Formulary.Proofs.Session.LooseTexts
import Formulary.Session.Opening

/-! The lines of the journal. Its file holds the records of what was noted, in order and numbered one
after another; each of them is one line exactly if no text that a command tells as it is has a line
break, and these texts are named for each command. -/
namespace Formulary

namespace Files.Plan
variable {α : Type}

/-- What is kept depends on the threshold alone. -/
lemma admits_note (m : Machine) (n : Journal.Note) : (m.note n).journal.admits = m.journal.admits := by
  have hkeep : (m.journal.keep n).2.threshold = m.journal.threshold := by
    unfold Journal.keep
    split_ifs <;> rfl
  have hnote : (m.note n).journal.threshold = m.journal.threshold := by
    simp only [Machine.note,Machine.writeLine]
    split
    · exact hkeep
    · split <;> exact hkeep
  funext n'
  rw [Journal.admits,hnote]
  rfl

lemma kept_tellAll (ns : List Journal.Note) (m : Machine) :
    (tellAll ns).kept m = ns.filter m.journal.admits := by
  induction ns generalizing m with
  | nil => rfl
  | cons n ns ih =>
    rw [tellAll,kept,ih,admits_note,List.filter_cons]
    split_ifs <;> rfl

lemma result_tellAll (ns : List Journal.Note) (m : Machine) :
    ((tellAll ns).run m).result = some () := by
  induction ns generalizing m with
  | nil => rfl
  | cons n ns ih => exact ih (m.note n)

/-- A program that ends has noted what there was to note. -/
lemma endWith_eq (ns : List Journal.Note) : (endWith ns : Plan α) = tellAll ns >>= fun _ => halt := by
  induction ns with
  | nil => rfl
  | cons n ns ih => exact congrArg (note n) ih

end Files.Plan

namespace Session
open Files (Machine Plan)
open Journal (Note)
open Json (Value)
open History (Computation Entry)
open Script (IsPlain isPlain_append isPlain_ofList isPlain_natural)

variable {α β : Type} {p : Plan α} {m : Machine} {a : α} {q r : Prop}

/-- A plan comes to a result on a machine, and what it notes there is kept on one line each exactly if
something holds. -/
structure Says (p : Plan α) (m : Machine) (a : α) (q : Prop) : Prop where
  result : (p.run m).result = some a
  lines : (∀ n ∈ p.kept m, IsOneLine n) ↔ q

lemma Says.congr (h : Says p m a q) (hq : q ↔ r) : Says p m a r := ⟨h.result,h.lines.trans hq⟩

lemma Says.bind {f : α → Plan β} {b : β} (h : Says p m a q)
    (h' : Says (f a) (p.run m).world b r) : Says (p >>= f) m b (q ∧ r) where
  result := by
    rw [Plan.run_bind,Files.Ran.andThen,h.result]
    exact h'.result
  lines := by
    rw [Plan.kept_bind,h.result,Option.elim_some,List.forall_mem_append]
    exact and_congr h.lines h'.lines

lemma says_pure (a : α) (m : Machine) : Says (pure a) m a True :=
  ⟨rfl,by simp [pure,Plan.kept]⟩

/-- Nothing that is one line anyway has to be counted in. -/
lemma Says.seq {f : α → Plan β} {b : β} (h : Says p m a True)
    (h' : Says (f a) (p.run m).world b r) : Says (p >>= f) m b r :=
  (h.bind h').congr (iff_of_eq (true_and r))

lemma Says.bind_pure {f : α → Plan β} {b : β} (h : Says p m a q) (hf : f a = pure b) :
    Says (p >>= f) m b q :=
  (h.bind (f := f) (hf ▸ says_pure b _)).congr (iff_of_eq (and_true q))

lemma says_tellAll {ns : List Journal.Note} (h : Tells ns q) : Says (Plan.tellAll ns) m () q where
  result := Plan.result_tellAll ns m
  lines := by
    rw [Plan.kept_tellAll]
    constructor
    · intro hall
      refine h.broken fun n hn hdetail => hall n (List.mem_filter.mpr ⟨hn,?_⟩)
      rw [Journal.admits,hdetail]
      rfl
    · exact fun hq n hn => h.plain hq n (List.mem_filter.mp hn).1

lemma says_note {n : Journal.Note} (h : Tells [n] q) : Says (Plan.tell n) m () q :=
  says_tellAll h

lemma says_tell {t : NotedTurn α} (h : Tells t.notes q) : Says t.tell m t.toTurn q :=
  (says_tellAll h).bind_pure rfl

/-! The history: its operations note nothing and come to an attempt to write. -/

lemma says_makeParent (path : String) (m : Machine) :
    ∃ made, Says (Plan.makeParent path) m made True := by
  unfold Plan.makeParent
  split
  · exact ⟨_,says_pure _ m⟩
  · exact ⟨_,rfl,by simp [Plan.makeAllFolders,Plan.kept]⟩

lemma says_writeFile (path text : String) (m : Machine) :
    Says (Plan.writeFile path text) m (m.write path text).1 True :=
  ⟨rfl,by simp [Plan.writeFile,Plan.kept]⟩

lemma says_save (s : History.Store) (m : Machine) :
    ∃ written : Files.Attempt, Says s.save m (written.mapError .io) True := by
  unfold History.Store.save
  cases s.path with
  | none => exact ⟨.ok (),says_pure _ m⟩
  | some path =>
    obtain ⟨made,hmade⟩ := says_makeParent path m
    cases made with
    | error reason => exact ⟨.error reason,hmade.bind_pure rfl⟩
    | ok u => exact ⟨_,hmade.seq ((says_writeFile path _ _).bind_pure rfl)⟩

lemma says_commit (s : History.Store) (entries : List Entry) (m : Machine) :
    ∃ (written : Files.Attempt) (t : History.Store),
      Says (s.commit entries) m (written.mapError .io,t) True := by
  obtain ⟨written,hw⟩ := says_save { s with entries := entries } m
  cases written with
  | ok u => exact ⟨.ok u,_,hw.bind_pure rfl⟩
  | error reason => exact ⟨.error reason,_,hw.bind_pure rfl⟩

/-- What cannot be removed is not there, or its file cannot be written. -/
lemma says_remove (s : History.Store) (id : String) (m : Machine) :
    ∃ outcome t, Says (s.remove id) m (outcome,t) True ∧
      (outcome = .error (.notFound id) ∨ ∃ written : Files.Attempt, outcome = written.mapError .io) := by
  rw [History.Store.remove,History.Store.take_eq_commit]
  cases s.get? id with
  | none => exact ⟨_,_,(says_pure _ m).bind_pure rfl,.inl rfl⟩
  | some e =>
    obtain ⟨written,t,hw⟩ := says_commit s (s.entries.eraseP (·.id == id)) m
    refine ⟨_,_,Says.bind_pure (Says.bind_pure hw rfl) rfl,.inr ⟨written,?_⟩⟩
    cases written <;> rfl

/-! Requests -/

lemma isPlain_HISTORY : IsPlain "HISTORY" := isPlain_ofList (by decide)

/-- The reason of the system stands behind a fixed word. -/
lemma isPlain_ioMessage {reason : String} :
    IsPlain (History.Fault.io reason).message ↔ IsPlain reason := by
  change IsPlain ("IO error: " ++ reason) ↔ _
  rw [isPlain_append]
  exact and_iff_right (isPlain_ofList (by decide))

/-- The reason that the system gave for a fault, if it gave one. -/
def Fault.reasons : Fault → List String
  | history (.io reason) => [reason]
  | _ => []

/-- The reasons that the system gave for what went wrong. -/
def reasons : Except Fault α → List String
  | .ok _ => []
  | .error e => e.reasons

lemma reasons_map (f : α → β) (outcome : Except Fault α) :
    reasons (outcome.map f) = reasons outcome := by
  cases outcome <;> rfl

lemma reasons_bind {x : Except Fault α} {f : α → Except Fault β} (hx : reasons x = [])
    (hf : ∀ a, reasons (f a) = []) : reasons (x >>= f) = [] := by
  cases x with
  | ok a => exact hf a
  | error e => exact hx

lemma reasons_mapError {ε : Type} {g : ε → Fault} (hg : ∀ e, (g e).reasons = []) (x : Except ε α) :
    reasons (x.mapError g) = [] := by
  cases x with
  | ok a => rfl
  | error e => exact hg e

/-- The faults of a computation are not those of the system. -/
lemma reasons_answerTo (config : Config) (c : Computation) : reasons (answerTo config c) = [] := by
  have hrejected {γ : Type} := reasons_mapError (α := γ) (g := Fault.rejected) fun _ => rfl
  have hlogic {γ : Type} := reasons_mapError (α := γ) (g := Fault.logic) fun _ => rfl
  have hcalculus {γ : Type} := reasons_mapError (α := γ) (g := Fault.calculus) fun _ => rfl
  cases c with
  | truthTable expression size =>
    rw [answerTo,reasons_map]
    exact reasons_bind (hrejected _) fun _ => reasons_bind (hrejected _) fun _ => hlogic _
  | equivalence left right size =>
    rw [answerTo,reasons_map]
    exact reasons_bind (hrejected _) fun _ => reasons_bind (hrejected _) fun _ =>
      reasons_bind (hrejected _) fun _ => hlogic _
  | setOperation a b operation =>
    rw [answerTo,reasons_map]
    exact reasons_bind (hrejected _) fun _ => rfl
  | complements whole a b =>
    rw [answerTo,reasons_map]
    exact reasons_bind (hrejected _) fun _ => rfl
  | function expression p =>
    rw [answerTo,reasons_map]
    exact reasons_bind (hrejected _) fun _ => reasons_bind (hrejected _) fun _ =>
      reasons_bind (hcalculus _) fun _ => reasons_bind (hcalculus _) fun _ => rfl

/-- The texts that serving a request tells as they are, whatever it comes to. -/
def State.looseTexts (s : State) : Request → List String
  | .compute c => Session.looseTexts c
  | .analyze form =>
    [form.xMin,form.xMax,form.points] ++ match form.parameters s.config with
      | .error r => [r.message]
      | .ok _ => []
  | .save c => Session.looseTexts c
  | .replay id =>
    id :: match s.entry id with
      | .ok e => Session.looseTexts e.computation
      | .error _ => []
  | .delete id => [id]
  | .exportTo path => [path]
  | _ => []

/-- The reasons that serving a request tells as they are. A copy that cannot be written is told in the
reply alone. -/
def looseReasons : Request → Except Fault α → List String
  | .save _,outcome | .delete _,outcome | .clear,outcome => reasons outcome
  | _,_ => []

/-- Notes put in front of those of a turn tell what they tell as well. -/
lemma Tells.after {t : NotedTurn α} {ns : List Note} {p q : Prop} (ht : Tells t.notes q)
    (hns : Tells ns p) : Tells (t.after ns).notes (p ∧ q) :=
  hns.append ht

namespace State
variable (s : State)

lemma tells_compute (c : Computation) :
    Tells (s.compute c).notes (∀ t ∈ Session.looseTexts c, IsPlain t) :=
  tells_computationNotes s.config c

lemma tells_analyzingNote (form : AnalysisForm) :
    Tells [analyzingNote form] (∀ t ∈ [form.xMin,form.xMax,form.points], IsPlain t) := by
  refine (tells_entering isPlain_FUNCTIONS (isPlain_ofList (by decide))).congr ?_
  simp only [isPlain_append,List.forall_mem_cons]
  simp [isPlain_escaped,and_assoc,show IsPlain "f(x)=" from isPlain_ofList (by decide),
    show IsPlain " x=[" from isPlain_ofList (by decide),
    show IsPlain "," from isPlain_ofList (by decide),
    show IsPlain "] n=" from isPlain_ofList (by decide)]

lemma tells_analyze (form : AnalysisForm) :
    Tells (s.analyze form).notes (∀ t ∈ s.looseTexts (.analyze form), IsPlain t) := by
  -- unfolded, since to derive an equation that matches on the check of the form takes long
  cases hp : form.parameters s.config with
  | error r =>
    have hrejected : Tells [.told .warn "FUNCTIONS" ("rejected input: " ++ r.message)]
        (∀ t ∈ [r.message], IsPlain t) := by
      refine (Tells.told isPlain_FUNCTIONS).congr ?_
      rw [isPlain_append]
      simp [show IsPlain "rejected input: " from isPlain_ofList (by decide)]
    unfold analyze
    rw [looseTexts,hp]
    exact ((tells_analyzingNote form).append hrejected).congr List.forall_mem_append.symm
  | ok p =>
    unfold analyze
    rw [looseTexts,hp]
    exact ((s.tells_compute (.function form.expression p)).after (tells_analyzingNote form)).congr
      List.forall_mem_append.symm

lemma tells_overlay (tangent shaded : Option Bool) : Tells (s.overlay tangent shaded).notes True := by
  have hgiven : Tells [entering "FUNCTIONS" "update_function_overlays"
      ("tangent=" ++ optionText boolText tangent ++ " area=" ++ optionText boolText shaded)] True := by
    refine (tells_entering isPlain_FUNCTIONS (isPlain_ofList (by decide))).congr ?_
    simp only [isPlain_append]
    simp [isPlain_optionText isPlain_boolText,
      show IsPlain "tangent=" from isPlain_ofList (by decide),
      show IsPlain " area=" from isPlain_ofList (by decide)]
  unfold overlay
  cases s.last with
  | none => exact hgiven
  | some l =>
    refine (hgiven.append (tells_leaving isPlain_FUNCTIONS (isPlain_ofList (by decide)))).congr ?_
    simp only [isPlain_append]
    simp [isPlain_boolText,show IsPlain "tangent=" from isPlain_ofList (by decide),
      show IsPlain " area=" from isPlain_ofList (by decide)]

lemma tells_exportAnalysis : Tells s.exportAnalysis.notes True := by
  have hempty : IsPlain "" := isPlain_ofList (by decide)
  have hgiven : Tells [entering "FUNCTIONS" "export_last_function" ""] True :=
    (tells_entering isPlain_FUNCTIONS (isPlain_ofList (by decide))).congr (iff_true_intro hempty)
  unfold exportAnalysis
  cases s.last with
  | none => exact hgiven
  | some l =>
    refine (hgiven.append (tells_leaving isPlain_FUNCTIONS (isPlain_ofList (by decide)))).congr ?_
    refine iff_true_intro ⟨trivial,isPlain_append.mpr ⟨isPlain_natural _,isPlain_ofList (by decide)⟩⟩

lemma tells_list (query kind : String) : Tells (s.list query kind).notes True := by
  have hgiven : Tells [entering "HISTORY" "list_history"
      ("q=" ++ escaped query ++ " kind=" ++ escaped kind)] True := by
    refine (tells_entering isPlain_HISTORY (isPlain_ofList (by decide))).congr ?_
    simp only [isPlain_append]
    simp [isPlain_escaped,show IsPlain "q=" from isPlain_ofList (by decide),
      show IsPlain " kind=" from isPlain_ofList (by decide)]
  unfold list
  cases kindFilter kind with
  | error r => exact hgiven
  | ok wanted =>
    refine (hgiven.append (tells_leaving isPlain_HISTORY (isPlain_ofList (by decide)))).congr ?_
    refine iff_true_intro ⟨trivial,?_⟩
    exact isPlain_append.mpr ⟨isPlain_append.mpr ⟨isPlain_natural _,isPlain_ofList (by decide)⟩,
      isPlain_natural _⟩

lemma isPlain_tag (k : Kind) : IsPlain k.tag := by
  cases k <;> exact isPlain_ofList (by decide)

/-- What is told at the end of a replay. -/
def replayEnd (k : Kind) : Except Fault Answer → List Note
  | .ok _ => [leaving "HISTORY" "replay_history_entry" ("kind=" ++ k.tag)]
  | .error _ => []

lemma tells_replayEnd (k : Kind) (outcome : Except Fault Answer) : Tells (replayEnd k outcome) True := by
  cases outcome with
  | error e => exact .nil
  | ok a =>
    refine (tells_leaving isPlain_HISTORY (isPlain_ofList (by decide))).congr ?_
    exact iff_true_intro (isPlain_append.mpr ⟨isPlain_ofList (by decide),isPlain_tag k⟩)

lemma tells_replayingNote (id : String) : Tells [replayingNote id] (IsPlain id) := by
  refine (tells_entering isPlain_HISTORY (isPlain_ofList (by decide))).congr ?_
  simp [isPlain_append,show IsPlain "id=" from isPlain_ofList (by decide)]

lemma tells_replay (id : String) :
    Tells (s.replay id).notes (∀ t ∈ s.looseTexts (.replay id), IsPlain t) := by
  cases he : s.entry id with
  | error e =>
    simp only [replay,looseTexts,he]
    exact (tells_replayingNote id).congr List.forall_mem_singleton.symm
  | ok e =>
    have hended := tells_replayEnd e.kind (s.compute e.computation).outcome
    simp only [replay,looseTexts,he]
    refine (((tells_replayingNote id).append (s.tells_compute e.computation)).append hended).congr ?_
    rw [and_true]
    exact List.forall_mem_cons.symm

lemma tells_savingNote (c : Computation) : Tells [savingNote c] True := by
  refine (tells_entering isPlain_HISTORY (isPlain_ofList (by decide))).congr ?_
  exact iff_true_intro (isPlain_append.mpr ⟨isPlain_ofList (by decide),isPlain_tag _⟩)

/-- Storing an answer tells the name of the new entry, or why it could not be stored. -/
lemma says_store {o : Occasion} (hid : IsPlain o.id) (c : Computation) (a : Answer) (m : Machine) :
    ∃ turn, Says (s.store o c a) m turn (∀ t ∈ reasons turn.outcome, IsPlain t) := by
  obtain ⟨written,history,hw⟩ := says_commit s.history (s.entryOf o c a :: s.history.entries) m
  rw [← History.Store.add_eq_commit] at hw
  cases written with
  | ok u =>
    have hsaved (n : ℕ) : IsPlain (" saved=" ++ toString n) :=
      isPlain_append.mpr ⟨isPlain_ofList (by decide),isPlain_natural n⟩
    have hleft (n : ℕ) : Tells [leaving "HISTORY" "save_to_history" ("id=" ++ o.id ++ s!" saved={n}")]
        True :=
      (tells_leaving isPlain_HISTORY (isPlain_ofList (by decide))).congr (iff_true_intro
        (isPlain_append.mpr ⟨isPlain_append.mpr ⟨isPlain_ofList (by decide),hid⟩,hsaved n⟩))
    let turn : Turn Entry := ⟨.ok (s.entryOf o c a),
      { s with history := history, saved := s.saved + 1 }⟩
    have hstored : Says (s.store o c a) m turn True := by
      refine hw.seq ?_
      change Says (do
        Plan.tell (leaving "HISTORY" "save_to_history" ("id=" ++ o.id ++ s!" saved={s.saved + 1}"))
        return turn) _ _ _
      exact (says_note (hleft (s.saved + 1))).bind_pure rfl
    exact ⟨turn,hstored.congr (iff_of_true trivial (List.forall_mem_nil _))⟩
  | error reason =>
    have htold : Tells [.told .error "HISTORY" ("history write failed, entry not saved: " ++
        (History.Fault.io reason).message)] (∀ t ∈ [reason], IsPlain t) := by
      refine (Tells.told isPlain_HISTORY).congr ?_
      rw [isPlain_append,isPlain_ioMessage,List.forall_mem_singleton]
      exact and_iff_right (isPlain_ofList (by decide))
    let turn : Turn Entry := ⟨.error (.history (.io reason)),{ s with history := history }⟩
    exact ⟨turn,hw.seq (Says.bind_pure (says_note htold) rfl)⟩

lemma says_save {o : Occasion} (hid : IsPlain o.id) (c : Computation) (m : Machine) :
    ∃ turn, Says (s.save o c) m turn
      (∀ t ∈ Session.looseTexts c ++ reasons turn.outcome, IsPlain t) := by
  have hgiven : Says (Plan.tell (savingNote c)) m () True := says_note (tells_savingNote c)
  have hcomputed (m : Machine) : Says (s.compute c).tell m (s.compute c).toTurn
      (∀ t ∈ Session.looseTexts c, IsPlain t) := says_tell (s.tells_compute c)
  cases hc : (s.compute c).outcome with
  | error e =>
    have hreasons : e.reasons = [] := by
      have h := reasons_answerTo s.config c
      rwa [show answerTo s.config c = .error e from hc] at h
    refine ⟨⟨.error e,(s.compute c).state⟩,Says.congr (hgiven.seq ((hcomputed _).bind_pure ?_)) ?_⟩
    · simp only [hc]
    · rw [reasons,hreasons,List.append_nil]
  | ok a =>
    obtain ⟨turn,hstored⟩ := says_store (s.compute c).state hid c a _
    refine ⟨turn,Says.congr (hgiven.seq ((hcomputed _).bind ?_)) List.forall_mem_append.symm⟩
    simp only [hc]
    exact hstored

lemma tells_historyNote {what : String} {e : History.Fault} :
    Tells [historyNote what e] (IsPlain what ∧ IsPlain e.message) := by
  refine (Tells.told isPlain_HISTORY).congr ?_
  simp [isPlain_append,show IsPlain " failed: " from isPlain_ofList (by decide)]

lemma says_delete (id : String) (m : Machine) :
    ∃ turn, Says (s.delete id) m turn (∀ t ∈ id :: reasons turn.outcome, IsPlain t) := by
  have hid : Tells [entering "HISTORY" "delete_history_entry" ("id=" ++ id)] (IsPlain id) := by
    refine (tells_entering isPlain_HISTORY (isPlain_ofList (by decide))).congr ?_
    rw [isPlain_append]
    exact and_iff_right (isPlain_ofList (by decide))
  have hgiven : Says (Plan.tell (entering "HISTORY" "delete_history_entry" ("id=" ++ id))) m () _ :=
    says_note hid
  have hwhat : IsPlain ("delete of " ++ id) ↔ IsPlain id := by
    rw [isPlain_append]
    exact and_iff_right (isPlain_ofList (by decide))
  obtain ⟨outcome,history,hremoved,rfl | ⟨written,rfl⟩⟩ := says_remove s.history id _
  · have hmissing : IsPlain (History.Fault.notFound id).message ↔ IsPlain id := by
      change IsPlain ("History entry not found: " ++ id) ↔ _
      rw [isPlain_append]
      exact and_iff_right (isPlain_ofList (by decide))
    have htold : Tells [historyNote ("delete of " ++ id) (.notFound id)] (IsPlain id) :=
      tells_historyNote.congr (by rw [hwhat,hmissing,and_self])
    refine ⟨_,Says.congr (hgiven.bind (hremoved.seq (Says.bind_pure (says_note htold) rfl))) ?_⟩
    rw [and_self]
    exact List.forall_mem_singleton.symm
  · cases written with
    | ok u =>
      have hleft : Tells [leaving "HISTORY" "delete_history_entry" ""] True :=
        (tells_leaving isPlain_HISTORY (isPlain_ofList (by decide))).congr
          (iff_true_intro (isPlain_ofList (by decide)))
      refine ⟨_,Says.congr (hgiven.bind (hremoved.seq (Says.bind_pure (says_note hleft) rfl))) ?_⟩
      rw [and_true]
      exact List.forall_mem_singleton.symm
    | error reason =>
      refine ⟨_,Says.congr (hgiven.bind (hremoved.seq
        (Says.bind_pure (says_note tells_historyNote) rfl))) ?_⟩
      rw [hwhat,isPlain_ioMessage,and_self_left]
      exact (List.forall_mem_cons.trans (and_congr_right fun _ => List.forall_mem_singleton)).symm

lemma says_clear (m : Machine) :
    ∃ turn, Says s.clear m turn (∀ t ∈ reasons turn.outcome, IsPlain t) := by
  obtain ⟨written,history,hcleared⟩ := says_commit s.history [] m
  rw [← History.Store.clear_eq_commit] at hcleared
  cases written with
  | ok u =>
    have htold : Tells [.told .info "HISTORY" s!"cleared {s.history.size} entries"] True := by
      refine (Tells.told isPlain_HISTORY).congr (iff_true_intro ?_)
      exact isPlain_append.mpr ⟨isPlain_append.mpr ⟨isPlain_ofList (by decide),isPlain_natural _⟩,
        isPlain_ofList (by decide)⟩
    refine ⟨_,Says.congr (hcleared.seq (Says.bind_pure (says_note htold) rfl)) ?_⟩
    exact iff_of_true trivial (List.forall_mem_nil _)
  | error reason =>
    refine ⟨_,Says.congr (hcleared.seq (Says.bind_pure (says_note tells_historyNote) rfl)) ?_⟩
    rw [isPlain_ioMessage]
    exact (and_iff_right (isPlain_ofList (by decide))).trans List.forall_mem_singleton.symm

lemma says_exportTo (path : String) (m : Machine) :
    ∃ turn, Says (s.exportTo path) m turn (IsPlain path) := by
  have hgiven : Tells [entering "HISTORY" "export_history_to" ("path=" ++ path)] (IsPlain path) := by
    refine (tells_entering isPlain_HISTORY (isPlain_ofList (by decide))).congr ?_
    rw [isPlain_append]
    exact and_iff_right (isPlain_ofList (by decide))
  have hleft : Tells [leaving "HISTORY" "export_history_to" ""] True :=
    (tells_leaving isPlain_HISTORY (isPlain_ofList (by decide))).congr
      (iff_true_intro (isPlain_ofList (by decide)))
  have hwritten (m : Machine) : ∃ outcome, Says (s.history.exportTo path) m outcome True :=
    ⟨_,(says_writeFile path _ m).bind_pure rfl⟩
  obtain ⟨outcome,hw⟩ := hwritten _
  cases outcome with
  | ok u =>
    refine ⟨_,Says.congr ((says_note hgiven).bind (hw.seq (Says.bind_pure (says_note hleft) rfl))) ?_⟩
    exact iff_of_eq (and_true _)
  | error e =>
    refine ⟨_,Says.congr ((says_note hgiven).bind (Says.bind_pure hw rfl)) ?_⟩
    exact iff_of_eq (and_true _)

/-- What serving a request notes is one line for each note exactly if no text that it tells as it is
has a line break. -/
lemma says_serve {o : Occasion} (hid : IsPlain o.id) (q : Request) (m : Machine) :
    ∃ turn, Says (s.serve o q) m turn
      (∀ t ∈ s.looseTexts q ++ looseReasons q turn.outcome, IsPlain t) := by
  have hnothing {p : Plan (Turn Value)} {turn : Turn Value} (h : Says p m turn True) :
      ∃ turn, Says p m turn (∀ t ∈ ([] : List String), IsPlain t) :=
    ⟨turn,h.congr (iff_of_true trivial (List.forall_mem_nil _))⟩
  cases q with
  | compute c =>
    simp only [looseTexts,looseReasons,List.append_nil]
    exact ⟨_,(says_tell (s.tells_compute c)).bind_pure rfl⟩
  | analyze form =>
    simp only [looseReasons,List.append_nil]
    exact ⟨_,(says_tell (s.tells_analyze form)).bind_pure rfl⟩
  | overlay tangent shaded => exact hnothing ((says_tell (s.tells_overlay tangent shaded)).bind_pure rfl)
  | lastAnalysis => exact hnothing (says_pure _ m)
  | exportAnalysis => exact hnothing ((says_tell s.tells_exportAnalysis).bind_pure rfl)
  | save c =>
    obtain ⟨turn,h⟩ := s.says_save hid c m
    refine ⟨turn.map itemValue,Says.congr (h.bind_pure rfl) ?_⟩
    rw [looseTexts,looseReasons,Turn.map,reasons_map]
  | list query kind => exact hnothing (says_tell (s.tells_list query kind))
  | entry id => exact hnothing (says_pure _ m)
  | replay id =>
    simp only [looseReasons,List.append_nil]
    exact ⟨_,(says_tell (s.tells_replay id)).bind_pure rfl⟩
  | delete id =>
    obtain ⟨turn,h⟩ := s.says_delete id m
    refine ⟨turn.map unitValue,Says.congr (h.bind_pure rfl) ?_⟩
    rw [looseTexts,looseReasons,Turn.map,reasons_map,List.singleton_append]
  | clear =>
    obtain ⟨turn,h⟩ := s.says_clear m
    refine ⟨turn.map unitValue,Says.congr (h.bind_pure rfl) ?_⟩
    rw [looseReasons,Turn.map,reasons_map]
    rfl
  | exportAll => exact hnothing (says_pure _ m)
  | exportTo path =>
    obtain ⟨turn,h⟩ := s.says_exportTo path m
    exact ⟨turn.map unitValue,Says.congr (h.bind_pure rfl) List.forall_mem_singleton.symm⟩
  | usage => exact hnothing (says_pure _ m)

/-- A computation that there is no room for tells no text as it is. -/
lemma tells_shortageNotes {config : Config} {room : ℕ} {c : Computation} {ns : List Note}
    (h : Session.brokenNotes? config room c = some ns) :
    Tells ns True ∧ Session.looseTexts c = [] := by
  cases c with
  | function expression p =>
    obtain ⟨shortage,-,rfl⟩ := Option.map_eq_some_iff.mp h
    refine ⟨.of_plain ?_,rfl⟩
    cases shortage with
    | domain => exact isOneLine_compiledFunction _ _ _
    | area samples =>
      refine List.forall_mem_append.mpr ⟨isOneLine_compiledFunction _ _ _,
        List.forall_mem_singleton.mpr ?_⟩
      exact isOneLine_sampledNote _ _ _
  | _ => cases h

/-- What is noted before the program is ended tells what serving the request would tell as it is. -/
lemma tells_brokenNotes {room : ℕ} {q : Request} {ns : List Note}
    (h : s.brokenNotes? room q = some ns) : Tells ns (∀ t ∈ s.looseTexts q, IsPlain t) := by
  obtain ⟨⟨before,c⟩,hc,h⟩ := Option.bind_eq_some_iff.mp h
  obtain ⟨notes,hnotes,h⟩ := Option.bind_eq_some_iff.mp h
  cases h
  obtain ⟨hplain,hloose⟩ := tells_shortageNotes hnotes
  cases q with
  | compute c =>
    cases hc
    exact hplain.congr (by simp [looseTexts,hloose])
  | analyze form =>
    unfold computation? at hc
    dsimp only at hc
    cases hp : form.parameters s.config with
    | error r =>
      rw [hp] at hc
      cases hc
    | ok p =>
      rw [hp] at hc
      cases hc
      exact ((tells_analyzingNote form).append hplain).congr (by simp [looseTexts,hp])
  | save c =>
    cases hc
    exact ((tells_savingNote c).append hplain).congr (by simp [looseTexts,hloose])
  | replay id =>
    obtain ⟨e,he,hc⟩ := Option.map_eq_some_iff.mp hc
    cases hc
    exact ((tells_replayingNote id).append hplain).congr (by simp [looseTexts,entry,he,hloose])
  | _ => cases hc

/-- The texts that a command tells as they are: its name, whatever it is, and those of its request.
It may have come to a turn or not. -/
def looseCommand (i : Invocation) (turn : Option (Turn Value)) : List String :=
  i.command :: match Request.ofCommand i.command i.args with
    | .ok q => s.looseTexts q ++ turn.elim [] fun t => looseReasons q t.outcome
    | .error _ => []

lemma lines_serveWithin {o : Occasion} (hid : IsPlain o.id) (room : ℕ) (q : Request) (m : Machine) :
    (∀ n ∈ (s.serveWithin room o q).kept m, IsOneLine n) ↔ ∀ t ∈ s.looseTexts q ++
      ((s.serveWithin room o q).run m).result.elim [] fun t => looseReasons q t.outcome,
        IsPlain t := by
  unfold serveWithin
  cases hb : s.brokenNotes? room q with
  | none =>
    obtain ⟨turn,hresult,hlines⟩ := s.says_serve hid q m
    rw [hresult]
    exact hlines
  | some ns =>
    have htold := says_tellAll (m := m) (s.tells_brokenNotes hb)
    dsimp only
    rw [Plan.endWith_eq,Plan.kept_bind,Plan.run_bind,Files.Ran.andThen,htold.result]
    simpa [Plan.kept,Plan.run,Plan.runIn] using htold.lines

lemma lines_dispatch {o : Occasion} (hid : IsPlain o.id) (i : Invocation) (m : Machine) :
    (∀ n ∈ (s.dispatch o i).kept m, IsOneLine n) ↔
      ∀ t ∈ s.looseCommand i ((s.dispatch o i).run m).result, IsPlain t := by
  have hgiven : Says (Plan.tell (.told .debug "INVOKE" i.command)) m () (IsPlain i.command) :=
    says_note (Tells.told (isPlain_ofList (by decide)))
  rw [dispatch,Plan.kept_bind,Plan.run_bind,Files.Ran.andThen,hgiven.result,Option.elim_some,
    List.forall_mem_append,hgiven.lines,looseCommand,List.forall_mem_cons]
  refine and_congr_right fun _ => ?_
  cases Request.ofCommand i.command i.args with
  | error r => exact iff_of_true (by simp [pure,Plan.kept]) (List.forall_mem_nil _)
  | ok q => exact s.lines_serveWithin hid _ q _

/-- The texts that serving lines tells as they are. A blank line is passed over, and a line that is no
command tells nothing. -/
def looseLines (s : State) (m : Machine) : List (Occasion × String) → List String
  | [] => []
  | (o,line) :: rest =>
    if isBlankText line then s.looseLines m rest
    else
      let served := (s.answerLine o line).run m
      (match Invocation.read? line with
        | some i => s.looseCommand i served.result
        | none => []) ++ served.result.elim [] fun turn => turn.state.looseLines served.world rest

/-- A reply leaves the machine as serving the line has left it. -/
lemma run_serveLine {line : String} (hblank : isBlankText line = false) (o : Occasion) (m : Machine) :
    (s.serveLine o line).kept m = (s.answerLine o line).kept m ∧
      ((s.serveLine o line).run m).result =
        ((s.answerLine o line).run m).result.map (·.state) ∧
      ((s.serveLine o line).run m).world = ((s.answerLine o line).run m).world := by
  rw [serveLine,if_neg (Bool.not_eq_true _ ▸ hblank),Plan.kept_bind,Plan.run_bind,Files.Ran.andThen]
  cases ((s.answerLine o line).run m).result with
  | none => exact ⟨List.append_nil _,rfl,rfl⟩
  | some turn => exact ⟨List.append_nil _,rfl,rfl⟩

/-- Each note that is kept while lines are served is one line exactly if no text that is told as it is
has a line break. -/
theorem lines_serveLines {lines : List (Occasion × String)} (hid : ∀ l ∈ lines, IsPlain l.1.id) :
    (∀ n ∈ (s.serveLines lines).kept m, IsOneLine n) ↔ ∀ t ∈ s.looseLines m lines, IsPlain t := by
  induction lines generalizing s m with
  | nil => exact iff_of_true (by simp [serveLines,pure,Plan.kept]) (List.forall_mem_nil _)
  | cons l rest ih =>
    obtain ⟨o,line⟩ := l
    obtain ⟨ho,hrest⟩ := List.forall_mem_cons.mp hid
    rw [serveLines,looseLines]
    split_ifs with hblank
    · rw [serveLine,if_pos hblank]
      exact ih _ hrest
    · obtain ⟨hkept,hresult,hworld⟩ := s.run_serveLine (Bool.not_eq_true _ ▸ hblank) o m
      have hline : (∀ n ∈ (s.answerLine o line).kept m, IsOneLine n) ↔
          ∀ t ∈ (match Invocation.read? line with
            | some i => s.looseCommand i ((s.answerLine o line).run m).result
            | none => []), IsPlain t := by
        unfold answerLine
        cases Invocation.read? line with
        | none => exact iff_of_true (by simp [pure,Plan.kept]) (List.forall_mem_nil _)
        | some i => exact s.lines_dispatch ho i m
      rw [Plan.kept_bind,hkept,hresult,hworld,List.forall_mem_append,List.forall_mem_append]
      refine and_congr hline ?_
      cases ((s.answerLine o line).run m).result with
      | none => exact iff_of_true (List.forall_mem_nil _) (List.forall_mem_nil _)
      | some turn => exact ih _ hrest

end State
end Session
end Formulary
