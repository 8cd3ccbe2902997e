import Formulary.Proofs.Session.FailedAnalysis
import Formulary.Proofs.Session.Replay

/-! What replies tell of a session. An error leaves the history, its file and the count of what was
saved as they were, and what only looks leaves everything. After any number of commands, the counts
and the size of the history are those that the replies add up to. -/

namespace Formulary

/-- The name of the command that computes an answer of a kind. -/
def Kind.command : Kind → String
  | truthTable => "generate_truth_table"
  | equivalence => "check_equivalence"
  | setOperation => "compute_set_operation"
  | complements => "compute_universe"
  | function => "analyze_function"

namespace History.Computation

lemma kind_of_ofRecord? {k : Kind} {r : Json.Record Json.Value} {c : Computation}
    (h : ofRecord? k r = some c) : c.kind = k := by
  cases k <;> simp only [ofRecord?,Option.bind_eq_bind,Option.bind_eq_some_iff,Option.pure_def,
    Option.some.injEq] at h
  case truthTable =>
    obtain ⟨_,-,_,-,rfl⟩ := h
    rfl
  case function =>
    obtain ⟨_,-,_,-,_,-,_,-,_,-,_,-,_,-,_,-,_,-,rfl⟩ := h
    rfl
  all_goals
    obtain ⟨_,-,_,-,_,-,rfl⟩ := h
    rfl

end History.Computation

namespace History.Store
open Files (Reading)
variable {path : String} {r r' : Reading} {s t : Store} {outcome : Except Fault Unit}

lemma Changed.of_error {entries : List Entry} {e : Fault}
    (h : Changed path s entries r (.error e) t r') : t = s ∧ r' = r := by
  cases h
  exact ⟨rfl,rfl⟩

lemma runs_remove_error {id : String} {e : Fault} (h : (s.remove id).Runs path r (.error e,t) r') :
    t = s ∧ r' = r := by
  rcases runs_remove h with ⟨-,-,rfl,rfl⟩ | hc
  · exact ⟨rfl,rfl⟩
  · exact hc.of_error

lemma Changed.size_eq {entries : List Entry} (h : Changed path s entries r outcome t r') :
    t.size = if outcome.isOk then entries.length else s.size := by
  cases h <;> rfl

/-- Removing succeeds exactly if it makes the store smaller by one entry. -/
lemma size_of_remove {id : String} (h : (s.remove id).Runs path r (outcome,t) r') :
    t.size + (if outcome.isOk then 1 else 0) = s.size := by
  simp only [remove,Files.Plan.runs_bind,Files.Plan.runs_pure] at h
  obtain ⟨⟨taken,_⟩,_,hw,he,rfl⟩ := h
  cases he
  rcases runs_take.mp hw with ⟨-,rfl,rfl,rfl⟩ | ⟨e,outcome,hf,rfl,hc⟩
  · rfl
  · have hsize := (runs_commit hc).size_eq
    have hlength := List.length_eraseP_of_mem (List.mem_of_find?_eq_some hf) (List.find?_some hf)
    have hpos := List.length_pos_of_mem (List.mem_of_find?_eq_some hf)
    cases outcome with
    | error _ => exact hsize
    | ok _ =>
      simp only [Except.isOk,Except.toBool,↓reduceIte,Except.map,size] at hsize ⊢
      omega

end History.Store

namespace Session
open Json (Value)
open Files (Plan Reading)
open History (Computation)

namespace Request

/-- The name of the command that makes a request. -/
def command : Request → String
  | compute c => c.kind.command
  | analyze _ => "analyze_function"
  | overlay _ _ => "update_function_overlays"
  | lastAnalysis => "get_last_function"
  | exportAnalysis => "export_last_function"
  | save _ => "save_to_history"
  | list _ _ => "list_history"
  | entry _ => "get_history_entry"
  | replay _ => "replay_history_entry"
  | delete _ => "delete_history_entry"
  | clear => "clear_history"
  | exportAll => "export_history"
  | exportTo _ => "export_history_to"
  | usage => "get_usage_stats"

lemma command_of_computation? {k : Kind} {args : Value} {q : Request}
    (h : computation? k args = some q) : q.command = k.command := by
  simp only [computation?,Option.bind_eq_bind,Option.bind_eq_some_iff,Option.pure_def,
    Option.some.injEq] at h
  obtain ⟨r,-,c,hc,rfl⟩ := h
  rw [command,Computation.kind_of_ofRecord? hc]

lemma command_of_ofCommand {name : String} {args : Value} {q : Request}
    (h : ofCommand name args = .ok q) : q.command = name := by
  unfold ofCommand at h
  split at h
  · cases h
  rename_i read hread
  split at h
  · cases h
  rename_i q' hq
  cases h
  unfold reader? at hread
  split at hread <;> simp only [Option.some.injEq,reduceCtorEq] at hread <;> subst hread
  case h_1 | h_2 | h_3 | h_4 => exact command_of_computation? hq
  all_goals simp only [Option.bind_eq_bind,Option.bind_eq_some_iff,Option.pure_def,
    Option.some.injEq] at hq
  case h_5 =>
    obtain ⟨_,-,_,-,rfl⟩ := hq
    rfl
  case h_6 | h_10 =>
    obtain ⟨_,-,_,-,_,-,rfl⟩ := hq
    rfl
  case h_9 | h_11 | h_12 | h_13 | h_16 =>
    obtain ⟨_,-,rfl⟩ := hq
    rfl
  all_goals
    subst hq
    rfl

end Request

/-- The commands that only look at what is there. -/
def looking : List String :=
  ["list_history","get_history_entry","export_history","get_last_function","export_last_function",
    "get_usage_stats"]

lemma Request.looks_of_command {q : Request} (h : q.command ∈ looking) : q.Looks := by
  cases q with
  | lastAnalysis | exportAnalysis | list | entry | exportAll | usage => trivial
  | compute c =>
    revert h
    rw [Request.command]
    cases c.kind <;> exact fun h => absurd h (by decide)
  | _ => simp [Request.command,looking] at h

namespace State
variable {path : String} {r r' : Reading} {s : State} {o : Occasion} {q : Request} {i : Invocation}
  {turn : Turn Value}

lemma Answered.frame_of_error {e : Fault} (h : Answered path s o r q turn r')
    (he : turn.outcome = .error e) :
    turn.state.history = s.history ∧ turn.state.saved = s.saved ∧ r' = r := by
  cases h with
  | computed q c hq view => exact ⟨record_history s _ _,record_saved s _ _,rfl⟩
  | unsaved c e hc => exact ⟨record_history s _ _,record_saved s _ _,rfl⟩
  | @saved c a outcome history r' hc hw =>
    cases outcome with
    | ok u => cases he
    | error f =>
      obtain ⟨rfl,rfl⟩ := (History.Store.runs_add hw).of_error
      exact ⟨rfl,rfl,rfl⟩
  | @deleted id outcome history r' hw =>
    cases outcome with
    | ok u => cases he
    | error f =>
      obtain ⟨rfl,rfl⟩ := History.Store.runs_remove_error hw
      exact ⟨rfl,rfl,rfl⟩
  | @cleared outcome history r' hw =>
    cases outcome with
    | ok u => cases he
    | error f =>
      obtain ⟨rfl,rfl⟩ := (History.Store.runs_clear hw).of_error
      exact ⟨rfl,rfl,rfl⟩
  | exported q hw =>
    rcases History.Store.runs_exportTo hw with ⟨rfl,-⟩ | ⟨reason,-,rfl⟩
    · cases he
    · exact ⟨rfl,rfl,rfl⟩
  | _ => exact ⟨rfl,rfl,rfl⟩

lemma Answered.frame_of_looks (h : Answered path s o r q turn r') (hq : q.Looks) :
    turn.state = s ∧ r' = r := by
  cases h with
  | looked hq he => exact ⟨rfl,rfl⟩
  | computed q c hc view =>
    cases q with
    | compute | analyze | replay => exact hq.elim
    | _ => exact hc.elim
  | _ => exact hq.elim

/-- An error reply leaves the history, its file and the count of what was saved as they were. A command
that only looks leaves the whole session and the file as they were, whatever it replies. -/
theorem unchanged_of_error (h : (s.dispatch o i).Runs path r turn r') :
    (∀ e, turn.outcome = .error e →
      turn.state.history = s.history ∧ turn.state.saved = s.saved ∧ r' = r) ∧
    (i.command ∈ looking → turn.state = s ∧ r' = r) := by
  rw [runs_dispatch_iff] at h
  cases hq : Request.ofCommand i.command i.args with
  | error refusal =>
    simp only [hq,Plan.runs_pure] at h
    obtain ⟨rfl,rfl⟩ := h
    exact ⟨fun _ _ => ⟨rfl,rfl,rfl⟩,fun _ => ⟨rfl,rfl⟩⟩
  | ok q =>
    simp only [hq] at h
    have hanswered := answered_of_serve h
    refine ⟨fun e he => hanswered.frame_of_error he,fun hlooking => ?_⟩
    rw [← Request.command_of_ofCommand hq] at hlooking
    exact hanswered.frame_of_looks (Request.looks_of_command hlooking)

/-- The command that saves the table. -/
def saveTable : Invocation := ⟨"save_to_history",tableComputation.value⟩

lemma runs_saveTable {turn : Turn History.Entry}
    (h : (s.save morning tableComputation).Runs path r turn r') :
    (s.dispatch morning saveTable).Runs path r (turn.map itemValue) r' :=
  runs_dispatch_of_serve (q := .save tableComputation) rfl
    (Plan.runs_bind.mpr ⟨_,_,h,Plan.runs_pure.mpr ⟨rfl,rfl⟩⟩)

/-- The table is computed and counted, but the world does not let it be written. -/
theorem unchanged_of_refusedTable :
    ∃ turn, (keptSession.dispatch morning saveTable).Runs "history.json" .absent turn .absent ∧
      turn.outcome = .error (.history (.io "refused")) ∧ turn.state.runs = 1 ∧
      turn.state.history = keptSession.history ∧ turn.state.saved = keptSession.saved := by
  have htable : (answerTo keptSession.config tableComputation).isOk = true := by decide +kernel
  obtain ⟨a,ha⟩ := isOk_iff.mp htable
  have hpath : keptSession.history.path = some "history.json" := rfl
  have hsave := save_of_refusal morning .absent hpath ha "refused"
  have hrun := runs_saveTable hsave
  obtain ⟨herror,-⟩ := unchanged_of_error hrun
  obtain ⟨hhistory,hsaved,-⟩ := herror _ rfl
  exact ⟨_,hrun,rfl,record_runs _ _ _,hhistory,hsaved⟩

end State

/-- A command that was served: what it came to, and how many entries were stored when it came. -/
structure Call where
  invocation : Invocation
  outcome : Except Fault Value
  stored : ℕ

/-- The commands that answer a computation. -/
def computing : List String :=
  ["generate_truth_table","check_equivalence","compute_set_operation","compute_universe",
    "analyze_function","replay_history_entry"]

/-- The commands that move a count or the size of the history. -/
def counting : List String :=
  ["save_to_history","delete_history_entry","clear_history"] ++ computing

namespace Call

/-- A command with one of some names succeeded. -/
def succeeds (names : List String) (c : Call) : Bool :=
  c.outcome.isOk && names.contains c.invocation.command

/-- A command to save could compute what was to be saved, whether it was written or not. -/
def recomputes (config : Config) (c : Call) : Bool :=
  c.invocation.command == "save_to_history" &&
    (Computation.ofValue? c.invocation.args).any fun d => (answerTo config d).isOk

end Call

/-- How one command counts. -/
structure Counted (s t : State) (c : Call) : Prop where
  runs : t.runs = s.runs + (if c.succeeds computing then 1 else 0) +
    if c.recomputes s.config then 1 else 0
  saved : t.saved = s.saved + if c.succeeds ["save_to_history"] then 1 else 0
  size : t.history.size + (if c.succeeds ["delete_history_entry"] then 1 else 0) +
    (if c.succeeds ["clear_history"] then c.stored else 0) =
      s.history.size + if c.succeeds ["save_to_history"] then 1 else 0
  recomputed : c.succeeds ["save_to_history"] = true → c.recomputes s.config = true

namespace State
variable {path : String} {r r' r'' : Reading} {s t : State} {o : Occasion} {q : Request}
  {i : Invocation} {turn : Turn Value} {calls : List Call}

/-- A command that is none of those that count. -/
lemma counted_of_silent (outcome : Except Fault Value)
    (hsilent : i.command ∉ counting)
    (hruns : t.runs = s.runs) (hsaved : t.saved = s.saved)
    (hsize : t.history.size = s.history.size) : Counted s t ⟨i,outcome,s.history.size⟩ := by
  simp only [counting,List.cons_append,List.nil_append,List.mem_cons,not_or] at hsilent
  obtain ⟨hs,hd,hl,hc⟩ := hsilent
  constructor <;> simp [Call.succeeds,Call.recomputes,hc,hs,hd,hl,hruns,hsaved,hsize]

/-- A command that answers a computation counts if it succeeds. -/
lemma counted_of_computing {outcome : Except Fault Value} (hc : i.command ∈ computing)
    (hruns : t.runs = s.runs + if outcome.isOk then 1 else 0) (hsaved : t.saved = s.saved)
    (hsize : t.history.size = s.history.size) : Counted s t ⟨i,outcome,s.history.size⟩ := by
  have hne (name : String) (hn : name ∉ computing) : i.command ≠ name := by
    rintro rfl
    exact hn hc
  have hs := hne "save_to_history" (by decide)
  have hd := hne "delete_history_entry" (by decide)
  have hl := hne "clear_history" (by decide)
  constructor <;> simp [Call.succeeds,Call.recomputes,hc,hs,hd,hl,hruns,hsaved,hsize]

/-- A command to save counts once for its computation and once for what is written. -/
lemma counted_of_saving {c : Computation} {outcome : Except Fault Value}
    (hcommand : i.command = "save_to_history") (hargs : Computation.ofValue? i.args = some c)
    (hok : outcome.isOk = true → (answerTo s.config c).isOk = true)
    (hruns : t.runs = s.runs + if (answerTo s.config c).isOk then 1 else 0)
    (hsaved : t.saved = s.saved + if outcome.isOk then 1 else 0)
    (hsize : t.history.size = s.history.size + if outcome.isOk then 1 else 0) :
    Counted s t ⟨i,outcome,s.history.size⟩ := by
  have hc : "save_to_history" ∉ computing := by decide
  constructor <;>
    simp [Call.succeeds,Call.recomputes,hcommand,hargs,hc,hruns,hsaved,hsize]
  exact hok

lemma ofCommand_save (args : Value) : Request.ofCommand "save_to_history" args =
    match Computation.ofValue? args with
    | none => .error (.badArguments "save_to_history")
    | some c => .ok (.save c) := by
  simp only [Request.ofCommand,Request.reader?]
  cases Computation.ofValue? args <;> rfl

/-- What only looks is none of the commands that count. -/
lemma silent_of_looks (h : q.Looks) : q.command ∉ counting := by
  cases q with
  | lastAnalysis | exportAnalysis | list | entry | exportAll | usage =>
    rw [Request.command]
    decide
  | _ => exact h.elim

/-- What asks for a computation is one of the commands that answer one. -/
lemma computing_of_asks {c : Computation} (h : s.Asks q c) : q.command ∈ computing := by
  cases q with
  | compute c' =>
    rw [Request.command]
    cases c'.kind <;> decide
  | analyze | replay => simp [Request.command,computing]
  | _ => exact h.elim

lemma ofValue?_of_save {c : Computation} (h : Request.ofCommand i.command i.args = .ok (.save c)) :
    Computation.ofValue? i.args = some c := by
  have hname : i.command = "save_to_history" := (Request.command_of_ofCommand h).symm
  rw [hname,ofCommand_save] at h
  split at h <;> cases h
  assumption

lemma counted_of_answered (hq : Request.ofCommand i.command i.args = .ok q)
    (h : Answered path s o r q turn r') :
    Counted s turn.state ⟨i,turn.outcome,s.history.size⟩ := by
  have hcommand := Request.command_of_ofCommand hq
  cases h with
  | looked hlooks he => exact counted_of_silent _ (hcommand ▸ silent_of_looks hlooks) rfl rfl rfl
  | computed q c hasks view =>
    refine counted_of_computing (hcommand ▸ computing_of_asks hasks) ?_ (record_saved s _ _)
      (by rw [record_history])
    rw [isOk_map]
    exact record_runs s _ _
  | rejected form r =>
    exact counted_of_computing (hcommand ▸ (by decide : "analyze_function" ∈ computing)) rfl rfl rfl
  | unanalysed tangent shaded hl =>
    refine counted_of_silent _ ?_ rfl rfl rfl
    rw [← hcommand,Request.command]
    decide
  | switched tangent shaded l hl v =>
    refine counted_of_silent _ ?_ rfl rfl rfl
    rw [← hcommand,Request.command]
    decide
  | unfound id hn =>
    exact counted_of_computing (hcommand ▸ (by decide : "replay_history_entry" ∈ computing)) rfl rfl rfl
  | unsaved c e hc =>
    have hargs := ofValue?_of_save hq
    refine counted_of_saving hcommand.symm hargs (by rintro ⟨⟩) ?_ (record_saved s _ _)
      (by rw [record_history]; rfl)
    rw [record_runs,hc]
  | @saved c a outcome history r' hc hw =>
    have hargs := ofValue?_of_save hq
    have hsize := (History.Store.runs_add hw).size_eq
    refine counted_of_saving hcommand.symm hargs (fun _ => by rw [hc]; rfl) ?_ ?_ ?_
    · rw [hc]
      exact record_runs s _ _
    · rw [isOk_mapError,isOk_map]
    · rw [isOk_mapError,isOk_map]
      cases outcome <;> exact hsize
  | @deleted id outcome history r' hw =>
    have hname : i.command = "delete_history_entry" := hcommand.symm
    have hsize := History.Store.size_of_remove hw
    have hc : "delete_history_entry" ∉ computing := by decide
    constructor <;> simp [Call.succeeds,Call.recomputes,hname,hc,isOk_mapError,isOk_map,hsize]
  | @cleared outcome history r' hw =>
    have hname : i.command = "clear_history" := hcommand.symm
    have hsize := (History.Store.runs_clear hw).size_eq
    have hc : "clear_history" ∉ computing := by decide
    constructor <;> simp [Call.succeeds,Call.recomputes,hname,hc,isOk_mapError,isOk_map,hsize]
    cases outcome <;> simp [Except.isOk,Except.toBool]
  | exported q hw =>
    refine counted_of_silent _ ?_ rfl rfl rfl
    rw [← hcommand,Request.command]
    decide

/-- Whatever a command comes to, it counts as its reply tells. -/
theorem counted_of_dispatch (h : (s.dispatch o i).Runs path r turn r') :
    Counted s turn.state ⟨i,turn.outcome,s.history.size⟩ := by
  rw [runs_dispatch_iff] at h
  cases hq : Request.ofCommand i.command i.args with
  | ok q =>
    simp only [hq] at h
    exact counted_of_answered hq (answered_of_serve h)
  | error refusal =>
    simp only [hq,Plan.runs_pure] at h
    obtain ⟨rfl,-⟩ := h
    have hnone (hname : i.command = "save_to_history") : Computation.ofValue? i.args = none := by
      rw [hname,ofCommand_save] at hq
      split at hq <;> cases hq
      assumption
    have hrecomputes : (Call.mk i (.error (.rejected refusal)) s.history.size).recomputes s.config =
        false := by
      by_cases hname : i.command = "save_to_history"
      · simp [Call.recomputes,hnone hname]
      · simp [Call.recomputes,hname]
    constructor <;> simp [Call.succeeds,still,Except.isOk,Except.toBool,hrecomputes]

lemma config_of_dispatch (h : (s.dispatch o i).Runs path r turn r') :
    turn.state.config = s.config := by
  rcases runs_dispatch h with ⟨hs,-⟩ | ⟨q,-,hs⟩
  · rw [hs]
  · exact hs.config_eq

end State

/-- Commands served one after the other, whatever the world answers, with what each came to. -/
inductive Calls (path : String) (s : State) (r : Reading) : List Call → State → Reading → Prop
  | none : Calls path s r [] s r
  | next {calls t r' o i turn r''} (before : Calls path s r calls t r')
      (served : (t.dispatch o i).Runs path r' turn r'') :
      Calls path s r (calls ++ [⟨i,turn.outcome,t.history.size⟩]) turn.state r''

/-- How many entries the clearings dropped that succeeded. -/
def dropped (calls : List Call) : ℕ :=
  ((calls.filter (·.succeeds ["clear_history"])).map Call.stored).sum

namespace State
variable {path : String} {r r' : Reading} {s t : State} {calls : List Call}

lemma dropped_append (calls : List Call) (c : Call) :
    dropped (calls ++ [c]) = dropped calls + if c.succeeds ["clear_history"] then c.stored else 0 := by
  rw [dropped,List.filter_append,List.map_append,List.sum_append,← dropped]
  cases h : c.succeeds ["clear_history"] <;> simp [h]

/-- The accounts of a session, from one state to another through some commands. -/
structure Balanced (s t : State) (calls : List Call) : Prop where
  config : t.config = s.config
  runs : t.runs = s.runs + calls.countP (·.succeeds computing) + calls.countP (·.recomputes s.config)
  saved : t.saved = s.saved + calls.countP (·.succeeds ["save_to_history"])
  size : t.history.size + calls.countP (·.succeeds ["delete_history_entry"]) + dropped calls =
    s.history.size + calls.countP (·.succeeds ["save_to_history"])
  recomputed : calls.countP (·.succeeds ["save_to_history"]) ≤
    calls.countP (·.recomputes s.config)

lemma Balanced.refl (s : State) : Balanced s s [] := ⟨rfl,rfl,rfl,rfl,le_rfl⟩

lemma Balanced.next {s t u : State} {c : Call} (h : Balanced s t calls) (hc : Counted t u c)
    (hconfig : u.config = t.config) : Balanced s u (calls ++ [c]) := by
  obtain ⟨runs,saved,size,recomputed⟩ := hc
  rw [h.config] at runs recomputed
  constructor
  · exact hconfig.trans h.config
  · rw [runs,h.runs,List.countP_append,List.countP_append,List.countP_singleton,
      List.countP_singleton]
    omega
  · rw [saved,h.saved,List.countP_append,List.countP_singleton,Nat.add_assoc]
  · have hsize := h.size
    rw [dropped_append,List.countP_append,List.countP_append,List.countP_singleton,
      List.countP_singleton]
    omega
  · have hle : (if c.succeeds ["save_to_history"] then 1 else 0) ≤
        if c.recomputes s.config then 1 else 0 := by
      split_ifs with hs hr <;> simp_all
    rw [List.countP_append,List.countP_append,List.countP_singleton,List.countP_singleton]
    exact Nat.add_le_add h.recomputed hle

lemma balanced_of_calls (h : Calls path s r calls t r') : Balanced s t calls := by
  induction h with
  | none => exact .refl s
  | next before served ih => exact ih.next (counted_of_dispatch served) (config_of_dispatch served)

/-- However the writes of the history fail, the counts of a session and the size of its history are
what the replies to its commands add up to. -/
theorem accounts_of_calls {config : Config} {history : History.Store}
    (h : Calls path (start config history) r calls s r') :
    s.runs = calls.countP (·.succeeds computing) + calls.countP (·.recomputes config) ∧
    s.saved = calls.countP (·.succeeds ["save_to_history"]) ∧
    s.saved ≤ s.runs ∧
    s.history.size + calls.countP (·.succeeds ["delete_history_entry"]) + dropped calls =
      history.size + s.saved := by
  obtain ⟨-,hruns,hsaved,hsize,hrecomputed⟩ := balanced_of_calls h
  simp only [start,Nat.zero_add] at hruns hsaved hsize hrecomputed
  exact ⟨hruns,hsaved,by omega,by omega⟩

/-- The world may let a history be cleared. -/
lemma exists_clear (hp : s.history.path = some path) (r : Reading) :
    ∃ r', s.clear.Runs path r ⟨.ok (),{ s with history := { s.history with entries := [] } }⟩ r' := by
  let cleared : History.Store := { s.history with entries := [] }
  have hw : s.history.clear.Runs path r (.ok (),cleared) cleared.written :=
    s.history.clear_eq_commit ▸ History.Store.runs_commit_made hp
  have htold : (Plan.tell (.told .info "HISTORY" s!"cleared {s.history.size} entries")).Runs path
      cleared.written () cleared.written := Plan.runs_tell.mpr rfl
  exact ⟨cleared.written,Plan.runs_bind.mpr ⟨_,_,hw,Plan.runs_bind.mpr ⟨_,_,htold,.done _ _⟩⟩⟩

/-- The table is saved, then it is computed but not written, and then the history is cleared. -/
theorem accounts_of_table :
    ∃ calls s r, Calls "history.json" keptSession .absent calls s r ∧ calls.length = 3 ∧
      s.runs = 2 ∧ s.saved = 1 ∧ s.history.size = 0 := by
  have htable : (answerTo keptSession.config tableComputation).isOk = true := by decide +kernel
  obtain ⟨a,ha⟩ := isOk_iff.mp htable
  have hpath : keptSession.history.path = some "history.json" := rfl
  obtain ⟨s₁,hsave,hconfig,hhistory⟩ := exists_save morning .absent hpath ha
  have hpath₁ : s₁.history.path = some "history.json" := by rw [hhistory,hpath]
  have hrefused := save_of_refusal morning s₁.history.written hpath₁ (hconfig ▸ ha) "refused"
  let s₂ : State := s₁.record tableComputation.kind (.ok a)
  have hpath₂ : s₂.history.path = some "history.json" := (congrArg _ (record_history _ _ _)).trans hpath₁
  obtain ⟨r,hclear⟩ := exists_clear hpath₂ s₁.history.written
  have hcleared : (s₂.dispatch morning ⟨"clear_history",.null⟩).Runs "history.json" _ _ r :=
    runs_dispatch_of_serve (q := .clear) rfl
      (Plan.runs_bind.mpr ⟨_,_,hclear,Plan.runs_pure.mpr ⟨rfl,rfl⟩⟩)
  have hcalls := ((Calls.none.next (runs_saveTable hsave)).next (runs_saveTable hrefused)).next hcleared
  obtain ⟨hruns,hsaved,-,-⟩ := accounts_of_calls hcalls
  have hrecomputes (outcome : Except Fault Value) (n : ℕ) :
      (Call.mk saveTable outcome n).recomputes keptSession.config = true := htable
  refine ⟨_,_,r,hcalls,rfl,?_,hsaved.trans rfl,rfl⟩
  refine hruns.trans ?_
  change _ + List.countP (Call.recomputes keptSession.config) _ = 2
  simp only [List.nil_append,List.cons_append,List.countP_cons,List.countP_nil,hrecomputes]
  rfl

end State
end Session
end Formulary
