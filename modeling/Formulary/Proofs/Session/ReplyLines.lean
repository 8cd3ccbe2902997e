import Formulary.Proofs.Json.Printing
import Formulary.Proofs.Json.Reading
import Formulary.Proofs.Session.Guards
import Formulary.Proofs.Session.JournalFile

/-! The lines of reply. In any world, each line of input that is not blank is answered by one line of
output, in the state that the lines before it left, until a line asks for a grid that there is no room
for: it ends the program, and so do not even the lines behind it get an answer. -/
namespace Formulary

/-! Serving is quiet: only ending the program keeps a line from being answered. -/

namespace History.Store
open Files (Plan)
variable (s : Store)

lemma isQuiet_save : s.save.IsQuiet := by
  unfold save
  cases s.path with
  | none => exact .done _
  | some path =>
    refine (Plan.isQuiet_makeParent path).bind fun made => ?_
    cases made with
    | error reason => exact .done _
    | ok u => exact (Plan.isQuiet_writeFile _ _).bind_pure _

lemma isQuiet_change (entries : List Entry) (undo : List Entry → List Entry) :
    (s.change entries undo).IsQuiet :=
  (isQuiet_save _).bind fun outcome => by cases outcome <;> exact .done _

lemma isQuiet_remove (id : String) : (s.remove id).IsQuiet := by
  have htake : (s.take id).IsQuiet := by
    unfold take
    split
    · exact .done _
    · exact (s.isQuiet_change _ _).bind_pure _
  exact htake.bind_pure _

end History.Store

namespace Session
open Files (Machine Plan Ran World)
open History (Computation)
open Json (Source Value)
open Script (IsPlain isPlain_ofList)

lemma NotedTurn.isQuiet_tell {α : Type} (t : NotedTurn α) : t.tell.IsQuiet :=
  (Plan.isQuiet_tellAll t.notes).bind_pure _

namespace State
variable {W : Type} {world : World W} {w : W} {s : State} {o : Occasion} {line : String}

lemma isQuiet_store (s : State) (o : Occasion) (c : Computation) (a : Answer) :
    (s.store o c a).IsQuiet := by
  refine (s.history.isQuiet_change _ _).bind fun ⟨outcome,_⟩ => ?_
  cases outcome <;> exact (Plan.isQuiet_tell _).bind_pure _

lemma isQuiet_save (s : State) (o : Occasion) (c : Computation) : (s.save o c).IsQuiet := by
  refine (Plan.isQuiet_tell _).bind fun _ => ?_
  refine (NotedTurn.isQuiet_tell _).bind fun computed => ?_
  cases computed.outcome with
  | error e => exact .done _
  | ok a => exact computed.state.isQuiet_store o c a

lemma isQuiet_delete (s : State) (id : String) : (s.delete id).IsQuiet :=
  (Plan.isQuiet_tell _).bind fun _ => (s.history.isQuiet_remove id).bind fun _ =>
    (Plan.isQuiet_tell _).bind_pure _

lemma isQuiet_clear (s : State) : s.clear.IsQuiet :=
  (s.history.isQuiet_change _ _).bind fun _ => (Plan.isQuiet_tell _).bind_pure _

lemma isQuiet_exportTo (s : State) (path : String) : (s.exportTo path).IsQuiet := by
  refine (Plan.isQuiet_tell _).bind fun _ =>
    ((Plan.isQuiet_writeFile _ _).bind_pure _).bind fun outcome => ?_
  cases outcome with
  | ok u => exact (Plan.isQuiet_tell _).bind_pure _
  | error e => exact .done _

/-- Serving a request replies nothing and goes on. -/
theorem isQuiet_serve (s : State) (o : Occasion) (q : Request) : (s.serve o q).IsQuiet := by
  cases q with
  | compute c => exact (s.compute c).isQuiet_tell.bind_pure _
  | analyze form => exact (s.analyze form).isQuiet_tell.bind_pure _
  | overlay tangent shaded => exact (s.overlay tangent shaded).isQuiet_tell.bind_pure _
  | exportAnalysis => exact s.exportAnalysis.isQuiet_tell.bind_pure _
  | save c => exact (s.isQuiet_save o c).bind_pure _
  | list query kind => exact (s.list query kind).isQuiet_tell
  | replay id => exact (s.replay id).isQuiet_tell.bind_pure _
  | delete id => exact (s.isQuiet_delete id).bind_pure _
  | clear => exact s.isQuiet_clear.bind_pure _
  | exportTo path => exact (s.isQuiet_exportTo path).bind_pure _
  | lastAnalysis | entry id | exportAll | usage => exact .done _

/-- A request is answered in every world, and no answer changes the configuration. -/
lemma exists_runIn_serve (world : World W) (w : W) (s : State) (o : Occasion) (q : Request) :
    ∃ turn w', (s.serve o q).runIn world w = ⟨some turn,"",w'⟩ ∧ turn.state.config = s.config := by
  obtain ⟨turn,w',r',hrun,hruns⟩ := (s.isQuiet_serve o q).runIn world w "" .absent
  exact ⟨turn,w',hrun,(runs_serve hruns).config_eq⟩

/-! One line -/

/-- The line is a command whose request comes to a grid that there is no room for. -/
def EndsProgram (world : World W) (w : W) (s : State) (line : String) : Prop :=
  ∃ i q, Invocation.read? line = some i ∧ Request.ofCommand i.command i.args = .ok q ∧
    s.IsShort (world.room (world.note (.told .debug "INVOKE" i.command) w)) q

/-- A line comes to an answer, or it ends the program. Either way nothing is replied yet. -/
lemma runIn_answerLine (world : World W) (w : W) (s : State) (o : Occasion) (line : String) :
    (s.EndsProgram world w line ∧ ∃ w', (s.answerLine o line).runIn world w = ⟨none,"",w'⟩) ∨
      ¬s.EndsProgram world w line ∧ ∃ turn w',
        (s.answerLine o line).runIn world w = ⟨some turn,"",w'⟩ ∧ turn.state.config = s.config := by
  unfold answerLine EndsProgram
  cases hi : Invocation.read? line with
  | none => exact .inr ⟨by simp,_,w,rfl,rfl⟩
  | some i =>
    let noted := world.note (.told .debug "INVOKE" i.command) w
    cases hq : Request.ofCommand i.command i.args with
    | error r =>
      refine .inr ⟨by simp [hq],s.still (.error (.rejected r)),noted,?_,rfl⟩
      dsimp only
      rw [dispatch,hq]
      rfl
    | ok q =>
      have hrun : (s.dispatch o i).runIn world w =
          (s.serveWithin (world.room noted) o q).runIn world noted := by
        rw [dispatch,hq]
        rfl
      have hends : (∃ i' q', some i = some i' ∧ Request.ofCommand i'.command i'.args = .ok q' ∧
          s.IsShort (world.room (world.note (.told .debug "INVOKE" i'.command) w)) q') ↔
            s.IsShort (world.room noted) q := by
        simp [hq,noted]
      rw [hends,← isSome_brokenNotes?_iff]
      dsimp only
      rw [hrun,serveWithin]
      cases s.brokenNotes? (world.room noted) q with
      | none => exact .inr ⟨by simp,exists_runIn_serve world noted s o q⟩
      | some notes => exact .inl ⟨rfl,Plan.runIn_endWith notes noted⟩

/-- A line that makes no request. -/
def IsMalformed (line : String) : Prop :=
  ∀ i, Invocation.read? line = some i → ∃ r, Request.ofCommand i.command i.args = .error r

/-- A line that makes no request fails and leaves the session as it was. -/
lemma runIn_answerLine_of_isMalformed (h : IsMalformed line) (world : World W) (w : W) (s : State)
    (o : Occasion) : ∃ e w', (s.answerLine o line).runIn world w = ⟨some ⟨.error e,s⟩,"",w'⟩ := by
  unfold answerLine
  cases hi : Invocation.read? line with
  | none => exact ⟨.notRequest,w,rfl⟩
  | some i =>
    obtain ⟨r,hr⟩ := h i hi
    refine ⟨.rejected r,world.note (.told .debug "INVOKE" i.command) w,?_⟩
    dsimp only
    rw [dispatch,hr]
    rfl

end State

/-! Room for every request -/

/-- The greatest grid that a session can come to: that of an analysis or that of its area. -/
def Config.greatestGrid (config : Config) : ℕ :=
  max (min config.mostPoints config.settings.maxPoints)
    (max config.settings.integralSamples Calculus.leastPoints)

/-- An analysis has no more points than a request may ask for, nor than a grid may have. -/
lemma points_le_of_analysedOf {config : Config} {expression : String} {p : Calculus.Parameters}
    (h : (analysedOf config expression p).isOk = true) :
    p.points ≤ min config.mostPoints config.settings.maxPoints := by
  obtain ⟨l,hl⟩ := isOk_iff.mp h
  obtain ⟨-,hfresh,-,rfl⟩ := analysedOf_eq_ok_iff.mp hl
  obtain ⟨-,-,-,-,-,-,-,hmost⟩ := requireParameters_eq_ok_iff.mp hfresh.admitted
  obtain ⟨-,-,-,samples,hsample,-⟩ := Calculus.analyze_eq_ok_iff.mp hfresh.analyzed
  obtain ⟨-,-,-,-,hgrid,-⟩ := Calculus.sample_eq_ok_iff.mp hsample
  exact Nat.le_min.mpr ⟨hmost,hgrid⟩

/-- Where there is room for the greatest grid, no computation is short of it. -/
lemma not_isShort {config : Config} {room : ℕ} (hroom : config.greatestGrid ≤ room)
    (c : Computation) : ¬IsShort config room c := by
  rintro ⟨hok,expression,p,rfl,hexceeds⟩
  have hpoints : p.points ≤ min config.mostPoints config.settings.maxPoints :=
    points_le_of_analysedOf (by simpa [answerTo,isOk_map] using hok)
  exact Calculus.not_exceeds (hpoints.trans ((Nat.le_max_left _ _).trans hroom))
    ((Nat.le_max_right _ _).trans hroom) hexceeds

/-! The text of a reply -/

/-- A reply to what a request came to: on one line, and read as an object with one field, which holds
the value or the message. The message may go on with what the JSON reader says. -/
structure IsReply (why : String) (outcome : Except Fault Value) (reply : String) : Prop where
  text : reply = replyText why outcome
  printed : ∀ c ∈ reply.toList, Json.isPrinted c = true
  read : Source.read? reply = some (match outcome with
    | .ok v => .object [(some "ok",v.settle.spelled)]
    | .error e => .object [(some "error",.string (some (e.told why)))])

lemma isReply_replyText (why : String) (outcome : Except Fault Value) :
    IsReply why outcome (replyText why outcome) where
  text := rfl
  printed := by
    unfold replyText
    rw [Value.text,String.toList_ofList]
    exact (replyValue why outcome).settle.isPrinted_of_mem_chars 0
  read := by
    unfold replyText
    rw [Source.read?_text]
    cases outcome <;> rfl

lemma IsReply.isPlain {why : String} {outcome : Except Fault Value} {reply : String}
    (h : IsReply why outcome reply) : IsPlain reply := fun hc =>
  absurd (h.printed _ hc) (by decide)

/-- Lines that are ended each are the lines of the text that they make. -/
lemma endedLines_join {replies : List String} (h : ∀ reply ∈ replies, IsPlain reply) :
    endedLines (String.join (replies.map (· ++ "\n"))) = replies := by
  induction replies with
  | nil => rfl
  | cons reply rest ih =>
    obtain ⟨hreply,hrest⟩ := List.forall_mem_cons.mp h
    rw [List.map_cons,String.join_cons,endedLines_append hreply,ih hrest]

/-- An input may be read line by line: its lines are those up to a line break and those behind it. -/
theorem inputLines_append (front rest : String) :
    inputLines (front ++ "\n" ++ rest) = inputLines (front ++ "\n") ++ inputLines rest := by
  have hcut (t : String) : Text.pieces '\n' (front ++ "\n" ++ t).toList =
      Text.pieces '\n' front.toList ++ Text.pieces '\n' t.toList := by
    have hchars : (front ++ "\n" ++ t).toList = front.toList ++ '\n' :: t.toList := by
      simp [String.toList_append]
    rw [hchars,Text.pieces_append_separator]
  have hended : inputLines (front ++ "\n") =
      ((Text.pieces '\n' front.toList).map withoutReturn).map String.ofList := by
    have hnone := hcut ""
    rw [String.append_empty] at hnone
    rw [inputLines,hnone]
    simp [Text.pieces]
  rw [hended,inputLines,inputLines,hcut,List.dropLast_append_of_ne_nil (Text.pieces_ne_nil _ _),
    List.getLast?_append_of_ne_nil _ (Text.pieces_ne_nil _ _)]
  simp only [List.map_append,List.append_assoc]

/-! Lines in turn -/

/-- The lines that are answered: all but the blank ones. -/
def asked (lines : List (Occasion × String)) : List (Occasion × String) :=
  lines.filter fun l => !isBlankText l.2

/-- What lines of input come to in a world, from a state: the replies, the state that is left unless a
line ended the program, and the world. A blank line is passed over. Any other is answered in the state
and the world that the lines before it left, and one that makes no request fails and changes nothing.
A line that ends the program gets no reply, nor do those behind it. -/
inductive Transcript {W : Type} (world : World W) :
    State → W → List (Occasion × String) → List String → Option State → W → Prop
  | done (s : State) (w : W) : Transcript world s w [] [] (some s) w
  | blank {s : State} {w w' : W} (o : Occasion) {line : String} {lines : List (Occasion × String)}
      {replies : List String} {left : Option State} (hblank : isBlankText line = true)
      (rest : Transcript world s w lines replies left w') :
      Transcript world s w ((o,line) :: lines) replies left w'
  | answered {s : State} {w w₁ w' : W} {o : Occasion} {line : String}
      {lines : List (Occasion × String)} {turn : Turn Value} {reply : String} {replies : List String}
      {left : Option State} (hblank : isBlankText line = false)
      (hroom : ¬s.EndsProgram world w line)
      (hturn : (s.answerLine o line).runIn world w = ⟨some turn,"",w₁⟩)
      (hmalformed : State.IsMalformed line → ∃ e, turn = ⟨.error e,s⟩)
      (hreply : IsReply (world.explain line w₁) turn.outcome reply)
      (rest : Transcript world turn.state w₁ lines replies left w') :
      Transcript world s w ((o,line) :: lines) (reply :: replies) left w'
  | ended {s : State} {w w' : W} {o : Occasion} {line : String} {lines : List (Occasion × String)}
      (hblank : isBlankText line = false) (hends : s.EndsProgram world w line)
      (hturn : (s.answerLine o line).runIn world w = ⟨none,"",w'⟩) :
      Transcript world s w ((o,line) :: lines) [] none w'

variable {W : Type} {world : World W} {w : W} {s : State} {o : Occasion} {line : String}
  {lines : List (Occasion × String)} {replies : List String} {left : Option State} {w' : W}

lemma asked_blank (h : isBlankText line = true) (rest : List (Occasion × String)) :
    asked ((o,line) :: rest) = asked rest :=
  List.filter_cons_of_neg (by simp [h])

lemma asked_cons (h : isBlankText line = false) (rest : List (Occasion × String)) :
    asked ((o,line) :: rest) = (o,line) :: asked rest :=
  List.filter_cons_of_pos (by simp [h])

namespace Transcript

lemma isPlain_of_mem (h : Transcript world s w lines replies left w') :
    ∀ reply ∈ replies, IsPlain reply := by
  induction h with
  | done | ended => exact List.forall_mem_nil _
  | blank o hblank rest ih => exact ih
  | answered hblank hroom hturn hmalformed hreply rest ih =>
    exact List.forall_mem_cons.mpr ⟨hreply.isPlain,ih⟩

/-- All lines are answered unless one of them ended the program. -/
lemma isSome_iff (h : Transcript world s w lines replies left w') :
    left.isSome = true ↔ replies.length = (asked lines).length := by
  induction h with
  | done => exact iff_of_true rfl rfl
  | blank o hblank rest ih => rwa [asked_blank hblank]
  | answered hblank hroom hturn hmalformed hreply rest ih =>
    rw [ih,asked_cons hblank,List.length_cons,List.length_cons,Nat.add_right_cancel_iff]
  | ended hblank hends hturn =>
    rw [asked_cons hblank]
    exact iff_of_false (by simp) (by simp)

lemma of_blank (h : Transcript world s w ((o,line) :: lines) replies left w')
    (hblank : isBlankText line = true) : Transcript world s w lines replies left w' := by
  cases h with
  | blank o hb rest => exact rest
  | answered hb | ended hb =>
    rw [hblank] at hb
    cases hb

/-- What is known of the answer to a line is known of the reply to it. -/
lemma of_answered {turn : Turn Value} {w₁ : W}
    (h : Transcript world s w ((o,line) :: lines) replies left w') (hblank : isBlankText line = false)
    (hturn : (s.answerLine o line).runIn world w = ⟨some turn,"",w₁⟩) :
    ∃ rest, replies = replyText (world.explain line w₁) turn.outcome :: rest ∧
      Transcript world turn.state w₁ lines rest left w' := by
  cases h with
  | blank o hb rest =>
    rw [hblank] at hb
    cases hb
  | ended hb hends hnone => cases hnone.symm.trans hturn
  | answered hb hroom hsome hm hreply rest =>
    cases hsome.symm.trans hturn
    exact ⟨_,congrArg (· :: _) hreply.text,rest⟩

lemma eq_nil_of_done (h : Transcript world s w [] replies left w') : replies = [] := by
  cases h
  rfl

/-- No line ends the program where there is room for the greatest grid and stays so. -/
lemma isSome_of_room (h : Transcript world s w lines replies left w')
    (hkeeps : world.Keeps fun w => s.config.greatestGrid ≤ world.room w)
    (hroom : s.config.greatestGrid ≤ world.room w) : left.isSome = true := by
  induction h with
  | done => rfl
  | blank o hblank rest ih => exact ih hkeeps hroom
  | @answered s w w₁ w' o line lines turn reply replies left hblank hr hturn hm hreply rest ih =>
    have hconfig : turn.state.config = s.config := by
      rcases State.runIn_answerLine world w s o line with
        ⟨hends,-⟩ | ⟨-,turn',w₂,hturn',hconfig⟩
      · exact absurd hends hr
      · cases hturn.symm.trans hturn'
        exact hconfig
    have hleft := hkeeps.runIn (s.answerLine o line) hroom
    rw [hturn] at hleft
    rw [hconfig] at ih
    exact ih hkeeps hleft
  | ended hblank hends hturn =>
    obtain ⟨i,q,-,-,notes,c,-,hshort⟩ := hends
    exact absurd hshort (not_isShort (hkeeps.note _ _ hroom) c)

end Transcript

namespace State

/-- The reply to a line comes behind what serving the line has done. -/
lemma runIn_serveLine (h : isBlankText line = false) :
    (s.serveLine o line).runIn world w = ((s.answerLine o line).runIn world w).andThen
      fun turn w' => ⟨some turn.state,replyText (world.explain line w') turn.outcome ++ "\n",w'⟩ := by
  rw [serveLine,if_neg (by simp [h]),Plan.runIn_bind]
  congr 1
  funext turn w'
  change Ran.mk _ (_ ++ "\n" ++ "") _ = _
  rw [String.append_empty]
  rfl

/-- Every run of lines has a transcript, and its replies are what was written to the standard output. -/
lemma exists_transcript (world : World W) (w : W) (s : State) (lines : List (Occasion × String)) :
    let run := (s.serveLines lines).runIn world w
    ∃ replies, Transcript world s w lines replies run.result run.world ∧
      run.output = String.join (replies.map (· ++ "\n")) := by
  induction lines generalizing s w with
  | nil => exact ⟨[],.done s w,rfl⟩
  | cons l rest ih =>
    obtain ⟨o,line⟩ := l
    rw [serveLines,Plan.runIn_bind]
    cases hblank : isBlankText line with
    | true =>
      obtain ⟨replies,htranscript,houtput⟩ := ih w s
      rw [serveLine,if_pos hblank]
      refine ⟨replies,.blank o hblank htranscript,?_⟩
      rw [← houtput]
      exact String.empty_append
    | false =>
      rw [runIn_serveLine hblank]
      rcases runIn_answerLine world w s o line with
        ⟨hends,w',hturn⟩ | ⟨hroom,turn,w₁,hturn,-⟩
      · rw [hturn]
        exact ⟨[],.ended hblank hends hturn,rfl⟩
      · obtain ⟨replies,htranscript,houtput⟩ := ih w₁ turn.state
        have hmalformed (h : IsMalformed line) : ∃ e, turn = ⟨.error e,s⟩ := by
          obtain ⟨e,w',he⟩ := runIn_answerLine_of_isMalformed h world w s o
          rw [hturn] at he
          cases he
          exact ⟨e,rfl⟩
        rw [hturn]
        refine ⟨_ :: replies,.answered hblank hroom hturn hmalformed (isReply_replyText _ _)
          htranscript,?_⟩
        rw [List.map_cons,String.join_cons,← houtput]
        simp only [Ran.andThen,String.empty_append]

/-- Blank lines do nothing at all. -/
lemma serveLines_asked (s : State) (lines : List (Occasion × String)) (world : World W) (w : W) :
    (s.serveLines (asked lines)).runIn world w = (s.serveLines lines).runIn world w := by
  induction lines generalizing s w with
  | nil => rfl
  | cons l rest ih =>
    obtain ⟨o,line⟩ := l
    cases hblank : isBlankText line with
    | true =>
      have hrest : s.serveLines ((o,line) :: rest) = s.serveLines rest := by
        rw [serveLines,serveLine,if_pos hblank]
        rfl
      rw [asked_blank hblank,hrest,ih]
    | false =>
      rw [asked_cons hblank,serveLines,serveLines,Plan.runIn_bind,Plan.runIn_bind]
      congr 1
      funext next
      exact funext fun w' => ih next w'

/-- Lines that follow others are served in the state and the world that those leave, if they leave any. -/
theorem runIn_serveLines_append (world : World W) (w : W) (s : State)
    (before after : List (Occasion × String)) :
    (s.serveLines (before ++ after)).runIn world w =
      ((s.serveLines before).runIn world w).andThen
        fun next => (next.serveLines after).runIn world := by
  induction before generalizing s w with
  | nil =>
    change _ = Ran.mk _ ("" ++ _) _
    rw [String.empty_append]
    rfl
  | cons l before ih =>
    rw [List.cons_append,serveLines,serveLines,Plan.runIn_bind,Plan.runIn_bind,Ran.andThen_assoc]
    congr 1
    funext next
    exact funext fun w' => ih w' next

/-- Whatever the world and the lines of input are, it makes no difference whether they come at once or some
after others, nor do blank lines make any. The standard output has one line for each reply, in order.
There is one reply to each line that is not blank, as the transcript says, unless a line came to a grid
that there is no room for. Where there is and stays room for the greatest grid that the configuration
admits, every line is answered. -/
theorem output_of_lines (world : World W) (w : W) (s : State) (lines : List (Occasion × String)) :
    let run := (s.serveLines lines).runIn world w
    (∀ before after, before ++ after = lines → run = ((s.serveLines before).runIn world w).andThen
      fun next => (next.serveLines after).runIn world) ∧
    (s.serveLines (asked lines)).runIn world w = run ∧
    ∃ replies, Transcript world s w lines replies run.result run.world ∧
      run.output = String.join (replies.map (· ++ "\n")) ∧ endedLines run.output = replies ∧
      (run.result.isSome = true ↔ replies.length = (asked lines).length) ∧
      ((world.Keeps fun w => s.config.greatestGrid ≤ world.room w) →
        s.config.greatestGrid ≤ world.room w → run.result.isSome = true) := by
  intro run
  have hpieces : ∀ before after, before ++ after = lines → run =
      ((s.serveLines before).runIn world w).andThen fun next => (next.serveLines after).runIn world := by
    rintro before after rfl
    exact runIn_serveLines_append world w s before after
  obtain ⟨replies,htranscript,houtput⟩ := exists_transcript world w s lines
  have hlines : endedLines run.output = replies := by
    rw [houtput]
    exact endedLines_join htranscript.isPlain_of_mem
  exact ⟨hpieces,serveLines_asked s lines world w,replies,htranscript,houtput,hlines,
    htranscript.isSome_iff,htranscript.isSome_of_room⟩

/-- A blank line is passed over and a word is no request, and then the counts are those of the start. -/
theorem output_of_threeLines :
    let run := ((start .standard .inMemory).serveLines
      [(noon," "),(noon,"counts"),(noon,"\x7b\"cmd\":\"get_usage_stats\"\x7d")]).run (.ofDisk .empty)
    run.result.isSome = true ∧ endedLines run.output =
      ["\x7b\"error\":\"Serialization error: not understood\"\x7d",
        "\x7b\"ok\":\x7b\"runs\":0,\"saved\":0\x7d\x7d"] := by
  have hroom : Config.standard.greatestGrid ≤ Files.Host.terse.room := by decide +kernel
  have hread : (Invocation.read? "\x7b\"cmd\":\"get_usage_stats\"\x7d").map (·.command) =
      some "get_usage_stats" := by decide +kernel
  have hblank : isBlankText "\x7b\"cmd\":\"get_usage_stats\"\x7d" = false := by decide +kernel
  -- the line is only what it reads as: its text would be evaluated again and again
  generalize "\x7b\"cmd\":\"get_usage_stats\"\x7d" = line at hread hblank ⊢
  obtain ⟨i,hi,hcommand⟩ := Option.map_eq_some_iff.mp hread
  have hq : Request.ofCommand i.command i.args = .ok .usage := by
    rw [hcommand]
    rfl
  have hunread : Invocation.read? "counts" = none := by decide +kernel
  have hfirst : replyText "not understood" (.error .notRequest) =
      "\x7b\"error\":\"Serialization error: not understood\"\x7d" := by decide +kernel
  have hsecond : replyText "not understood" (.ok (usageValue (start .standard .inMemory))) =
      "\x7b\"ok\":\x7b\"runs\":0,\"saved\":0\x7d\x7d" := by decide +kernel
  have hword (s : State) (m : Machine) : (s.answerLine noon "counts").runIn Machine.world m =
      ⟨some ⟨.error .notRequest,s⟩,"",m⟩ := by
    rw [answerLine,hunread]
    rfl
  have husage (s : State) (m : Machine) : (s.answerLine noon line).runIn Machine.world m =
      ⟨some ⟨.ok (usageValue s),s⟩,"",m.note (.told .debug "INVOKE" i.command)⟩ := by
    simp only [answerLine,hi,dispatch,hq]
    rfl
  obtain ⟨-,-,replies,htranscript,-,hlines,-,hserved⟩ := output_of_lines Machine.world
    (.ofDisk .empty) (start .standard .inMemory) [(noon," "),(noon,"counts"),(noon,line)]
  refine ⟨hserved (Files.keeps_host (Config.standard.greatestGrid ≤ ·.room)) hroom,hlines.trans ?_⟩
  obtain ⟨rest,rfl,hrest⟩ := (htranscript.of_blank (by decide +kernel)).of_answered
    (by decide +kernel) (hword _ _)
  obtain ⟨none,rfl,hnone⟩ := hrest.of_answered hblank (husage _ _)
  obtain rfl := hnone.eq_nil_of_done
  exact congrArg₂ (fun first second => [first,second]) hfirst hsecond

/-- A line that ends the program leaves no reply to it, and none behind it. -/
lemma runIn_serveLines_of_endsProgram (hblank : isBlankText line = false)
    (hends : s.EndsProgram world w line) (o : Occasion) (rest : List (Occasion × String)) :
    ∃ w', (s.serveLines ((o,line) :: rest)).runIn world w = ⟨none,"",w'⟩ := by
  rcases runIn_answerLine world w s o line with ⟨-,w',hturn⟩ | ⟨hroom,-⟩
  · rw [serveLines,Plan.runIn_bind,runIn_serveLine hblank,hturn]
    exact ⟨w',rfl⟩
  · exact absurd hends hroom

/-- An analysis whose area wants `2 ^ 61` samples ends the program, and the line behind it is left. -/
theorem output_of_hugeArea :
    ∃ m s opened lines,
      m = withConfig "\x7b\"numeric\":\x7b\"integral_samples\":2305843009213693952\x7d\x7d" ∧
      (openSession "trivium.json" installed).ComesTo m (.ok s) opened openedNotes ∧
      lines = [(noon,"\x7b\"cmd\":\"analyze_function\",\"args\":\x7b\"expression\":\"x\"," ++
          "\"xMin\":\"-1\",\"xMax\":\"1\",\"points\":\"80\",\"x0\":\"0\",\"a\":\"0\",\"b\":\"1\"\x7d\x7d"),
        (noon,"\x7b\"cmd\":\"get_usage_stats\"\x7d")] ∧
      (asked lines).length = 2 ∧ ((s.serveLines lines).run opened).output = "" ∧
      ((s.serveLines lines).run opened).result.isNone = true := by
  have hpaths := exists_config
    "\x7b\"numeric\":\x7b\"integral_samples\":2305843009213693952\x7d\x7d" none none (by decide +kernel)
  have hshort : ((Config.read?
      "\x7b\"numeric\":\x7b\"integral_samples\":2305843009213693952\x7d\x7d").bind fun config =>
        (Invocation.read? ("\x7b\"cmd\":\"analyze_function\",\"args\":\x7b\"expression\":\"x\"," ++
          "\"xMin\":\"-1\",\"xMax\":\"1\",\"points\":\"80\",\"x0\":\"0\",\"a\":\"0\",\"b\":\"1\"\x7d\x7d")).bind
            fun i => (Request.ofCommand i.command i.args).toOption.bind
              ((start config .inMemory).brokenNotes? Files.mostRoom)).isSome = true := by
    decide +kernel
  have hblank : isBlankText ("\x7b\"cmd\":\"analyze_function\",\"args\":\x7b\"expression\":\"x\"," ++
      "\"xMin\":\"-1\",\"xMax\":\"1\",\"points\":\"80\",\"x0\":\"0\",\"a\":\"0\",\"b\":\"1\"\x7d\x7d") = false := by
    decide +kernel
  have husage : isBlankText "\x7b\"cmd\":\"get_usage_stats\"\x7d" = false := by decide +kernel
  -- the line is only what it reads as: its text would be evaluated again and again
  generalize "\x7b\"cmd\":\"analyze_function\",\"args\":\x7b\"expression\":\"x\"," ++
    "\"xMin\":\"-1\",\"xMax\":\"1\",\"points\":\"80\",\"x0\":\"0\",\"a\":\"0\",\"b\":\"1\"\x7d\x7d" = line
    at hshort hblank ⊢
  obtain ⟨config,hc,hlog,hhistory⟩ := hpaths
  obtain ⟨opened,hopen⟩ := comesTo_openSession_withConfig hc (by simp [hlog]) hhistory
  rw [hc,Option.bind_some,Option.isSome_bind,Option.any_eq_true] at hshort
  obtain ⟨i,hi,hshort⟩ := hshort
  obtain ⟨q,hq,hshort⟩ := isSome_toOption_bind_iff.mp hshort
  have hroom (n : Journal.Note) : (opened.note n).host.room = Files.mostRoom := by
    have hhost : opened.host = .terse := by
      rw [← hopen.world]
      exact Files.host_run _ _
    exact (Files.keeps_host (·.room = Files.mostRoom)).note n opened (congrArg (·.room) hhost)
  have hends : (start config .inMemory).EndsProgram Machine.world opened line := by
    refine ⟨i,q,hi,hq,isSome_brokenNotes?_iff.mp ?_⟩
    change (brokenNotes? _ (opened.note _).host.room q).isSome = true
    rwa [hroom]
  obtain ⟨w',hrun⟩ := runIn_serveLines_of_endsProgram hblank hends noon
    [(noon,"\x7b\"cmd\":\"get_usage_stats\"\x7d")]
  refine ⟨_,_,opened,_,rfl,hopen,rfl,?_,congrArg Ran.output hrun,congrArg (·.result.isNone) hrun⟩
  rw [asked_cons hblank,asked_cons husage]
  rfl

end State
end Session
end Formulary
