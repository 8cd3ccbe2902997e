import Formulary.Proofs.Logic.Comparison
import Formulary.Proofs.Logic.MissingOperands
import Formulary.Proofs.Session.FailedAnalysis
import Formulary.Proofs.Session.Messages

/-! The checks of a request leave nothing to the guards behind them. What is left to go wrong is in
the text of a formula or of a function, and a text that passed its check is not empty. -/
namespace Formulary

namespace Text

lemma exists_of_trim_ne_nil {s : List Char} (h : trim s ≠ []) : ∃ c ∈ s, isBlank c = false := by
  by_contra hn
  have hall : ∀ c ∈ s, isBlank c = true := fun c hc => by
    by_contra hb
    exact hn ⟨c,hc,by simpa using hb⟩
  exact h (trim_of_blank hall)

end Text

lemma trim_ne_nil {s : String} (h : (trimmed s).isEmpty = false) : Text.trim s.toList ≠ [] := by
  intro hn
  rw [trimmed,hn] at h
  cases h

namespace Logic

lemma scan_snd_ne_empty (before : ℕ) (s : List Char) : (scan before s).2 ≠ some .empty := by
  fun_induction scan before s with
  | case1 before s t rest h hlt r ih => exact ih
  | case2 before s h =>
    unfold SyntaxError.atText
    split_ifs <;> simp

lemma eq_nil_of_scan {before : ℕ} {s : List Char} (h : scan before s = ([],none)) : s = [] := by
  rw [scan] at h
  split at h
  · cases h
  · by_contra hs
    simp [hs] at h

lemma reorder_ne_empty (w : List Pending) (ts : List Token) : reorder w ts ≠ .error .empty := by
  induction ts generalizing w with
  | nil =>
    rw [reorder]
    split_ifs <;> simp
  | cons t ts ih =>
    cases t with
    | opening => exact ih _
    | closing =>
      rw [reorder]
      split
      · simp
      · exact mt map_eq_error_iff.mp (ih _)
    | _ => exact mt map_eq_error_iff.mp (ih _)

lemma tokens_ne_empty (text : String) : tokens text ≠ .error .empty := by
  unfold tokens scanText
  have h := scan_snd_ne_empty 0 (Text.strip text.toList)
  split
  · simp
  · simp_all

lemma eq_nil_of_tokens {text : String} (h : tokens text = .ok []) :
    Text.strip text.toList = [] := by
  unfold tokens scanText at h
  split at h <;> cases h
  exact eq_nil_of_scan ‹_›

/-- Only a blank text is an empty one. -/
lemma compile_ne_empty {text : String} (h : (trimmed text).isEmpty = false) :
    compile text ≠ .error .empty := by
  intro he
  rcases bind_eq_error_iff.mp he with ht | ⟨ts,ht,he⟩
  · exact tokens_ne_empty text ht
  · cases ts with
    | nil =>
      obtain ⟨c,hc,hb⟩ := Text.exists_of_trim_ne_nil (trim_ne_nil h)
      have hmem : c ∈ Text.strip text.toList := List.mem_filter.mpr ⟨hc,by simp [hb]⟩
      rw [eq_nil_of_tokens ht] at hmem
      cases hmem
    | cons t ts => exact reorder_ne_empty [] (t :: ts) he

/-- Under an assignment that covers it, a program never comes to a letter without a value. -/
lemma eval_ne_unassigned {p : Postfix} {s : Assignment} (hs : s.Covers p) (l : Letter) :
    p.eval s ≠ .error (.unassigned l) := by
  rw [ne_eq,eval_eq_error_iff hs,assemble_eq_error_iff]
  rintro (⟨q,o,rest,reached,-,-,-,hfault⟩ | ⟨stack,-,-,hinvalid⟩)
  · cases o <;> cases hfault
  · cases hinvalid

/-- The faults of guards: no letters were asked for that there are not, no letter was left without a
value and no empty text was let through. -/
def Error.IsGuard : Error → Prop
  | .text .empty | .evaluation (.unassigned _) | .unsupportedCount _ => True
  | _ => False

lemma not_isGuard_of_evaluate {p : Postfix} {s : Assignment} {e : Error} (hs : s.Covers p)
    (h : p.evaluate s = .error e) : ¬e.IsGuard := by
  rw [Postfix.evaluate] at h
  split at h <;> cases h
  rename_i e he
  cases e with
  | unassigned l => exact absurd he (eval_ne_unassigned hs l)
  | _ => exact id

lemma not_isGuard_of_compileOver {a : Alphabet} {text : String} {e : Error}
    (ht : (trimmed text).isEmpty = false) (h : compileOver a text = .error e) : ¬e.IsGuard := by
  rw [compileOver] at h
  split at h
  · rename_i e he
    cases h
    cases e with
    | empty => exact absurd he (compile_ne_empty ht)
    | _ => exact id
  · split at h <;> cases h
    exact id

lemma covers_of_compileOver {a : Alphabet} {text : String} {p : Postfix} {s : Assignment}
    (h : compileOver a text = .ok p) (hs : s ∈ a.assignments) : s.Covers p :=
  covers_of_mem_assignments (compileOver_eq_ok_iff.mp h).2 hs

lemma exists_error_of_mapM {α β ε : Type*} {f : α → Except ε β} {l : List α} {e : ε}
    (h : l.mapM f = .error e) : ∃ a ∈ l, f a = .error e := by
  induction l with
  | nil => cases h
  | cons a l ih =>
    rw [List.mapM_cons] at h
    rcases bind_eq_error_iff.mp h with ha | ⟨b,-,h⟩
    · exact ⟨a,List.mem_cons_self,ha⟩
    · rcases bind_eq_error_iff.mp h with hl | ⟨bs,-,h⟩
      · obtain ⟨a',ha',he⟩ := ih hl
        exact ⟨a',List.mem_cons_of_mem a ha',he⟩
      · cases h

lemma exists_error_of_firstDifference {p q : Postfix} {l : List Assignment} {e : Error}
    (h : firstDifference p q l = .error e) :
    ∃ s ∈ l, p.evaluate s = .error e ∨ q.evaluate s = .error e := by
  induction l with
  | nil => cases h
  | cons s l ih =>
    rw [firstDifference] at h
    rcases bind_eq_error_iff.mp h with hp | ⟨x,-,h⟩
    · exact ⟨s,List.mem_cons_self,.inl hp⟩
    · rcases bind_eq_error_iff.mp h with hq | ⟨y,-,h⟩
      · exact ⟨s,List.mem_cons_self,.inr hq⟩
      · split at h
        · cases h
        · obtain ⟨s',hs',he⟩ := ih h
          exact ⟨s',List.mem_cons_of_mem s hs',he⟩

lemma not_isGuard_of_table {a : Alphabet} {text : String} {e : Error}
    (ht : (trimmed text).isEmpty = false) (h : Table.ofText a text = .error e) : ¬e.IsGuard := by
  rcases bind_eq_error_iff.mp h with hc | ⟨p,hp,h⟩
  · exact not_isGuard_of_compileOver ht hc
  · rcases bind_eq_error_iff.mp h with hrows | ⟨rows,-,h⟩
    · obtain ⟨s,hs,he⟩ := exists_error_of_mapM hrows
      exact not_isGuard_of_evaluate (covers_of_compileOver hp hs) (map_eq_error_iff.mp he)
    · cases h

lemma not_isGuard_of_equivalence {a : Alphabet} {left right : String} {e : Error}
    (hl : (trimmed left).isEmpty = false) (hr : (trimmed right).isEmpty = false)
    (h : Equivalence.ofTexts a left right = .error e) : ¬e.IsGuard := by
  rcases bind_eq_error_iff.mp h with hc | ⟨p,hp,h⟩
  · exact not_isGuard_of_compileOver hl hc
  rcases bind_eq_error_iff.mp h with hc | ⟨q,hq,h⟩
  · exact not_isGuard_of_compileOver hr hc
  rcases bind_eq_error_iff.mp h with hd | ⟨c,-,h⟩
  · obtain ⟨s,hs,he | he⟩ := exists_error_of_firstDifference hd
    · exact not_isGuard_of_evaluate (covers_of_compileOver hp hs) he
    · exact not_isGuard_of_evaluate (covers_of_compileOver hq hs) he
  · cases h

end Logic

namespace Calculus

lemma readLexeme_ne_empty (position : ℕ) (w : List Char) : readLexeme position w ≠ .error .empty := by
  unfold readLexeme readWord
  split <;> try simp
  split_ifs
  · simp
  · simp
  · split <;> simp
  · split <;> simp

lemma scan_snd_ne_empty (before : ℕ) (s : List Char) : (scan before s).2 ≠ some .empty := by
  fun_induction scan before s with
  | case1 before s h => simp
  | case2 before s c rest h position lexeme e he =>
    rintro ⟨⟩
    exact readLexeme_ne_empty _ _ he
  | case3 before s c rest h position lexeme t ht hlt r ih => exact ih

/-- A text without tokens holds nothing but blanks. -/
lemma dropWhile_of_scan {before : ℕ} {s : List Char} (h : scan before s = ([],none)) :
    s.dropWhile Text.isBlank = [] := by
  cases hd : s.dropWhile Text.isBlank with
  | nil => rfl
  | cons c rest =>
    rw [scan_of_dropWhile hd] at h
    split at h <;> cases h

lemma tokens_ne_empty (text : String) : tokens text ≠ .error .empty := by
  intro h
  rcases bind_eq_error_iff.mp h with hs | ⟨r,hr,h⟩
  · rcases bind_eq_error_iff.mp hs with hs | ⟨u,-,hs⟩
    · unfold screen at hs
      split at hs <;> cases hs
    · cases hs
  · obtain ⟨u,-,hr⟩ := bind_eq_ok_iff.mp hr
    cases hr
    have hne := scan_snd_ne_empty 0 text.toList
    split at h <;> simp_all

lemma dropWhile_of_tokens {text : String} (h : tokens text = .ok []) :
    text.toList.dropWhile Text.isBlank = [] := by
  obtain ⟨r,hr,h⟩ := bind_eq_ok_iff.mp h
  obtain ⟨u,-,hr⟩ := bind_eq_ok_iff.mp hr
  cases hr
  split at h <;> cases h
  exact dropWhile_of_scan ‹_›

lemma reorder_ne_empty (w : List Pending) (operandNext : Bool) (last : Option Operator)
    (ts : List Placed) : reorder w operandNext last ts ≠ .error .empty := by
  fun_induction reorder w operandNext last ts <;> simp_all

lemma ofTokens_ne_empty {ts : List Placed} (h : ts ≠ []) : Program.ofTokens ts ≠ .error .empty := by
  intro he
  unfold Program.ofTokens at he
  rw [if_neg (by simpa using h)] at he
  rcases bind_eq_error_iff.mp he with hr | ⟨p,-,he⟩
  · exact reorder_ne_empty _ _ _ _ hr
  · split at he <;> cases he

/-- Only a blank text is an empty one. -/
lemma compile_ne_empty {text : String} (h : (trimmed text).isEmpty = false) :
    compile text ≠ .error .empty := by
  intro he
  unfold compile at he
  simp only [h,Bool.false_eq_true,↓reduceIte] at he
  rcases bind_eq_error_iff.mp he with ht | ⟨ts,ht,he⟩
  · exact tokens_ne_empty _ ht
  rcases bind_eq_error_iff.mp he with hp | ⟨p,-,he⟩
  · refine ofTokens_ne_empty ?_ hp
    rintro rfl
    have hd := dropWhile_of_tokens ht
    rw [trimmed,String.toList_ofList,Text.dropWhile_of_head (Text.head?_trim _)] at hd
    exact trim_ne_nil h hd
  · cases he

/-- The faults of guards: no empty text, no number that is not finite, no empty domain and no grid of
an impossible size is let through. -/
def Error.IsGuard : Error → Prop
  | .text .empty | .notFinite _ | .emptyDomain _ _ | .pointCount _ _ _ => True
  | _ => False

end Calculus

namespace Session
open Calculus (Compiled Parameters Settings)
open Files (Plan)

lemma requireFinite_eq_ok_iff {field : String} {v : Float} {u : Unit} :
    requireFinite field v = .ok u ↔ v.isFinite = true := by
  unfold requireFinite
  split_ifs <;> simp_all

lemma requirePoints_eq_ok_iff {least greatest given n : ℕ} :
    requirePoints least greatest given = .ok n ↔ least ≤ given ∧ given ≤ greatest ∧ n = given := by
  unfold requirePoints
  split_ifs with h
  · simp
    omega
  · simp
    omega

/-- Parameters are let through if their numbers are finite, their range is none that is empty and their
points are in the window of a request. -/
lemma requireParameters_eq_ok_iff {p : Parameters} {least greatest : ℕ} {u : Unit} :
    requireParameters least greatest p = .ok u ↔ p.xMin.isFinite = true ∧ p.xMax.isFinite = true ∧
      p.x0.isFinite = true ∧ p.a.isFinite = true ∧ p.b.isFinite = true ∧ ¬p.xMax ≤ p.xMin ∧
        least ≤ p.points ∧ p.points ≤ greatest := by
  simp only [requireParameters,bind,bind_eq_ok_iff,requireFinite_eq_ok_iff,exists_const]
  refine and_congr_right fun _ => and_congr_right fun _ => and_congr_right fun _ =>
    and_congr_right fun _ => and_congr_right fun _ => ?_
  by_cases hempty : p.xMax ≤ p.xMin
  · simp [hempty,throw,throwThe,MonadExceptOf.throw,Except.bind]
  · have hpoints : (∃ n, requirePoints least greatest p.points = .ok n) ↔
        least ≤ p.points ∧ p.points ≤ greatest := by
      simp [requirePoints_eq_ok_iff]
    rw [← hpoints]
    cases requirePoints least greatest p.points <;>
      simp [hempty,pure,Except.pure,Except.bind]

/-- Parameters that are let through pass every guard of an analysis, if the window of a request lies
within that of a grid. -/
lemma exists_analyze {f : Compiled} {p : Parameters} {settings : Settings} {least greatest : ℕ}
    {u : Unit} (hp : requireParameters least greatest p = .ok u)
    (hleast : Calculus.leastPoints ≤ least) (hmost : greatest ≤ settings.maxPoints) :
    ∃ a, f.analyze p settings = .ok a := by
  obtain ⟨hlo,hhi,hpoint,ha,hb,hempty,hl,hm⟩ := requireParameters_eq_ok_iff.mp hp
  have hsample : f.sample p.xMin p.xMax p.points settings = .ok _ :=
    Calculus.sample_eq_ok_iff.mpr ⟨hlo,hhi,hempty,hleast.trans hl,hm.trans hmost,rfl⟩
  exact ⟨_,Calculus.analyze_eq_ok_iff.mpr ⟨Calculus.requireFinite_eq_ok_iff.mpr hpoint,
    Calculus.requireFinite_eq_ok_iff.mpr ha,Calculus.requireFinite_eq_ok_iff.mpr hb,_,hsample,rfl⟩⟩

/-- A fault of a guard behind the checks of a request. -/
def Fault.IsGuard : Fault → Prop
  | .logic e => e.IsGuard
  | .calculus e => e.IsGuard
  | _ => False

/-- The window of a request lies within that of a grid. -/
def Config.FitsGrid (c : Config) : Prop :=
  2 ≤ c.leastPoints ∧ c.mostPoints ≤ c.settings.maxPoints

variable {config : Config} {e : Fault}

lemma requireText_nonblank {field raw text : String} (h : requireText field raw = .ok text) :
    (trimmed raw).isEmpty = false :=
  (requireText_eq_ok_iff.mp h).1

/-- What a check refuses is no fault of a guard, and what follows has the check behind it. -/
lemma not_isGuard_of_checked {α β : Type} {check : Except Rejection α} {next : α → Except Fault β}
    (h : check.mapError Fault.rejected >>= next = .error e)
    (hnext : ∀ a, check = .ok a → next a = .error e → ¬e.IsGuard) : ¬e.IsGuard := by
  rcases bind_eq_error_iff.mp h with hr | ⟨a,ha,h⟩
  · obtain ⟨r,-,rfl⟩ := mapError_eq_error_iff.mp hr
    exact id
  · exact hnext a (mapError_eq_ok_iff.mp ha) h

lemma not_isGuard_of_tableOf {expression : String} {size : ℕ}
    (h : tableOf expression size = .error e) : ¬e.IsGuard := by
  refine not_isGuard_of_checked h fun text ht h => ?_
  refine not_isGuard_of_checked h fun a _ h => ?_
  obtain ⟨_,he,rfl⟩ := mapError_eq_error_iff.mp h
  exact Logic.not_isGuard_of_table (requireText_nonblank ht) he

lemma not_isGuard_of_equivalenceOf {left right : String} {size : ℕ}
    (h : equivalenceOf left right size = .error e) : ¬e.IsGuard := by
  refine not_isGuard_of_checked h fun _ hleft h => ?_
  refine not_isGuard_of_checked h fun _ hright h => ?_
  refine not_isGuard_of_checked h fun a _ h => ?_
  obtain ⟨_,he,rfl⟩ := mapError_eq_error_iff.mp h
  exact Logic.not_isGuard_of_equivalence (requireText_nonblank hleft) (requireText_nonblank hright) he

lemma not_isGuard_of_operationOf {a b operation : String}
    (h : operationOf a b operation = .error e) : ¬e.IsGuard :=
  not_isGuard_of_checked h fun _ _ => nofun

lemma not_isGuard_of_complementsOf {whole a b : String}
    (h : complementsOf whole a b = .error e) : ¬e.IsGuard :=
  not_isGuard_of_checked h fun _ _ => nofun

lemma not_isGuard_of_ofText {text : String} {e : Calculus.Error}
    (ht : (trimmed text).isEmpty = false) (h : Compiled.ofText text = .error e) : ¬e.IsGuard := by
  unfold Compiled.ofText at h
  split at h <;> cases h
  rename_i e he
  cases e with
  | empty => exact absurd he (Calculus.compile_ne_empty ht)
  | _ => exact id

lemma not_isGuard_of_analysedOf (hfits : config.FitsGrid) {expression : String} {p : Parameters}
    (h : analysedOf config expression p = .error e) : ¬e.IsGuard := by
  refine not_isGuard_of_checked h fun text ht h => ?_
  refine not_isGuard_of_checked h fun _ hp h => ?_
  rcases bind_eq_error_iff.mp h with hr | ⟨f,-,h⟩
  · obtain ⟨_,he,rfl⟩ := mapError_eq_error_iff.mp hr
    obtain ⟨hne,rfl⟩ := requireText_eq_ok_iff.mp ht
    rw [← trimmed_trimmed] at hne
    exact not_isGuard_of_ofText hne he
  rcases bind_eq_error_iff.mp h with hr | ⟨a,-,h⟩
  · obtain ⟨_,he,-⟩ := mapError_eq_error_iff.mp hr
    obtain ⟨a,ha⟩ := exists_analyze hp hfits.1 hfits.2
    rw [ha] at he
    cases he
  · cases h

/-- No computation comes to a guard. -/
theorem not_isGuard_of_answerTo (hfits : config.FitsGrid) {c : History.Computation}
    (h : answerTo config c = .error e) : ¬e.IsGuard := by
  unfold answerTo at h
  cases c with
  | truthTable expression size => exact not_isGuard_of_tableOf (map_eq_error_iff.mp h)
  | equivalence left right size => exact not_isGuard_of_equivalenceOf (map_eq_error_iff.mp h)
  | setOperation a b operation => exact not_isGuard_of_operationOf (map_eq_error_iff.mp h)
  | complements whole a b => exact not_isGuard_of_complementsOf (map_eq_error_iff.mp h)
  | function expression p => exact not_isGuard_of_analysedOf hfits (map_eq_error_iff.mp h)

/-- A window of a request that leaves that of a grid leads to a guard: the check lets a number of
points through that no grid has. -/
lemma pointCount_of_window {n : ℕ} (hl : config.leastPoints ≤ n)
    (hm : n ≤ config.mostPoints) (hn : n < 2 ∨ config.settings.maxPoints < n) :
    answerTo config (.function "x" ⟨-1,1,n,0,0,0,false,false⟩) =
      .error (.calculus (.pointCount n 2 config.settings.maxPoints)) := by
  have htext : requireText "f(x)" "x" = .ok "x" :=
    requireText_eq_ok_iff.mpr ⟨by decide +kernel,by decide +kernel⟩
  have hzero : (0 : Float).isFinite = true := by decide +kernel
  have hone : (1 : Float).isFinite = true := by decide +kernel
  have hminus : (-1 : Float).isFinite = true := by decide +kernel
  have hdomain : ¬(1 : Float) ≤ -1 := by decide +kernel
  have hcount : n ≤ 1 ∨ config.settings.maxPoints < n := by omega
  have hparameters : requireParameters config.leastPoints config.mostPoints
      ⟨-1,1,n,0,0,0,false,false⟩ = .ok () :=
    requireParameters_eq_ok_iff.mpr ⟨hminus,hone,hzero,hzero,hzero,hdomain,hl,hm⟩
  have hf : (Compiled.ofText "x").isOk = true := by decide +kernel
  obtain ⟨f,hf⟩ := isOk_iff.mp hf
  have hfault : f.analyze ⟨-1,1,n,0,0,0,false,false⟩ config.settings =
      .error (.pointCount n 2 config.settings.maxPoints) := by
    simp [Compiled.analyze,Compiled.sample,Calculus.requireGrid,Calculus.requireFinite,
      Calculus.leastPoints,hcount,hzero,hone,hminus,hdomain,bind,Except.bind,throw,throwThe,
      MonadExceptOf.throw]
  simp [answerTo,analysedOf,htext,hparameters,hf,hfault,bind,Except.bind,Except.mapError,Except.map]

/-- Where a request may ask for any points at all, its window has to lie within that of a grid if no
computation shall come to a guard. -/
theorem fitsGrid_iff (hwindow : config.leastPoints ≤ config.mostPoints) :
    config.FitsGrid ↔ ∀ c e, answerTo config c = .error e → ¬e.IsGuard := by
  refine ⟨fun hfits c e => not_isGuard_of_answerTo hfits,fun h => ?_⟩
  have hin {n : ℕ} (hl : config.leastPoints ≤ n) (hm : n ≤ config.mostPoints) :
      ¬(n < 2 ∨ config.settings.maxPoints < n) := fun hn =>
    h _ _ (pointCount_of_window hl hm hn) trivial
  have hleast := hin (Nat.le_refl _) hwindow
  have hmost := hin hwindow (Nat.le_refl _)
  exact ⟨by omega,by omega⟩

lemma Fault.IsRefusal.not_isGuard (h : e.IsRefusal) : ¬e.IsGuard := by
  cases e with
  | rejected r => exact id
  | history f => exact id
  | _ => exact h.elim

namespace State
variable {path : String} {r r' r'' : Files.Reading} {s s' : State} {o : Occasion} {q : Request}
  {i : Invocation} {turn : Turn Json.Value}

/-- A request fails by a refusal or by its computation. -/
lemma Answered.error_cases (h : Answered path s o r q turn r') (he : turn.outcome = .error e) :
    e.IsRefusal ∨ ∃ c, answerTo s.config c = .error e := by
  cases h with
  | looked hq hrefusal => exact .inl (hrefusal e he)
  | computed q c hq view => exact .inr ⟨c,map_eq_error_iff.mp he⟩
  | rejected form r =>
    cases he
    exact .inl trivial
  | unanalysed tangent shaded hl =>
    cases he
    exact .inl trivial
  | switched tangent shaded l hl v => cases he
  | unfound id hn =>
    cases he
    exact .inl trivial
  | unsaved c e hc =>
    cases he
    exact .inr ⟨c,hc⟩
  | _ =>
    obtain ⟨_,-,rfl⟩ := mapError_eq_error_iff.mp he
    exact .inl trivial

/-- If the window of a request lies within that of a grid, no command is ever answered by a guard,
whatever was entered, saved or loaded before. -/
theorem not_isGuard_of_commands (hfits : s.config.FitsGrid)
    (hc : Commands path (fun _ _ => True) (s,r) (s',r'))
    (h : (s'.dispatch o i).Runs path r' turn r'') (he : turn.outcome = .error e) : ¬e.IsGuard := by
  rw [runs_dispatch_iff] at h
  cases hq : Request.ofCommand i.command i.args with
  | error refusal =>
    simp only [hq,Plan.runs_pure] at h
    obtain ⟨rfl,-⟩ := h
    cases he
    exact id
  | ok q =>
    simp only [hq] at h
    rcases (answered_of_serve h).error_cases he with hrefusal | ⟨c,hfault⟩
    · exact hrefusal.not_isGuard
    · rw [hc.config_eq] at hfault
      exact not_isGuard_of_answerTo hfits hfault

/-- A table over seven letters is refused, after the square, before there is an alphabet. -/
theorem not_isGuard_of_sevenLetters :
    ∃ turn e, Config.standard.FitsGrid ∧
      Commands "history.json" (fun _ _ => True) (start .standard .inMemory,.absent)
        (afterSquare,.absent) ∧
      (afterSquare.dispatch morning ⟨"save_to_history",.object [("type",.string "logic_tt"),
        ("expression",.string "xor(A,C)"),("variableCount",.natural 7)]⟩).Runs
        "history.json" .absent turn .absent ∧
      turn.outcome = .error e ∧ ¬e.IsGuard := by
  have hfits : Config.standard.FitsGrid := by constructor <;> decide
  have hc := commands_afterSquare "history.json" .absent
  have hconfig : afterSquare.config = .standard := hc.config_eq
  generalize afterSquare = s at hc hconfig ⊢
  have hrejected : answerTo s.config (.truthTable "xor(A,C)" 7) =
      .error (.rejected (.letterCount 7)) := by
    rw [hconfig]
    rfl
  have hsave := save_of_error morning "history.json" .absent hrejected
  have hrun : (s.dispatch morning ⟨"save_to_history",.object [("type",.string "logic_tt"),
      ("expression",.string "xor(A,C)"),("variableCount",.natural 7)]⟩).Runs
      "history.json" .absent _ .absent :=
    runs_dispatch_of_serve (q := .save (.truthTable "xor(A,C)" 7)) rfl
      (Plan.runs_bind.mpr ⟨_,_,hsave,Plan.runs_pure.mpr ⟨rfl,rfl⟩⟩)
  exact ⟨_,_,hfits,hc,hrun,rfl,not_isGuard_of_commands hfits hc hrun rfl⟩

end State
end Session
end Formulary
