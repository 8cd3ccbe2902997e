import Formulary.Proofs.Script.Operands
import Formulary.Proofs.Sets.Algebra

/-! Replaying set scripts. The operands are read from the script's literals, and the calls that follow
are carried out on them with the equality of numbers or of texts. As that equality agrees with the one
of the engine, the same elements are kept and dropped. -/
namespace Formulary.Script
open Sets

/-- The functions on rows that keep the order of first appearance. -/
inductive SetFunction
  | union
  | intersect
  | setdiff
  | setxor

namespace SetFunction

def all : List SetFunction := [union,intersect,setdiff,setxor]

def name : SetFunction → String
  | union => "union"
  | intersect => "intersect"
  | setdiff => "setdiff"
  | setxor => "setxor"

/-- The entries are told apart by the equality of their type, each stands at its first appearance. -/
def apply {α : Type} [BEq α] (f : SetFunction) (l r : List α) : List α :=
  match f with
  | union => (l ++ r).eraseDups
  | intersect => (l.filter r.contains).eraseDups
  | setdiff => (l.filter fun x => !r.contains x).eraseDups
  | setxor => (l.filter fun x => !r.contains x).eraseDups ++
      (r.filter fun x => !l.contains x).eraseDups

end SetFunction

namespace Operand

/-- Both operands have to be rows of the same kind. -/
def combine? (f : ∀ {α : Type} [BEq α], List α → List α → List α) :
    Operand → Operand → Option Operand
  | vector l,vector r => some (vector (f l r))
  | cells l,cells r => some (cells (f l r))
  | _,_ => none

/-- The canonical texts of what an operand holds. -/
def texts : Operand → List String
  | vector numbers => numbers.map numberText
  | cells texts => texts

def isVector : Operand → Bool
  | vector _ => true
  | cells _ => false

lemma combine?_append {x y : Operand} (h : x.isVector = y.isVector) :
    ∃ z, x.combine? (· ++ ·) y = some z ∧ z.texts = x.texts ++ y.texts := by
  cases x <;> cases y <;> simp_all [combine?,texts,isVector]

end Operand

/-! Reading a script -/

/-- A function called on two variables. -/
structure Call where
  function : SetFunction
  left : Char
  right : Char

abbrev Environment := List (Char × Operand)

def Call.value? (c : Call) (env : Environment) : Option Operand := do
  (← env.lookup c.left).combine? c.function.apply (← env.lookup c.right)

/-- What a variable is set to: a call, or the rows of two calls behind one another. -/
inductive Term
  | single (c : Call)
  | joined (c d : Call)

def Term.value? (env : Environment) : Term → Option Operand
  | single c => c.value? env
  | joined c d => do (← c.value? env).combine? (· ++ ·) (← d.value? env)

def readCall? (s : List Char) : Option (Call × List Char) :=
  SetFunction.all.findSome? fun f =>
    match s.dropPrefix? f.name.toList with
    | some ('(' :: x :: ',' :: ' ' :: y :: rest) =>
      (rest.dropPrefix? ", 'stable')".toList).map fun rest => (⟨f,x,y⟩,rest)
    | _ => none

def readTerm? : List Char → Option (Term × List Char)
  | '[' :: s => do
    let (c,s) ← readCall? s
    let (d,s) ← readCall? (← s.dropPrefix? ", ".toList)
    some (.joined c d,← s.dropPrefix? "]".toList)
  | s => (readCall? s).map fun r => (.single r.1,r.2)

/-- The terms that variables of these names are set to, each on a line; lines may be left empty. -/
def readTerms? : List String → List Char → Option (List Term)
  | [],_ => some []
  | name :: names,s => do
    let s ← (s.dropWhile (· == '\n')).dropPrefix? name.toList
    let (t,s) ← readTerm? (← s.dropPrefix? " = ".toList)
    some (t :: (← readTerms? names (← s.dropPrefix? ";\n".toList)))

/-- Operands of these names, each on a line. -/
def readOperands? : List Char → List Char → Option (Environment × List Char)
  | [],s => some ([],s)
  | name :: names,s => do
    let (x,s) ← readOperand? (← s.dropPrefix? [name,' ','=',' '])
    let (env,s) ← readOperands? names (← s.dropPrefix? [';','\n'])
    some ((name,x) :: env,s)

/-- Replays a script from below its heading: what the operands are, and what is computed of them. -/
def replay? (operands : List Char) (results : List String) (script : String) :
    Option (List Operand × List Operand) := do
  let (env,s) ← readOperands? operands ((script.toList.dropWhile (· != '\n')).drop 1)
  let terms ← readTerms? results s
  some (env.map Prod.snd,← terms.mapM (Term.value? env))

/-! The equality of a script -/

/-- Rows whose entries have the texts of sets, and whose equality is the one of the texts. -/
structure Decodes {α : Type} [BEq α] (key : α → String) (sets : List FiniteSet)
    (rows : List (List α)) : Prop where
  texts : rows.map (List.map key) = sets.map FiniteSet.texts
  same : ∀ x ∈ rows.flatten, ∀ y ∈ rows.flatten, (x == y) = true ↔ key x = key y
  distinct : ∀ row ∈ rows, row.Pairwise fun x y => (x == y) = false

/-- Some set has an element, and all elements of all sets are numbers. -/
def AreNumbers (sets : List FiniteSet) : Prop :=
  (∃ s ∈ sets, s.elements ≠ []) ∧ ∀ s ∈ sets, ∀ e ∈ s.elements, e.isNumeric = true

/-- Operands that are sets in one representation for all of them. -/
inductive Represents (sets : List FiniteSet) : List Operand → Prop
  | vectors {rows} (h : AreNumbers sets) (decodes : Decodes numberText sets rows) :
      Represents sets (rows.map .vector)
  | cells {rows} (h : ¬AreNumbers sets) (decodes : Decodes id sets rows) :
      Represents sets (rows.map .cells)

lemma isNumericMode_iff (sets : List FiniteSet) : isNumericMode sets = true ↔ AreNumbers sets := by
  simp [isNumericMode,AreNumbers,FiniteSet.isEmpty,FiniteSet.isAllNumeric]

/-- An element that stands for a token: its number is read from the token and written like it. -/
lemma isWritten_of_ofToken {token : String} {v : Float} (h : Element.ofToken token = .numeric v) :
    IsWritten v := by
  unfold Element.ofToken at h
  split at h
  · rename_i w hread
    split at h
    · rename_i hw
      rw [Bool.and_eq_true,beq_iff_eq] at hw
      cases h
      refine ⟨hw.1,?_⟩
      rw [hw.2]
      exact hread
    · cases h
  · cases h

lemma isWritten_of_mem_ofText {raw : String} {v : Float}
    (h : v ∈ numbersOf (FiniteSet.ofText raw)) : IsWritten v := by
  obtain ⟨e,he,hv⟩ := List.mem_filterMap.mp h
  obtain he | he := FiniteSet.mem_foldl_insert he
  · cases he
  obtain ⟨piece,-,hpiece⟩ := List.mem_filterMap.mp he
  split_ifs at hpiece
  cases hpiece
  cases htoken : Element.ofToken (String.ofList piece) with
  | numeric w =>
    rw [htoken] at hv
    cases hv
    exact isWritten_of_ofToken htoken
  | symbolic t =>
    rw [htoken] at hv
    cases hv

/-- Numbers are equal exactly if they are written alike; of the two zeros, only one is written. -/
lemma beq_iff_numberText {v w : Float} (hv : IsWritten v) (hw : IsWritten w) :
    (v == w) = true ↔ numberText v = numberText w := by
  constructor
  · intro h
    obtain ⟨-,-,rfl | ⟨rfl,rfl⟩ | ⟨rfl,rfl⟩⟩ := Float.beq_iff_ne_nan_and_eq.mp h
    · rfl
    · decide +kernel
    · decide +kernel
  · intro h
    have hread := hv.2
    rw [h,hw.2,Option.some_inj] at hread
    subst hread
    refine Float.beq_self_iff.mpr ?_
    rintro rfl
    exact absurd hv.1 (by decide +kernel)

/-! Rows and their texts -/

section Rows
variable {α : Type} [BEq α] {key : α → String} {l r : List α}

/-- The entries of these rows are equal exactly if their texts are. -/
def IsKey (key : α → String) (l : List α) : Prop :=
  ∀ x ∈ l, ∀ y ∈ l, (x == y) = (key x == key y)

lemma IsKey.subset (h : IsKey key l) (hs : r ⊆ l) : IsKey key r :=
  fun x hx y hy => h x (hs hx) y (hs hy)

lemma map_eraseDups (h : IsKey key l) : l.eraseDups.map key = (l.map key).eraseDups := by
  induction hn : l.length using Nat.strongRecOn generalizing l with
  | ind n ih =>
    cases l with
    | nil => rfl
    | cons x l =>
      have hlt : (l.filter fun y => !y == x).length < n := by
        rw [← hn,List.length_cons]
        exact Nat.lt_succ_of_le (List.length_filter_le _ _)
      have hfilter : (l.filter fun y => !y == x).map key =
          (l.map key).filter fun t => !t == key x := by
        rw [List.filter_map]
        refine congrArg (List.map key) (List.filter_congr fun y hy => ?_)
        rw [h y (List.mem_cons_of_mem _ hy) x List.mem_cons_self]
        rfl
      have hrest := ih _ hlt (h.subset fun y hy => List.mem_cons_of_mem _ (List.mem_filter.mp hy).1) rfl
      rw [List.eraseDups_cons,List.map_cons,List.map_cons,List.eraseDups_cons,hrest,hfilter]

lemma contains_map (h : IsKey key (l ++ r)) {x : α} (hx : x ∈ l) :
    (r.map key).contains (key x) = r.contains x := by
  rw [List.contains_map,List.contains_eq_any_beq,Bool.eq_iff_iff,List.any_eq_true,List.any_eq_true]
  refine exists_congr fun y => and_congr_right fun hy => ?_
  rw [h x (List.mem_append_left _ hx) y (List.mem_append_right _ hy)]

lemma map_filter_contains (h : IsKey key (l ++ r)) (keep : Bool → Bool) :
    (l.filter fun x => keep (r.contains x)).map key =
      (l.map key).filter fun t => keep ((r.map key).contains t) := by
  rw [List.filter_map]
  refine congrArg (List.map key) (List.filter_congr fun x hx => ?_)
  rw [Function.comp_apply,contains_map h hx]

/-- What is drawn from a row by what another one holds, each entry at its first appearance. -/
lemma map_eraseDups_filter (h : IsKey key (l ++ r)) (keep : Bool → Bool) :
    (l.filter fun x => keep (r.contains x)).eraseDups.map key =
      ((l.map key).filter fun t => keep ((r.map key).contains t)).eraseDups := by
  have hdrawn : IsKey key (l.filter fun x => keep (r.contains x)) :=
    h.subset fun x hx => List.mem_append_left _ (List.mem_filter.mp hx).1
  rw [map_eraseDups hdrawn,map_filter_contains h]

/-- A function keeps and drops the same entries of the rows as of their texts. -/
lemma map_apply (f : SetFunction) (h : IsKey key (l ++ r)) :
    (f.apply l r).map key = f.apply (l.map key) (r.map key) := by
  have hswap : IsKey key (r ++ l) := h.subset (List.perm_append_comm.subset)
  cases f with
  | union =>
    rw [SetFunction.apply,SetFunction.apply,map_eraseDups h,List.map_append]
  | intersect => exact map_eraseDups_filter h id
  | setdiff => exact map_eraseDups_filter h not
  | setxor =>
    rw [SetFunction.apply,SetFunction.apply,List.map_append]
    exact congrArg₂ (· ++ ·) (map_eraseDups_filter h not) (map_eraseDups_filter hswap not)

end Rows

lemma eraseDups_eq_self {l : List String} (h : l.Nodup) : l.eraseDups = l := by
  induction l with
  | nil => rfl
  | cons t l ih =>
    rw [List.nodup_cons] at h
    have hfilter : (l.filter fun u => !u == t) = l := by
      rw [List.filter_eq_self]
      rintro u hu
      simp only [Bool.not_eq_true',beq_eq_false_iff_ne]
      rintro rfl
      exact h.1 hu
    rw [List.eraseDups_cons,hfilter,ih h.2]

/-! The functions of a script and the operations -/

section Operations
variable (a b : FiniteSet)

lemma eraseDups_filter (p : String → Bool) : (a.texts.filter p).eraseDups = a.texts.filter p :=
  eraseDups_eq_self (a.distinct.filter p)

lemma filter_not_contains :
    (a.texts.filter fun t => !b.texts.contains t) = (a.diff b).texts := by
  rw [FiniteSet.texts_diff]
  exact List.filter_congr fun t _ => by simp

lemma apply_union : SetFunction.union.apply a.texts b.texts = (Operation.union.apply a b).texts := by
  have htexts : (Operation.union.apply a b).texts = a.texts ++ (b.diff a).texts := by
    rw [FiniteSet.texts,Operation.elements_union,← FiniteSet.elements_diff,List.map_append]
    rfl
  rw [htexts,← filter_not_contains,SetFunction.apply,List.eraseDups_append,
    show a.texts.eraseDups = a.texts from eraseDups_eq_self a.distinct,List.removeAll]
  exact congrArg (a.texts ++ ·) (eraseDups_filter b _)

lemma apply_intersect :
    SetFunction.intersect.apply a.texts b.texts = (Operation.intersection.apply a b).texts := by
  change _ = (a.inter b).texts
  rw [SetFunction.apply,eraseDups_filter,FiniteSet.texts_inter]
  exact List.filter_congr fun t _ => by simp

lemma apply_setdiff : SetFunction.setdiff.apply a.texts b.texts = (a.diff b).texts := by
  rw [SetFunction.apply,eraseDups_filter,filter_not_contains]

lemma apply_setxor : SetFunction.setxor.apply a.texts b.texts =
    (Operation.symmetricDifference.apply a b).texts := by
  have htexts : (Operation.symmetricDifference.apply a b).texts =
      (a.diff b).texts ++ (b.diff a).texts := by
    rw [FiniteSet.texts,Operation.elements_symmetricDifference,List.map_append]
    rfl
  rw [htexts,SetFunction.apply,eraseDups_filter,eraseDups_filter,filter_not_contains,
    filter_not_contains]

end Operations

/-! Operands of one script -/

/-- A set as an operand. -/
def operandOf (numeric : Bool) (s : FiniteSet) : Operand :=
  if numeric then .vector (numbersOf s) else .cells s.texts

/-- All numbers of a set are read back from their literals. -/
def IsLegible (s : FiniteSet) : Prop := ∀ v ∈ numbersOf s, IsWritten v

lemma isLegible_ofText (raw : String) : IsLegible (FiniteSet.ofText raw) :=
  fun _ => isWritten_of_mem_ofText

lemma isAllNumeric_of_mode {sets : List FiniteSet} {s : FiniteSet}
    (hmode : isNumericMode sets = true) (hs : s ∈ sets) : s.isAllNumeric = true :=
  List.all_eq_true.mp (Bool.and_eq_true_iff.mp hmode).2 s hs

lemma isKey_numberText {l : List Float} (h : ∀ v ∈ l, IsWritten v) : IsKey numberText l := by
  intro v hv w hw
  rw [Bool.eq_iff_iff,beq_iff_numberText (h v hv) (h w hw),beq_iff_eq]

/-- Entries of distinct texts are told apart. -/
lemma pairwise_of_isKey {α : Type} [BEq α] {key : α → String} {l : List α} (h : IsKey key l)
    (hd : (l.map key).Nodup) : l.Pairwise fun x y => (x == y) = false := by
  rw [List.Nodup,List.pairwise_map] at hd
  refine hd.imp_of_mem fun hx hy hne => ?_
  rw [h _ hx _ hy]
  exact beq_eq_false_iff_ne.mpr hne

/-- The operands are the sets in one representation, told apart as the engine does. -/
lemma represents_operandOf {sets : List FiniteSet} (h : ∀ s ∈ sets, IsLegible s) :
    Represents sets (sets.map (operandOf (isNumericMode sets))) := by
  cases hmode : isNumericMode sets with
  | true =>
    have hkey : IsKey numberText (sets.map numbersOf).flatten := by
      refine isKey_numberText fun v hv => ?_
      rw [← List.flatMap_def,List.mem_flatMap] at hv
      obtain ⟨s,hs,hv⟩ := hv
      exact h s hs v hv
    have htexts (s : FiniteSet) (hs : s ∈ sets) : (numbersOf s).map numberText = s.texts :=
      map_numbersOf (isAllNumeric_of_mode hmode hs)
    have hrows : sets.map (operandOf true) = (sets.map numbersOf).map .vector := by
      rw [List.map_map]
      rfl
    rw [hrows]
    refine .vectors ((isNumericMode_iff sets).mp hmode) ⟨?_,fun x hx y hy => ?_,fun row hrow => ?_⟩
    · rw [List.map_map]
      exact List.map_congr_left htexts
    · rw [hkey x hx y hy,beq_iff_eq]
    · obtain ⟨s,hs,rfl⟩ := List.mem_map.mp hrow
      refine pairwise_of_isKey (isKey_numberText (h s hs)) ?_
      rw [htexts s hs]
      exact s.distinct
  | false =>
    have hrows : sets.map (operandOf false) = (sets.map FiniteSet.texts).map .cells := by
      rw [List.map_map]
      rfl
    have hnone : ¬AreNumbers sets := by
      rw [← isNumericMode_iff,hmode]
      exact Bool.false_ne_true
    have hkey (l : List String) : IsKey id l := fun x _ y _ => rfl
    rw [hrows]
    refine .cells hnone ⟨by simp,fun x _ y _ => beq_iff_eq,fun row hrow => ?_⟩
    obtain ⟨s,-,rfl⟩ := List.mem_map.mp hrow
    refine pairwise_of_isKey (hkey _) ?_
    rw [List.map_id]
    exact s.distinct

/-- Two operands of a script combined, and the texts of what comes of it. -/
lemma combine?_operandOf {sets : List FiniteSet} (h : ∀ s ∈ sets, IsLegible s) (f : SetFunction)
    {s t : FiniteSet} (hs : s ∈ sets) (ht : t ∈ sets) :
    ∃ x, (operandOf (isNumericMode sets) s).combine? f.apply (operandOf (isNumericMode sets) t) =
        some x ∧
      x.texts = f.apply s.texts t.texts ∧ x.isVector = isNumericMode sets := by
  cases hmode : isNumericMode sets with
  | true =>
    have hkey : IsKey numberText (numbersOf s ++ numbersOf t) :=
      isKey_numberText fun v hv => (List.mem_append.mp hv).elim (h s hs v) (h t ht v)
    refine ⟨.vector (f.apply (numbersOf s) (numbersOf t)),rfl,?_,rfl⟩
    rw [← map_numbersOf (isAllNumeric_of_mode hmode hs),
      ← map_numbersOf (isAllNumeric_of_mode hmode ht)]
    exact map_apply f hkey
  | false => exact ⟨.cells (f.apply s.texts t.texts),rfl,rfl,rfl⟩

/-! Reading the two scripts -/

lemma readOperands?_line {name : Char} {names : List Char} {front : String} {ls : List String}
    {numeric : Bool} {s : FiniteSet} (hf : front.toList = [name,' ','=',' ']) (hs : IsLegible s)
    (hn : numeric = true → s.isAllNumeric = true) :
    readOperands? (name :: names) (chars ((front ++ operandLiteral numeric s ++ ";") :: ls)) =
      (readOperands? names (chars ls)).map fun r => ((name,operandOf numeric s) :: r.1,r.2) := by
  have hline : chars ((front ++ operandLiteral numeric s ++ ";") :: ls) =
      [name,' ','=',' '] ++ ((operandLiteral numeric s).toList ++ ([';','\n'] ++ chars ls)) := by
    simp [chars_cons,hf]
  rw [hline,readOperands?,List.dropPrefix?_append_of_beq _ (beq_self_eq_true _)]
  simp only [Option.bind_eq_bind,Option.bind_some,readOperand?_operandLiteral numeric hs hn,
    List.dropPrefix?_append_of_beq _ (beq_self_eq_true [';','\n'])]
  cases readOperands? names (chars ls) <;> rfl

lemma dropHeading {heading : String} {ls : List String} (h : IsPlain heading) :
    ((chars (heading :: ls)).dropWhile (· != '\n')).drop 1 = chars ls := by
  have hplain : ∀ c ∈ heading.toList, (c != '\n') = true := by
    intro c hc
    rw [bne_iff_ne]
    rintro rfl
    exact h hc
  have hstop : ∀ c ∈ ('\n' :: chars ls).head?, (c != '\n') = false := by simp
  rw [chars_cons,dropWhile_append_of_head hplain hstop]
  rfl

/-- A call as it is written. -/
def Call.text (c : Call) : List Char :=
  c.function.name.toList ++ (['(',c.left,',',' ',c.right] ++ ", 'stable')".toList)

lemma readCall?_text (c : Call) (rest : List Char) : readCall? (c.text ++ rest) = some (c,rest) := by
  obtain ⟨f,x,y⟩ := c
  cases f <;> simp [readCall?,Call.text,SetFunction.all,SetFunction.name,List.dropPrefix?]

/-- A term as it is written. -/
def Term.text : Term → List Char
  | single c => c.text
  | joined c d => '[' :: (c.text ++ (", ".toList ++ (d.text ++ "]".toList)))

lemma readTerm?_text (t : Term) (rest : List Char) : readTerm? (t.text ++ rest) = some (t,rest) := by
  cases t with
  | single c =>
    have h := readCall?_text c rest
    obtain ⟨f,x,y⟩ := c
    cases f <;> simpa [Term.text,readTerm?,Call.text,SetFunction.name] using h
  | joined c d =>
    simp only [Term.text,List.cons_append,List.append_assoc,readTerm?,readCall?_text,
      Option.bind_eq_bind,Option.bind_some,List.dropPrefix?_append_of_beq _ (beq_self_eq_true _)]

/-- The line that sets a variable to a term. -/
lemma readTerms?_line {name : String} (names : List String) {t : Term} {l : String}
    {ls : List String} (hn : name.toList.head?.any (· != '\n') = true)
    (hl : l.toList = name.toList ++ (" = ".toList ++ (t.text ++ [';']))) :
    readTerms? (name :: names) (chars (l :: ls)) =
      (readTerms? names (chars ls)).map (t :: ·) := by
  have hchars : chars (l :: ls) =
      name.toList ++ (" = ".toList ++ (t.text ++ (";\n".toList ++ chars ls))) := by
    rw [chars_cons,hl]
    simp
  have hhead : ∀ c ∈ (chars (l :: ls)).head?, (c == '\n') = false := by
    rw [hchars]
    cases hname : name.toList with
    | nil => simp [hname] at hn
    | cons c rest => simpa [hname] using hn
  rw [readTerms?,Text.dropWhile_of_head hhead,hchars]
  simp only [readTerm?_text,Option.bind_eq_bind,Option.bind_some,
    List.dropPrefix?_append_of_beq _ (beq_self_eq_true _)]
  cases readTerms? names (chars ls) <;> rfl

/-- The call that stands for an operation. -/
def callOf : Operation → Call
  | .union => ⟨.union,'A','B'⟩
  | .intersection => ⟨.intersect,'A','B'⟩
  | .differenceAB => ⟨.setdiff,'A','B'⟩
  | .differenceBA => ⟨.setdiff,'B','A'⟩
  | .symmetricDifference => ⟨.setxor,'A','B'⟩

lemma readTerms?_operationLine (o : Operation) (ls : List String) :
    readTerms? ["R"] (chars (operationLine o :: ls)) = some [.single (callOf o)] := by
  rw [readTerms?_line (t := .single (callOf o)) []]
  · rfl
  · decide
  · cases o <;> decide

lemma readTerms?_complementLines (ls : List String) :
    readTerms? ["Ac","Bc","outside"] (chars ("Ac = setdiff(U, A, 'stable');" ::
      "Bc = setdiff(U, B, 'stable');" :: "" ::
      "outside = [setdiff(A, U, 'stable'), setdiff(B, U, 'stable')];" :: ls)) =
    some [.single ⟨.setdiff,'U','A'⟩,.single ⟨.setdiff,'U','B'⟩,
      .joined ⟨.setdiff,'A','U'⟩ ⟨.setdiff,'B','U'⟩] := by
  have hblank (l : String) (ls : List String) :
      readTerms? ["outside"] (chars ("" :: l :: ls)) = readTerms? ["outside"] (chars (l :: ls)) := by
    rw [chars_cons "",readTerms?,readTerms?]
    rfl
  rw [readTerms?_line (t := .single ⟨.setdiff,'U','A'⟩) _ (by decide) (by decide),
    readTerms?_line (t := .single ⟨.setdiff,'U','B'⟩) _ (by decide) (by decide),hblank,
    readTerms?_line (t := .joined ⟨.setdiff,'A','U'⟩ ⟨.setdiff,'B','U'⟩) _ (by decide) (by decide)]
  rfl

/-- The call of an operation computes what the operation gives. -/
lemma value?_callOf {s t : FiniteSet} (h : ∀ u ∈ [s,t], IsLegible u) (o : Operation) :
    ∃ x, (callOf o).value? [('A',operandOf (isNumericMode [s,t]) s),
        ('B',operandOf (isNumericMode [s,t]) t)] = some x ∧
      x.texts = (o.apply s t).texts := by
  have hs : s ∈ [s,t] := by simp
  have ht : t ∈ [s,t] := by simp
  cases o with
  | union =>
    obtain ⟨x,hx,htexts,-⟩ := combine?_operandOf h .union hs ht
    exact ⟨x,hx,htexts.trans (apply_union s t)⟩
  | intersection =>
    obtain ⟨x,hx,htexts,-⟩ := combine?_operandOf h .intersect hs ht
    exact ⟨x,hx,htexts.trans (apply_intersect s t)⟩
  | differenceAB =>
    obtain ⟨x,hx,htexts,-⟩ := combine?_operandOf h .setdiff hs ht
    exact ⟨x,hx,htexts.trans (apply_setdiff s t)⟩
  | differenceBA =>
    obtain ⟨x,hx,htexts,-⟩ := combine?_operandOf h .setdiff ht hs
    exact ⟨x,hx,htexts.trans (apply_setdiff t s)⟩
  | symmetricDifference =>
    obtain ⟨x,hx,htexts,-⟩ := combine?_operandOf h .setxor hs ht
    exact ⟨x,hx,htexts.trans (apply_setxor s t)⟩

lemma replay_operation {s t : FiniteSet} (h : ∀ u ∈ [s,t], IsLegible u) (o : Operation) :
    ∃ operands result,
      replay? ['A','B'] ["R"] (ofOperation ⟨s,t,o,.of s t,o.apply s t⟩).text =
        some (operands,[result]) ∧
      Represents [s,t] operands ∧ result.texts = (o.apply s t).texts := by
  obtain ⟨result,hvalue,htexts⟩ := value?_callOf h o
  have hmode (u : FiniteSet) (hu : u ∈ [s,t]) (hn : isNumericMode [s,t] = true) :
      u.isAllNumeric = true := isAllNumeric_of_mode hn hu
  refine ⟨_,result,?_,represents_operandOf h,htexts⟩
  rw [replay?,Document.toList_text (by simp [ofOperation])]
  simp only [ofOperation]
  rw [dropHeading (isPlain_ofList (by decide)),
    readOperands?_line (by decide) (h s (by simp)) (hmode s (by simp)),
    readOperands?_line (by decide) (h t (by simp)) (hmode t (by simp)),readOperands?]
  simp only [Option.map_some,Option.bind_eq_bind,Option.bind_some,readTerms?_operationLine,
    List.mapM_cons,List.mapM_nil,Term.value?,hvalue]
  rfl

lemma replay_complements {c : Complements} (h : ∀ u ∈ [c.whole,c.a,c.b], IsLegible u) :
    ∃ operands ac bc outside,
      replay? ['U','A','B'] ["Ac","Bc","outside"] (ofComplements c).text =
        some (operands,[ac,bc,outside]) ∧
      Represents [c.whole,c.a,c.b] operands ∧ ac.texts = c.aComplement.texts ∧
      bc.texts = c.bComplement.texts ∧ outside.texts = c.outsideTexts := by
  have hmode (u : FiniteSet) (hu : u ∈ [c.whole,c.a,c.b])
      (hn : isNumericMode [c.whole,c.a,c.b] = true) : u.isAllNumeric = true :=
    isAllNumeric_of_mode hn hu
  have hw : c.whole ∈ [c.whole,c.a,c.b] := by simp
  have ha : c.a ∈ [c.whole,c.a,c.b] := by simp
  have hb : c.b ∈ [c.whole,c.a,c.b] := by simp
  obtain ⟨ac,hac,hact,-⟩ := combine?_operandOf h .setdiff hw ha
  obtain ⟨bc,hbc,hbct,-⟩ := combine?_operandOf h .setdiff hw hb
  obtain ⟨x,hx,hxt,hxv⟩ := combine?_operandOf h .setdiff ha hw
  obtain ⟨y,hy,hyt,hyv⟩ := combine?_operandOf h .setdiff hb hw
  obtain ⟨outside,hout,houtt⟩ := Operand.combine?_append (hxv.trans hyv.symm)
  refine ⟨_,ac,bc,outside,?_,represents_operandOf h,hact.trans (apply_setdiff _ _),
    hbct.trans (apply_setdiff _ _),?_⟩
  · rw [replay?,Document.toList_text (by simp [ofComplements])]
    simp only [ofComplements]
    rw [dropHeading (isPlain_ofList (by decide)),
      readOperands?_line (by decide) (h _ hw) (hmode _ hw),
      readOperands?_line (by decide) (h _ ha) (hmode _ ha),
      readOperands?_line (by decide) (h _ hb) (hmode _ hb),readOperands?]
    let numeric := isNumericMode [c.whole,c.a,c.b]
    let env : Environment := [('U',operandOf numeric c.whole),('A',operandOf numeric c.a),
      ('B',operandOf numeric c.b)]
    have hvalues : [.single ⟨.setdiff,'U','A'⟩,.single ⟨.setdiff,'U','B'⟩,
        .joined ⟨.setdiff,'A','U'⟩ ⟨.setdiff,'B','U'⟩].mapM (Term.value? env) =
        some [ac,bc,outside] := by
      have hac' : Call.value? ⟨.setdiff,'U','A'⟩ env = some ac := hac
      have hbc' : Call.value? ⟨.setdiff,'U','B'⟩ env = some bc := hbc
      have hx' : Call.value? ⟨.setdiff,'A','U'⟩ env = some x := hx
      have hy' : Call.value? ⟨.setdiff,'B','U'⟩ env = some y := hy
      simp only [List.mapM_cons,List.mapM_nil,Term.value?,hac',hbc',hx',hy',Option.bind_eq_bind,
        Option.bind_some,hout]
      rfl
    simp only [Option.map_some,Option.bind_eq_bind,Option.bind_some,readTerms?_complementLines]
    exact congrArg (Option.bind · fun values => some ([_,_,_],values)) hvalues
  · rw [houtt,hxt,hyt,apply_setdiff,apply_setdiff]
    rfl

/-- For all texts of two sets and a universe, the scripts are replayed: their operands are the sets in
one representation, numbers exactly if each element is one and there is some, told apart as the engine
tells elements apart; and what is computed of them has the texts of the engine's results. -/
theorem replay_agrees (whole a b : String) (o : Operation) :
    (∃ operands result,
      replay? ['A','B'] ["R"] (ofOperation (.ofTexts a b o)).text = some (operands,[result]) ∧
      Represents [FiniteSet.ofText a,FiniteSet.ofText b] operands ∧
      result.texts = (OperationResult.ofTexts a b o).result.texts) ∧
    ∃ operands ac bc outside,
      replay? ['U','A','B'] ["Ac","Bc","outside"] (ofComplements (.ofTexts whole a b)).text =
        some (operands,[ac,bc,outside]) ∧
      Represents [FiniteSet.ofText whole,FiniteSet.ofText a,FiniteSet.ofText b] operands ∧
      ac.texts = (Complements.ofTexts whole a b).aComplement.texts ∧
      bc.texts = (Complements.ofTexts whole a b).bComplement.texts ∧
      outside.texts = (Complements.ofTexts whole a b).outsideTexts := by
  have ha := isLegible_ofText a
  have hb := isLegible_ofText b
  have hw := isLegible_ofText whole
  exact ⟨replay_operation (by simp [ha,hb]) o,replay_complements (by simp [hw,ha,hb,Complements.ofTexts])⟩

end Formulary.Script
