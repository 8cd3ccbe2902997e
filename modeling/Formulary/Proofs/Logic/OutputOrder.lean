import Formulary.Proofs.Logic.Malformed
import Formulary.Proofs.Logic.Parentheses

/-! The order in which tokens go out. Every token keeps the place where it stood, so that equal tokens
are told apart: none is lost, none goes out twice, operands go out as they come, and before an operand
goes out only what stood before it. No order of the tokens is presupposed. -/
namespace Formulary.Logic

/-- The instructions of tokens, each with the place of its token, counted from `start`. -/
def placedFrom (start : ℕ) (ts : List Token) : List (Instruction × ℕ) :=
  (ts.zipIdx start).filterMap fun t => t.1.instruction?.map (·,t.2)

/-- The instructions of waiting entries, each with the place where its entry stood. -/
def released (w : List (Pending × ℕ)) : List (Instruction × ℕ) :=
  w.filterMap fun q => q.1.instruction?.map (·,q.2)

/-- What goes out of waiting entries and the tokens from a place on. -/
structure Emitted (w : List (Pending × ℕ)) (start : ℕ) (ts : List Token)
    (out : List (Instruction × ℕ)) : Prop where
  perm : out.Perm (released w ++ placedFrom start ts)
  ordered : out.Pairwise fun a b => b.1.isOperand = true → a.2 < b.2

variable {w held : List (Pending × ℕ)} {start : ℕ} {t : Token} {ts : List Token} {i : Instruction}
  {out : List (Instruction × ℕ)} {a : Instruction × ℕ}

lemma placedFrom_cons_some (h : t.instruction? = some i) :
    placedFrom start (t :: ts) = (i,start) :: placedFrom (start + 1) ts := by
  rw [placedFrom,List.zipIdx_cons,List.filterMap_cons_some (b := (i,start)) (by simp [h])]
  rfl

lemma placedFrom_cons_none (h : t.instruction? = none) :
    placedFrom start (t :: ts) = placedFrom (start + 1) ts := by
  rw [placedFrom,List.zipIdx_cons,List.filterMap_cons_none (by simp [h])]
  rfl

lemma le_of_mem_placedFrom (h : a ∈ placedFrom start ts) : start ≤ a.2 := by
  obtain ⟨⟨t,n⟩,ht,ha⟩ := List.mem_filterMap.mp h
  obtain ⟨i,-,rfl⟩ := Option.map_eq_some_iff.mp ha
  exact (List.mem_zipIdx ht).1

lemma pairwise_placedFrom (start : ℕ) (ts : List Token) :
    (placedFrom start ts).Pairwise fun a b => a.2 < b.2 := by
  induction ts generalizing start with
  | nil => exact .nil
  | cons t ts ih =>
    cases ht : t.instruction? with
    | none => rw [placedFrom_cons_none ht]; exact ih (start + 1)
    | some i =>
      rw [placedFrom_cons_some ht]
      exact List.pairwise_cons.mpr ⟨fun _ hb => le_of_mem_placedFrom hb,ih (start + 1)⟩

/-- No operand waits. -/
lemma of_mem_released (h : a ∈ released w) : a.1.isOperand = false ∧ ∃ q ∈ w, q.2 = a.2 := by
  obtain ⟨⟨p,n⟩,hq,ha⟩ := List.mem_filterMap.mp h
  obtain ⟨i,hi,rfl⟩ := Option.map_eq_some_iff.mp ha
  refine ⟨?_,_,hq,rfl⟩
  cases p with
  | opening => cases hi
  | operator o => cases hi; rfl

lemma map_released (w : List (Pending × ℕ)) :
    (released w).map Prod.fst = (w.map Prod.fst).filterMap Pending.instruction? := by
  rw [released,List.map_filterMap,List.filterMap_map]
  refine List.filterMap_congr fun q _ => ?_
  simp [Option.map_map,Function.comp_def]

/-- The operands that go out are still to be read. -/
lemma Emitted.le_of_mem (h : Emitted w start ts out) (ha : a ∈ out) (ho : a.1.isOperand = true) :
    start ≤ a.2 := by
  rcases List.mem_append.mp (h.perm.mem_iff.mp ha) with hw | ht
  · rw [(of_mem_released hw).1] at ho
    cases ho
  · exact le_of_mem_placedFrom ht

lemma emitted_nil (w : List (Pending × ℕ)) (start : ℕ) : Emitted w start [] (released w) where
  perm := by simp [placedFrom]
  ordered := by
    refine List.pairwise_of_forall_mem_list fun a _ b hb ho => ?_
    rw [(of_mem_released hb).1] at ho
    cases ho

/-- An operand goes out at once. -/
lemma Emitted.operand (h : Emitted w (start + 1) ts out) (ht : t.instruction? = some i) :
    Emitted w start (t :: ts) ((i,start) :: out) where
  perm := by
    rw [placedFrom_cons_some ht]
    exact (h.perm.cons _).trans List.perm_middle.symm
  ordered := List.pairwise_cons.mpr ⟨fun _ hb => h.le_of_mem hb,h.ordered⟩

/-- An operator waits first. -/
lemma Emitted.operator {o : Operator} (h : Emitted ((.operator o,start) :: w) (start + 1) ts out) :
    Emitted w start (.operator o :: ts) out where
  perm := by
    rw [placedFrom_cons_some rfl]
    exact h.perm.trans List.perm_middle.symm
  ordered := h.ordered

/-- A parenthesis does not go out when it is read. -/
lemma Emitted.parenthesis (h : Emitted w (start + 1) ts out) (ht : t.instruction? = none) :
    Emitted w start (t :: ts) out where
  perm := by
    rw [placedFrom_cons_none ht]
    exact h.perm
  ordered := h.ordered

/-- A parenthesis that waits does not go out either. -/
lemma emitted_opening (n : ℕ) :
    Emitted ((.opening,n) :: w) start ts out ↔ Emitted w start ts out :=
  ⟨fun h => ⟨h.perm,h.ordered⟩,fun h => ⟨h.perm,h.ordered⟩⟩

/-- What is released stood before all operands that are still to be read. -/
lemma Emitted.append_released (h : Emitted w start ts out) (hh : ∀ q ∈ held, q.2 < start) :
    Emitted (held ++ w) start ts (released held ++ out) where
  perm := by
    rw [released,released,List.filterMap_append,List.append_assoc]
    exact h.perm.append_left _
  ordered := by
    refine List.pairwise_append.mpr ⟨(emitted_nil held start).ordered,h.ordered,?_⟩
    intro a ha b hb ho
    obtain ⟨-,q,hq,hqa⟩ := of_mem_released ha
    have hlt := hh q hq
    have hle := h.le_of_mem hb ho
    omega

/-- From any waiting entries on, everything goes out in such an order. -/
theorem exists_emitted {p : Postfix} (hw : ∀ q ∈ w, q.2 < start)
    (h : reorder (w.map Prod.fst) ts = .ok p) :
    ∃ out, p = out.map Prod.fst ∧ Emitted w start ts out := by
  induction ts generalizing w start p with
  | nil =>
    rw [reorder] at h
    split_ifs at h
    cases h
    exact ⟨released w,(map_released w).symm,emitted_nil w start⟩
  | cons t ts ih =>
    have hnext {w : List (Pending × ℕ)} (hw : ∀ q ∈ w, q.2 < start) : ∀ q ∈ w, q.2 < start + 1 :=
      fun q hq => Nat.lt_succ_of_lt (hw q hq)
    -- What a token releases lies on top of what keeps waiting.
    have hsplit (f : Pending × ℕ → Bool) : (∀ q ∈ w.takeWhile f, q.2 < start) ∧
        ∀ q ∈ w.dropWhile f, q.2 < start :=
      ⟨fun q hq => hw q ((List.takeWhile_prefix f).subset hq),
        fun q hq => hw q ((List.dropWhile_suffix f).subset hq)⟩
    rcases t with l | o | _ | _ | ⟨l,r⟩
    · rw [reorder] at h
      obtain ⟨p,hp,rfl⟩ := map_eq_ok_iff.mp h
      obtain ⟨out,rfl,ho⟩ := ih (hnext hw) hp
      exact ⟨_,rfl,ho.operand rfl⟩
    · rw [reorder,List.takeWhile_map,List.dropWhile_map] at h
      obtain ⟨p,hp,rfl⟩ := map_eq_ok_iff.mp h
      obtain ⟨hheld,hleft⟩ := hsplit ((·.goesBefore o) ∘ Prod.fst)
      obtain ⟨out,rfl,ho⟩ := ih (w := (.operator o,start) :: _)
        (List.forall_mem_cons.mpr ⟨Nat.lt_succ_self start,hnext hleft⟩) hp
      have hout := ho.operator.append_released hheld
      rw [List.takeWhile_append_dropWhile] at hout
      exact ⟨_,by rw [List.map_append,map_released],hout⟩
    · rw [reorder] at h
      obtain ⟨out,rfl,ho⟩ := ih (w := (.opening,start) :: w)
        (List.forall_mem_cons.mpr ⟨Nat.lt_succ_self start,hnext hw⟩) h
      exact ⟨out,rfl,((emitted_opening start).mp ho).parenthesis rfl⟩
    · rw [reorder,List.takeWhile_map,List.dropWhile_map] at h
      obtain ⟨hheld,hleft⟩ := hsplit ((!·.isOpening) ∘ Prod.fst)
      have happend := List.takeWhile_append_dropWhile (p := (!·.isOpening) ∘ Prod.fst) (l := w)
      cases hd : w.dropWhile ((!·.isOpening) ∘ Prod.fst) with
      | nil => simp [hd] at h
      | cons q left =>
        have hmap := List.dropWhile_map (f := Prod.fst) (p := (!Pending.isOpening ·)) (l := w)
        rw [hd] at hmap happend hleft
        obtain ⟨q,n⟩ := q
        obtain rfl : q = .opening := eq_opening_of_dropWhile hmap
        simp only [hd,List.map_cons] at h
        obtain ⟨p,hp,rfl⟩ := map_eq_ok_iff.mp h
        obtain ⟨out,rfl,ho⟩ := ih (hnext (List.forall_mem_cons.mp hleft).2) hp
        have hout := ((emitted_opening n).mpr (ho.parenthesis (t := .closing) rfl)).append_released hheld
        rw [happend] at hout
        exact ⟨_,by rw [List.map_append,map_released],hout⟩
    · rw [reorder] at h
      obtain ⟨p,hp,rfl⟩ := map_eq_ok_iff.mp h
      obtain ⟨out,rfl,ho⟩ := ih (hnext hw) hp
      exact ⟨_,rfl,ho.operand rfl⟩

/-- Reordering refuses nothing but parentheses that do not balance. -/
lemma eq_unbalanced_of_reorder {w : List Pending} {e : SyntaxError} (h : reorder w ts = .error e) :
    e = .unbalanced := by
  induction ts generalizing w with
  | nil =>
    rw [reorder] at h
    split_ifs at h
    cases h
    rfl
  | cons t ts ih =>
    rcases t with l | o | _ | _ | ⟨l,r⟩
    · rw [reorder,map_eq_error_iff] at h
      exact ih h
    · rw [reorder,map_eq_error_iff] at h
      exact ih h
    · rw [reorder] at h
      exact ih h
    · rw [reorder] at h
      split at h
      · cases h
        rfl
      · rw [map_eq_error_iff] at h
        exact ih h
    · rw [reorder,map_eq_error_iff] at h
      exact ih h

/-- The tokens apart from the parentheses, in the order in which they go out: each of them once,
the operands as they came, and each operator behind all operands that came before it. -/
structure OutputOf (ts : List Token) (out : List (Instruction × ℕ)) : Prop where
  each_once : out.Perm (placedFrom 0 ts)
  operands_in_order : out.filter (·.1.isOperand) = (placedFrom 0 ts).filter (·.1.isOperand)
  behind_operands : ∀ front o n back, out = front ++ (.operator o,n) :: back →
    ∀ a ∈ placedFrom 0 ts, a.1.isOperand = true → a.2 < n → a ∈ front

lemma Emitted.outputOf (h : Emitted [] 0 ts out) : OutputOf ts out where
  each_once := h.perm
  operands_in_order := by
    -- both are in the order of their places, and hold the same
    have hout : (out.filter (·.1.isOperand)).Pairwise fun a b => a.2 < b.2 :=
      List.pairwise_filter.mpr (h.ordered.imp fun hab _ hb => hab hb)
    exact (h.perm.filter _).eq_of_pairwise (fun a b _ _ hab hba => absurd hab hba.asymm) hout
      ((pairwise_placedFrom 0 ts).filter _)
  behind_operands := by
    rintro front o n back rfl a ha ho hn
    have hmem := h.perm.mem_iff.mpr ha
    rcases List.mem_append.mp hmem with hfront | hback
    · exact hfront
    · rcases List.mem_cons.mp hback with rfl | hback
      · cases ho
      · have hlt := List.rel_of_pairwise_cons (List.pairwise_append.mp h.ordered).2.1 hback ho
        exact absurd hn hlt.asymm

/-- Tokens go out, all of them and in such an order, exactly if their parentheses balance; else they
are refused as unbalanced. -/
theorem ofTokens_outputOf (ts : List Token) :
    (IsBalanced ts ↔
      ∃ out, Postfix.ofTokens ts = .ok (out.map Prod.fst) ∧ OutputOf ts out) ∧
    (¬IsBalanced ts ↔ Postfix.ofTokens ts = .error .unbalanced) := by
  have hbalanced := @exists_ofTokens_iff ts
  refine ⟨⟨fun h => ?_,fun ⟨out,hp,_⟩ => hbalanced.mp ⟨_,hp⟩⟩,fun h => ?_,fun h hb => ?_⟩
  · obtain ⟨p,hp⟩ := hbalanced.mpr h
    have hnone : ∀ q ∈ ([] : List (Pending × ℕ)), q.2 < 0 := by simp
    obtain ⟨out,rfl,ho⟩ := exists_emitted hnone hp
    exact ⟨out,hp,ho.outputOf⟩
  · cases hp : Postfix.ofTokens ts with
    | ok p => exact absurd (hbalanced.mp ⟨p,hp⟩) h
    | error e => rw [eq_unbalanced_of_reorder hp]
  · obtain ⟨p,hp⟩ := hbalanced.mpr hb
    rw [hp] at h
    cases h

end Formulary.Logic
