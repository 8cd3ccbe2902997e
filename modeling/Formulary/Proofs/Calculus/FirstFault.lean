import Formulary.Proofs.Calculus.Parsing
import Formulary.Proofs.Calculus.Places

/-! Which token an unexpected one is. Whatever has been read without a fault is the front of some
sentence: an operand finishes what waits for one, and closing parentheses finish the rest. So the
compiler refuses the first token with which no sentence goes on, and never a later one. -/
namespace Formulary.Calculus

/-- A closing parenthesis finds the latest open one, if there is any. -/
lemma exists_close? {w : List Pending} (h : w.any Pending.isOpening = true) :
    ∃ out left, close? w = some (out,left) ∧ left.length < w.length := by
  have hlen := List.length_dropWhile_le (fun p : Pending => !p.isOpening) w
  rw [close?]
  cases hd : w.dropWhile (!·.isOpening) with
  | nil =>
    obtain ⟨p,hp,ho⟩ := List.any_eq_true.mp h
    have hn := List.dropWhile_eq_nil_iff.mp hd p hp
    simp [ho] at hn
  | cons p below =>
    rw [hd,List.length_cons] at hlen
    rcases below with _ | ⟨_ | _ | _ | r,left⟩
    case cons.routine =>
      rw [List.length_cons] at hlen
      exact ⟨_,left,rfl,by omega⟩
    all_goals exact ⟨_,_,rfl,by omega⟩

/-- What has been reached behind an operand is finished by closing what is open. -/
lemma Reached.closed {w : List Pending} {us : List Placed} (hr : Reached false w us) :
    ∃ ts e, Spells .sum e (us ++ ts) := by
  induction w using (measure List.length).wf.induction generalizing us with
  | h w ih =>
    cases hw : w.any Pending.isOpening with
    | false =>
      obtain ⟨e,he⟩ := hr.sentence hw
      exact ⟨[],e,by simpa using he⟩
    | true =>
      obtain ⟨out,left,hc,hl⟩ := exists_close? hw
      obtain ⟨ts,e,he⟩ := ih left hl (hr.closing hc 0)
      exact ⟨⟨.closing,0⟩ :: ts,e,by simpa using he⟩

/-- Whatever has been reached is the front of a sentence. -/
theorem Reached.completed {operandNext : Bool} {w : List Pending} {us : List Placed}
    (hr : Reached operandNext w us) : ∃ ts e, Spells .sum e (us ++ ts) := by
  cases operandNext with
  | false => exact hr.closed
  | true =>
    obtain ⟨ts,e,he⟩ := (hr.operand (.x 0)).closed
    exact ⟨⟨.x,0⟩ :: ts,e,by simpa using he⟩

/-- Reading stops at an unexpected token behind the front of a sentence, whatever follows it. -/
theorem reached_unexpected {operandNext : Bool} {w : List Pending} {last : Option Operator}
    {us ts : List Placed} {t : Token} {i : ℕ} (hr : Reached operandNext w us)
    (h : reorder w operandNext last ts = .error (.unexpected t i)) :
    ∃ front rest, ts = front ++ ⟨t,i⟩ :: rest ∧
      (∃ vs e, Spells .sum e (us ++ front ++ vs)) ∧
      ∀ rest', reorder w operandNext last (front ++ ⟨t,i⟩ :: rest') =
        .error (.unexpected t i) := by
  -- By length, since a routine is taken in together with its parenthesis.
  induction ts using (measure List.length).wf.induction generalizing operandNext w last us with
  | h ts ih =>
    rcases ts with _ | ⟨s,ts⟩
    · cases operandNext with
      | true => cases last <;> simp [reorder] at h
      | false => cases hw : w.any Pending.isOpening <;> simp [reorder,hw] at h
    · rcases reached_step hr last s ts with
        ⟨e,he,hu⟩ | ⟨front,rest,hts,hne,next,w',last',out,hr',ho⟩
      · obtain rfl : e = .unexpected t i := by simpa [he] using h
        obtain ⟨rfl,hall⟩ := hu t i rfl
        obtain ⟨vs,e,hs⟩ := hr.completed
        exact ⟨[],ts,rfl,⟨vs,e,by simpa using hs⟩,hall⟩
      · rw [hts,ho,map_eq_error_iff] at h
        have hl : rest.length < (s :: ts).length := by
          rw [hts,List.length_append]
          exact Nat.lt_add_of_pos_left (List.length_pos_iff.mpr hne)
        obtain ⟨front',rest',rfl,hv,hall⟩ := ih rest hl hr' h
        refine ⟨front ++ front',rest',by simp [hts],by simpa using hv,fun rest'' => ?_⟩
        rw [List.append_assoc,ho,hall,map_eq_error_iff]

lemma ofTokens_eq_unexpected_iff {ts : List Placed} {t : Token} {i : ℕ} :
    Program.ofTokens ts = .error (.unexpected t i) ↔
      reorder [] true none ts = .error (.unexpected t i) := by
  cases ts with
  | nil => simp [Program.ofTokens,reorder,throw,throwThe,MonadExceptOf.throw,bind,Except.bind]
  | cons s ts =>
    cases hr : reorder [] true none (s :: ts) with
    | error e => simp [Program.ofTokens,hr,bind,Except.bind]
    | ok q =>
      have hq := ofTokens_eq_reorder.mpr hr
      simp [hq]

/-- An unexpected token is the first that cannot be right: what stands before it can be completed
to tokens that are accepted, even at places of their own, and no accepted tokens begin as these do
up to it, wherever they stand. -/
theorem unexpected_is_first_wrong {ts : List Placed} (hd : (ts.map Placed.position).Nodup)
    {t : Token} {i : ℕ} (h : Program.ofTokens ts = .error (.unexpected t i)) :
    ∃ k, ∃ hk : k < ts.length, ts[k] = ⟨t,i⟩ ∧
      (∀ j, ∀ hj : j < ts.length, ts[j].position = i → j = k) ∧
      (∃ us p, ((ts.take k ++ us).map Placed.position).Nodup ∧
        Program.ofTokens (ts.take k ++ us) = .ok p) ∧
      ∀ us p, (ts.take (k + 1)).map Placed.token <+: us.map Placed.token →
        Program.ofTokens us ≠ .ok p := by
  have hr : Reached true [] [] := ⟨.sum,.start⟩
  obtain ⟨front,rest,rfl,⟨vs,e,hv⟩,hall⟩ :=
    reached_unexpected hr (ofTokens_eq_unexpected_iff.mp h)
  have hfront : (front ++ ⟨t,i⟩ :: rest).take front.length = front := by simp
  have hnext : (front ++ ⟨t,i⟩ :: rest).take (front.length + 1) = front ++ [⟨t,i⟩] := by
    rw [List.append_cons,List.take_left' (by simp)]
  refine ⟨front.length,by simp,by simp,fun j hj hp => ?_,?_,fun us p hu hp => ?_⟩
  · have hl : front.length < (front ++ ⟨t,i⟩ :: rest).length := by simp
    have he : (front ++ ⟨t,i⟩ :: rest)[j] = (front ++ ⟨t,i⟩ :: rest)[front.length] :=
      List.inj_on_of_nodup_map hd (List.getElem_mem hj) (List.getElem_mem hl) (hp.trans (by simp))
    exact hd.of_map.getElem_inj_iff.mp he
  · have hdf : (front.map Placed.position).Nodup := by
      rw [List.map_append] at hd
      exact hd.of_append_left
    obtain ⟨us,hus,hn⟩ := exists_distinct hdf vs
    rw [hfront]
    have hvs : Program.ofTokens (front ++ vs) = .ok e.postfixOrder :=
      ofTokens_eq_reorder.mpr (reorder_eq_ok_iff.mpr ⟨e,by simpa using hv,rfl⟩)
    refine ⟨us,e.postfixOrder,hn,ofTokens_eq_ok_of_tokens ?_ hvs⟩
    rw [List.map_append,List.map_append,hus]
  · -- The accepted tokens could stand where the given ones do.
    obtain ⟨kinds,hk⟩ := hu
    rw [hnext] at hk
    have hm : us.map Placed.token =
        (front ++ ⟨t,i⟩ :: kinds.map fun kind => Placed.mk kind 0).map Placed.token := by
      rw [← hk]
      simp [Function.comp_def]
    have hbad := ofTokens_eq_unexpected_iff.mpr (hall (kinds.map fun kind => ⟨kind,0⟩))
    rw [ofTokens_eq_ok_of_tokens hm hp] at hbad
    cases hbad

/-- The tokens of `sin(x)x`, where a call is finished and no operator follows. -/
theorem unexpected_x_behind_call :
    let ts : List Placed := [⟨.routine .sin,1⟩,⟨.opening,4⟩,⟨.x,5⟩,⟨.closing,6⟩,⟨.x,7⟩]
    (ts.map Placed.position).Nodup ∧ Program.ofTokens ts = .error (.unexpected .x 7) ∧
    ∃ k, ∃ hk : k < ts.length, ts[k] = ⟨.x,7⟩ ∧
      (∀ j, ∀ hj : j < ts.length, ts[j].position = 7 → j = k) ∧
      (∃ us p, ((ts.take k ++ us).map Placed.position).Nodup ∧
        Program.ofTokens (ts.take k ++ us) = .ok p) ∧
      ∀ us p, (ts.take (k + 1)).map Placed.token <+: us.map Placed.token →
        Program.ofTokens us ≠ .ok p :=
  ⟨by decide,rfl,unexpected_is_first_wrong (by decide) rfl⟩

end Formulary.Calculus
