import Formulary.Session.Service
import Formulary.Proofs.Outcome

/-! Room for the grids of an analysis. A request is short of it exactly if its analysis would succeed
and one of the two grids has more points than there is room for; every other request is served with
however little room there is. -/
namespace Formulary

namespace Calculus

variable {f : Compiled} {p : Parameters} {settings : Settings} {room : ℕ}

/-- One of the grids that an analysis makes has more points than there is room for. -/
def Parameters.Exceeds (p : Parameters) (settings : Settings) (room : ℕ) : Prop :=
  room < p.points ∨ room < p.areaPoints settings

instance : Decidable (p.Exceeds settings room) :=
  inferInstanceAs (Decidable (_ ∨ _))

/-- The grids of an analysis are those of its samples and of its area. -/
lemma not_exceeds (hp : p.points ≤ room) (hs : max settings.integralSamples leastPoints ≤ room) :
    ¬p.Exceeds settings room := by
  have harea : p.areaPoints settings ≤ max settings.integralSamples leastPoints := by
    unfold Parameters.areaPoints
    split_ifs
    · exact Nat.zero_le _
    · exact Nat.le_refl _
  exact fun h => h.elim (Nat.not_lt.mpr hp) (Nat.not_lt.mpr (Nat.le_trans harea hs))

lemma isSome_shortage?_iff :
    (f.shortage? p settings room).isSome = true ↔
      (f.analyze p settings).isOk = true ∧ p.Exceeds settings room := by
  have hgrids : (if room < p.points then some Shortage.domain
      else if room < p.areaPoints settings then some (.area (f.samplesOn p.xMin p.xMax p.points))
      else none).isSome = true ↔ p.Exceeds settings room := by
    unfold Parameters.Exceeds
    split_ifs <;> simp [*]
  simp only [Compiled.shortage?,Compiled.analyze,Compiled.sample,bind,isSome_toOption_bind_iff,
    isOk_bind_iff,bind_eq_ok_iff,pure,hgrids]
  simp [Except.pure,Except.isOk,Except.toBool,and_assoc]

end Calculus

namespace Session
open History (Computation)

variable {config : Config} {room : ℕ} {s : State} {q : Request}

lemma isSome_shortageOf?_iff {expression : String} {p : Calculus.Parameters} :
    (shortageOf? config room expression p).isSome = true ↔
      (analysedOf config expression p).isOk = true ∧ p.Exceeds config.settings room := by
  simp only [shortageOf?,analysedOf,bind,isSome_toOption_bind_iff,isOk_bind_iff,mapError_eq_ok_iff,
    Calculus.isSome_shortage?_iff,isOk_iff (x := Calculus.Compiled.analyze _ _ _)]
  simp [pure,Except.pure,Except.isOk,Except.toBool,← and_assoc]

/-- A computation is short of room if it is an analysis that would succeed and one of whose grids has
more points than there is room for. -/
def IsShort (config : Config) (room : ℕ) (c : Computation) : Prop :=
  (answerTo config c).isOk = true ∧
    ∃ expression p, c = .function expression p ∧ p.Exceeds config.settings room

lemma isSome_brokenNotes?_iff {c : Computation} :
    (brokenNotes? config room c).isSome = true ↔ IsShort config room c := by
  cases c with
  | function expression p =>
    simp only [brokenNotes?,Option.isSome_map,isSome_shortageOf?_iff,IsShort,answerTo,isOk_map]
    simp
  | _ => simp [brokenNotes?,IsShort]

namespace State

/-- The request comes to a computation that is short of room. -/
def IsShort (s : State) (room : ℕ) (q : Request) : Prop :=
  ∃ notes c, s.computation? q = some (notes,c) ∧ Session.IsShort s.config room c

lemma isSome_brokenNotes?_iff : (s.brokenNotes? room q).isSome = true ↔ s.IsShort room q := by
  simp only [brokenNotes?,bind,Option.isSome_bind,Option.any_eq_true,IsShort,
    ← Session.isSome_brokenNotes?_iff]
  simp [pure,Option.isSome_iff_exists]

/-- A request is served where there is room for the grids of the function that it wants analysed. -/
lemma brokenNotes?_eq_none
    (h : ∀ notes expression p, s.computation? q = some (notes,.function expression p) →
      ¬p.Exceeds s.settings room) : s.brokenNotes? room q = none := by
  rw [← Option.not_isSome_iff_eq_none,isSome_brokenNotes?_iff]
  rintro ⟨notes,c,hc,-,expression,p,rfl,he⟩
  exact h notes expression p hc he

/-- Every request is served where there is room enough. -/
lemma exists_brokenNotes?_eq_none (s : State) (q : Request) :
    ∃ room, s.brokenNotes? room q = none := by
  by_cases hf : ∃ notes expression p, s.computation? q = some (notes,.function expression p)
  · obtain ⟨notes,expression,p,hc⟩ := hf
    refine ⟨max p.points (max s.settings.integralSamples Calculus.leastPoints),?_⟩
    refine brokenNotes?_eq_none fun notes' expression' p' hc' => ?_
    cases hc.symm.trans hc'
    exact Calculus.not_exceeds (Nat.le_max_left _ _) (Nat.le_max_right _ _)
  · exact ⟨0,brokenNotes?_eq_none fun notes expression p hc => absurd ⟨notes,expression,p,hc⟩ hf⟩

end State
end Session
end Formulary
