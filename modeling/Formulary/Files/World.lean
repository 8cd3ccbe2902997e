import Formulary.Files.Plan

/-! Worlds that a plan runs in. A world answers as it likes to what a plan does and may change with it,
so what holds in every world does not depend on what becomes of the files. -/
namespace Formulary.Files

/-- A world, by what it answers to each thing that a plan does and what it is afterwards. -/
structure World (W : Type) where
  read : String → W → Reading × W
  makeFolders : String → W → Attempt × W
  write : String → String → W → Attempt × W
  beginJournal : String → W → Bool × W
  limitDetail : Journal.Threshold → W → W
  note : Journal.Note → W → W
  explain : String → W → String
  room : W → Nat

/-- What has become of a plan: its result, unless it ended the program, what it wrote to the standard
output, and the world that it left. -/
structure Ran (α W : Type) where
  result : Option α
  output : String
  world : W

/-- Goes on where a run has come to a result. -/
def Ran.andThen {α β W : Type} (r : Ran α W) (f : α → W → Ran β W) : Ran β W :=
  match r.result with
  | none => ⟨none,r.output,r.world⟩
  | some a =>
    let rest := f a r.world
    { rest with output := r.output ++ rest.output }

theorem Ran.andThen_assoc {α β γ W : Type} (r : Ran α W) (f : α → W → Ran β W)
    (g : β → W → Ran γ W) :
    (r.andThen f).andThen g = r.andThen fun a w => (f a w).andThen g := by
  unfold andThen
  cases r.result with
  | none => rfl
  | some a =>
    dsimp only
    cases (f a r.world).result with
    | none => rfl
    | some b => simp only [String.append_assoc]

namespace Plan

/-- Runs a plan in a world. -/
def runIn {α W : Type} (world : World W) : Plan α → W → Ran α W
  | done a,w => ⟨some a,"",w⟩
  | read path next,w => (next (world.read path w).1).runIn world (world.read path w).2
  | makeFolders path next,w =>
    (next (world.makeFolders path w).1).runIn world (world.makeFolders path w).2
  | write path text next,w =>
    (next (world.write path text w).1).runIn world (world.write path text w).2
  | beginJournal path next,w =>
    (next (world.beginJournal path w).1).runIn world (world.beginJournal path w).2
  | limitDetail threshold next,w => next.runIn world (world.limitDetail threshold w)
  | note n next,w => next.runIn world (world.note n w)
  | reply line next,w =>
    let rest := next.runIn world w
    { rest with output := line ++ "\n" ++ rest.output }
  | explain text next,w => (next (world.explain text w)).runIn world w
  | measure next,w => (next (world.room w)).runIn world w
  | halt,w => ⟨none,"",w⟩

/-- A plan that goes on runs in the world that its first part leaves. -/
theorem runIn_bind {α β W : Type} {world : World W} (p : Plan α) (f : α → Plan β) (w : W) :
    (p >>= f).runIn world w = (p.runIn world w).andThen fun a => (f a).runIn world := by
  change (p.andThen f).runIn world w = _
  induction p generalizing w with
  | done a =>
    rw [andThen,runIn,Ran.andThen]
    simp
  | read path next ih => exact ih _ _
  | makeFolders path next ih => exact ih _ _
  | write path text next ih => exact ih _ _
  | beginJournal path next ih => exact ih _ _
  | limitDetail threshold next ih => exact ih _
  | note n next ih => exact ih _
  | reply line next ih =>
    rw [andThen,runIn,ih,runIn]
    simp only [Ran.andThen]
    cases (next.runIn world w).result with
    | none => rfl
    | some a => simp only [String.append_assoc]
  | explain text next ih => exact ih _ _
  | measure next ih => exact ih _ _
  | halt => rfl

end Plan
end Formulary.Files
