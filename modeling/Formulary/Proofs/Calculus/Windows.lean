import Formulary.Proofs.Decimal.Absorption
import Formulary.Proofs.Calculus.Finiteness

/-! The window of a curve. It always covers every defined sample. Its two ends differ unless the curve
is flat, at a level so far away from zero that the padding is lost there on both sides. -/
namespace Formulary.Calculus
open Decimal

variable {settings : Settings} {ys : List (Option Float)} {first v w y : Float} {rest : List Float}

/-- Finite settings with a range of their own and a padding. -/
structure Settings.Spans (settings : Settings) : Prop where
  least : settings.defaultRange.1.isFinite = true
  greatest : settings.defaultRange.2.isFinite = true
  padding : settings.rangePadding.isFinite = true
  ordered : settings.defaultRange.1 < settings.defaultRange.2
  padded : 0 < settings.rangePadding

/-- The level of a flat curve: there are defined samples, and each of them equals it. -/
structure IsFlat (ys : List (Option Float)) (v : Float) : Prop where
  defined : some v ∈ ys
  level : ∀ y, some y ∈ ys → (y == v) = true

/-! The extent of the samples -/

lemma place_lesser (hv : v.isFinite = true) (hw : w.isFinite = true) :
    place (lesser v w) ≤ place v ∧ place (lesser v w) ≤ place w := by
  have hv' := isNaN_of_isFinite hv
  have hw' := isNaN_of_isFinite hw
  simp only [lesser,hv',hw',Bool.false_eq_true,↓reduceIte]
  split_ifs with hlt
  · exact ⟨((lt_iff_place hw' hv').mp hlt).le,le_rfl⟩
  · exact ⟨le_rfl,not_lt.mp (mt (lt_iff_place hw' hv').mpr hlt)⟩

lemma place_greater (hv : v.isFinite = true) (hw : w.isFinite = true) :
    place v ≤ place (greater v w) ∧ place w ≤ place (greater v w) := by
  have hv' := isNaN_of_isFinite hv
  have hw' := isNaN_of_isFinite hw
  simp only [greater,hv',hw',Bool.false_eq_true,↓reduceIte]
  split_ifs with hlt
  · exact ⟨((lt_iff_place hv' hw').mp hlt).le,le_rfl⟩
  · exact ⟨le_rfl,not_lt.mp (mt (lt_iff_place hv' hw').mpr hlt)⟩

/-- What is chosen step by step is related to every value, if each choice is related to both. -/
lemma foldl_rel {choose : Float → Float → Float} {r : Float → Float → Prop}
    (hrefl : ∀ v, r v v) (htrans : ∀ u v w, r u v → r v w → r u w)
    (hmem : ∀ v w, choose v w = v ∨ choose v w = w)
    (hr : ∀ v w, v.isFinite = true → w.isFinite = true → r (choose v w) v ∧ r (choose v w) w)
    (hall : ∀ y ∈ first :: rest, y.isFinite = true) :
    ∀ y ∈ first :: rest, r (rest.foldl choose first) y := by
  induction rest generalizing first with
  | nil => simpa using hrefl first
  | cons v rest ih =>
    have hfirst := hall first List.mem_cons_self
    have hv := hall v (List.mem_cons_of_mem _ List.mem_cons_self)
    have hrest : ∀ y ∈ rest, y.isFinite = true := fun y hy =>
      hall y (List.mem_cons_of_mem _ (List.mem_cons_of_mem _ hy))
    have hchosen : (choose first v).isFinite = true := by
      rcases hmem first v with h | h <;> rwa [h]
    have hnext := ih (List.forall_mem_cons.mpr ⟨hchosen,hrest⟩)
    obtain ⟨hleft,hright⟩ := hr first v hfirst hv
    intro y hy
    rw [List.foldl_cons]
    rcases List.mem_cons.mp hy with rfl | hy
    · exact htrans _ _ _ (hnext _ List.mem_cons_self) hleft
    rcases List.mem_cons.mp hy with rfl | hy
    · exact htrans _ _ _ (hnext _ List.mem_cons_self) hright
    · exact hnext y (List.mem_cons_of_mem _ hy)

/-- The extent reaches from one of the values to another, and every value lies between them. -/
lemma extent_spec (hall : ∀ y ∈ first :: rest, y.isFinite = true) :
    (extent first rest).lo ∈ first :: rest ∧ (extent first rest).hi ∈ first :: rest ∧
      ∀ y ∈ first :: rest, place (extent first rest).lo ≤ place y ∧
        place y ≤ place (extent first rest).hi := by
  have hlow := foldl_rel (r := fun v w => place v ≤ place w) (fun _ => le_rfl)
    (fun _ _ _ => le_trans) lesser_eq_or (fun _ _ => place_lesser) hall
  have hhigh := foldl_rel (r := fun v w => place w ≤ place v) (fun _ => le_rfl)
    (fun _ _ _ h h' => h'.trans h) greater_eq_or (fun _ _ => place_greater) hall
  exact ⟨foldl_mem lesser_eq_or first rest,foldl_mem greater_eq_or first rest,
    fun y hy => ⟨hlow y hy,hhigh y hy⟩⟩

/-! Windows -/

lemma rational_pos_of_pos (hv : v.isFinite = true) (h : 0 < v) : 0 < rational v := by
  have hzero : (0 : Float).isFinite = true := by decide
  rw [lt_iff_place (isNaN_of_isFinite hzero) (isNaN_of_isFinite hv),place_of_isFinite hzero,
    place_of_isFinite hv,WithBot.coe_lt_coe,WithTop.coe_lt_coe] at h
  have hr : rational (0 : Float) = 0 := rfl
  rwa [hr] at h

/-- A flat curve has a window with two ends exactly if the padding is not lost at its level. -/
lemma padded_lt_iff {l h p : Float} (hl : l.isFinite = true) (hh : h.isFinite = true)
    (hp : p.isFinite = true) (h0 : 0 ≤ rational p) (hflat : (l == h) = true) :
    l - p < h + p ↔ ¬Unmoved l p := by
  obtain ⟨hnan,hle⟩ := place_sub_le hl hp h0
  obtain ⟨hnan',hle'⟩ := place_le_add hh hp h0
  have hl' := isNaN_of_isFinite hl
  have hh' := isNaN_of_isFinite hh
  have hplace : place l = place h := (beq_iff_place hl' hh').mp hflat
  have hadd := add_beq_congr hl hh hp ((beq_iff_rational hl hh).mp hflat)
  rw [lt_iff_place hnan hnan',Unmoved,hadd,beq_iff_place hnan hl',beq_iff_place hnan' hh']
  constructor
  · rintro hlt ⟨hlow,hhigh⟩
    rw [hlow,hhigh,hplace] at hlt
    exact lt_irrefl _ hlt
  · intro hne
    by_contra hge
    have hback := not_lt.mp hge
    exact hne ⟨le_antisymm hle (hplace.le.trans (hle'.trans hback)),
      le_antisymm (hback.trans (hle.trans hplace.le)) hle'⟩

/-- Whatever level a flat curve has, both ends of its extent equal it; and equal ends are its level. -/
lemma extent_isFlat (hall : ∀ y ∈ first :: rest, y.isFinite = true)
    (hmem : ∀ y, y ∈ first :: rest ↔ some y ∈ ys) :
    (∀ v, IsFlat ys v → ((extent first rest).lo == v) = true ∧
      ((extent first rest).hi == v) = true) ∧
    (((extent first rest).lo == (extent first rest).hi) = true →
      IsFlat ys (extent first rest).lo) := by
  obtain ⟨hlo,hhi,hbounds⟩ := extent_spec hall
  refine ⟨fun _ h => ⟨h.level _ ((hmem _).mp hlo),h.level _ ((hmem _).mp hhi)⟩,
    fun hflat => ⟨(hmem _).mp hlo,fun y hy => ?_⟩⟩
  have hl' := isNaN_of_isFinite (hall _ hlo)
  have hh' := isNaN_of_isFinite (hall _ hhi)
  have hy' := (hmem y).mpr hy
  obtain ⟨hlow,hhigh⟩ := hbounds y hy'
  rw [beq_iff_place hl' hh'] at hflat
  rw [beq_iff_place (isNaN_of_isFinite (hall y hy')) hl']
  exact le_antisymm (hhigh.trans hflat.ge) hlow

/-- The defined samples, one of which comes first. -/
lemma mem_defined (hys : ∀ y, some y ∈ ys → y.isFinite = true)
    (hdefined : ys.filterMap id = first :: rest) :
    (∀ y, y ∈ first :: rest ↔ some y ∈ ys) ∧ ∀ y ∈ first :: rest, y.isFinite = true := by
  have hmem : ∀ y, y ∈ first :: rest ↔ some y ∈ ys := fun y => by simp [← hdefined]
  exact ⟨hmem,fun y hy => hys y ((hmem y).mp hy)⟩

lemma not_mem_of_undefined (hdefined : ys.filterMap id = []) : some v ∉ ys := fun h => by
  have hv : v ∈ ys.filterMap id := by simpa using h
  rw [hdefined] at hv
  cases hv

section
variable (hs : settings.Spans) (hys : ∀ y, some y ∈ ys → y.isFinite = true)
include hs hys

lemma le_ofSamples_of_mem (hy : some y ∈ ys) :
    (Window.ofSamples settings ys).lo ≤ y ∧ y ≤ (Window.ofSamples settings ys).hi := by
  have h0 := rational_pos_of_pos hs.padding hs.padded
  unfold Window.ofSamples
  cases hdefined : ys.filterMap id with
  | nil => exact absurd hy (not_mem_of_undefined hdefined)
  | cons first rest =>
    obtain ⟨hmem,hall⟩ := mem_defined hys hdefined
    obtain ⟨hlo,hhi,hbounds⟩ := extent_spec hall
    have hl := hall _ hlo
    have hh := hall _ hhi
    have hy' := isNaN_of_isFinite (hys y hy)
    obtain ⟨hlow,hhigh⟩ := hbounds y ((hmem y).mpr hy)
    dsimp only
    split_ifs with hflat
    · obtain ⟨hnan,hle⟩ := place_sub_le hl hs.padding h0.le
      obtain ⟨hnan',hle'⟩ := place_le_add hh hs.padding h0.le
      exact ⟨(le_iff_place hnan hy').mpr (hle.trans hlow),
        (le_iff_place hy' hnan').mpr (hhigh.trans hle')⟩
    · exact ⟨(le_iff_place (isNaN_of_isFinite hl) hy').mpr hlow,
        (le_iff_place hy' (isNaN_of_isFinite hh)).mpr hhigh⟩

lemma ofSamples_lt_iff : (Window.ofSamples settings ys).lo < (Window.ofSamples settings ys).hi ↔
    ∀ v, IsFlat ys v → ¬Unmoved v settings.rangePadding := by
  have h0 := rational_pos_of_pos hs.padding hs.padded
  unfold Window.ofSamples
  cases hdefined : ys.filterMap id with
  | nil =>
    exact iff_of_true hs.ordered fun v hv => absurd hv.defined (not_mem_of_undefined hdefined)
  | cons first rest =>
    obtain ⟨hmem,hall⟩ := mem_defined hys hdefined
    obtain ⟨hlo,hhi,hbounds⟩ := extent_spec hall
    obtain ⟨hends,hlevel⟩ := extent_isFlat hall hmem
    have hl := hall _ hlo
    have hh := hall _ hhi
    dsimp only
    split_ifs with hflat
    · rw [padded_lt_iff hl hh hs.padding h0.le hflat]
      refine ⟨fun h v hv => ?_,fun h => h _ (hlevel hflat)⟩
      have hv' := hys v hv.defined
      have heq := (beq_iff_rational hl hv').mp (hends v hv).1
      rwa [← unmoved_congr hl hv' hs.padding heq]
    · have hl' := isNaN_of_isFinite hl
      have hh' := isNaN_of_isFinite hh
      rw [beq_iff_place hl' hh'] at hflat
      refine iff_of_true ((lt_iff_place hl' hh').mpr ((hbounds _ hlo).2.lt_of_ne hflat))
        fun v hv => absurd ?_ hflat
      have hv' := isNaN_of_isFinite (hys v hv.defined)
      obtain ⟨hlow,hhigh⟩ := hends v hv
      rw [beq_iff_place hl' hv'] at hlow
      rw [beq_iff_place hh' hv'] at hhigh
      exact hlow.trans hhigh.symm

end

/-- A window covers every defined sample, even where its padding leads beyond the greatest number. Its
ends differ exactly if the curve is not flat at a level that the padding moves to neither side: it moves
every level below `2 ^ 53` times itself, and none from `2 ^ 54` times itself on. -/
theorem ofSamples_covers (hs : settings.Spans) (hys : ∀ y, some y ∈ ys → y.isFinite = true) :
    (∀ y, some y ∈ ys → (Window.ofSamples settings ys).lo ≤ y ∧
      y ≤ (Window.ofSamples settings ys).hi) ∧
    ((Window.ofSamples settings ys).lo < (Window.ofSamples settings ys).hi ↔
      ∀ v, IsFlat ys v → ¬Unmoved v settings.rangePadding) ∧
    ∀ v, v.isFinite = true →
      (Unmoved v settings.rangePadding →
        2 ^ 53 * rational settings.rangePadding ≤ |rational v|) ∧
      (2 ^ 54 * rational settings.rangePadding ≤ |rational v| →
        Unmoved v settings.rangePadding) := by
  have h0 := rational_pos_of_pos hs.padding hs.padded
  exact ⟨fun _ => le_ofSamples_of_mem hs hys,ofSamples_lt_iff hs hys,
    fun v hv => ⟨fun h => h.le hv hs.padding h0,unmoved_of_le hv hs.padding h0.le⟩⟩

lemma spans_standard : Settings.standard.Spans :=
  ⟨by decide,by decide,by decide,by decide,by decide⟩

/-- A flat curve at five, with a gap, has a window. -/
theorem ofSamples_covers_five :
    let ys : List (Option Float) := [some 5,none,some 5]
    (∀ y, some y ∈ ys → y.isFinite = true) ∧
      (Window.ofSamples Settings.standard ys).lo ≤ 5 ∧
      5 ≤ (Window.ofSamples Settings.standard ys).hi ∧
      (Window.ofSamples Settings.standard ys).lo < (Window.ofSamples Settings.standard ys).hi := by
  intro ys
  have hmem : ∀ y, some y ∈ ys → y = 5 := by
    intro y hy
    simpa [ys] using hy
  have hfive : (5 : Float).isFinite = true := by decide
  have hys : ∀ y, some y ∈ ys → y.isFinite = true := fun y hy => hmem y hy ▸ hfive
  obtain ⟨hcovers,hlt,hlost⟩ := ofSamples_covers spans_standard hys
  have hsmall : ¬2 ^ 53 * rational Settings.standard.rangePadding ≤ |rational 5| := by
    decide +kernel
  obtain ⟨hlow,hhigh⟩ := hcovers 5 (by simp [ys])
  refine ⟨hys,hlow,hhigh,hlt.mpr fun v hv => ?_⟩
  obtain rfl := hmem v hv.defined
  exact fun h => hsmall ((hlost 5 hfive).1 h)

/-- A flat curve at `10 ^ 16` has a window without height. -/
theorem not_ofSamples_lt_of_far :
    Settings.standard.Spans ∧ (∀ y, some y ∈ [some (1e16 : Float)] → y.isFinite = true) ∧
      ¬(Window.ofSamples Settings.standard [some 1e16]).lo <
        (Window.ofSamples Settings.standard [some 1e16]).hi := by
  refine ⟨spans_standard,fun y hy => ?_,by decide +kernel⟩
  obtain rfl : y = 1e16 := by simpa using hy
  decide

end Formulary.Calculus
