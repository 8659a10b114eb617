import RNFantuan.Views.ActivityDetail.Header

/-!
# The box of the introduction

`introBoxLayout` and `animate` of `ActivityDetail`. The first layout decides from the
height of the content whether the box is collapsed, and the toggle is rendered from
that height with a padding added. Between the two thresholds there is a toggle for a
box that is not collapsed, and its flag says otherwise.
-/

namespace RNFantuan.Views.ActivityDetail

/-- The state that the first layout sets; the last two are the values of animations. -/
structure IntroBox where
  initialHeight : ℚ
  maxHeight : ℚ
  animationHeight : ℚ
  iconRotate : ℚ
  deriving DecidableEq

structure IntroState where
  isOpen : Bool := false
  box : Option IntroBox := none
  deriving DecidableEq

/-- `initialHeight && maxHeight && animationHeight && iconRotate`, the last two of them
objects. -/
def IntroBox.measured (b : IntroBox) : Prop := b.initialHeight ≠ 0 ∧ b.maxHeight ≠ 0

instance (b : IntroBox) : Decidable b.measured := inferInstanceAs (Decidable (_ ∧ _))

section Screen

variable (scale : ℚ)

def measure (height : ℚ) : IntroBox :=
  if height > px2dp scale 700 then
    { initialHeight := height + px2dp scale 84
      maxHeight := px2dp scale 700
      animationHeight := px2dp scale 700
      iconRotate := 0 }
  else
    { initialHeight := height + px2dp scale 40
      maxHeight := px2dp scale 700
      animationHeight := height + px2dp scale 40
      iconRotate := 0 }

def introBoxLayout (height : ℚ) (s : IntroState) : IntroState :=
  if ∃ b ∈ s.box, b.measured then s else { s with box := some (measure scale height) }

def IntroBox.animate (b : IntroBox) : IntroBox × Bool :=
  if b.animationHeight < b.initialHeight then
    ({ b with animationHeight := b.initialHeight, iconRotate := 1 }, true)
  else ({ b with animationHeight := b.maxHeight, iconRotate := 0 }, false)

def toggle (s : IntroState) : Option String :=
  if ∃ b ∈ s.box, b.measured ∧ b.initialHeight > px2dp scale 700 then
    some (if s.isOpen then "收起" else "查看更多图文详情")
  else none

inductive IntroEvent
  | layout (height : ℚ)
  | tap

def IntroState.step (s : IntroState) : IntroEvent → Option IntroState
  | .layout height => some (introBoxLayout scale height s)
  | .tap =>
    if toggle scale s = none then none
    else s.box.map fun b => { isOpen := b.animate.2, box := some b.animate.1 }

def laidOut (height : ℚ) : IntroState := introBoxLayout scale height {}

/-- Where the toggle is rendered, its flag and its text say whether the content is shown. -/
structure Agrees (s : IntroState) (b : IntroBox) (text : String) : Prop where
  opened : s.isOpen = true ↔ b.animationHeight = b.initialHeight
  icon : s.isOpen = true ↔ b.iconRotate = 1
  collapsed : s.isOpen = false ↔ b.animationHeight = px2dp scale 700
  text : s.isOpen = true ↔ text = "收起"

def BoxAgrees (s : IntroState) : Prop :=
  ∀ text, toggle scale s = some text → ∃ b, s.box = some b ∧ Agrees scale s b text

def Flips (s : IntroState) : IntroEvent → Prop
  | .tap => ∀ s', s.step scale .tap = some s' → s'.isOpen = !s.isOpen
  | .layout _ => True

/-! ### Boxes that are open or collapsed -/

def Placed (s : IntroState) : Prop :=
  ∃ b, s.box = some b ∧ b.measured ∧ b.maxHeight = px2dp scale 700 ∧
    (px2dp scale 700 < b.initialHeight →
      s.isOpen = false ∧ b.animationHeight = px2dp scale 700 ∧ b.iconRotate = 0 ∨
        s.isOpen = true ∧ b.animationHeight = b.initialHeight ∧ b.iconRotate = 1)

end Screen

variable {scale : ℚ} {s s' : IntroState}

theorem toggle_eq_some {text : String} (h : toggle scale s = some text) :
    (∃ b, s.box = some b ∧ px2dp scale 700 < b.initialHeight) ∧
      text = if s.isOpen then "收起" else "查看更多图文详情" := by
  unfold toggle at h
  split at h
  · rename_i hb
    obtain ⟨b, hb, -, hheight⟩ := hb
    exact ⟨⟨b, hb, hheight⟩, (Option.some.inj h).symm⟩
  · cases h

theorem Placed.boxAgrees (h : Placed scale s) : BoxAgrees scale s := by
  intro text htoggle
  obtain ⟨b, hb, -, -, hplaces⟩ := h
  obtain ⟨⟨b', hb', hheight⟩, rfl⟩ := toggle_eq_some htoggle
  obtain rfl : b = b' := Option.some.inj (hb.symm.trans hb')
  refine ⟨b, hb, ?_⟩
  rcases hplaces hheight with ⟨hflag, hanim, hicon⟩ | ⟨hflag, hanim, hicon⟩
  · exact ⟨by simp [hflag, hanim, hheight.ne], by simp [hflag, hicon], by simp [hflag, hanim],
      by simp [hflag]⟩
  · exact ⟨by simp [hflag, hanim], by simp [hflag, hicon], by simp [hflag, hanim, hheight.ne'],
      by simp [hflag]⟩

theorem introBoxLayout_of_placed (h : Placed scale s) (height : ℚ) :
    introBoxLayout scale height s = s := by
  obtain ⟨b, hb, hmeasured, -⟩ := h
  exact if_pos ⟨b, hb, hmeasured⟩

theorem tap_of_placed (h : Placed scale s) (hstep : s.step scale .tap = some s') :
    Placed scale s' ∧ s'.isOpen = !s.isOpen := by
  obtain ⟨b, hb, ⟨hinitial, hmax⟩, hmaxHeight, hplaces⟩ := h
  simp only [IntroState.step, hb, Option.map_some] at hstep
  split at hstep
  · cases hstep
  · rename_i htoggle
    obtain rfl := Option.some.inj hstep
    obtain ⟨text, htext⟩ := Option.ne_none_iff_exists'.mp htoggle
    obtain ⟨⟨b', hb', hheight⟩, -⟩ := toggle_eq_some htext
    obtain rfl : b = b' := Option.some.inj (hb.symm.trans hb')
    rcases hplaces hheight with ⟨hflag, hanim, -⟩ | ⟨hflag, hanim, -⟩
    · have hlow : b.animationHeight < b.initialHeight := hanim ▸ hheight
      simp only [IntroBox.animate, if_pos hlow]
      exact ⟨⟨_, rfl, ⟨hinitial, hmax⟩, hmaxHeight, fun _ => Or.inr ⟨rfl, rfl, rfl⟩⟩,
        by simp [hflag]⟩
    · have hhigh : ¬ b.animationHeight < b.initialHeight := by simp [hanim]
      simp only [IntroBox.animate, if_neg hhigh]
      exact ⟨⟨_, rfl, ⟨hinitial, hmax⟩, hmaxHeight, fun _ => Or.inl ⟨rfl, hmaxHeight, rfl⟩⟩,
        by simp [hflag]⟩

theorem step_placed {e : IntroEvent} (h : Placed scale s) (hstep : s.step scale e = some s') :
    Placed scale s' := by
  cases e with
  | layout height =>
    obtain rfl := Option.some.inj hstep
    rw [introBoxLayout_of_placed h]
    exact h
  | tap => exact (tap_of_placed h hstep).1

theorem flips_of_placed (h : Placed scale s) (e : IntroEvent) : Flips scale s e := by
  cases e with
  | layout height => trivial
  | tap => exact fun s' hstep => (tap_of_placed h hstep).2

section Layout

variable {height : ℚ}

theorem laidOut_eq (scale height : ℚ) :
    laidOut scale height = { isOpen := false, box := some (measure scale height) } := by
  simp [laidOut, introBoxLayout]

theorem measure_of_lt (h : px2dp scale 700 < height) :
    measure scale height =
      ⟨height + px2dp scale 84, px2dp scale 700, px2dp scale 700, 0⟩ :=
  if_pos h

theorem measure_of_le (h : height ≤ px2dp scale 700) :
    measure scale height =
      ⟨height + px2dp scale 40, px2dp scale 700, height + px2dp scale 40, 0⟩ :=
  if_neg (not_lt.mpr h)

theorem measure_measured (hscale : 0 < scale) (hheight : 0 < height) :
    (measure scale height).measured := by
  rcases lt_or_ge (px2dp scale 700) height with hlt | hge
  · rw [measure_of_lt hlt]
    unfold IntroBox.measured px2dp
    constructor <;> positivity
  · rw [measure_of_le hge]
    unfold IntroBox.measured px2dp
    constructor <;> positivity

theorem laidOut_placed (hscale : 0 < scale) (hheight : 0 < height)
    (h : height ≤ px2dp scale 660 ∨ px2dp scale 700 < height) :
    Placed scale (laidOut scale height) := by
  have hmeasured := measure_measured hscale hheight
  rw [laidOut_eq]
  refine ⟨_, rfl, hmeasured, ?_⟩
  rcases lt_or_ge (px2dp scale 700) height with hlt | hge
  · rw [measure_of_lt hlt]
    exact ⟨rfl, fun _ => Or.inl ⟨rfl, rfl, rfl⟩⟩
  · have hlow := h.resolve_right (not_lt.mpr hge)
    rw [measure_of_le hge]
    refine ⟨rfl, fun hrendered => ?_⟩
    unfold px2dp at hlow hrendered
    dsimp only at hrendered
    linarith

theorem not_boxAgrees_between (hscale : 0 < scale) (hheight : 0 < height)
    (hlow : px2dp scale 660 < height) (hhigh : height ≤ px2dp scale 700) :
    ¬ BoxAgrees scale (laidOut scale height) := by
  intro hagrees
  have hrendered : px2dp scale 700 < (measure scale height).initialHeight := by
    rw [measure_of_le hhigh]
    unfold px2dp at hlow ⊢
    dsimp only
    linarith
  have htoggle : toggle scale (laidOut scale height) = some "查看更多图文详情" := by
    rw [laidOut_eq]
    exact if_pos ⟨_, rfl, measure_measured hscale hheight, hrendered⟩
  obtain ⟨b, hb, hbox⟩ := hagrees _ htoggle
  rw [laidOut_eq] at hb hbox
  obtain rfl := Option.some.inj hb
  have hopen := hbox.opened.mpr (by rw [measure_of_le hhigh])
  cases hopen

end Layout

/-- After the first layout, in every run, the box agrees with its toggle and each tap
flips it exactly when the height is not one between the two thresholds. -/
theorem box_agrees_iff {height : ℚ} (hscale : 0 < scale) (hheight : 0 < height)
    (es : List IntroEvent) :
    (Runs.Throughout (IntroState.step scale) (BoxAgrees scale) (laidOut scale height) es ∧
        Runs.Along (IntroState.step scale) (Flips scale) (laidOut scale height) es) ↔
      height ≤ px2dp scale 660 ∨ px2dp scale 700 < height := by
  constructor
  · rintro ⟨hagrees, -⟩
    by_contra hbetween
    rw [not_or, not_le, not_lt] at hbetween
    exact not_boxAgrees_between hscale hheight hbetween.1 hbetween.2 hagrees.start
  · intro h
    have hplaced := laidOut_placed hscale hheight h
    have hstep : ∀ s e s', Placed scale s → s.step scale e = some s' → Placed scale s' :=
      fun _ _ _ => step_placed
    refine ⟨?_, Runs.Along.of_invariant hstep (fun _ e hI => flips_of_placed hI e) hplaced es⟩
    exact Runs.throughout_of_along (fun s e s' hI _ => hstep s e s' hI)
      (fun _ hI => hI.boxAgrees) hplaced
      (Runs.Along.of_invariant hstep (fun _ _ _ => trivial) hplaced es)

theorem high_box_agrees :
    (0 : ℚ) < 1 ∧ (0 : ℚ) < 800 ∧
      Runs.Throughout (IntroState.step 1) (BoxAgrees 1) (laidOut 1 800) [.tap, .layout 884, .tap] :=
  ⟨by norm_num, by norm_num, ((box_agrees_iff (by norm_num) (by norm_num) _).mpr
    (Or.inr (by norm_num [px2dp]))).1⟩

theorem open_box_offers_more :
    ¬ (Runs.Throughout (IntroState.step 1) (BoxAgrees 1) (laidOut 1 680) [] ∧
        Runs.Along (IntroState.step 1) (Flips 1) (laidOut 1 680) []) := by
  rintro ⟨hagrees, -⟩
  exact not_boxAgrees_between (by norm_num) (by norm_num) (by norm_num [px2dp])
    (by norm_num [px2dp]) hagrees

end RNFantuan.Views.ActivityDetail
