import RNFantuan.Runtime.Runs
import Mathlib.Algebra.Order.Field.Basic
import Mathlib.Algebra.Order.Field.Rat
import Mathlib.Tactic.Linarith

/-!
# The header of an activity

`handleScroll` and `setBarStyle` of `ActivityDetail`, and `components/HeadNav.js`.
The header fades in over `range`, and 100 further on `handleScroll` leaves it alone.
That is right when the last event before was past `range` already, and wrong when the
scroll jumps over these 100.
-/

namespace RNFantuan.Views.ActivityDetail

/-- `lib/px2dp.js`, with the scale of the window. -/
def px2dp (scale px : ℚ) : ℚ := px * scale

inductive BarStyle
  | darkContent
  | lightContent
  deriving DecidableEq

/-- `value` is the state of `HeadNav`; `applied` records the calls of the native module. -/
structure HeaderState where
  value : ℚ := 0
  lastBarStyle : Option BarStyle := none
  lastY : ℚ := 0
  applied : List BarStyle := []
  deriving DecidableEq

def setBarStyle (barStyle : BarStyle) (s : HeaderState) : HeaderState :=
  if s.lastBarStyle ≠ some barStyle then
    { s with
      applied := s.applied ++ [barStyle]
      lastBarStyle := some barStyle }
  else s

def range (scale statusBarHeight : ℚ) : ℚ := px2dp scale 332 - statusBarHeight

def handleScroll (range newY : ℚ) (s : HeaderState) : HeaderState :=
  let value := newY / range
  let value := if value > 1 then 1 else value
  let s :=
    if newY < range + 100 then
      { setBarStyle (if value ≥ 1 then .darkContent else .lightContent) s with value := value }
    else s
  { s with lastY := newY }

/-- The list can be scrolled once `fetchActivity` has set the first style. -/
def fetched : HeaderState := setBarStyle .lightContent {}

def scroll (range : ℚ) (s : HeaderState) (y : ℚ) : Option HeaderState :=
  some (handleScroll range y s)

/-! ### `HeadNav` -/

def navText (title : String) (value : ℚ) : String := if value = 1 then title else ""

/-! ### The header as a function of the offset -/

def valueAt (range y : ℚ) : ℚ := min 1 (y / range)

def barStyleAt (range y : ℚ) : BarStyle := if range ≤ y then .darkContent else .lightContent

structure Follows (range : ℚ) (s : HeaderState) : Prop where
  value : s.value = valueAt range s.lastY
  barStyle : s.lastBarStyle = some (barStyleAt range s.lastY)

/-- Of two offsets in a row, the second is not past the margin, or the first is past the
range. -/
def NoJump (range y y' : ℚ) : Prop := y' < range + 100 ∨ range ≤ y

@[simp]
theorem setBarStyle_lastBarStyle (barStyle : BarStyle) (s : HeaderState) :
    (setBarStyle barStyle s).lastBarStyle = some barStyle := by
  unfold setBarStyle
  split
  · rfl
  · rename_i h
    simpa using h

section Scroll

variable {range : ℚ}

@[simp]
theorem handleScroll_lastY (y : ℚ) (s : HeaderState) : (handleScroll range y s).lastY = y := rfl

theorem handleScroll_of_le {y : ℚ} (s : HeaderState) (h : range + 100 ≤ y) :
    handleScroll range y s = { s with lastY := y } := by
  simp [handleScroll, not_lt.mpr h]

theorem clamp_eq_valueAt (y : ℚ) : (if y / range > 1 then 1 else y / range) = valueAt range y := by
  unfold valueAt
  split
  · rename_i h
    exact (min_eq_left h.le).symm
  · rename_i h
    exact (min_eq_right (not_lt.mp h)).symm

theorem valueAt_eq_one (hrange : 0 < range) (y : ℚ) : valueAt range y = 1 ↔ range ≤ y := by
  rw [valueAt, min_eq_left_iff, one_le_div hrange]

theorem handleScroll_of_lt (hrange : 0 < range) {y : ℚ} (s : HeaderState) (h : y < range + 100) :
    Follows range (handleScroll range y s) := by
  have hvalue : (handleScroll range y s).value = valueAt range y := by
    simp only [handleScroll, if_pos h, clamp_eq_valueAt]
  have hstyle : (handleScroll range y s).lastBarStyle =
      some (if valueAt range y ≥ 1 then .darkContent else .lightContent) := by
    simp only [handleScroll, if_pos h, clamp_eq_valueAt, setBarStyle_lastBarStyle]
  refine ⟨hvalue, ?_⟩
  rw [hstyle, handleScroll_lastY, barStyleAt]
  have hiff : valueAt range y ≥ 1 ↔ range ≤ y := by
    rw [ge_iff_le, valueAt, le_min_iff, one_le_div hrange]
    exact ⟨fun h => h.2, fun h => ⟨le_rfl, h⟩⟩
  simp only [hiff]

theorem scroll_follows_iff (hrange : 0 < range) {s : HeaderState} (hs : Follows range s) (y : ℚ) :
    Follows range (handleScroll range y s) ↔ NoJump range s.lastY y := by
  rcases lt_or_ge y (range + 100) with hlt | hge
  · exact iff_of_true (handleScroll_of_lt hrange s hlt) (Or.inl hlt)
  · have hpast : range ≤ y := by linarith
    have hone : valueAt range y = 1 := (valueAt_eq_one hrange y).mpr hpast
    rw [handleScroll_of_le s hge]
    constructor
    · rintro ⟨hvalue, -⟩
      right
      rw [← valueAt_eq_one hrange, ← hs.value]
      exact hvalue.trans hone
    · intro hjump
      have hlast : range ≤ s.lastY := hjump.resolve_left (not_lt.mpr hge)
      refine ⟨?_, ?_⟩
      · exact (hs.value.trans ((valueAt_eq_one hrange _).mpr hlast)).trans hone.symm
      · have hstyle := hs.barStyle
        rw [barStyleAt, if_pos hlast] at hstyle
        rw [barStyleAt, if_pos hpast]
        exact hstyle

theorem along_noJump_iff (s : HeaderState) (ys : List ℚ) :
    Runs.Along (scroll range) (fun s y => NoJump range s.lastY y) s ys ↔
      (s.lastY :: ys).IsChain (NoJump range) := by
  induction ys generalizing s with
  | nil => exact iff_of_true trivial (List.IsChain.singleton _)
  | cons y ys ih =>
    have hnext := ih (handleScroll range y s)
    rw [handleScroll_lastY] at hnext
    rw [List.isChain_cons_cons, ← hnext]
    constructor
    · intro h
      exact h _ rfl
    · rintro h t ht
      obtain rfl := Option.some.inj ht
      exact h

theorem Follows.navText (hrange : 0 < range) {s : HeaderState} (h : Follows range s)
    (title : String) : navText title s.value = if range ≤ s.lastY then title else "" := by
  simp only [ActivityDetail.navText, h.value, valueAt_eq_one hrange]

theorem fetched_follows (hrange : 0 < range) : Follows range fetched where
  value := by simp [fetched, setBarStyle, valueAt]
  barStyle := by simp [fetched, setBarStyle, barStyleAt, hrange]

end Scroll

/-- After every event of a scroll the header is the one of the offset exactly when no
event past the margin follows one that is not past the range. -/
theorem header_follows_iff {scale statusBarHeight : ℚ} (hrange : 0 < range scale statusBarHeight)
    (ys : List ℚ) :
    Runs.Throughout (scroll (range scale statusBarHeight)) (Follows (range scale statusBarHeight))
        fetched ys ↔
      (0 :: ys).IsChain (NoJump (range scale statusBarHeight)) := by
  rw [← show fetched.lastY = 0 from rfl, ← along_noJump_iff]
  refine Runs.throughout_iff_along (I := fun _ => True) (fun _ _ _ _ _ _ _ => trivial)
    (fun s y s' _ hs hstep => ?_) trivial (fetched_follows hrange)
  obtain rfl := Option.some.inj hstep
  exact scroll_follows_iff hrange hs y

theorem header_follows_slow_scroll :
    0 < range 1 20 ∧
      Runs.Throughout (scroll (range 1 20)) (Follows (range 1 20)) fetched [350, 500] := by
  have hrange : 0 < range 1 20 := by norm_num [range, px2dp]
  refine ⟨hrange, (header_follows_iff hrange _).mpr ?_⟩
  norm_num [NoJump, range, px2dp]

theorem header_left_behind :
    0 < range 1 20 ∧
      ¬ Runs.Throughout (scroll (range 1 20)) (Follows (range 1 20)) fetched [500] := by
  refine ⟨by norm_num [range, px2dp], fun h => ?_⟩
  have hvalue := (h.2 _ rfl).value
  rw [handleScroll_of_le _ (by norm_num [range, px2dp])] at hvalue
  have hzero : (0 : ℚ) = valueAt (range 1 20) 500 := hvalue
  norm_num [valueAt, range, px2dp] at hzero

end RNFantuan.Views.ActivityDetail
