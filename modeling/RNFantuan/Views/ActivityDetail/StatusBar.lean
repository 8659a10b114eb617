import RNFantuan.Views.ActivityDetail.Header
import RNFantuan.Views.ActivityDetail.Page

/-!
# The status bar between pages

The status bar is one for all pages, and nothing but the pages that show an activity sets
its style. To the list of joiners such a page hands over a dark bar, and it does not look
at the bar when it is shown again.

Each page has a `lastBarStyle` of its own, and makes the bar dark when it is left. Its
answer may still be under way then, and the `then` of `fetchActivity` makes the bar light
whether the page is there or not.
-/

namespace RNFantuan.Views.ActivityDetail
open Net

/-! ### Back from the joiners -/

/-- A page with its activity; `covered` while the joiners are shown over it, when it is not
scrolled. -/
structure TopPage where
  header : HeaderState := fetched
  covered : Bool := false

inductive TopEvent
  | scroll (y : ℚ)
  | joiners
  | back

def TopPage.step (range : ℚ) (s : TopPage) : TopEvent → Option TopPage
  | .scroll y =>
    if s.covered then none else some { s with header := handleScroll range y s.header }
  | .joiners =>
    if s.covered then none
    else some { header := setBarStyle .darkContent s.header, covered := true }
  | .back => if s.covered then some { s with covered := false } else none

def FollowsOnTop (range : ℚ) (s : TopPage) : Prop := s.covered = false → Follows range s.header

/-- The scroll does not jump, and the page is come back to where its bar is dark anyway. -/
def ComesBackDark (range : ℚ) (s : TopPage) : TopEvent → Prop
  | .scroll y => NoJump range s.header.lastY y
  | .joiners => True
  | .back => range ≤ s.header.lastY

/-- What the joiners cover. -/
def CoveredDark (range : ℚ) (s : TopPage) : Prop :=
  s.covered = true →
    s.header.value = valueAt range s.header.lastY ∧ s.header.lastBarStyle = some .darkContent

theorem setBarStyle_frame (style : BarStyle) (h : HeaderState) :
    (setBarStyle style h).value = h.value ∧ (setBarStyle style h).lastY = h.lastY := by
  unfold setBarStyle
  split <;> exact ⟨rfl, rfl⟩

theorem follows_of_dark {range : ℚ} {h : HeaderState} (hvalue : h.value = valueAt range h.lastY)
    (hdark : h.lastBarStyle = some .darkContent) : Follows range h ↔ range ≤ h.lastY := by
  constructor
  · intro hfollows
    have hstyle := hdark.symm.trans hfollows.barStyle
    by_contra hlow
    rw [barStyleAt, if_neg hlow] at hstyle
    cases hstyle
  · intro hpast
    refine ⟨hvalue, ?_⟩
    rw [hdark, barStyleAt, if_pos hpast]

theorem step_coveredDark {range : ℚ} {s s' : TopPage} {e : TopEvent}
    (hP : FollowsOnTop range s) (h : s.step range e = some s') : CoveredDark range s' := by
  intro hcovered
  cases e with
  | scroll y =>
    simp only [TopPage.step] at h
    split_ifs at h with hs
    obtain rfl := Option.some.inj h
    exact absurd hcovered hs
  | joiners =>
    simp only [TopPage.step] at h
    split_ifs at h with hs
    obtain rfl := Option.some.inj h
    obtain ⟨hvalue, hlastY⟩ := setBarStyle_frame .darkContent s.header
    refine ⟨?_, setBarStyle_lastBarStyle _ _⟩
    dsimp only
    rw [hvalue, hlastY]
    exact (hP (by simpa using hs)).value
  | back =>
    simp only [TopPage.step] at h
    split_ifs at h
    obtain rfl := Option.some.inj h
    cases hcovered

theorem step_followsOnTop {range : ℚ} (hrange : 0 < range) {s s' : TopPage} {e : TopEvent}
    (hI : CoveredDark range s) (hP : FollowsOnTop range s) (h : s.step range e = some s') :
    FollowsOnTop range s' ↔ ComesBackDark range s e := by
  cases e with
  | scroll y =>
    simp only [TopPage.step] at h
    split_ifs at h with hs
    obtain rfl := Option.some.inj h
    have hs : s.covered = false := by simpa using hs
    have hiff := scroll_follows_iff hrange (hP hs) y
    exact ⟨fun hfollows => hiff.mp (hfollows hs), fun hjump _ => hiff.mpr hjump⟩
  | joiners =>
    simp only [TopPage.step] at h
    split_ifs at h
    obtain rfl := Option.some.inj h
    exact iff_of_true (fun hfree => by cases hfree) trivial
  | back =>
    simp only [TopPage.step] at h
    split_ifs at h with hs
    obtain rfl := Option.some.inj h
    obtain ⟨hvalue, hdark⟩ := hI hs
    have hiff := follows_of_dark hvalue hdark
    exact ⟨fun hfollows => hiff.mp (hfollows rfl), fun hpast _ => hiff.mpr hpast⟩

/-- In every run of a page from which the joiners are opened and come back from, its header
and its bar are those of the offset whenever it is on top exactly when no scroll jumps and
it is come back to past the range only. -/
theorem follows_on_top_iff {scale statusBarHeight : ℚ}
    (hrange : 0 < range scale statusBarHeight) (es : List TopEvent) :
    Runs.Throughout (TopPage.step (range scale statusBarHeight))
        (FollowsOnTop (range scale statusBarHeight)) {} es ↔
      Runs.Along (TopPage.step (range scale statusBarHeight))
        (ComesBackDark (range scale statusBarHeight)) {} es :=
  Runs.throughout_iff_along (fun _ _ _ _ hP h _ => step_coveredDark hP h)
    (fun _ _ _ hI hP h => step_followsOnTop hrange hI hP h)
    (fun hcovered => by cases hcovered) (fun _ => fetched_follows hrange)

theorem follows_after_joiners :
    0 < range 1 20 ∧
      Runs.Throughout (TopPage.step (range 1 20)) (FollowsOnTop (range 1 20)) {}
        [.scroll 350, .joiners, .back, .scroll 100] ∧
      ¬ Runs.Throughout (TopPage.step (range 1 20)) (FollowsOnTop (range 1 20)) {}
        [.joiners, .back] := by
  have hrange : 0 < range 1 20 := by norm_num [range, px2dp]
  refine ⟨hrange, (follows_on_top_iff hrange _).mpr ?_, fun h => ?_⟩
  · norm_num [Runs.Along, TopPage.step, ComesBackDark, NoJump, range, px2dp, setBarStyle_frame]
  · have hback := (((follows_on_top_iff hrange _).mp h _ rfl).2 _ rfl).1
    norm_num [ComesBackDark, setBarStyle_frame, range, px2dp, fetched] at hback

/-! ### All pages -/

structure OpenPage where
  activity : Activity := {}
  fetching : Bool := true
  mounted : Bool := true
  header : HeaderState := {}

/-- The pages in the order of their mounting, also those that have been left. `calls` are
the calls that set the style, newest first, with the page that made them. -/
structure Bar where
  pages : List OpenPage := []
  crashed : Bool := false
  calls : List (ℕ × BarStyle) := []

inductive BarEvent
  | openPage
  | fetched (i : ℕ) (o : Outcome ActivityBody)
  | scroll (i : ℕ) (y : ℚ)
  | joiners (i : ℕ)
  | leave (i : ℕ)

/-- The `_obj` that the `then` of `fetchActivity` arrives at, if it does. -/
def broughtActivity (o : Outcome ActivityBody) : Option Activity :=
  ((fetchData o).res.bind Response.data).bind fun body => (fetchedActivity body).toOption

namespace OpenPage

def shown (p : OpenPage) : Bool := p.mounted && !p.activity.loading

def joined (p : OpenPage) : Bool := p.activity.join.any fun users => users ≠ []

/-- `componentWillUnmount`. -/
def unmount (p : OpenPage) : OpenPage :=
  { p with
    mounted := false
    header := setBarStyle .darkContent p.header }

end OpenPage

namespace Bar

def setPage (i : ℕ) (p q : OpenPage) (s : Bar) : Bar :=
  { s with
    pages := s.pages.set i q
    calls := ((q.header.applied.drop p.header.applied.length).map fun style => (i, style)).reverse
      ++ s.calls }

def leave (s : Bar) (i : ℕ) : Bar :=
  match s.pages[i]? with
  | some p => if p.mounted then s.setPage i p p.unmount else s
  | none => s

/-- `setState` and `setParams` do nothing for a page that has been left. Where `render`
throws, the whole tree is unmounted, and `setBarStyle` is not reached. -/
def answered (i : ℕ) (p : OpenPage) (o : Outcome ActivityBody) (s : Bar) : Bar :=
  match broughtActivity o with
  | none => s.setPage i p { p with fetching := false }
  | some a =>
    if p.mounted then
      match renderActivity a with
      | .ok () => s.setPage i p { p with
          activity := a
          fetching := false
          header := setBarStyle .lightContent p.header }
      | .error _ =>
        let s := s.setPage i p { p with fetching := false }
        { (List.range s.pages.length).foldl leave s with crashed := true }
    else s.setPage i p { p with
      fetching := false
      header := setBarStyle .lightContent p.header }

def step (range : ℚ) (s : Bar) : BarEvent → Option Bar
  | .openPage => if s.crashed then none else some { s with pages := s.pages ++ [{}] }
  | .fetched i o => s.pages[i]?.bind fun p => if p.fetching then some (s.answered i p o) else none
  | .scroll i y => s.pages[i]?.bind fun p =>
      if p.shown then some (s.setPage i p { p with header := handleScroll range y p.header })
      else none
  | .joiners i => s.pages[i]?.bind fun p =>
      if p.shown ∧ p.joined then
        some (s.setPage i p { p with header := setBarStyle .darkContent p.header })
      else none
  | .leave i => s.pages[i]?.bind fun p => if p.mounted then some (s.leave i) else none

/-- A light bar has been made so by a page that is still there. -/
def Owned (s : Bar) : Prop :=
  ∀ i, s.calls.head? = some (i, .lightContent) → ∃ p, s.pages[i]? = some p ∧ p.mounted = true

/-- An activity comes while its page is there. -/
def OnTime (s : Bar) : BarEvent → Prop
  | .fetched i o => broughtActivity o ≠ none → ∀ p ∈ s.pages[i]?, p.mounted = true
  | _ => True

end Bar

/-! ### The calls of one page -/

/-- A handler sets the style at most once, and remembers what it has set. -/
inductive Remembers (h h' : HeaderState) : Prop
  | quiet : h'.applied = h.applied → h'.lastBarStyle = h.lastBarStyle → Remembers h h'
  | sets (style : BarStyle) : h'.applied = h.applied ++ [style] →
      h'.lastBarStyle = some style → Remembers h h'

theorem setBarStyle_remembers (style : BarStyle) (h : HeaderState) :
    Remembers h (setBarStyle style h) := by
  unfold setBarStyle
  split
  · exact .sets style rfl rfl
  · exact .quiet rfl rfl

theorem handleScroll_remembers (range y : ℚ) (h : HeaderState) :
    Remembers h (handleScroll range y h) := by
  simp only [handleScroll]
  split
  · rcases setBarStyle_remembers (if (if y / range > 1 then 1 else y / range) ≥ 1 then
      .darkContent else .lightContent) h with ⟨happlied, hlast⟩ | ⟨style, happlied, hlast⟩
    · exact .quiet happlied hlast
    · exact .sets style happlied hlast
  · exact .quiet rfl rfl

/-! ### The bar and what the pages remember -/

structure BarInv (s : Bar) : Prop where
  gone : ∀ p ∈ s.pages, p.mounted = false → p.header.lastBarStyle = some .darkContent
  last : ∀ i style, s.calls.head? = some (i, style) →
    ∃ p, s.pages[i]? = some p ∧ p.header.lastBarStyle = some style

variable {range : ℚ} {s s' : Bar} {i : ℕ} {p q : OpenPage}

theorem BarInv.owned (hs : BarInv s) : s.Owned := by
  intro i hlight
  obtain ⟨p, hp, hlast⟩ := hs.last i .lightContent hlight
  refine ⟨p, hp, ?_⟩
  by_contra hleft
  rw [Bool.not_eq_true] at hleft
  rw [hs.gone p (List.mem_of_getElem? hp) hleft] at hlast
  cases hlast

theorem setPage_inv (hs : BarInv s) (hp : s.pages[i]? = some p)
    (hcalls : Remembers p.header q.header)
    (hgone : q.mounted = false → q.header.lastBarStyle = some .darkContent) :
    BarInv (s.setPage i p q) := by
  have hi : i < s.pages.length := (List.getElem?_eq_some_iff.mp hp).1
  have hq : (s.pages.set i q)[i]? = some q := List.getElem?_set_self hi
  refine ⟨fun r hr hleft => ?_, fun j style hhead => ?_⟩
  · rcases List.mem_or_eq_of_mem_set hr with hold | rfl
    · exact hs.gone r hold hleft
    · exact hgone hleft
  · rcases hcalls with ⟨happlied, hlast⟩ | ⟨style', happlied, hlast⟩
    · simp only [Bar.setPage, happlied, List.drop_length, List.map_nil, List.reverse_nil,
        List.nil_append] at hhead
      obtain ⟨r, hr, hstyle⟩ := hs.last j style hhead
      by_cases hj : i = j
      · subst hj
        obtain rfl := Option.some.inj (hp.symm.trans hr)
        exact ⟨q, hq, hlast.trans hstyle⟩
      · exact ⟨r, (List.getElem?_set_ne hj).trans hr, hstyle⟩
    · simp only [Bar.setPage, happlied, List.drop_left, List.map_cons, List.map_nil,
        List.reverse_singleton, List.singleton_append, List.head?_cons, Option.some.injEq,
        Prod.mk.injEq] at hhead
      obtain ⟨rfl, rfl⟩ := hhead
      exact ⟨q, hq, hlast⟩

theorem leave_inv (hs : BarInv s) (i : ℕ) : BarInv (s.leave i) := by
  unfold Bar.leave
  split
  · rename_i p hp
    split_ifs
    · exact setPage_inv hs hp (setBarStyle_remembers _ _) fun _ => setBarStyle_lastBarStyle _ _
    · exact hs
  · exact hs

theorem foldl_leave_inv (hs : BarInv s) (is : List ℕ) : BarInv (is.foldl Bar.leave s) := by
  induction is generalizing s with
  | nil => exact hs
  | cons i is ih => exact ih (leave_inv hs i)

theorem answered_inv {o : Outcome ActivityBody} (hs : BarInv s) (hp : s.pages[i]? = some p)
    (htime : broughtActivity o ≠ none → p.mounted = true) : BarInv (s.answered i p o) := by
  have hquiet : BarInv (s.setPage i p { p with fetching := false }) :=
    setPage_inv hs hp (.quiet rfl rfl) (hs.gone p (List.mem_of_getElem? hp))
  unfold Bar.answered
  split
  · exact hquiet
  · rename_i a ha
    have hmounted := htime (by simp [ha])
    rw [if_pos hmounted]
    split
    · exact setPage_inv hs hp (setBarStyle_remembers _ _) fun hleft => by simp [hmounted] at hleft
    · have hall := foldl_leave_inv hquiet
        (List.range (s.setPage i p { p with fetching := false }).pages.length)
      exact ⟨hall.gone, hall.last⟩

theorem step_barInv {e : BarEvent} (hs : BarInv s) (htime : s.OnTime e)
    (h : s.step range e = some s') : BarInv s' := by
  cases e with
  | openPage =>
    simp only [Bar.step] at h
    split_ifs at h
    obtain rfl := Option.some.inj h
    refine ⟨fun p hp hleft => ?_, fun i style hhead => ?_⟩
    · rcases List.mem_append.mp hp with hold | hnew
      · exact hs.gone p hold hleft
      · obtain rfl := List.mem_singleton.mp hnew
        cases hleft
    · obtain ⟨p, hp, hlast⟩ := hs.last i style hhead
      have hi : i < s.pages.length := (List.getElem?_eq_some_iff.mp hp).1
      exact ⟨p, (List.getElem?_append_left hi).trans hp, hlast⟩
  | fetched i o =>
    obtain ⟨p, hp, h⟩ := Option.bind_eq_some_iff.mp h
    split_ifs at h
    obtain rfl := Option.some.inj h
    exact answered_inv hs hp fun hbrought => htime hbrought p hp
  | scroll i y =>
    obtain ⟨p, hp, h⟩ := Option.bind_eq_some_iff.mp h
    split_ifs at h with hshown
    obtain rfl := Option.some.inj h
    have hmounted := (Bool.and_eq_true _ _ ▸ hshown).1
    exact setPage_inv hs hp (handleScroll_remembers _ _ _) fun hleft => by simp [hmounted] at hleft
  | joiners i =>
    obtain ⟨p, hp, h⟩ := Option.bind_eq_some_iff.mp h
    split_ifs at h
    obtain rfl := Option.some.inj h
    exact setPage_inv hs hp (setBarStyle_remembers _ _) fun _ => setBarStyle_lastBarStyle _ _
  | leave i =>
    obtain ⟨p, hp, h⟩ := Option.bind_eq_some_iff.mp h
    split_ifs at h
    obtain rfl := Option.some.inj h
    exact leave_inv hs i

/-- The page that has been left remembers a dark bar, so it sets it. -/
theorem late_not_owned {o : Outcome ActivityBody} (hs : BarInv s) (hp : s.pages[i]? = some p)
    (hbrought : broughtActivity o ≠ none) (hleft : p.mounted = false) :
    ¬ (s.answered i p o).Owned := by
  obtain ⟨a, ha⟩ := Option.ne_none_iff_exists'.mp hbrought
  have hlast := hs.gone p (List.mem_of_getElem? hp) hleft
  have hi : i < s.pages.length := (List.getElem?_eq_some_iff.mp hp).1
  have hset : setBarStyle .lightContent p.header =
      { p.header with
        applied := p.header.applied ++ [.lightContent]
        lastBarStyle := some .lightContent } := if_pos (by simp [hlast])
  have hanswered : s.answered i p o = s.setPage i p { p with
      fetching := false
      header := setBarStyle .lightContent p.header } := by
    simp [Bar.answered, ha, hleft]
  rw [hanswered]
  intro howned
  obtain ⟨q, hq, hmounted⟩ := howned i (by simp [Bar.setPage, hset])
  obtain rfl := Option.some.inj ((List.getElem?_set_self hi).symm.trans hq)
  simp [hleft] at hmounted

theorem step_owned_iff {e : BarEvent} (hs : BarInv s) (h : s.step range e = some s') :
    s'.Owned ↔ s.OnTime e := by
  refine ⟨fun howned => ?_, fun htime => (step_barInv hs htime h).owned⟩
  cases e with
  | fetched i o =>
    intro hbrought p hp
    obtain ⟨p', hp', h⟩ := Option.bind_eq_some_iff.mp h
    obtain rfl := Option.some.inj (hp'.symm.trans hp)
    split_ifs at h
    obtain rfl := Option.some.inj h
    by_contra hleft
    exact late_not_owned hs hp' hbrought (by simpa using hleft) howned
  | _ => trivial

/-- In every run of pages that are opened, scrolled and left in any order, a light bar is
always that of a page still there exactly when no activity comes after its page was left. -/
theorem light_bar_owned_iff (range : ℚ) (es : List BarEvent) :
    Runs.Throughout (Bar.step range) Bar.Owned {} es ↔
      Runs.Along (Bar.step range) Bar.OnTime {} es := by
  have hstart : BarInv {} := ⟨by simp, by simp⟩
  exact Runs.throughout_iff_along
    (fun s e s' hs _ h howned => step_barInv hs ((step_owned_iff hs h).mp howned) h)
    (fun s e s' hs _ h => step_owned_iff hs h) hstart hstart.owned

/-- The page is left before its activity comes. -/
example : (Runs.exec (Bar.step 100) {} [.openPage, .leave 0,
    .fetched 0 (.json (some ⟨JS.nat 0, .undefined, some onSale⟩))]).map Bar.calls =
    some [(0, .lightContent), (0, .darkContent)] := rfl

end RNFantuan.Views.ActivityDetail
