import RNFantuan.Views.ListScreen

/-!
# Failed page fetches

A request that brings no page makes the `then` of `onFetch` throw, and the `catch`
calls the same `setLoaded` as a success, with `true` for `isEnd`. So a failure
leaves everything but the spinner as it was only if the list had ended before, or
is gone. `isend` then means what the comment on `setIsend` says, that the last page
is there, as long as nothing else makes the `then` throw.
-/

namespace RNFantuan.Views
open JS Net

variable {α : Type*}

/-- A failed request, once handled, has changed nothing but the spinner. -/
def FailureKeeps (screen : ListScreen) (s : ListState α) : ListEvent α → Prop
  | .respond i o => (fetchData o).res = none →
      ∀ s', s.step screen (.respond i o) = some s' →
        s'.pn = s.pn ∧ s'.data = s.data ∧
          s'.list.map RefreshFlatList.isend = s.list.map RefreshFlatList.isend ∧
          ∀ l ∈ s'.list, l.refreshing = false
  | _ => True

/-- The list is ended only by a page that said so, and otherwise a load-more asks for
the next page. -/
structure StaysOpen (screen : ListScreen) (s : ListState α) : Prop where
  ends : ∀ l ∈ s.list, l.isend = true → s.lastIsEnd = some true
  more : s.list ≠ none → s.lastIsEnd ≠ some true →
    s.step screen .loadMore = some { s with requests := s.requests ++ [s.pn + 1] }

/-- An answer without a page comes only when the list has ended, and a page that is
not the last one can be shown. -/
def Quiet (screen : ListScreen) (s : ListState α) : ListEvent α → Prop
  | .respond i o => ∀ l ∈ s.list, ∀ pn ∈ s.requests[i]?,
      match broughtPage o with
      | none => l.isend = true
      | some body => body.isEnd = true ∨ Fits screen pn body s
  | _ => True

def EndsWithLast (s : ListState α) : Prop :=
  ∀ l ∈ s.list, s.lastIsEnd = some true → l.isend = true

variable {screen : ListScreen} {s s' : ListState α} {e : ListEvent α}

theorem staysOpen_iff :
    StaysOpen screen s ↔ ∀ l ∈ s.list, l.isend = true → s.lastIsEnd = some true := by
  refine ⟨StaysOpen.ends, fun hends => ⟨hends, fun hlist hlast => ?_⟩⟩
  obtain ⟨l, hl⟩ := Option.ne_none_iff_exists'.mp hlist
  have hopen : l.isend = false := by
    by_contra h
    exact hlast (hends l hl (by simpa using h))
  simp [ListState.step, hl, hopen]

/-! ### One answer -/

section Answer

variable {i pn : ℕ} {o : Outcome (PageBody α)} {l : RefreshFlatList}

theorem respond_no_page (hlist : s.list = some l) (hpage : broughtPage o = none) :
    onFetchSettled screen pn o (s.received i o) =
      { s.received i o with list := some ⟨true, false⟩ } :=
  onFetchSettled_of_no_page (s := s.received i o) hlist hpage

theorem received_lastIsEnd_of_no_page (hpage : broughtPage o = none) :
    (s.received i o).lastIsEnd = s.lastIsEnd := by
  simp [ListState.received, hpage]

theorem received_lastIsEnd_of_page {body : PageBody α} (hpage : broughtPage o = some body) :
    (s.received i o).lastIsEnd = some body.isEnd := by
  simp [ListState.received, hpage]

theorem broughtPage_of_failed (hfail : (fetchData o).res = none) : broughtPage o = none := by
  simp [broughtPage, hfail]

theorem respond_isend {body : PageBody α} (hlist : s.list = some l)
    (hpage : broughtPage o = some body) {l' : RefreshFlatList}
    (hl' : (onFetchSettled screen pn o (s.received i o)).list = some l') :
    (Fits screen pn body s → l'.isend = body.isEnd) ∧
      (¬ Fits screen pn body s → l'.isend = true) := by
  constructor
  · intro hfits
    have hshow := onFetchSettled_of_fits (s := s.received i o) hlist hpage hfits
    exact hshow.isend l' hl'
  · intro hfits
    rw [onFetchSettled_of_not_fits (s := s.received i o) hlist hpage hfits] at hl'
    obtain rfl := Option.some.inj hl'
    rfl

variable (screen i pn) in
theorem ended_of_nothing_shown (hlist : s.list = some l) (hpage : broughtPage o = none ∨
    ∃ body, broughtPage o = some body ∧ ¬ Fits screen pn body s) :
    (onFetchSettled screen pn o (s.received i o)).list = some ⟨true, false⟩ := by
  rcases hpage with hpage | ⟨body, hpage, hfits⟩
  · rw [respond_no_page hlist hpage]
  · rw [onFetchSettled_of_not_fits (s := s.received i o) hlist hpage hfits]

theorem respond_staysOpen_iff (hI : EndsWithLast s) (hP : StaysOpen screen s)
    (hreq : s.requests[i]? = some pn) :
    StaysOpen screen (onFetchSettled screen pn o (s.received i o)) ↔
      Quiet screen s (.respond i o) := by
  rw [staysOpen_iff]
  cases hlist : s.list with
  | none =>
    have hreceived : (s.received i o).list = none := hlist
    rw [onFetchSettled_of_unmounted hreceived]
    exact iff_of_true (by simp [hreceived]) (by simp [Quiet, hlist])
  | some l =>
    have hlast := (onFetchSettled_frame screen pn o (s.received i o)).2
    rw [hlast]
    cases hpage : broughtPage o with
    | none =>
      have hset := ended_of_nothing_shown screen i pn hlist
        (Or.inl hpage)
      have hback : s.lastIsEnd = some true ↔ l.isend = true :=
        ⟨hI l hlist, hP.ends l hlist⟩
      simp [hset, Quiet, hlist, hreq, hpage, received_lastIsEnd_of_no_page hpage, hback]
    | some body =>
      rw [received_lastIsEnd_of_page hpage]
      by_cases hfits : Fits screen pn body s
      · refine iff_of_true (fun l' hl' hend => ?_) ?_
        · rw [(respond_isend hlist hpage hl').1 hfits] at hend
          rw [hend]
        · simp [Quiet, hlist, hreq, hpage, hfits]
      · have hset := ended_of_nothing_shown screen i pn hlist
          (Or.inr ⟨body, hpage, hfits⟩)
        simp [hset, Quiet, hlist, hreq, hpage, hfits]

theorem respond_endsWithLast :
    EndsWithLast (onFetchSettled screen pn o (s.received i o)) := by
  intro l' hl' hend
  rw [(onFetchSettled_frame screen pn o (s.received i o)).2] at hend
  cases hlist : s.list with
  | none =>
    have hreceived : (s.received i o).list = none := hlist
    rw [onFetchSettled_of_unmounted hreceived, hreceived] at hl'
    cases hl'
  | some l =>
    cases hpage : broughtPage o with
    | none =>
      rw [ended_of_nothing_shown screen i pn hlist (Or.inl hpage)] at hl'
      obtain rfl := Option.some.inj hl'
      rfl
    | some body =>
      rw [received_lastIsEnd_of_page hpage] at hend
      by_cases hfits : Fits screen pn body s
      · rw [(respond_isend hlist hpage hl').1 hfits]
        exact Option.some.inj hend
      · exact (respond_isend hlist hpage hl').2 hfits

theorem failureKeeps_of_quiet (hok : Quiet screen s e) : FailureKeeps screen s e := by
  cases e with
  | refresh => trivial
  | loadMore => trivial
  | respond i o =>
    intro hfail s' h
    obtain ⟨pn, hreq, rfl⟩ := Option.map_eq_some_iff.mp h
    have hpage := broughtPage_of_failed hfail
    cases hlist : s.list with
    | none =>
      have hreceived : (s.received i o).list = none := hlist
      rw [onFetchSettled_of_unmounted hreceived]
      exact ⟨rfl, rfl, by rw [hreceived], by simp [hreceived]⟩
    | some l =>
      have hend : l.isend = true := by
        simpa [Quiet, hlist, hreq, hpage] using hok
      rw [respond_no_page hlist hpage]
      exact ⟨rfl, rfl, by simp [hend], by simp⟩

end Answer

/-! ### Runs -/

theorem step_endsWithLast (hI : EndsWithLast s) (h : s.step screen e = some s') :
    EndsWithLast s' := by
  cases e with
  | refresh =>
    obtain ⟨l, hlist, rfl⟩ := Option.map_eq_some_iff.mp h
    intro l' hl' hend
    obtain rfl := Option.some.inj hl'
    exact hI l hlist hend
  | loadMore =>
    obtain ⟨l, -, rfl⟩ := Option.map_eq_some_iff.mp h
    split
    · exact hI
    · exact hI
  | respond i o =>
    obtain ⟨pn, -, rfl⟩ := Option.map_eq_some_iff.mp h
    exact respond_endsWithLast

theorem step_staysOpen_iff (hI : EndsWithLast s) (hP : StaysOpen screen s)
    (h : s.step screen e = some s') : StaysOpen screen s' ↔ Quiet screen s e := by
  cases e with
  | refresh =>
    obtain ⟨l, hlist, rfl⟩ := Option.map_eq_some_iff.mp h
    refine iff_of_true (staysOpen_iff.mpr fun l' hl' hend => ?_) trivial
    obtain rfl := Option.some.inj hl'
    exact hP.ends l hlist hend
  | loadMore =>
    obtain ⟨l, -, rfl⟩ := Option.map_eq_some_iff.mp h
    refine iff_of_true (staysOpen_iff.mpr ?_) trivial
    split
    · exact hP.ends
    · exact hP.ends
  | respond i o =>
    obtain ⟨pn, hreq, rfl⟩ := Option.map_eq_some_iff.mp h
    exact respond_staysOpen_iff hI hP hreq

/-- In every run of a list screen, failures change nothing but the spinner and the
list stays open until its last page, exactly when every answer is quiet. -/
theorem failures_change_nothing_iff_quiet (screen : ListScreen) (es : List (ListEvent α)) :
    (Runs.Along (ListState.step screen) (FailureKeeps screen) {} es ∧
        Runs.Throughout (ListState.step screen) (StaysOpen screen) {} es) ↔
      Runs.Along (ListState.step screen) (Quiet screen) {} es := by
  have hstart : EndsWithLast ({} : ListState α) := by
    intro l _ hend
    cases hend
  have hopen : StaysOpen screen ({} : ListState α) := staysOpen_iff.mpr fun l hl hend => by
    obtain rfl := Option.some.inj hl
    cases hend
  have hiff : Runs.Throughout (ListState.step screen) (StaysOpen screen) {} es ↔
      Runs.Along (ListState.step screen) (Quiet screen) {} es :=
    Runs.throughout_iff_along (fun _ _ _ hI _ h _ => step_endsWithLast hI h)
      (fun _ _ _ hI hP h => step_staysOpen_iff hI hP h) hstart hopen
  refine ⟨fun h => hiff.mp h.2, fun hok => ⟨?_, hiff.mpr hok⟩⟩
  exact Runs.Along.mono (I := fun _ => True) (fun _ _ _ _ _ _ => trivial)
    (fun _ _ _ hq => failureKeeps_of_quiet hq) trivial hok

theorem failure_ends_list :
    ¬ (Runs.Along (ListState.step activitysMine) (FailureKeeps activitysMine) {}
          [.respond 0 (.json (some ⟨nat 0, .undefined, some ⟨false, [10], none⟩⟩)), .loadMore,
            .respond 0 .rejected] ∧
        Runs.Throughout (ListState.step activitysMine) (StaysOpen activitysMine) {}
          [.respond 0 (.json (some ⟨nat 0, .undefined, some ⟨false, [10], none⟩⟩)), .loadMore,
            .respond 0 .rejected]) := by
  rintro ⟨hkeeps, -⟩
  have hlast := ((hkeeps _ rfl).2 _ rfl).2 _ rfl
  have hisend : some true = some false := (hlast.1 rfl _ rfl).2.2.1
  cases hisend

end RNFantuan.Views
