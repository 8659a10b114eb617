import RNFantuan.Net.FetchData
import RNFantuan.Runtime.Runs

/-!
# The paged list screens

`ActivitysJoined`, `ActivitysMine`, `ActivitysSignUpManagement` and
`ActivityJoiners` share `onRefresh`, `onLoadMore` and `onFetch`; they differ in
what `render` shows for an empty list and in whether `setState` sets `loaded` and
reads the summary. The list is a `RefreshFlatList`, whose own state is `isend` and
`refreshing`. While it is not rendered its ref is null and every call on it throws.

A request is known by the `pn` it captured. Requests are answered in any order,
and the answer is handled in one step: `_FetchData`, the `then`, and the `catch`
when the `then` has thrown.
-/

namespace RNFantuan.Views
open JS Net

structure ListScreen where
  rendersEmpty : Bool
  setsLoaded : Bool
  readsSummary : Bool
  deriving DecidableEq

def activitysJoined : ListScreen := ⟨true, true, false⟩

def activitysMine : ListScreen := ⟨true, true, false⟩

def activitysSignUpManagement : ListScreen := ⟨false, false, true⟩

def activityJoiners : ListScreen := ⟨false, true, false⟩

structure Summary where
  ticketCount : Value
  income : Value
  deriving DecidableEq

/-- The `data` of a page: `paging.is_end`, `list` and `summary`. -/
structure PageBody (α : Type*) where
  isEnd : Bool
  list : List α
  summary : Option Summary
  deriving DecidableEq

/-! ### `RefreshFlatList` -/

structure RefreshFlatList where
  isend : Bool := false
  refreshing : Bool := false
  deriving DecidableEq

namespace RefreshFlatList

def setRefreshing (l : RefreshFlatList) (b : Bool) : RefreshFlatList := { l with refreshing := b }

def setIsend (l : RefreshFlatList) (b : Bool) : RefreshFlatList := { l with isend := b }

def setLoaded (l : RefreshFlatList) (isEnd : Bool) : RefreshFlatList :=
  (l.setIsend isEnd).setRefreshing false

@[simp]
theorem setRefreshing_isend (l : RefreshFlatList) (b : Bool) :
    (l.setRefreshing b).isend = l.isend := rfl

@[simp]
theorem setLoaded_eq (l : RefreshFlatList) (isEnd : Bool) : l.setLoaded isEnd = ⟨isEnd, false⟩ :=
  rfl

end RefreshFlatList

/-! ### The screens -/

variable {α : Type*}

/-- The state of a screen, the ref of its list, and the outstanding requests, the
first of them from mounting. `lastIsEnd` records the `is_end` of the last page
received. -/
structure ListState (α : Type*) where
  pn : ℕ := 1
  data : Option (List α) := none
  loaded : Bool := false
  dataCount : Summary := ⟨.str "0", .str "0"⟩
  list : Option RefreshFlatList := some {}
  requests : List ℕ := [1]
  lastIsEnd : Option Bool := none
  deriving DecidableEq

/-- `render` unmounts the list of a loaded screen without data. -/
def render (screen : ListScreen) (s : ListState α) : ListState α :=
  if screen.rendersEmpty ∧ s.loaded ∧ s.data.getD [] = [] then { s with list := none }
  else { s with list := some (s.list.getD {}) }

section Render

variable (screen : ListScreen) (s : ListState α)

@[simp]
theorem render_pn : (render screen s).pn = s.pn := by
  unfold render
  split <;> rfl

@[simp]
theorem render_data : (render screen s).data = s.data := by
  unfold render
  split <;> rfl

@[simp]
theorem render_requests : (render screen s).requests = s.requests := by
  unfold render
  split <;> rfl

@[simp]
theorem render_lastIsEnd : (render screen s).lastIsEnd = s.lastIsEnd := by
  unfold render
  split <;> rfl

theorem render_list {l : RefreshFlatList} (hlist : s.list = some l) :
    (render screen s).list = none ∨ (render screen s).list = some l := by
  unfold render
  split
  · exact Or.inl rfl
  · exact Or.inr (by simp [hlist])

end Render

/-- `pn == 1 ? res.data.list : this.state.data.concat(res.data.list)`; `null` has no
`concat`. -/
def nextData (pn : ℕ) (data : Option (List α)) (body : PageBody α) : Option (List α) :=
  if pn = 1 then some body.list else data.map (· ++ body.list)

/-- The `setState` of `onFetch`; `none` when one of its arguments throws. -/
def setPage (screen : ListScreen) (pn : ℕ) (body : PageBody α) (s : ListState α) :
    Option (ListState α) :=
  (nextData pn s.data body).bind fun data =>
    (if screen.readsSummary then body.summary else some s.dataCount).map fun dataCount =>
      render screen { s with
        pn := pn
        data := some data
        dataCount := dataCount
        loaded := s.loaded || screen.setsLoaded }

/-- The `then` of `onFetch`: the state it leaves, and whether it threw. -/
def onFetchThen (screen : ListScreen) (pn : ℕ) (res : Option (Response (PageBody α)))
    (s : ListState α) : ListState α × Bool :=
  match s.list, res.bind Response.data with
  | some l, some body =>
    let s := { s with list := some (l.setLoaded body.isEnd) }
    match setPage screen pn body s with
    | some s' => (s', false)
    | none => (s, true)
  | _, _ => (s, true)

/-- `this.pullToRefreshListView.setLoaded(true)`, which throws on a null ref. -/
def onFetchCatch (s : ListState α) : ListState α :=
  { s with list := s.list.map fun l => l.setLoaded true }

def onFetchSettled (screen : ListScreen) (pn : ℕ) (o : Outcome (PageBody α))
    (s : ListState α) : ListState α :=
  match onFetchThen screen pn (fetchData o).res s with
  | (s, true) => onFetchCatch s
  | (s, false) => s

inductive ListEvent (α : Type*)
  | refresh
  | loadMore
  | respond (i : ℕ) (o : Outcome (PageBody α))

def broughtPage (o : Outcome (PageBody α)) : Option (PageBody α) :=
  (fetchData o).res.bind Response.data

def ListState.received (s : ListState α) (i : ℕ) (o : Outcome (PageBody α)) : ListState α :=
  { s with
    requests := s.requests.eraseIdx i
    lastIsEnd := (broughtPage o).map PageBody.isEnd <|> s.lastIsEnd }

def ListState.step (screen : ListScreen) (s : ListState α) : ListEvent α → Option (ListState α)
  | .refresh => s.list.map fun l =>
      { s with
        list := some (l.setRefreshing true)
        requests := s.requests ++ [1] }
  | .loadMore => s.list.map fun l =>
      if l.isend then s else { s with requests := s.requests ++ [s.pn + 1] }
  | .respond i o => s.requests[i]?.map fun pn => onFetchSettled screen pn o (s.received i o)

/-! ### What an answer does -/

def Fits (screen : ListScreen) (pn : ℕ) (body : PageBody α) (s : ListState α) : Prop :=
  (pn = 1 ∨ s.data ≠ none) ∧ (screen.readsSummary = true → body.summary ≠ none)

variable {screen : ListScreen} {pn : ℕ} {o : Outcome (PageBody α)} {s : ListState α}

theorem onFetchSettled_of_unmounted (hlist : s.list = none) :
    onFetchSettled screen pn o s = s := by
  have hcatch : onFetchCatch s = s := by
    obtain ⟨⟩ := s
    subst hlist
    rfl
  simpa [onFetchSettled, onFetchThen, hlist] using hcatch

theorem onFetchSettled_of_no_page {l : RefreshFlatList} (hlist : s.list = some l)
    (hpage : broughtPage o = none) :
    onFetchSettled screen pn o s = { s with list := some ⟨true, false⟩ } := by
  have hdata : (fetchData o).res.bind Response.data = none := hpage
  simp [onFetchSettled, onFetchThen, onFetchCatch, hlist, hdata]

theorem setPage_eq_none {body : PageBody α} :
    setPage screen pn body s = none ↔ ¬ Fits screen pn body s := by
  unfold setPage nextData Fits
  by_cases h1 : pn = 1 <;> cases s.data <;> cases screen.readsSummary <;>
    cases body.summary <;> simp [h1]

theorem onFetchSettled_of_not_fits {l : RefreshFlatList} {body : PageBody α}
    (hlist : s.list = some l) (hpage : broughtPage o = some body)
    (hfits : ¬ Fits screen pn body s) :
    onFetchSettled screen pn o s = { s with list := some ⟨true, false⟩ } := by
  have hdata : (fetchData o).res.bind Response.data = some body := hpage
  have hset : setPage screen pn body { s with list := some ⟨body.isEnd, false⟩ } = none :=
    setPage_eq_none.mpr hfits
  simp [onFetchSettled, onFetchThen, onFetchCatch, hlist, hdata, hset]

structure Shows (s' s : ListState α) (pn : ℕ) (body : PageBody α) : Prop where
  pn_eq : s'.pn = pn
  data_eq : s'.data = nextData pn s.data body
  isend : ∀ l ∈ s'.list, l.isend = body.isEnd
  requests : s'.requests = s.requests
  lastIsEnd : s'.lastIsEnd = s.lastIsEnd

theorem onFetchSettled_of_fits {l : RefreshFlatList} {body : PageBody α}
    (hlist : s.list = some l) (hpage : broughtPage o = some body)
    (hfits : Fits screen pn body s) :
    Shows (onFetchSettled screen pn o s) s pn body := by
  have hdata : (fetchData o).res.bind Response.data = some body := hpage
  cases hset : setPage screen pn body { s with list := some ⟨body.isEnd, false⟩ } with
  | none =>
    have hnot : ¬ Fits screen pn body { s with list := some ⟨body.isEnd, false⟩ } :=
      setPage_eq_none.mp hset
    exact absurd hfits hnot
  | some s' =>
    have hsettled : onFetchSettled screen pn o s = s' := by
      simp [onFetchSettled, onFetchThen, hlist, hdata, hset]
    rw [hsettled]
    obtain ⟨data, hnext, count, -, rfl⟩ :
        ∃ data, nextData pn s.data body = some data ∧ ∃ count, _ ∧ _ = s' := by
      simpa [setPage, Option.bind_eq_some_iff, Option.map_eq_some_iff] using hset
    have hrender := render_list screen { s with
      pn := pn
      data := some data
      dataCount := count
      loaded := s.loaded || screen.setsLoaded
      list := some ⟨body.isEnd, false⟩ } rfl
    refine ⟨by simp, by simp [hnext], fun l' hl' => ?_, by simp, by simp⟩
    rcases hrender with hnone | hsome
    · rw [hnone] at hl'
      cases hl'
    · obtain rfl : ⟨body.isEnd, false⟩ = l' := Option.some.inj (hsome.symm.trans hl')
      rfl

theorem onFetchSettled_frame (screen : ListScreen) (pn : ℕ) (o : Outcome (PageBody α))
    (s : ListState α) :
    (onFetchSettled screen pn o s).requests = s.requests ∧
      (onFetchSettled screen pn o s).lastIsEnd = s.lastIsEnd := by
  cases hlist : s.list with
  | none =>
    rw [onFetchSettled_of_unmounted hlist]
    exact ⟨rfl, rfl⟩
  | some l =>
    cases hpage : broughtPage o with
    | none =>
      rw [onFetchSettled_of_no_page hlist hpage]
      exact ⟨rfl, rfl⟩
    | some body =>
      by_cases hfits : Fits screen pn body s
      · have hshow := onFetchSettled_of_fits hlist hpage hfits
        exact ⟨hshow.requests, hshow.lastIsEnd⟩
      · rw [onFetchSettled_of_not_fits hlist hpage hfits]
        exact ⟨rfl, rfl⟩

end RNFantuan.Views
