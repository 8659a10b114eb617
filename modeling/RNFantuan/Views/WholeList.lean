import RNFantuan.Views.Paging

/-!
# Loading the whole list

Where a refresh or a load-more comes only when no request is outstanding, every answer is
delivered in order. The list then grows by a page with each load-more, up to the last
page, and says so exactly when it has come there.
-/

namespace RNFantuan.Views
open JS Net

variable {α : Type*}

/-- A new request is asked for only when the last one has been answered. -/
def OneByOne (s : ListState α) : PagingEvent → Prop
  | .refresh | .loadMore => s.requests = []
  | .deliver _ => True

instance (s : ListState α) : ∀ e, Decidable (OneByOne s e)
  | .refresh | .loadMore => inferInstanceAs (Decidable (s.requests = []))
  | .deliver _ => isTrue trivial

/-- The page a request that may be outstanding asks for. -/
structure Asked (s : ListState α) (pn : ℕ) : Prop where
  requests : s.requests = [pn]
  mounted : s.list ≠ none
  follows : pn = 1 ∨ s.data ≠ none ∧ pn = s.pn + 1 ∧ ∀ l ∈ s.list, l.isend = false

structure OneByOneInv (server : Server α) (s : ListState α) : Prop where
  beforeFirst : BeforeFirst s
  holds : HoldsPrefix server s
  idle : s.requests = [] → s.lastIsEnd ≠ none
  asked : s.requests = [] ∨ ∃ pn, Asked s pn

/-- The page asked for last. -/
def ListState.reached (s : ListState α) : ℕ := s.requests.headD s.pn

variable {screen : ListScreen} {server : Server α} {s s' : ListState α}

theorem start_oneByOneInv (server : Server α) : OneByOneInv server {} where
  beforeFirst _ := ⟨rfl, by simp⟩
  holds h := absurd rfl h
  idle h := by simp at h
  asked := Or.inr ⟨1, rfl, by simp, Or.inl rfl⟩

theorem refresh_oneByOne (hI : OneByOneInv server s) (hidle : s.requests = [])
    (h : pagingStep screen server s .refresh = some s') :
    OneByOneInv server s' ∧ s'.requests = [1] := by
  have hbefore := pagingStep_beforeFirst hI.beforeFirst h
  have hholds := pagingStep_holdsPrefix (e := .refresh) hI.beforeFirst hI.holds trivial h
  obtain ⟨l, hlist, rfl⟩ := Option.map_eq_some_iff.mp h
  have hrequests : s.requests ++ [1] = [1] := by rw [hidle, List.nil_append]
  exact ⟨⟨hbefore, hholds, by simp, Or.inr ⟨1, hrequests, by simp, Or.inl rfl⟩⟩, hrequests⟩

/-- A load-more asks for the next page, or for nothing at the end. -/
theorem loadMore_oneByOne (hI : OneByOneInv server s) (hidle : s.requests = [])
    (h : pagingStep screen server s .loadMore = some s') :
    OneByOneInv server s' ∧ s'.reached = min (s.reached + 1) server.pages.length := by
  have hbefore := pagingStep_beforeFirst hI.beforeFirst h
  have hholds := pagingStep_holdsPrefix (e := .loadMore) hI.beforeFirst hI.holds trivial h
  obtain ⟨hpos, hle, hdata, hflag⟩ := hI.holds (hI.idle hidle)
  have hreached : s.reached = s.pn := by rw [ListState.reached, hidle]; rfl
  obtain ⟨l, hlist, rfl⟩ := Option.map_eq_some_iff.mp h
  have hend := hflag l hlist
  by_cases hlast : s.pn = server.pages.length
  · rw [if_pos (by simp [hend, hlast])] at hbefore hholds ⊢
    refine ⟨hI, ?_⟩
    omega
  · have hnot : l.isend = false := by simp [hend, hlast]
    rw [if_neg (by simp [hnot])] at hbefore hholds ⊢
    have hrequests : s.requests ++ [s.pn + 1] = [s.pn + 1] := by rw [hidle, List.nil_append]
    have hmounted : s.list ≠ none := by simp [hlist]
    have hloaded : s.data ≠ none := fun hnone => by simp [hdata] at hnone
    have hmore : ∀ l' ∈ s.list, l'.isend = false := by
      intro l' hl'
      obtain rfl : l = l' := Option.some.inj (hlist.symm.trans hl')
      exact hnot
    have hasked : Asked { s with requests := s.requests ++ [s.pn + 1] } (s.pn + 1) :=
      ⟨hrequests, hmounted, Or.inr ⟨hloaded, rfl, hmore⟩⟩
    refine ⟨⟨hbefore, hholds, by simp, Or.inr ⟨s.pn + 1, hasked⟩⟩, ?_⟩
    rw [ListState.reached, hrequests, List.headD_cons]
    omega

theorem deliver_oneByOne {i : ℕ} (hI : OneByOneInv server s)
    (h : pagingStep screen server s (.deliver i) = some s') :
    OneByOneInv server s' ∧ InOrder s (.deliver i) ∧ s'.reached = s.reached := by
  have hbefore := pagingStep_beforeFirst hI.beforeFirst h
  obtain ⟨pn, hreq, hs'⟩ := pagingStep_deliver h
  rcases hI.asked with hnone | ⟨pn', hasked⟩
  · simp [hnone] at hreq
  · have hmem : pn ∈ s.requests := List.mem_of_getElem? hreq
    obtain rfl : pn = pn' := by simpa [hasked.requests] using hmem
    have hi : i = 0 := by
      have hlt := (List.getElem?_eq_some_iff.mp hreq).1
      simpa [hasked.requests] using hlt
    have horder : InOrder s (.deliver i) := by
      intro l hlist pn' hpn'
      obtain rfl : pn = pn' := Option.some.inj (hreq.symm.trans hpn')
      rcases hasked.follows with h1 | ⟨hdata, hnext, hend⟩
      · exact Or.inl h1
      · exact Or.inr ⟨hdata, hend l hlist, hnext⟩
    have hholds := pagingStep_holdsPrefix hI.beforeFirst hI.holds horder h
    obtain ⟨l, hlist⟩ := Option.ne_none_iff_exists'.mp hasked.mounted
    have hfits : pn = 1 ∨ s.data ≠ none := hasked.follows.imp_right fun h => h.1
    have hshow := shows_answer screen server i pn hlist hfits
    rw [← hs'] at hshow
    have hrequests : s'.requests = [] := by
      rw [hshow.requests, hi, ListState.received, hasked.requests]
      rfl
    refine ⟨⟨hbefore, hholds, fun _ => ?_, Or.inl hrequests⟩, horder, ?_⟩
    · rw [hshow.lastIsEnd, received_answer_lastIsEnd]
      simp
    · rw [ListState.reached, ListState.reached, hrequests, hasked.requests, hshow.pn_eq]
      rfl

/-! ### Runs -/

theorem step_oneByOne {e : PagingEvent} (hI : OneByOneInv server s) (hok : OneByOne s e)
    (h : pagingStep screen server s e = some s') : OneByOneInv server s' := by
  cases e with
  | refresh => exact (refresh_oneByOne hI hok h).1
  | loadMore => exact (loadMore_oneByOne hI hok h).1
  | deliver i => exact (deliver_oneByOne hI h).1

def isLoadMore (e : PagingEvent) : Bool := e = .loadMore

theorem reached_first (server : Server α) (h : s.requests = [1]) :
    s.reached = min 1 server.pages.length := by
  have hpos := server.length_pos
  rw [ListState.reached, h, List.headD_cons]
  omega

/-- Between two refreshes the page asked for last counts the load-mores, up to the last
page. -/
theorem reached_run {es : List PagingEvent} {n : ℕ} (hI : OneByOneInv server s)
    (hok : Runs.Along (pagingStep screen server) OneByOne s es) (hnone : .refresh ∉ es)
    (hreached : s.reached = min n server.pages.length)
    (hrun : Runs.exec (pagingStep screen server) s es = some s') :
    s'.reached = min (n + es.countP isLoadMore) server.pages.length := by
  induction es generalizing s n with
  | nil =>
    obtain rfl := Option.some.inj hrun
    exact hreached
  | cons e es ih =>
    obtain ⟨t, ht, hrest⟩ := Runs.exec_cons_eq_some.mp hrun
    obtain ⟨he, hes⟩ := hok t ht
    have hI' := step_oneByOne hI he ht
    have hlater : PagingEvent.refresh ∉ es := fun h => hnone (List.mem_cons_of_mem _ h)
    cases e with
    | refresh => exact absurd List.mem_cons_self hnone
    | loadMore =>
      have hnext : t.reached = min (n + 1) server.pages.length := by
        rw [(loadMore_oneByOne hI he ht).2, hreached]
        omega
      rw [ih hI' hes hlater hnext hrest, List.countP_cons_of_pos rfl]
      congr 1
      omega
    | deliver i =>
      have hnext : t.reached = min n server.pages.length := by
        rw [(deliver_oneByOne hI ht).2.2, hreached]
      rw [ih hI' hes hlater hnext hrest, List.countP_cons_of_neg (by simp [isLoadMore])]

/-- Where requests are made one by one, the list after a refresh and `k` load-mores, all
answered, is the first `k + 1` pages, and its end is shown exactly when these are all. -/
theorem whole_list_loaded (screen : ListScreen) (server : Server α) {es fs : List PagingEvent}
    (hok : Runs.Along (pagingStep screen server) OneByOne {} (es ++ fs))
    (hes : Runs.exec (pagingStep screen server) {} es = some s) (hfirst : s.requests = [1])
    (hnone : .refresh ∉ fs) (hfs : Runs.exec (pagingStep screen server) s fs = some s')
    (hidle : s'.requests = []) :
    s'.data = some (server.upTo (min (1 + fs.countP isLoadMore) server.pages.length)) ∧
      ∀ l ∈ s'.list, l.isend = decide (server.pages.length ≤ 1 + fs.countP isLoadMore) := by
  obtain ⟨hI, hrest⟩ := hok.exec_append (fun _ _ _ hI hok h => step_oneByOne hI hok h)
    (start_oneByOneInv server) hes
  have hreached := reached_run hI hrest hnone (reached_first server hfirst) hfs
  have hI' : OneByOneInv server s' := by
    rw [← List.append_nil fs] at hrest
    exact (hrest.exec_append (fun _ _ _ hI hok h => step_oneByOne hI hok h) hI hfs).1
  have hpn : s'.pn = s'.reached := by
    rw [ListState.reached, hidle]
    rfl
  obtain ⟨-, -, hdata, hend⟩ := hI'.holds (hI'.idle hidle)
  rw [hpn, hreached] at hdata hend
  refine ⟨hdata, fun l hl => (hend l hl).trans (decide_eq_decide.mpr ?_)⟩
  omega

theorem whole_list_loaded_after_refresh :
    ∃ s', Runs.exec (pagingStep activitysJoined threePages) {} ([.deliver 0, .loadMore, .deliver 0,
        .refresh] ++ [.deliver 0, .loadMore, .deliver 0, .loadMore, .deliver 0]) = some s' ∧
      s'.data = some [10, 20, 30] := by
  have hall : threePages.upTo 3 = [10, 20, 30] := by decide
  obtain ⟨hdata, -⟩ := @whole_list_loaded ℕ _ _ activitysJoined threePages [.deliver 0, .loadMore,
    .deliver 0, .refresh] [.deliver 0, .loadMore, .deliver 0, .loadMore, .deliver 0] (by decide) rfl
    rfl (by decide) rfl rfl
  exact ⟨_, rfl, hdata.trans (congrArg some hall)⟩

end RNFantuan.Views
