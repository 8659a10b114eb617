import RNFantuan.Views.ListScreen
import Mathlib.Data.List.TakeDrop

/-!
# Paged lists and the server's pages

A server whose list is fixed during the run answers every request with the page it
asked for. The list screens are then to hold the pages up to the stored `pn`. They
do when every answer is delivered in order: it is the first page, or the page after
those held while the end is not reached. An answer to a second load-more that was
sent before the first one was answered is not.
-/

namespace RNFantuan.Views
open JS Net

variable {α : Type*}

/-- A list cut into pages, `is_end` being true on the last one. Beyond it the server
may answer anything. -/
structure Server (α : Type*) where
  pages : List (List α)
  page : ℕ → PageBody α
  error : Value
  msg : Value
  pages_ne_nil : pages ≠ []
  page_list : ∀ n < pages.length, pages[n]? = some (page (n + 1)).list
  page_isEnd : ∀ n < pages.length, (page (n + 1)).isEnd = decide (n + 1 = pages.length)
  page_summary : ∀ pn, (page pn).summary ≠ none
  error_zero : error.looseEq (nat 0) = true

namespace Server

def answer (server : Server α) (pn : ℕ) : Outcome (PageBody α) :=
  .json (some ⟨server.error, server.msg, some (server.page pn)⟩)

def upTo (server : Server α) (n : ℕ) : List α := (server.pages.take n).flatten

variable (server : Server α)

@[simp]
theorem broughtPage_answer (pn : ℕ) :
    broughtPage (server.answer pn) = some (server.page pn) := by
  simp [broughtPage, answer, fetchData_json, server.error_zero]

theorem length_pos : 0 < server.pages.length := List.length_pos_of_ne_nil server.pages_ne_nil

@[simp]
theorem upTo_zero : server.upTo 0 = [] := rfl

theorem upTo_succ {n : ℕ} (hn : n < server.pages.length) :
    server.upTo (n + 1) = server.upTo n ++ (server.page (n + 1)).list := by
  have hpage := server.page_list n hn
  rw [List.getElem?_eq_getElem hn] at hpage
  simp [upTo, List.take_add_one, List.getElem?_eq_getElem hn, Option.some.inj hpage]

theorem upTo_one : server.upTo 1 = (server.page 1).list := by
  simpa using server.upTo_succ server.length_pos

theorem length_upTo_le (hne : ∀ p ∈ server.pages, p ≠ []) {m n : ℕ} (hmn : m ≤ n)
    (hn : n ≤ server.pages.length) :
    (server.upTo m).length + (n - m) ≤ (server.upTo n).length := by
  induction n, hmn using Nat.le_induction with
  | base => simp
  | succ n hmn ih =>
    have hlt : n < server.pages.length := hn
    have hmem : (server.page (n + 1)).list ∈ server.pages :=
      List.mem_of_getElem? (server.page_list n hlt)
    have hpos := List.length_pos_of_ne_nil (hne _ hmem)
    have hbelow := ih hlt.le
    rw [server.upTo_succ hlt, List.length_append]
    omega

theorem upTo_inj (hne : ∀ p ∈ server.pages, p ≠ []) {m n : ℕ} (hm : m ≤ server.pages.length)
    (hn : n ≤ server.pages.length) (h : server.upTo m = server.upTo n) : m = n := by
  have hlength := congrArg List.length h
  rcases le_total m n with hle | hle
  · have hgrow := server.length_upTo_le hne hle hn
    omega
  · have hgrow := server.length_upTo_le hne hle hm
    omega

end Server

inductive PagingEvent
  | refresh
  | loadMore
  | deliver (i : ℕ)
  deriving DecidableEq

def PagingEvent.event (server : Server α) (s : ListState α) : PagingEvent → ListEvent α
  | .refresh => .refresh
  | .loadMore => .loadMore
  | .deliver i => .respond i (server.answer (s.requests.getD i 1))

def pagingStep (screen : ListScreen) (server : Server α) (s : ListState α) (e : PagingEvent) :
    Option (ListState α) :=
  s.step screen (e.event server s)

/-- After the first response the data are the pages up to the stored `pn`, and
`isend` is the flag of that page. -/
def HoldsPrefix (server : Server α) (s : ListState α) : Prop :=
  s.lastIsEnd ≠ none →
    1 ≤ s.pn ∧ s.pn ≤ server.pages.length ∧ s.data = some (server.upTo s.pn) ∧
      ∀ l ∈ s.list, l.isend = decide (s.pn = server.pages.length)

/-- The answer is the first page, or the one after those held while more are to
come; or the list is gone. -/
def InOrder (s : ListState α) : PagingEvent → Prop
  | .deliver i => ∀ l ∈ s.list, ∀ pn ∈ s.requests[i]?,
      pn = 1 ∨ (s.data ≠ none ∧ l.isend = false ∧ pn = s.pn + 1)
  | _ => True

def BeforeFirst (s : ListState α) : Prop :=
  s.lastIsEnd = none → s.data = none ∧ s.list ≠ none

/-! ### One delivery -/

variable {screen : ListScreen} {server : Server α} {s s' : ListState α}

theorem pagingStep_deliver {i : ℕ} (h : pagingStep screen server s (.deliver i) = some s') :
    ∃ pn, s.requests[i]? = some pn ∧
      s' = onFetchSettled screen pn (server.answer pn) (s.received i (server.answer pn)) := by
  obtain ⟨pn, hpn, rfl⟩ := Option.map_eq_some_iff.mp h
  have hget : s.requests.getD i 1 = pn := by simp [List.getD_eq_getElem?_getD, hpn]
  exact ⟨pn, hpn, by rw [hget]⟩

@[simp]
theorem received_answer_lastIsEnd (i pn : ℕ) :
    (s.received i (server.answer pn)).lastIsEnd = some (server.page pn).isEnd := by
  simp [ListState.received]

theorem fits_received {i pn : ℕ} (h : pn = 1 ∨ s.data ≠ none) :
    Fits screen pn (server.page pn) (s.received i (server.answer pn)) :=
  ⟨h, fun _ => server.page_summary pn⟩

theorem shows_answer (screen : ListScreen) (server : Server α) (i pn : ℕ)
    {l : RefreshFlatList} (hlist : s.list = some l)
    (h : pn = 1 ∨ s.data ≠ none) :
    Shows (onFetchSettled screen pn (server.answer pn) (s.received i (server.answer pn)))
      (s.received i (server.answer pn)) pn (server.page pn) :=
  onFetchSettled_of_fits hlist (server.broughtPage_answer pn) (fits_received h)

theorem deliver_unmounted {i : ℕ} (hlist : s.list = none)
    (h : pagingStep screen server s (.deliver i) = some s') :
    s'.pn = s.pn ∧ s'.data = s.data ∧ s'.list = none := by
  obtain ⟨pn, -, rfl⟩ := pagingStep_deliver h
  have hreceived : (s.received i (server.answer pn)).list = none := hlist
  rw [onFetchSettled_of_unmounted hreceived]
  exact ⟨rfl, rfl, hlist⟩

theorem deliver_holdsPrefix {i : ℕ} (hB : BeforeFirst s) (hP : HoldsPrefix server s)
    (hok : InOrder s (.deliver i)) (h : pagingStep screen server s (.deliver i) = some s') :
    HoldsPrefix server s' := by
  intro _
  cases hlist : s.list with
  | none =>
    have hfirst : s.lastIsEnd ≠ none := fun hn => (hB hn).2 hlist
    obtain ⟨hpn, hdata, hlist'⟩ := deliver_unmounted hlist h
    obtain ⟨hpos, hle, hup, -⟩ := hP hfirst
    rw [hpn, hdata, hlist']
    exact ⟨hpos, hle, hup, by simp⟩
  | some l =>
    obtain ⟨pn, hreq, rfl⟩ := pagingStep_deliver h
    rcases hok l hlist pn hreq with rfl | ⟨hdata, hend, rfl⟩
    · have hshow := shows_answer screen server i 1 hlist (Or.inl rfl)
      rw [hshow.pn_eq, hshow.data_eq]
      refine ⟨le_rfl, server.length_pos, ?_, fun l' hl' => ?_⟩
      · simp [nextData, server.upTo_one]
      · rw [hshow.isend l' hl']
        exact server.page_isEnd 0 server.length_pos
    · have hfirst : s.lastIsEnd ≠ none := fun hn => hdata (hB hn).1
      obtain ⟨hpos, hle, hup, hflag⟩ := hP hfirst
      have hlt : s.pn < server.pages.length := by
        have hne : s.pn ≠ server.pages.length := by simpa [hend] using hflag l hlist
        omega
      have hshow := shows_answer screen server i (s.pn + 1) hlist (Or.inr hdata)
      rw [hshow.pn_eq, hshow.data_eq]
      refine ⟨by omega, hlt, ?_, fun l' hl' => ?_⟩
      · have hreceived : (s.received i (server.answer (s.pn + 1))).data = some (server.upTo s.pn) :=
          hup
        have hne : s.pn ≠ 0 := by omega
        simp [nextData, hreceived, hne, server.upTo_succ hlt]
      · rw [hshow.isend l' hl']
        exact server.page_isEnd s.pn hlt

/-- Out of order the list is broken at once: the data either cannot be appended to,
or end with a page that does not follow. -/
theorem inOrder_of_holdsPrefix (hne : ∀ p ∈ server.pages, p ≠ []) {i : ℕ} (hB : BeforeFirst s)
    (hP : HoldsPrefix server s) (h : pagingStep screen server s (.deliver i) = some s')
    (hP' : HoldsPrefix server s') : InOrder s (.deliver i) := by
  intro l hlist pn hreq
  obtain ⟨pn', hreq', rfl⟩ := pagingStep_deliver h
  obtain rfl : pn = pn' := Option.some.inj (hreq.symm.trans hreq')
  by_cases h1 : pn = 1
  · exact Or.inl h1
  · right
    by_cases hdata : s.data = none
    · -- nothing to append to
      have hfits : ¬ Fits screen pn (server.page pn) (s.received i (server.answer pn)) :=
        fun hf => hf.1.elim h1 (fun hsome => hsome hdata)
      have hreceived : (s.received i (server.answer pn)).list = some l := hlist
      rw [onFetchSettled_of_not_fits hreceived (server.broughtPage_answer pn) hfits] at hP'
      obtain ⟨-, -, hup, -⟩ := hP' (by simp)
      exact absurd (hdata.symm.trans hup) (by simp)
    · have hfirst : s.lastIsEnd ≠ none := fun hn => hdata (hB hn).1
      obtain ⟨hpos, hle, hup, hflag⟩ := hP hfirst
      have hshow := shows_answer screen server i pn hlist (Or.inr hdata)
      obtain ⟨hpos', hle', hup', -⟩ := hP' (by simp [hshow.lastIsEnd])
      rw [hshow.pn_eq] at hpos' hle' hup'
      obtain ⟨m, rfl⟩ : ∃ m, pn = m + 1 := ⟨pn - 1, by omega⟩
      have hreceived : (s.received i (server.answer (m + 1))).data = some (server.upTo s.pn) := hup
      have hm : m ≠ 0 := by omega
      have happ : server.upTo s.pn ++ (server.page (m + 1)).list =
          server.upTo m ++ (server.page (m + 1)).list := by
        rw [hshow.data_eq, server.upTo_succ hle'] at hup'
        simpa [nextData, hreceived, hm] using hup'
      have heq : s.pn = m :=
        server.upTo_inj hne hle (by omega) (List.append_cancel_right happ)
      refine ⟨hdata, ?_, by omega⟩
      rw [hflag l hlist]
      exact decide_eq_false (by omega)

/-! ### Runs -/

theorem pagingStep_beforeFirst {e : PagingEvent} (hB : BeforeFirst s)
    (h : pagingStep screen server s e = some s') : BeforeFirst s' := by
  cases e with
  | refresh =>
    obtain ⟨l, -, rfl⟩ := Option.map_eq_some_iff.mp h
    exact fun hn => ⟨(hB hn).1, by simp⟩
  | loadMore =>
    obtain ⟨l, -, rfl⟩ := Option.map_eq_some_iff.mp h
    split
    · exact hB
    · exact hB
  | deliver i =>
    intro hn
    obtain ⟨pn, -, rfl⟩ := pagingStep_deliver h
    rw [(onFetchSettled_frame screen pn _ _).2, received_answer_lastIsEnd] at hn
    cases hn

theorem pagingStep_holdsPrefix {e : PagingEvent} (hB : BeforeFirst s)
    (hP : HoldsPrefix server s) (hok : InOrder s e)
    (h : pagingStep screen server s e = some s') : HoldsPrefix server s' := by
  cases e with
  | refresh =>
    obtain ⟨l, hlist, rfl⟩ := Option.map_eq_some_iff.mp h
    intro hfirst
    obtain ⟨hpos, hle, hup, hflag⟩ := hP hfirst
    exact ⟨hpos, hle, hup, by simpa using hflag l hlist⟩
  | loadMore =>
    obtain ⟨l, -, rfl⟩ := Option.map_eq_some_iff.mp h
    split
    · exact hP
    · exact hP
  | deliver i => exact deliver_holdsPrefix hB hP hok h

/-- In every run of a list screen the data are at all times a prefix of the server's
pages if every answer is delivered in order, and, where no page is empty, only then. -/
theorem holds_prefix_iff_in_order (screen : ListScreen) (server : Server α)
    (es : List PagingEvent) :
    (Runs.Along (pagingStep screen server) InOrder {} es →
        Runs.Throughout (pagingStep screen server) (HoldsPrefix server) {} es) ∧
      ((∀ p ∈ server.pages, p ≠ []) →
        Runs.Throughout (pagingStep screen server) (HoldsPrefix server) {} es →
          Runs.Along (pagingStep screen server) InOrder {} es) := by
  have hstart : BeforeFirst ({} : ListState α) := fun _ => ⟨rfl, by simp⟩
  have hempty : HoldsPrefix server {} := fun h => absurd rfl h
  refine ⟨?_, fun hne => ?_⟩
  · exact Runs.throughout_of_along (I := fun s => BeforeFirst s ∧ HoldsPrefix server s)
      (fun _ _ _ hI hok h =>
        ⟨pagingStep_beforeFirst hI.1 h, pagingStep_holdsPrefix hI.1 hI.2 hok h⟩)
      (fun _ hI => hI.2) ⟨hstart, hempty⟩
  · refine (Runs.throughout_iff_along (I := BeforeFirst)
      (fun _ _ _ hB _ h _ => pagingStep_beforeFirst hB h) ?_ hstart hempty).mp
    intro s e s' hB hP h
    refine ⟨fun hP' => ?_, fun hok => pagingStep_holdsPrefix hB hP hok h⟩
    cases e with
    | refresh => trivial
    | loadMore => trivial
    | deliver i => exact inOrder_of_holdsPrefix hne hB hP h hP'

def threePages : Server ℕ where
  pages := [[10], [20], [30]]
  page pn := ⟨pn = 3, [10 * pn], some ⟨.str "0", .str "0"⟩⟩
  error := nat 0
  msg := .undefined
  pages_ne_nil := List.cons_ne_nil _ _
  page_list := by decide
  page_isEnd := by decide
  page_summary _ := Option.some_ne_none _
  error_zero := by simp

theorem second_page_shown_twice :
    ¬ Runs.Throughout (pagingStep activitysJoined threePages) (HoldsPrefix threePages) {}
      [.deliver 0, .loadMore, .loadMore, .deliver 0, .deliver 0] := by
  intro h
  have hend := (((((h.2 _ rfl).2 _ rfl).2 _ rfl).2 _ rfl).2 _ rfl) (by decide)
  have hdata : some [10, 20, 20] = some (threePages.upTo 2) := hend.2.2.1
  exact absurd hdata (by decide)

end RNFantuan.Views
