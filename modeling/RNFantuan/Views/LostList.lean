import RNFantuan.Views.ListScreen

/-!
# Answers that find no list

`onFetch` calls `setLoaded` before it looks at the page, and its `catch` calls
`setLoaded` again. On a null ref both throw, so the second exception leaves the
chain and the page is lost. The ref is null while a screen shows `ActivityEmpty`,
and after the screen has been unmounted; a request issued before is answered then
all the same.
-/

namespace RNFantuan.Views
open JS Net

variable {α : Type*}

/-- Whether an exception leaves the chain: the `then` has thrown, and the `catch` finds
no list. -/
def onFetchEscapes (screen : ListScreen) (pn : ℕ) (o : Outcome (PageBody α))
    (s : ListState α) : Bool :=
  match onFetchThen screen pn (fetchData o).res s with
  | (s, threw) => threw && s.list.isNone

def ListState.unmount (s : ListState α) : ListState α := { s with list := none }

inductive ScreenEvent (α : Type*)
  | list (e : ListEvent α)
  | unmount

def ListState.screenStep (screen : ListScreen) (s : ListState α) :
    ScreenEvent α → Option (ListState α)
  | .list e => s.step screen e
  | .unmount => some s.unmount

/-- No exception leaves the chain, and a first page that is not empty becomes the data. -/
def Absorbed (screen : ListScreen) (s : ListState α) : ScreenEvent α → Prop
  | .list (.respond i o) => ∀ pn ∈ s.requests[i]?,
      onFetchEscapes screen pn o (s.received i o) = false ∧
        ∀ body, pn = 1 → broughtPage o = some body → body.list ≠ [] →
          ∀ s', s.step screen (.respond i o) = some s' → s'.data = some body.list
  | _ => True

/-- The answer finds the list mounted, and a first page that is not empty and not the
data already has the summary that the screen reads. -/
def FindsList (screen : ListScreen) (s : ListState α) : ScreenEvent α → Prop
  | .list (.respond i o) => ∀ pn ∈ s.requests[i]?,
      s.list ≠ none ∧
        ∀ body, pn = 1 → broughtPage o = some body → body.list ≠ [] →
          s.data = some body.list ∨ (screen.readsSummary = true → body.summary ≠ none)
  | _ => True

section Answer

variable {screen : ListScreen} {pn : ℕ} {o : Outcome (PageBody α)} {s : ListState α}

theorem onFetchThen_of_unmounted (res : Option (Response (PageBody α))) (hlist : s.list = none) :
    onFetchThen screen pn res s = (s, true) := by
  simp [onFetchThen, hlist]

theorem onFetchThen_list {l : RefreshFlatList} {s' : ListState α}
    {res : Option (Response (PageBody α))} (hlist : s.list = some l)
    (h : onFetchThen screen pn res s = (s', true)) : s'.list ≠ none := by
  simp only [onFetchThen, hlist] at h
  split at h
  · split at h
    · cases h
    · obtain rfl := (Prod.mk.inj h).1
      simp
  · obtain rfl := (Prod.mk.inj h).1
    simp [hlist]

theorem onFetchEscapes_iff : onFetchEscapes screen pn o s = true ↔ s.list = none := by
  constructor
  · intro h
    by_contra hmounted
    obtain ⟨l, hlist⟩ := Option.ne_none_iff_exists'.mp hmounted
    unfold onFetchEscapes at h
    split at h
    rename_i s' threw hthen
    obtain ⟨rfl, hgone⟩ : threw = true ∧ s'.list = none := by simpa using h
    exact onFetchThen_list hlist hthen hgone
  · intro hlist
    simp [onFetchEscapes, onFetchThen_of_unmounted _ hlist, hlist]

theorem first_page_stored_iff {body : PageBody α} (hlist : s.list ≠ none)
    (hpage : broughtPage o = some body) :
    (onFetchSettled screen 1 o s).data = some body.list ↔
      s.data = some body.list ∨ (screen.readsSummary = true → body.summary ≠ none) := by
  obtain ⟨l, hl⟩ := Option.ne_none_iff_exists'.mp hlist
  by_cases hfits : Fits screen 1 body s
  · have hshow := onFetchSettled_of_fits hl hpage hfits
    refine iff_of_true ?_ (Or.inr hfits.2)
    rw [hshow.data_eq]
    rfl
  · have hsummary : ¬ (screen.readsSummary = true → body.summary ≠ none) :=
      fun h => hfits ⟨Or.inl rfl, h⟩
    rw [onFetchSettled_of_not_fits hl hpage hfits]
    exact ⟨Or.inl, fun h => h.resolve_right hsummary⟩

theorem absorbed_iff {e : ScreenEvent α} : Absorbed screen s e ↔ FindsList screen s e := by
  cases e with
  | unmount => exact Iff.rfl
  | list e =>
    cases e with
    | refresh => exact Iff.rfl
    | loadMore => exact Iff.rfl
    | respond i o =>
      refine forall_congr' fun pn => forall_congr' fun hreq => ?_
      have hescapes : onFetchEscapes screen pn o (s.received i o) = false ↔ s.list ≠ none := by
        have hlist : (s.received i o).list = s.list := rfl
        rw [← Bool.not_eq_true, onFetchEscapes_iff, hlist]
      rw [hescapes]
      refine and_congr_right fun hlist => ?_
      have hstep : s.step screen (.respond i o) =
          some (onFetchSettled screen pn o (s.received i o)) := by
        have hpn : s.requests[i]? = some pn := hreq
        simp [ListState.step, hpn]
      constructor
      · rintro h body rfl hpage hne
        exact (first_page_stored_iff (s := s.received i o) hlist hpage).mp
          (h body rfl hpage hne _ hstep)
      · rintro h body rfl hpage hne s' hs'
        obtain rfl := Option.some.inj (hstep.symm.trans hs')
        exact (first_page_stored_iff (s := s.received i o) hlist hpage).mpr
          (h body rfl hpage hne)

end Answer

/-- In every run of a list screen, answers are absorbed exactly when each of them finds
the list, and a first page the summary. -/
theorem answers_absorbed_iff (screen : ListScreen) (es : List (ScreenEvent α)) :
    Runs.Along (ListState.screenStep screen) (Absorbed screen) {} es ↔
      Runs.Along (ListState.screenStep screen) (FindsList screen) {} es :=
  Runs.along_congr (I := fun _ => True) (fun _ _ _ _ _ => trivial)
    (fun _ _ _ _ _ => absorbed_iff) trivial

theorem page_after_empty_lost :
    ¬ Runs.Along (ListState.screenStep activitysJoined) (Absorbed activitysJoined) {}
      [.list .refresh,
        .list (.respond 0 (.json (some ⟨nat 0, .undefined, some ⟨true, [], none⟩⟩))),
        .list (.respond 0 (.json (some ⟨nat 0, .undefined, some ⟨true, [10], none⟩⟩)))] := by
  intro h
  have hlast := (((h _ rfl).2 _ rfl).2 _ rfl).1 1 rfl
  have hescapes := hlast.1
  revert hescapes
  decide

end RNFantuan.Views
