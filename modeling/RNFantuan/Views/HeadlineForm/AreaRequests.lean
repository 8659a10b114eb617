import RNFantuan.Views.HeadlineForm.AreaPicker

/-!
# How many requests the area row makes

An answer that finds no label stored requests the list again, and then stores its own:
so each request is paid for by a tap, by the label that was missing, or by the request
it has used up. Once the form has been left this fails. Nothing is stored any more, and
each answer that calls its callback causes the next request.
-/

namespace RNFantuan.Views.HeadlineForm
open JS Net

/-- The area row up to the leaving of the form and after it. -/
inductive RowEvent
  | row (e : PickerEvent)
  | leave

def rowStep (s : PickerState) : RowEvent → Option PickerState
  | .row e => s.step e
  | .leave => if s.mounted then some { s with mounted := false } else none

variable {s s' : PickerState}

/-! ### Each step -/

def missingLabel (labels : List Value) : ℕ := if (firstLabel labels).truthy then 0 else 1

theorem missingLabel_le_one (labels : List Value) : missingLabel labels ≤ 1 := by
  unfold missingLabel
  split <;> omega

theorem missingLabel_of_truthy {labels : List Value} (h : (firstLabel labels).truthy = true) :
    missingLabel labels = 0 := if_pos h

theorem missingLabel_of_falsy {labels : List Value} (h : (firstLabel labels).truthy = false) :
    missingLabel labels = 1 := if_neg (by simp [h])

def PickerState.potential (s : PickerState) : ℕ :=
  2 * s.requests.length + missingLabel s.areasLabel

def PickerEvent.isTap : PickerEvent → Bool
  | .tap => true
  | _ => false

def PickerEvent.isResponse : PickerEvent → Bool
  | .respond _ _ => true
  | _ => false

def RowEvent.isTap : RowEvent → Bool
  | .row e => e.isTap
  | .leave => false

def RowEvent.isResponse : RowEvent → Bool
  | .row e => e.isResponse
  | .leave => false

/-- No answer calls `initAreaPicker` where the form has been left and no first label is
stored. -/
def FindsLabel (s : PickerState) : RowEvent → Prop
  | .row (.respond i o) =>
    s.mounted = true ∨ (firstLabel s.areasLabel).truthy = true ∨
      ∀ callback ∈ s.requests[i]?, ∀ list ∈ storedList (fetchData o).res,
        callsBack callback list = false
  | _ => True

theorem initAreaPicker_potential (h : initAreaPicker s = .ok s') :
    s'.issued ≤ s.issued + 1 ∧ s'.potential ≤ s.potential + 2 := by
  rcases initAreaPicker_cases h with ⟨-, value, rfl⟩ | ⟨-, rfl⟩
  · exact ⟨Nat.le_succ _, Nat.le_add_right _ _⟩
  · refine ⟨le_rfl, ?_⟩
    simp only [PickerState.potential, fetchArea, List.length_append, List.length_singleton]
    omega

theorem tap_potential (h : s.step .tap = some s') :
    s'.issued ≤ s.issued + 1 ∧ s'.potential ≤ s.potential + 2 := by
  obtain ⟨-, ⟨rfl, -⟩ | hinit⟩ := tap_cases h
  · exact ⟨Nat.le_succ _, Nat.le_add_right _ _⟩
  · exact initAreaPicker_potential hinit

theorem setAreas_potential (list : List Area) {t : PickerState} (hissued : t.issued = s.issued)
    (hrequests : t.requests.length + 1 = s.requests.length) :
    (t.setAreas list).potential + 1 ≤ s.potential ∧
      (t.setAreas list).issued + (t.setAreas list).potential ≤ s.issued + s.potential := by
  obtain ⟨-, -, hsame, hcount, -⟩ := setAreas_rest list t
  have hle := missingLabel_le_one (t.setAreas list).areasLabel
  unfold PickerState.potential
  rw [hsame, hcount, hissued]
  omega

/-- An answer uses up a request; when it causes another one, it brings the first label
that was missing. -/
theorem respond_potential {i : ℕ} {o : Outcome (List Area)}
    (hok : FindsLabel s (.row (.respond i o))) (h : s.step (.respond i o) = some s') :
    s'.potential + 1 ≤ s.potential ∧
      s'.issued + s'.potential ≤ s.issued + s.potential := by
  obtain ⟨callback, hcallback, hcases⟩ := respond_cases h
  have hlen : (s.answered i o).requests.length + 1 = s.requests.length := by
    have hlt := (List.getElem?_eq_some_iff.mp hcallback).1
    have herase : (s.answered i o).requests.length = s.requests.length - 1 :=
      List.length_eraseIdx_of_lt hlt
    omega
  have hissued : (s.answered i o).issued = s.issued := rfl
  have hlabel : (s.answered i o).areasLabel = s.areasLabel := rfl
  rcases hcases with ⟨rfl, -⟩ | ⟨list, t, hlist, rfl, -, ht⟩
  · simp only [PickerState.potential, hlabel]
    omega
  · by_cases hcalls : callsBack callback list = true
    · rw [if_pos hcalls] at ht
      rcases initAreaPicker_cases ht with ⟨-, value, rfl⟩ | ⟨hold, rfl⟩
      · exact setAreas_potential list hissued hlen
      · -- without a label the list is requested again, and then it has to be stored
        have hstored : s.mounted = true := by
          rcases hok with hmounted | htruthy | hno
          · exact hmounted
          · rw [hlabel, htruthy] at hold
            cases hold
          · exact absurd (hno callback hcallback list hlist) (by simp [hcalls])
        have hfirst : (firstLabel (list.map Area.label)).truthy = true := by
          have hboth : callback = true ∧ (firstLabel (list.map Area.label)).truthy = true := by
            simpa [callsBack] using hcalls
          exact hboth.2
        have hmissing := missingLabel_of_falsy (hlabel ▸ hold)
        have hnew := missingLabel_of_truthy hfirst
        rw [setAreas_of_mounted list (s := fetchArea true (s.answered i o)) hstored]
        simp only [PickerState.potential, fetchArea, List.length_append, List.length_singleton,
          hissued, hnew, hmissing]
        omega
    · rw [if_neg hcalls] at ht
      subst ht
      exact setAreas_potential list hissued hlen

theorem rowStep_potential {e : RowEvent} (hok : FindsLabel s e) (h : rowStep s e = some s') :
    s'.potential + (if e.isResponse then 1 else 0) ≤ s.potential + (if e.isTap then 2 else 0) ∧
      s'.issued + s'.potential ≤ s.issued + s.potential + (if e.isTap then 3 else 0) := by
  cases e with
  | leave =>
    simp only [rowStep] at h
    split_ifs at h
    obtain rfl := Option.some.inj h
    exact ⟨le_rfl, le_rfl⟩
  | row e =>
    cases e with
    | tap =>
      obtain ⟨hissued, hpotential⟩ := tap_potential h
      refine ⟨hpotential, ?_⟩
      change s'.issued + s'.potential ≤ s.issued + s.potential + 3
      omega
    | respond i o => exact respond_potential hok h
    | confirm label =>
      obtain ⟨-, rfl⟩ := confirm_cases h
      exact ⟨le_rfl, le_rfl⟩
    | cancel =>
      obtain rfl := cancel_cases h
      exact ⟨le_rfl, le_rfl⟩

theorem row_bounded {es : List RowEvent} (hok : Runs.Along rowStep FindsLabel {} es)
    (hrun : Runs.exec rowStep {} es = some s) :
    s.issued ≤ 4 + 3 * es.countP RowEvent.isTap ∧
      es.countP RowEvent.isResponse ≤ 3 + 2 * es.countP RowEvent.isTap := by
  have hissues : ∀ s e s', FindsLabel s e → rowStep s e = some s' →
      s'.issued + s'.potential + (if false then 0 else 0) ≤
        s.issued + s.potential + if e.isTap then 3 else 0 :=
    fun _ _ _ hok h => (rowStep_potential hok h).2
  have hanswers : ∀ s e s', FindsLabel s e → rowStep s e = some s' →
      s'.potential + (if e.isResponse then 1 else 0) ≤
        s.potential + if e.isTap then 2 else 0 :=
    fun _ _ _ hok h => (rowStep_potential hok h).1
  have hissued : s.issued + s.potential ≤ 4 + 3 * es.countP RowEvent.isTap :=
    (Nat.le_add_right _ _).trans
      (Runs.exec_potential (V := fun s => s.issued + s.potential) hissues hok hrun)
  have hanswered : s.potential + 1 * es.countP RowEvent.isResponse ≤
      3 + 2 * es.countP RowEvent.isTap := Runs.exec_potential hanswers hok hrun
  omega

/-! ### Runs -/

theorem findsLabel_of_mounted {es : List RowEvent} (hmounted : s.mounted = true)
    (hstays : .leave ∉ es) : Runs.Along rowStep FindsLabel s es := by
  induction es generalizing s with
  | nil => trivial
  | cons e es ih =>
    have hrest : RowEvent.leave ∉ es := fun h => hstays (List.mem_cons_of_mem _ h)
    intro t ht
    cases e with
    | leave => exact absurd List.mem_cons_self hstays
    | row e =>
      refine ⟨?_, ih ((step_mounted ht).trans hmounted) hrest⟩
      cases e with
      | respond i o => exact Or.inl hmounted
      | _ => trivial

/-- A request with a callback is outstanding, and its answer finds the form left and no
label stored. -/
structure Lost (s : PickerState) : Prop where
  left : s.mounted = false
  unlabelled : (firstLabel s.areasLabel).truthy = false
  waiting : true ∈ s.requests

/-- An answer with a label is not stored, and the list is requested again. -/
theorem Lost.refetches (h : Lost s) :
    ∃ i s', s.step (.respond i (areaAnswer [⟨nat 3, .str "a"⟩])) = some s' ∧ Lost s' ∧
      s'.issued = s.issued + 1 := by
  obtain ⟨i, hi⟩ := List.mem_iff_getElem?.mp h.waiting
  have hinit : initAreaPicker (s.answered i (areaAnswer [⟨nat 3, .str "a"⟩])) =
      .ok (fetchArea true (s.answered i (areaAnswer [⟨nat 3, .str "a"⟩]))) :=
    if_neg (by simpa [PickerState.answered] using h.unlabelled)
  have hthen : fetchAreaThen true (fetchData (areaAnswer [⟨nat 3, .str "a"⟩])).res
      (s.answered i (areaAnswer [⟨nat 3, .str "a"⟩])) =
      .ok (fetchArea true (s.answered i (areaAnswer [⟨nat 3, .str "a"⟩]))) := by
    have hstored : storedList (fetchData (areaAnswer [⟨nat 3, .str "a"⟩])).res =
        some [⟨nat 3, .str "a"⟩] := rfl
    rw [(fetchAreaThen_some _ hstored).2, if_pos (by rfl), hinit]
    exact congrArg Except.ok (setAreas_of_left _ h.left)
  refine ⟨i, fetchArea true (s.answered i (areaAnswer [⟨nat 3, .str "a"⟩])), ?_,
    ⟨h.left, h.unlabelled, by simp [fetchArea]⟩, rfl⟩
  simp only [PickerState.step, hi, Option.map_some, hthen]

theorem Lost.unbounded (h : Lost s) (n : ℕ) :
    ∃ es s', es.countP RowEvent.isTap = 0 ∧ Runs.exec rowStep s es = some s' ∧
      s'.issued = s.issued + n := by
  induction n generalizing s with
  | zero => exact ⟨[], s, rfl, rfl, rfl⟩
  | succ n ih =>
    obtain ⟨i, t, ht, hlost, hissued⟩ := h.refetches
    obtain ⟨es, s', htaps, hrun, hcount⟩ := ih hlost
    refine ⟨.row (.respond i (areaAnswer [⟨nat 3, .str "a"⟩])) :: es, s', ?_,
      Runs.exec_cons_eq_some.mpr ⟨t, ht, hrun⟩, by omega⟩
    rw [List.countP_cons, htaps]
    rfl

/-- A run with `n` taps issues at most `4 + 3 * n` requests, and goes on for at most
`3 + 2 * n` answers, when the form is not left in it, or as long as answers find a label
stored. Where they do not, there is no bound. -/
theorem requests_bounded {es : List RowEvent} (hrun : Runs.exec rowStep {} es = some s) :
    (.leave ∉ es ∨ Runs.Along rowStep FindsLabel {} es →
      s.issued ≤ 4 + 3 * es.countP RowEvent.isTap ∧
        es.countP RowEvent.isResponse ≤ 3 + 2 * es.countP RowEvent.isTap) ∧
    (Lost s → ∀ n, ∃ fs s', fs.countP RowEvent.isTap = 0 ∧
      Runs.exec rowStep s fs = some s' ∧ s'.issued = s.issued + n) := by
  refine ⟨fun hfinds => ?_, fun hlost => hlost.unbounded⟩
  rcases hfinds with hstays | hok
  · exact row_bounded (findsLabel_of_mounted rfl hstays) hrun
  · exact row_bounded hok hrun

instance : ∀ (s : PickerState) (e : RowEvent), Decidable (FindsLabel s e)
  | s, .row (.respond i o) => inferInstanceAs (Decidable (s.mounted = true ∨
      (firstLabel s.areasLabel).truthy = true ∨ ∀ callback ∈ s.requests[i]?,
        ∀ list ∈ storedList (fetchData o).res, callsBack callback list = false))
  | _, .row .tap | _, .row (.confirm _) | _, .row .cancel | _, .leave => isTrue trivial

/-- The request from mounting brings an empty list, and the one from the tap a list that
is requested once more before it is stored; then the form is left. -/
theorem requests_bounded_after_empty_list :
    ∃ s, Runs.exec rowStep {} [.row .tap, .row (.respond 0 (areaAnswer [])),
        .row (.respond 0 (areaAnswer [⟨nat 3, .str "a"⟩])), .leave,
        .row (.respond 0 (areaAnswer [⟨nat 3, .str "a"⟩]))] = some s ∧
      s.issued = 3 ∧ s.issued ≤ 4 + 3 * 1 :=
  ⟨_, rfl, rfl, ((@requests_bounded _ [.row .tap, .row (.respond 0 (areaAnswer [])),
      .row (.respond 0 (areaAnswer [⟨nat 3, .str "a"⟩])), .leave,
      .row (.respond 0 (areaAnswer [⟨nat 3, .str "a"⟩]))] rfl).1 (Or.inr (by decide))).1⟩

/-- One tap, before the request from mounting is answered, and the form is left. -/
theorem refetched_after_leaving :
    ¬ ∃ bound, ∀ es s, es.countP RowEvent.isTap ≤ 1 →
      Runs.exec rowStep {} es = some s → s.issued ≤ bound := by
  rintro ⟨bound, h⟩
  have hlost : Lost { mounted := false, requests := [false, true], issued := 2 } :=
    ⟨rfl, rfl, by decide⟩
  obtain ⟨es, s, htaps, hrun, hissued⟩ := hlost.unbounded bound
  have hle := h (.row .tap :: .leave :: es) s
    (by simp [List.countP_cons, htaps, RowEvent.isTap, PickerEvent.isTap]) hrun
  exact absurd (hissued ▸ hle) (by simp)

end RNFantuan.Views.HeadlineForm
