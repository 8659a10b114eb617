import RNFantuan.Net.FetchData
import RNFantuan.Runtime.Runs
import RNFantuan.Views.HeadlineForm.Form

/-!
# The area picker

`fetchArea`, `initAreaPicker` and `showAreaPicker`. A tap on the area row shows the
picker, with the labels stored by then, or requests the list again, with
`initAreaPicker` as the callback. An answered request calls its callback before it
stores the list it has brought, so the picker offers the labels of the list before,
or, when there were none, the list is requested once more. Requests outlive the form;
once it has been left, no list is stored any more.
-/

namespace RNFantuan.Views.HeadlineForm
open JS Net

structure Picker where
  pickerData : List Value
  selectedValue : Value
  deriving DecidableEq

/-- A request is known by whether `initAreaPicker` is its callback; `issued` counts the
requests, the first of them from mounting, and `received` has the lists they brought. -/
structure PickerState where
  form : Form := {}
  areas : List Area := []
  areasLabel : List Value := []
  picker : Option Picker := none
  showModal : Bool := false
  mounted : Bool := true
  requests : List Bool := [false]
  issued : ℕ := 1
  received : List (List Area) := []

/-- `setState`, which does nothing once the form has been left. -/
def PickerState.setState (s : PickerState) (f : PickerState → PickerState) : PickerState :=
  if s.mounted then f s else s

def firstLabel (labels : List Value) : Value := labels.headD .undefined

def fetchArea (callback : Bool) (s : PickerState) : PickerState :=
  { s with
    requests := s.requests ++ [callback]
    issued := s.issued + 1 }

/-- Both callers pass a callback that shows the modal. An undefined area has no label to
select. -/
def initAreaPicker (s : PickerState) : Except Thrown PickerState :=
  if (firstLabel s.areasLabel).truthy then
    match s.form.area with
    | none => .error .error
    | some area =>
      let s := { s with
        picker := some ⟨s.areasLabel, area.label.or (firstLabel s.areasLabel)⟩ }
      .ok (s.setState fun s => { s with showModal := true })
  else .ok (fetchArea true s)

/-- `data.category_list`; what cannot be read, or has items without a label to read, throws. -/
def categoryList (res : Option (Response (List Area))) : Except Thrown (List Area) :=
  match res.bind Response.data with
  | none => .error .error
  | some list => .ok list

/-- The `then` of `fetchArea`. When the callback throws, the list is not stored. -/
def fetchAreaThen (callback : Bool) (res : Option (Response (List Area))) (s : PickerState) :
    Except Thrown PickerState := do
  let list ← categoryList res
  let label := list.map Area.label
  if res.any fun r => r.error.truthy then return s
  let s ← if (firstLabel label).truthy ∧ callback then initAreaPicker s else pure s
  return s.setState fun s => { s with
    areas := list
    areasLabel := label }

def showAreaPicker (s : PickerState) : Except Thrown PickerState := initAreaPicker s

def onPickerConfirm (label : Value) (s : PickerState) : PickerState :=
  let selected := (s.areas.filter fun item => item.label.strictEq label).head?
  { s with
    form := s.form.edit (.area selected)
    showModal := false }

inductive PickerEvent
  | tap
  | respond (i : ℕ) (o : Outcome (List Area))
  | confirm (label : Value)
  | cancel

def PickerState.answered (s : PickerState) (i : ℕ) (o : Outcome (List Area)) : PickerState :=
  { s with
    requests := s.requests.eraseIdx i
    received := ((fetchData o).res.bind Response.data).toList ++ s.received }

/-- The labels on display. -/
def PickerState.offers (s : PickerState) : List Value :=
  if s.mounted ∧ s.showModal then (s.picker.map Picker.pickerData).getD [] else []

/-- An exception leaves the state as it is. The displayed picker reports one of the
labels it was initialised with. -/
def PickerState.step (s : PickerState) : PickerEvent → Option PickerState
  | .tap =>
    if s.mounted then
      match showAreaPicker s with
      | .ok s' => some s'
      | .error _ => some s
    else none
  | .respond i o => s.requests[i]?.map fun callback =>
      match fetchAreaThen callback (fetchData o).res (s.answered i o) with
      | .ok s' => s'
      | .error _ => s.answered i o
  | .confirm label => if label ∈ s.offers then some (onPickerConfirm label s) else none
  | .cancel => if s.mounted ∧ s.showModal then some { s with showModal := false } else none

/-! ### What the callbacks do -/

variable {s s' : PickerState}

/-- What `fetchArea` stores in the end. -/
def PickerState.setAreas (list : List Area) (s : PickerState) : PickerState :=
  s.setState fun s => { s with
    areas := list
    areasLabel := list.map Area.label }

theorem setAreas_rest (list : List Area) (s : PickerState) :
    (s.setAreas list).form = s.form ∧ (s.setAreas list).received = s.received ∧
      (s.setAreas list).requests = s.requests ∧ (s.setAreas list).issued = s.issued ∧
      (s.setAreas list).mounted = s.mounted ∧ (s.setAreas list).offers = s.offers := by
  unfold PickerState.setAreas PickerState.setState
  split <;> exact ⟨rfl, rfl, rfl, rfl, rfl, rfl⟩

theorem setAreas_of_mounted (list : List Area) (h : s.mounted = true) :
    s.setAreas list = { s with areas := list, areasLabel := list.map Area.label } := if_pos h

theorem setAreas_of_left (list : List Area) (h : s.mounted = false) : s.setAreas list = s :=
  if_neg (by simp [h])

theorem initAreaPicker_cases (h : initAreaPicker s = .ok s') :
    ((firstLabel s.areasLabel).truthy = true ∧ ∃ value, s' = { s with
        picker := some ⟨s.areasLabel, value⟩
        showModal := s.mounted || s.showModal }) ∨
      (firstLabel s.areasLabel).truthy = false ∧ s' = fetchArea true s := by
  unfold initAreaPicker at h
  split at h
  · rename_i hlabel
    split at h
    · cases h
    · rename_i area _
      refine Or.inl ⟨hlabel, area.label.or (firstLabel s.areasLabel), ?_⟩
      rw [← Except.ok.inj h]
      unfold PickerState.setState
      cases s.mounted <;> rfl
  · rename_i hlabel
    exact Or.inr ⟨by simpa using hlabel, (Except.ok.inj h).symm⟩

theorem initAreaPicker_ok (harea : s.form.area ≠ none) : ∃ t, initAreaPicker s = .ok t := by
  obtain ⟨area, ha⟩ := Option.ne_none_iff_exists'.mp harea
  unfold initAreaPicker
  rw [ha]
  split <;> exact ⟨_, rfl⟩

theorem initAreaPicker_frame (h : initAreaPicker s = .ok s') :
    s'.form = s.form ∧ s'.areas = s.areas ∧ s'.areasLabel = s.areasLabel ∧
      s'.received = s.received ∧ s'.mounted = s.mounted := by
  rcases initAreaPicker_cases h with ⟨-, value, rfl⟩ | ⟨-, rfl⟩ <;>
    exact ⟨rfl, rfl, rfl, rfl, rfl⟩

/-- A good answer. -/
def areaAnswer (list : List Area) : Outcome (List Area) :=
  .json (some ⟨nat 0, .undefined, some list⟩)

/-- The list that an answer is to store. -/
def storedList (res : Option (Response (List Area))) : Option (List Area) :=
  res.bind fun r => if r.error.truthy then none else r.data

/-- Whether an answer with this list runs the callback of its request. -/
def callsBack (callback : Bool) (list : List Area) : Bool :=
  callback ∧ (firstLabel (list.map Area.label)).truthy

theorem fetchAreaThen_none (callback : Bool) {res : Option (Response (List Area))}
    (hlist : storedList res = none) :
    fetchAreaThen callback res s = .ok s ∨ fetchAreaThen callback res s = .error .error := by
  unfold fetchAreaThen categoryList
  cases res with
  | none => exact Or.inr rfl
  | some r =>
    cases hdata : r.data with
    | none => exact Or.inr (by simp [hdata, bind, Except.bind])
    | some list =>
      have herror : r.error.truthy = true := by simpa [storedList, hdata] using hlist
      exact Or.inl (by simp [hdata, herror, bind, Except.bind, pure, Except.pure])

theorem fetchAreaThen_some (callback : Bool) {res : Option (Response (List Area))}
    {list : List Area} (hlist : storedList res = some list) :
    res.bind Response.data = some list ∧ fetchAreaThen callback res s =
      if callsBack callback list then (initAreaPicker s).map (PickerState.setAreas list)
      else .ok (s.setAreas list) := by
  obtain ⟨r, rfl, hr⟩ := Option.bind_eq_some_iff.mp hlist
  split at hr
  · cases hr
  · rename_i herror
    refine ⟨hr, ?_⟩
    unfold fetchAreaThen categoryList
    simp only [Option.bind_some, hr, bind, Except.bind, Option.any_some, herror]
    cases callback <;> cases hfirst : (firstLabel (list.map Area.label)).truthy <;>
      cases hinit : initAreaPicker s <;>
      simp [callsBack, hfirst, Except.map, pure, Except.pure, PickerState.setAreas]

/-- An answer without a list, or whose callback throws, is only used up. -/
theorem respond_cases {i : ℕ} {o : Outcome (List Area)} (h : s.step (.respond i o) = some s') :
    ∃ callback, s.requests[i]? = some callback ∧
      (s' = s.answered i o ∧ (storedList (fetchData o).res = none ∨ s.form.area = none) ∨
        ∃ list t, storedList (fetchData o).res = some list ∧ s' = t.setAreas list ∧
          (fetchData o).res.bind Response.data = some list ∧
          if callsBack callback list then initAreaPicker (s.answered i o) = .ok t
          else t = s.answered i o) := by
  obtain ⟨callback, hcallback, hs'⟩ := Option.map_eq_some_iff.mp h
  refine ⟨callback, hcallback, ?_⟩
  cases hlist : storedList (fetchData o).res with
  | none =>
    left
    rcases fetchAreaThen_none (s := s.answered i o) callback hlist with hrun | hrun <;>
      exact ⟨by simpa [hrun] using hs'.symm, Or.inl rfl⟩
  | some list =>
    obtain ⟨hdata, hrun⟩ := fetchAreaThen_some (s := s.answered i o) callback hlist
    rw [hrun] at hs'
    split_ifs at hs' with hcalls
    · cases hinit : initAreaPicker (s.answered i o) with
      | error err =>
        refine Or.inl ⟨by simpa [hinit, Except.map] using hs'.symm, Or.inr ?_⟩
        by_contra harea
        obtain ⟨t, ht⟩ := initAreaPicker_ok (s := s.answered i o) harea
        rw [hinit] at ht
        cases ht
      | ok t =>
        refine Or.inr ⟨list, t, rfl, by simpa [hinit, Except.map] using hs'.symm, hdata, ?_⟩
        rw [if_pos hcalls]
    · refine Or.inr ⟨list, s.answered i o, rfl, hs'.symm, hdata, ?_⟩
      rw [if_neg hcalls]

theorem tap_cases (h : s.step .tap = some s') :
    s.mounted = true ∧ (s' = s ∧ s.form.area = none ∨ initAreaPicker s = .ok s') := by
  simp only [PickerState.step, showAreaPicker] at h
  split_ifs at h with hmounted
  refine ⟨hmounted, ?_⟩
  cases hinit : initAreaPicker s with
  | error err =>
    rw [hinit] at h
    refine Or.inl ⟨(Option.some.inj h).symm, ?_⟩
    by_contra harea
    obtain ⟨t, ht⟩ := initAreaPicker_ok harea
    rw [hinit] at ht
    cases ht
  | ok t =>
    rw [hinit] at h
    exact Or.inr (congrArg Except.ok (Option.some.inj h))

theorem confirm_cases {label : Value} (h : s.step (.confirm label) = some s') :
    label ∈ s.offers ∧ s' = onPickerConfirm label s := by
  simp only [PickerState.step] at h
  split_ifs at h with hoffers
  exact ⟨hoffers, (Option.some.inj h).symm⟩

theorem cancel_cases (h : s.step .cancel = some s') : s' = { s with showModal := false } := by
  simp only [PickerState.step] at h
  split_ifs at h
  exact (Option.some.inj h).symm

/-- No handler brings the form back. -/
theorem step_mounted {e : PickerEvent} (h : s.step e = some s') : s'.mounted = s.mounted := by
  cases e with
  | tap =>
    obtain ⟨-, ⟨rfl, -⟩ | hinit⟩ := tap_cases h
    · rfl
    · exact (initAreaPicker_frame hinit).2.2.2.2
  | respond i o =>
    obtain ⟨callback, -, ⟨rfl, -⟩ | ⟨list, t, -, rfl, -, ht⟩⟩ := respond_cases h
    · rfl
    · refine (setAreas_rest list t).2.2.2.2.1.trans ?_
      split_ifs at ht
      · exact (initAreaPicker_frame ht).2.2.2.2
      · rw [ht]
        rfl
  | confirm label =>
    obtain ⟨-, rfl⟩ := confirm_cases h
    rfl
  | cancel =>
    rw [cancel_cases h]

/-! ### The list stored and the form -/

def AreasReceived (s : PickerState) : Prop := s.areas = [] ∨ s.areas ∈ s.received

theorem answered_areasReceived (h : AreasReceived s) (i : ℕ) (o : Outcome (List Area)) :
    AreasReceived (s.answered i o) :=
  h.imp_right fun hmem => List.mem_append_right _ hmem

theorem initAreaPicker_areasReceived (h : AreasReceived s) (hinit : initAreaPicker s = .ok s') :
    AreasReceived s' := by
  obtain ⟨-, hareas, -, hreceived, -⟩ := initAreaPicker_frame hinit
  rw [AreasReceived, hareas, hreceived]
  exact h

theorem setAreas_areasReceived {list : List Area} (h : AreasReceived s)
    (hlist : list ∈ s.received) : AreasReceived (s.setAreas list) := by
  cases hmounted : s.mounted with
  | true =>
    rw [setAreas_of_mounted list hmounted]
    exact Or.inr hlist
  | false =>
    rw [setAreas_of_left list hmounted]
    exact h

theorem step_areasReceived {e : PickerEvent} (h : AreasReceived s) (hstep : s.step e = some s') :
    AreasReceived s' := by
  cases e with
  | tap =>
    obtain ⟨-, ⟨rfl, -⟩ | hinit⟩ := tap_cases hstep
    · exact h
    · exact initAreaPicker_areasReceived h hinit
  | respond i o =>
    have hanswered := answered_areasReceived h i o
    obtain ⟨callback, -, ⟨rfl, -⟩ | ⟨list, t, -, rfl, hdata, ht⟩⟩ := respond_cases hstep
    · exact hanswered
    · have hlist : list ∈ (s.answered i o).received := by simp [PickerState.answered, hdata]
      split_ifs at ht
      · refine setAreas_areasReceived (initAreaPicker_areasReceived hanswered ht) ?_
        rw [(initAreaPicker_frame ht).2.2.2.1]
        exact hlist
      · subst ht
        exact setAreas_areasReceived hanswered hlist
  | confirm label =>
    obtain ⟨-, rfl⟩ := confirm_cases hstep
    exact h
  | cancel =>
    obtain rfl := cancel_cases hstep
    exact h

theorem AreasReceived.exists_list (h : AreasReceived s) {area : Area} (hmem : area ∈ s.areas) :
    ∃ list ∈ s.received, area ∈ list := by
  rcases h with hnil | hreceived
  · rw [hnil] at hmem
    cases hmem
  · exact ⟨s.areas, hreceived, hmem⟩

/-- Nothing but a confirmation changes the form. -/
theorem step_form {e : PickerEvent} (h : s.step e = some s') :
    s'.form = s.form ∧ (∀ label, e ≠ .confirm label) ∨
      ∃ label, e = .confirm label ∧ s' = onPickerConfirm label s := by
  cases e with
  | tap =>
    refine Or.inl ⟨?_, by simp⟩
    obtain ⟨-, ⟨rfl, -⟩ | hinit⟩ := tap_cases h
    · rfl
    · exact (initAreaPicker_frame hinit).1
  | respond i o =>
    refine Or.inl ⟨?_, by simp⟩
    obtain ⟨callback, -, ⟨rfl, -⟩ | ⟨list, t, -, rfl, -, ht⟩⟩ := respond_cases h
    · rfl
    · refine (setAreas_rest list t).1.trans ?_
      split_ifs at ht
      · exact (initAreaPicker_frame ht).1
      · rw [ht]
        rfl
  | confirm label => exact Or.inr ⟨label, rfl, (confirm_cases h).2⟩
  | cancel =>
    refine Or.inl ⟨?_, by simp⟩
    rw [cancel_cases h]

theorem onPickerConfirm_area (label : Value) (s : PickerState) :
    (onPickerConfirm label s).form.area =
      s.areas.find? fun item => item.label.strictEq label := List.head?_filter

end RNFantuan.Views.HeadlineForm
