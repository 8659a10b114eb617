import RNFantuan.Views.HeadlineForm.AreaPicker

/-!
# The labels on display

What the area picker offers was stored when it was opened, and what is confirmed is
looked up in the list stored by then. The two agree as long as the picker opens on
items with ids and each answer that comes in between, the one that opens it included,
has such an item for each label on display.
-/

namespace RNFantuan.Views.HeadlineForm
open JS Net

variable {s s' : PickerState}

/-- Confirming the label gives the form an item of a received list with this label, and
its validator accepts it. -/
def ConfirmsUsable (s : PickerState) (label : Value) : Prop :=
  ∀ s', s.step (.confirm label) = some s' →
    ∃ area, s'.form.area = some area ∧ (∃ list ∈ s'.received, area ∈ list) ∧
      area.label.strictEq label = true ∧ validates s'.form .area = .ok true

def OffersUsable (s : PickerState) : Prop := ∀ label, ConfirmsUsable s label

/-- The first item with the label has an id that is not `0` or empty. -/
def usable (list : List Area) (label : Value) : Bool :=
  (list.find? fun item => item.label.strictEq label).any fun area => area.value.truthy

/-- The labels on display after an answer with this list: those stored before it, when
its callback opens the picker. -/
def PickerState.offersAfter (s : PickerState) (callback : Bool) (list : List Area) : List Value :=
  if callsBack callback list ∧ (firstLabel s.areasLabel).truthy then s.areasLabel else s.offers

/-- A tap opens the picker on a list whose items have ids, and what an answer stores has
such an item for each label that is then on display. -/
def KeepsOffered (s : PickerState) : PickerEvent → Prop
  | .tap => (firstLabel s.areasLabel).truthy = true →
      ∀ area ∈ s.areas, usable s.areas area.label = true
  | .respond i o => ∀ callback ∈ s.requests[i]?, ∀ list ∈ storedList (fetchData o).res,
      ∀ label ∈ s.offersAfter callback list, usable list label = true
  | _ => True

/-- The labels stored are those of the list stored, one that has been received. -/
structure RowInv (s : PickerState) : Prop where
  mounted : s.mounted = true
  labels : s.areasLabel = s.areas.map Area.label
  received : AreasReceived s
  area : s.form.area ≠ none

theorem confirmsUsable_iff (h : AreasReceived s) {label : Value} (hoffers : label ∈ s.offers) :
    ConfirmsUsable s label ↔ usable s.areas label = true := by
  have hstep : s.step (.confirm label) = some (onPickerConfirm label s) := if_pos hoffers
  have harea := onPickerConfirm_area label s
  constructor
  · intro husable
    obtain ⟨area, hform, -, -, hvalid⟩ := husable _ hstep
    rw [usable, ← harea, hform]
    simpa [validates, hform] using hvalid
  · intro husable t ht
    obtain rfl := (confirm_cases ht).2
    obtain ⟨area, hfind, htruthy⟩ := (Option.any_eq_true _ _).mp husable
    have hform := harea.trans hfind
    exact ⟨area, hform, h.exists_list (List.mem_of_find?_eq_some hfind),
      by simpa using List.find?_some hfind, by simp [validates, hform, htruthy]⟩

theorem offersUsable_iff (h : AreasReceived s) :
    OffersUsable s ↔ ∀ label ∈ s.offers, usable s.areas label = true := by
  constructor
  · exact fun husable label hoffers => (confirmsUsable_iff h hoffers).mp (husable label)
  · intro husable label t ht
    obtain ⟨hoffers, -⟩ := confirm_cases ht
    exact (confirmsUsable_iff h hoffers).mpr (husable label hoffers) t ht

/-! ### What each step puts on display -/

@[simp]
theorem fetchArea_offers (callback : Bool) (s : PickerState) :
    (fetchArea callback s).offers = s.offers := rfl

@[simp]
theorem answered_offers (s : PickerState) (i : ℕ) (o : Outcome (List Area)) :
    (s.answered i o).offers = s.offers := rfl

theorem opened_offers (hmounted : s.mounted = true) (value : Value) :
    PickerState.offers { s with
        picker := some ⟨s.areasLabel, value⟩
        showModal := s.mounted || s.showModal } = s.areasLabel := by
  simp [PickerState.offers, hmounted]

theorem tap_offers (hI : RowInv s) (h : s.step .tap = some s') :
    s'.areas = s.areas ∧ s'.areasLabel = s.areasLabel ∧
      s'.offers = if (firstLabel s.areasLabel).truthy then s.areasLabel else s.offers := by
  obtain ⟨hmounted, ⟨-, harea⟩ | hinit⟩ := tap_cases h
  · exact absurd harea hI.area
  · rcases initAreaPicker_cases hinit with ⟨hlabel, value, rfl⟩ | ⟨hlabel, rfl⟩
    · exact ⟨rfl, rfl, (opened_offers hmounted value).trans (if_pos hlabel).symm⟩
    · exact ⟨rfl, rfl, by simp [hlabel]⟩

theorem respond_offers (hI : RowInv s) {i : ℕ} {o : Outcome (List Area)}
    (h : s.step (.respond i o) = some s') :
    ∃ callback, s.requests[i]? = some callback ∧
      match storedList (fetchData o).res with
      | none => s'.areas = s.areas ∧ s'.areasLabel = s.areasLabel ∧ s'.offers = s.offers
      | some list => s'.areas = list ∧ s'.areasLabel = list.map Area.label ∧
          s'.offers = s.offersAfter callback list := by
  have hmounted : (s.answered i o).mounted = true := hI.mounted
  have hlabels : (s.answered i o).areasLabel = s.areasLabel := rfl
  obtain ⟨callback, hcallback, ⟨rfl, hnone⟩ | ⟨list, t, hlist, rfl, -, ht⟩⟩ := respond_cases h
  · refine ⟨callback, hcallback, ?_⟩
    rw [hnone.resolve_right hI.area]
    exact ⟨rfl, rfl, rfl⟩
  · refine ⟨callback, hcallback, ?_⟩
    rw [hlist]
    have hstays : t.mounted = true ∧ t.offers = s.offersAfter callback list := by
      split_ifs at ht with hcalls
      · refine ⟨(initAreaPicker_frame ht).2.2.2.2.trans hmounted, ?_⟩
        rcases initAreaPicker_cases ht with ⟨hlabel, value, rfl⟩ | ⟨hlabel, rfl⟩
        · rw [opened_offers hmounted, hlabels]
          rw [hlabels] at hlabel
          exact (if_pos ⟨hcalls, hlabel⟩).symm
        · rw [hlabels] at hlabel
          simp [PickerState.offersAfter, hlabel]
      · subst ht
        exact ⟨hmounted, by simp [PickerState.offersAfter, hcalls]⟩
    refine ⟨?_, ?_, ((setAreas_rest list t).2.2.2.2.2).trans hstays.2⟩ <;>
      rw [setAreas_of_mounted list hstays.1]

theorem step_rowInv {e : PickerEvent} (hI : RowInv s) (hs : OffersUsable s)
    (h : s.step e = some s') : RowInv s' := by
  refine ⟨(step_mounted h).trans hI.mounted, ?_, step_areasReceived hI.received h, ?_⟩
  · cases e with
    | tap =>
      obtain ⟨hareas, hlabels, -⟩ := tap_offers hI h
      rw [hareas, hlabels]
      exact hI.labels
    | respond i o =>
      obtain ⟨callback, -, hcases⟩ := respond_offers hI h
      split at hcases
      · rw [hcases.1, hcases.2.1]
        exact hI.labels
      · rw [hcases.1, hcases.2.1]
    | confirm label =>
      obtain ⟨-, rfl⟩ := confirm_cases h
      exact hI.labels
    | cancel =>
      obtain rfl := cancel_cases h
      exact hI.labels
  · rcases step_form h with ⟨hform, -⟩ | ⟨label, rfl, -⟩
    · rw [hform]
      exact hI.area
    · obtain ⟨area, harea, -⟩ := hs label s' h
      simp [harea]

theorem step_offersUsable_iff {e : PickerEvent} (hI : RowInv s) (hs : OffersUsable s)
    (h : s.step e = some s') : OffersUsable s' ↔ KeepsOffered s e := by
  have hold := (offersUsable_iff hI.received).mp hs
  rw [offersUsable_iff (step_rowInv hI hs h).received]
  cases e with
  | tap =>
    obtain ⟨hareas, -, hoffers⟩ := tap_offers hI h
    rw [hareas, hoffers]
    cases hlabel : (firstLabel s.areasLabel).truthy with
    | true =>
      have hopens : KeepsOffered s .tap ↔ ∀ area ∈ s.areas, usable s.areas area.label = true := by
        simp [KeepsOffered, hlabel]
      rw [hopens, if_pos rfl, hI.labels, List.forall_mem_map]
    | false => simpa [KeepsOffered, hlabel] using hold
  | respond i o =>
    obtain ⟨callback, hcallback, hcases⟩ := respond_offers hI h
    cases hlist : storedList (fetchData o).res with
    | none =>
      rw [hlist] at hcases
      rw [hcases.1, hcases.2.2]
      exact iff_of_true hold (by simp [KeepsOffered, hlist])
    | some list =>
      rw [hlist] at hcases
      rw [hcases.1, hcases.2.2]
      simp [KeepsOffered, hcallback, hlist]
  | confirm label =>
    obtain ⟨-, rfl⟩ := confirm_cases h
    refine iff_of_true (fun label' hlabel => ?_) trivial
    simp [PickerState.offers, onPickerConfirm] at hlabel
  | cancel =>
    obtain rfl := cancel_cases h
    refine iff_of_true (fun label' hlabel => ?_) trivial
    simp [PickerState.offers] at hlabel

/-- In every run of the area row, whatever the picker offers can be confirmed exactly when
it opens on items with ids and the answers keep such items for the labels on display. -/
theorem confirms_usable_iff (es : List PickerEvent) :
    Runs.Throughout PickerState.step OffersUsable {} es ↔
      Runs.Along PickerState.step KeepsOffered {} es := by
  have hstart : OffersUsable {} := (offersUsable_iff (Or.inl rfl)).mpr fun label hlabel => by
    simp [PickerState.offers] at hlabel
  exact Runs.throughout_iff_along (I := RowInv) (fun _ _ _ hI hs h _ => step_rowInv hI hs h)
    (fun _ _ _ hI hs h => step_offersUsable_iff hI hs h)
    ⟨rfl, rfl, Or.inl rfl, by simp⟩ hstart

/-- A label of the list before is confirmed, and an id `0`. -/
theorem old_label_confirmed :
    ¬ Runs.Throughout PickerState.step OffersUsable {} [.tap,
        .respond 0 (areaAnswer [⟨nat 3, .str "a"⟩]),
        .respond 0 (areaAnswer [⟨nat 4, .str "b"⟩])] ∧
      ¬ Runs.Throughout PickerState.step OffersUsable {}
        [.respond 0 (areaAnswer [⟨nat 0, .str "a"⟩]), .tap] := by
  constructor
  · intro h
    obtain ⟨area, harea, -⟩ := (((h.2 _ rfl).2 _ rfl).2 _ rfl) (.str "a") _ rfl
    cases harea
  · intro h
    obtain ⟨area, -, -, -, hvalid⟩ := ((h.2 _ rfl).2 _ rfl) (.str "a") _ rfl
    exact absurd hvalid (by decide)

end RNFantuan.Views.HeadlineForm
