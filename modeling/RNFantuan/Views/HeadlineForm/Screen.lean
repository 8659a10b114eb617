import RNFantuan.Net.Continuations
import RNFantuan.Views.HeadlineForm.AreaPicker
import RNFantuan.Views.HeadlineForm.Restore
import RNFantuan.Views.HeadlineForm.Upload

/-!
# The whole application form

`views/HeadlineForm.js` as one machine: the action sheet and the image pickers it
opens, the uploads, the text fields, the area row, the draft, the button and the
answers to its request, in any order. Every handler reads the form anew and writes it
back with its own part changed. So the parts do not disturb one another: seen through
its pictures, its area row or its draft, a run of the form is a run of that part.

`rejected` records that a promise has rejected with nobody to catch it, since the
success callback of a request or an upload has thrown.
-/

namespace RNFantuan.Views.HeadlineForm
open JS Nav Net

/-- `pickers` are the image pickers that are open, each with the key it was opened for,
and `typed` records the value last given to each field. The rest are fields of the
component, of the area row those of `PickerState`. -/
structure HeadlineScreen extends FormState where
  buttonClicked : Bool := false
  activePic : Option ImageKey := none
  sheet : Bool := false
  pickers : List ImageKey := []
  loading : Bool := true
  typed : KeptKey → Option Value := fun _ => none
  areas : List Area := []
  areasLabel : List Value := []
  picker : Option Picker := none
  showModal : Bool := false
  requests : List Bool := [false]
  issued : ℕ := 1
  received : List (List Area) := []
  rejected : Bool := false

namespace HeadlineScreen

def setForm (s : HeadlineScreen) (form : Form) : HeadlineScreen :=
  { s with toFormState := { s.toFormState with form := form } }

def areaRow (s : HeadlineScreen) : PickerState where
  form := s.form
  areas := s.areas
  areasLabel := s.areasLabel
  picker := s.picker
  showModal := s.showModal
  requests := s.requests
  issued := s.issued
  received := s.received

def setAreaRow (s : HeadlineScreen) (t : PickerState) : HeadlineScreen :=
  { s.setForm t.form with
    areas := t.areas
    areasLabel := t.areasLabel
    picker := t.picker
    showModal := t.showModal
    requests := t.requests
    issued := t.issued
    received := t.received }

def perform (s : HeadlineScreen) : Effect → HeadlineScreen
  | .setSubmitting b => { s with toFormState := { s.toFormState with submitting := b } }
  | _ => s

end HeadlineScreen

inductive HeadlineEvent
  | showActionSheet (key : ImageKey)
  | pressSheet (index : ℕ)
  | picked (i : ℕ) (path : Option String)
  | upload (i : ℕ) (o : UploadOutcome)
  | inputChange (key : TextKey) (value : String)
  | changeAgreement
  | areaRow (e : PickerEvent)
  | loaded
  | next
  | applied (o : Outcome Unit)

/-- The `onPress` of the action sheet, whose first two options open an image picker. -/
def pressSheet (index : ℕ) (s : HeadlineScreen) : HeadlineScreen :=
  match s.activePic with
  | none => { s with sheet := false }
  | some key =>
    { s with
      sheet := false
      pickers := if index < 2 then s.pickers ++ [key] else s.pickers }

/-- Whether the success callback of `uploadPic` throws. -/
def uploadThrows (s : FormState) (i : ℕ) (o : UploadOutcome) : Bool :=
  s.uploads[i]?.any fun u => ¬ u.hasCanceled ∧ o = .responded none

/-- Whether the `then` of `fetchArea` throws. -/
def respondThrows (s : PickerState) (i : ℕ) (o : Outcome (List Area)) : Bool :=
  s.requests[i]?.any fun callback =>
    (fetchAreaThen callback (fetchData o).res (s.answered i o)).toOption.isNone

def PickerEvent.throws (s : PickerState) : PickerEvent → Bool
  | .respond i o => respondThrows s i o
  | _ => false

/-- What a handler throws leaves the state as it is; `goNext` throws before
`buttonClicked` is set. An image picker that fails does nothing. -/
def HeadlineScreen.step (params : Option Params) (draft : Option Form) (s : HeadlineScreen) :
    HeadlineEvent → Option HeadlineScreen
  | .showActionSheet key => some { s with activePic := some key, sheet := true }
  | .pressSheet index => if s.sheet then some (pressSheet index s) else none
  | .picked i path => s.pickers[i]?.map fun key =>
      let s := { s with pickers := s.pickers.eraseIdx i }
      match path with
      | some uri => { s with toFormState := uploadPic s.toFormState key uri }
      | none => s
  | .upload i o => (s.toFormState.step params (.upload i o)).map fun t => { s with
      toFormState := t
      rejected := s.rejected || uploadThrows s.toFormState i o }
  | .inputChange key value => some { s.setForm (inputChange s.form key value) with
      typed := Function.update s.typed (.text key) (some (.str value)) }
  | .changeAgreement => some { s.setForm (changeAgreement s.form) with
      typed := Function.update s.typed .agreement (some (.bool (!s.form.agreement))) }
  | .areaRow e => (s.areaRow.step e).map fun t => { s.setAreaRow t with
      rejected := s.rejected || e.throws s.areaRow }
  | .loaded => if s.loading then
      some { s.setForm (loadStorageThen draft s.form) with loading := false }
    else none
  | .next =>
    match goNext params s.form s.submitting with
    | .error _ => some s
    | .ok (.issued _) => some { s with
        buttonClicked := true
        toFormState := { s.toFormState with submitting := true } }
    | .ok _ => some { s with buttonClicked := true }
  | .applied o =>
    let ran := Net.HeadlineForm.goNextThen (fetchData o).res
    if s.submitting then
      some { ran.effects.foldl HeadlineScreen.perform s with
        rejected := s.rejected || ran.thrown.isSome }
    else none

variable {params : Option Params} {draft : Option Form} {s s' : HeadlineScreen}

theorem applied_eq (s : HeadlineScreen) (o : Outcome Unit) :
    (Net.HeadlineForm.goNextThen (fetchData o).res).effects.foldl HeadlineScreen.perform s =
      { s with toFormState := { s.toFormState with submitting := false } } := by
  cases (fetchData o).res with
  | none => rfl
  | some res =>
    simp only [Net.HeadlineForm.goNextThen]
    split <;> rfl

theorem next_cases (h : s.step params draft .next = some s') :
    s'.form = s.form ∧ s'.current = s.current ∧ s'.uploads = s.uploads ∧
      s'.areaRow = s.areaRow ∧ s'.loading = s.loading ∧ s'.typed = s.typed ∧
      s.toFormState.step params .next = some s'.toFormState := by
  simp only [HeadlineScreen.step] at h
  simp only [FormState.step]
  cases hgo : goNext params s.form s.submitting with
  | error err =>
    rw [hgo] at h
    obtain rfl := Option.some.inj h
    exact ⟨rfl, rfl, rfl, rfl, rfl, rfl, rfl⟩
  | ok t =>
    rw [hgo] at h
    cases t with
    | invalid =>
      obtain rfl := Option.some.inj h
      exact ⟨rfl, rfl, rfl, rfl, rfl, rfl, rfl⟩
    | busy =>
      obtain rfl := Option.some.inj h
      exact ⟨rfl, rfl, rfl, rfl, rfl, rfl, rfl⟩
    | issued rData =>
      obtain rfl := Option.some.inj h
      exact ⟨rfl, rfl, rfl, rfl, rfl, rfl, rfl⟩

/-! ### The form seen through its pictures -/

def picturesSeen (draft : Option Form) (s : HeadlineScreen) : HeadlineEvent → List FormEvent
  | .picked i (some uri) => (s.pickers[i]?).toList.map fun key => .pick key uri
  | .upload i o => [.upload i o]
  | .inputChange key value => [.edit (.input key value)]
  | .changeAgreement => [.edit .agreement]
  | .areaRow (.confirm label) => [.edit (.area (onPickerConfirm label s.areaRow).form.area)]
  | .loaded => draft.toList.map .restore
  | .next => [.next]
  | .applied _ => [.applied]
  | _ => []

theorem step_pictures {e : HeadlineEvent} (h : s.step params draft e = some s') :
    Runs.exec (FormState.step params) s.toFormState (picturesSeen draft s e) =
      some s'.toFormState := by
  cases e with
  | showActionSheet key =>
    obtain rfl := Option.some.inj h
    rfl
  | pressSheet index =>
    simp only [HeadlineScreen.step] at h
    split_ifs at h
    obtain rfl := Option.some.inj h
    unfold pressSheet
    split <;> rfl
  | picked i path =>
    obtain ⟨key, hkey, rfl⟩ := Option.map_eq_some_iff.mp h
    cases path with
    | none => rfl
    | some uri => simp [picturesSeen, hkey, Runs.exec, FormState.step]
  | upload i o =>
    obtain ⟨t, ht, rfl⟩ := Option.map_eq_some_iff.mp h
    simp [picturesSeen, Runs.exec, ht]
  | inputChange key value =>
    obtain rfl := Option.some.inj h
    rfl
  | changeAgreement =>
    obtain rfl := Option.some.inj h
    rfl
  | areaRow e =>
    obtain ⟨t, ht, rfl⟩ := Option.map_eq_some_iff.mp h
    rcases step_form ht with ⟨hform, hne⟩ | ⟨label, rfl, rfl⟩
    · have hseen : picturesSeen draft s (.areaRow e) = [] := by
        cases e with
        | confirm label => exact absurd rfl (hne label)
        | _ => rfl
      have hsame : (s.setAreaRow t).toFormState = s.toFormState :=
        congrArg (fun form => { s.toFormState with form := form }) hform
      rw [hseen, hsame]
      rfl
    · rfl
  | loaded =>
    simp only [HeadlineScreen.step] at h
    split_ifs at h
    obtain rfl := Option.some.inj h
    cases draft <;> rfl
  | next =>
    obtain ⟨-, -, -, -, -, -, hstep⟩ := next_cases h
    simp [picturesSeen, Runs.exec, hstep]
  | applied o =>
    simp only [HeadlineScreen.step] at h
    split_ifs at h with hsubmitting
    obtain rfl := Option.some.inj h
    rw [applied_eq]
    simp [picturesSeen, Runs.exec, FormState.step, hsubmitting]

/-! ### The form seen through its area row -/

def areaSeen : HeadlineEvent → List PickerEvent
  | .areaRow e => [e]
  | _ => []

/-- The area row reads no other field of the form. -/
def PickerState.bare (t : PickerState) : PickerState := { t with form := { area := t.form.area } }

theorem initAreaPicker_bare (t : PickerState) :
    initAreaPicker t.bare = (initAreaPicker t).map PickerState.bare := by
  unfold initAreaPicker
  cases harea : t.form.area <;> cases hlabel : (firstLabel t.areasLabel).truthy <;>
    cases hmounted : t.mounted <;>
    simp [PickerState.bare, PickerState.setState, harea, hlabel, hmounted, fetchArea, Except.map]

theorem setAreas_bare (list : List Area) (t : PickerState) :
    t.bare.setAreas list = (t.setAreas list).bare := by
  cases hmounted : t.mounted <;>
    simp [PickerState.bare, PickerState.setAreas, PickerState.setState, hmounted]

theorem fetchAreaThen_bare (callback : Bool) (res : Option (Response (List Area)))
    (t : PickerState) :
    fetchAreaThen callback res t.bare = (fetchAreaThen callback res t).map PickerState.bare := by
  unfold fetchAreaThen
  cases categoryList res with
  | error err => rfl
  | ok list =>
    simp only [bind, Except.bind]
    split
    · rfl
    · split
      · rw [initAreaPicker_bare]
        cases initAreaPicker t with
        | error err => rfl
        | ok u => exact congrArg Except.ok (setAreas_bare list u)
      · exact congrArg Except.ok (setAreas_bare list t)

theorem PickerState.step_bare {t t' : PickerState} {e : PickerEvent} (h : t.step e = some t') :
    t.bare.step e = some t'.bare := by
  cases e with
  | tap =>
    simp only [PickerState.step, showAreaPicker] at h ⊢
    split_ifs at h with hmounted
    have hmounted' : t.bare.mounted = true := hmounted
    rw [if_pos hmounted', initAreaPicker_bare]
    cases hinit : initAreaPicker t with
    | error err =>
      rw [hinit] at h
      obtain rfl := Option.some.inj h
      rfl
    | ok u =>
      rw [hinit] at h
      obtain rfl := Option.some.inj h
      rfl
  | respond i o =>
    obtain ⟨callback, hcallback, rfl⟩ := Option.map_eq_some_iff.mp h
    refine Option.map_eq_some_iff.mpr ⟨callback, hcallback, ?_⟩
    have hanswered : t.bare.answered i o = (t.answered i o).bare := rfl
    rw [hanswered, fetchAreaThen_bare]
    cases fetchAreaThen callback (fetchData o).res (t.answered i o) <;> rfl
  | confirm label =>
    obtain ⟨hoffers, rfl⟩ := confirm_cases h
    exact if_pos hoffers
  | cancel =>
    simp only [PickerState.step] at h ⊢
    split_ifs at h with hshown
    obtain rfl := Option.some.inj h
    exact if_pos hshown

/-- The fields that a draft restores. -/
def Form.texts (form : Form) : Form :=
  { form with
    avatar := {}
    idCardImage := {}
    area := some {} }

theorem setImage_rest (form : Form) (key : ImageKey) (item : ImageItem) :
    (form.setImage key item).area = form.area ∧ (form.setImage key item).texts = form.texts := by
  cases key <;> exact ⟨rfl, rfl⟩

theorem uploadThen_rest (key : ImageKey) (hasCanceled : Bool) (o : UploadOutcome) (form : Form) :
    (uploadThen key hasCanceled o form).area = form.area ∧
      (uploadThen key hasCanceled o form).texts = form.texts := by
  unfold uploadThen
  split
  · exact setImage_rest form key _
  · split
    · exact setImage_rest form key _
    · split
      · exact setImage_rest form key _
      · exact ⟨rfl, rfl⟩

theorem step_picked_form {i : ℕ} {path : Option String}
    (h : s.step params draft (.picked i path) = some s') :
    s'.form.area = s.form.area ∧ s'.form.texts = s.form.texts ∧
      s' = { s with toFormState := s'.toFormState, pickers := s.pickers.eraseIdx i } := by
  obtain ⟨key, -, rfl⟩ := Option.map_eq_some_iff.mp h
  cases path with
  | none => exact ⟨rfl, rfl, rfl⟩
  | some uri =>
    obtain ⟨harea, htexts⟩ := setImage_rest s.form key { s.form.image key with
      url := some uri
      uploading := true
      uploadText := "上传中..." }
    exact ⟨harea, htexts, rfl⟩

theorem step_upload_form {i : ℕ} {o : UploadOutcome}
    (h : s.step params draft (.upload i o) = some s') :
    s'.form.area = s.form.area ∧ s'.form.texts = s.form.texts ∧
      s' = { s with toFormState := s'.toFormState, rejected := s'.rejected } := by
  obtain ⟨t, ht, rfl⟩ := Option.map_eq_some_iff.mp h
  obtain ⟨u, -, rfl⟩ := Option.map_eq_some_iff.mp ht
  obtain ⟨harea, htexts⟩ := uploadThen_rest u.key u.hasCanceled o s.form
  exact ⟨harea, htexts, rfl⟩

theorem step_areaRow {e : HeadlineEvent} (hne : ∀ a, e ≠ .areaRow a)
    (h : s.step params draft e = some s') :
    s'.form.area = s.form.area ∧ s'.areaRow.bare = s.areaRow.bare := by
  cases e with
  | showActionSheet key =>
    obtain rfl := Option.some.inj h
    exact ⟨rfl, rfl⟩
  | pressSheet index =>
    simp only [HeadlineScreen.step] at h
    split_ifs at h
    obtain rfl := Option.some.inj h
    unfold pressSheet
    split <;> exact ⟨rfl, rfl⟩
  | picked i path =>
    obtain ⟨harea, -, hs'⟩ := step_picked_form h
    rw [hs']
    exact ⟨harea, by simp [PickerState.bare, HeadlineScreen.areaRow, harea]⟩
  | upload i o =>
    obtain ⟨harea, -, hs'⟩ := step_upload_form h
    rw [hs']
    exact ⟨harea, by simp [PickerState.bare, HeadlineScreen.areaRow, harea]⟩
  | inputChange key value =>
    obtain rfl := Option.some.inj h
    cases key <;> exact ⟨rfl, rfl⟩
  | changeAgreement =>
    obtain rfl := Option.some.inj h
    exact ⟨rfl, rfl⟩
  | areaRow a => exact absurd rfl (hne a)
  | loaded =>
    simp only [HeadlineScreen.step] at h
    split_ifs at h
    obtain rfl := Option.some.inj h
    cases draft <;> exact ⟨rfl, rfl⟩
  | next =>
    obtain ⟨hform, -, -, harea, -⟩ := next_cases h
    rw [hform, harea]
    exact ⟨rfl, rfl⟩
  | applied o =>
    simp only [HeadlineScreen.step] at h
    split_ifs at h
    obtain rfl := Option.some.inj h
    rw [applied_eq]
    exact ⟨rfl, rfl⟩

theorem areaRow_setAreaRow (s : HeadlineScreen) {t : PickerState} (h : t.mounted = true) :
    (s.setAreaRow t).areaRow = t := by
  obtain ⟨form, areas, areasLabel, picker, showModal, mounted, requests, issued, received⟩ := t
  obtain rfl : mounted = true := h
  rfl

theorem step_area {e : HeadlineEvent} (h : s.step params draft e = some s') :
    Runs.exec PickerState.step s.areaRow.bare (areaSeen e) = some s'.areaRow.bare := by
  cases e with
  | areaRow a =>
    obtain ⟨t, ht, rfl⟩ := Option.map_eq_some_iff.mp h
    have hsame := areaRow_setAreaRow s ((step_mounted ht).trans rfl)
    simp only [areaSeen, Runs.exec, PickerState.step_bare ht, Option.bind_some]
    exact congrArg (fun row : PickerState => some row.bare) hsame.symm
  | _ => exact congrArg some (step_areaRow (by simp) h).2.symm

/-! ### The form seen through its draft -/

def draftSeen : HeadlineEvent → List LoadingEvent
  | .inputChange key value => [.inputChange key value]
  | .changeAgreement => [.changeAgreement]
  | .loaded => [.loaded]
  | _ => []

def HeadlineScreen.drafted (s : HeadlineScreen) : LoadingForm where
  form := s.form.texts
  loading := s.loading
  typed := s.typed

theorem step_drafted {e : HeadlineEvent} (h : s.step params draft e = some s') :
    Runs.exec (LoadingForm.step draft) s.drafted (draftSeen e) = some s'.drafted := by
  cases e with
  | showActionSheet key =>
    obtain rfl := Option.some.inj h
    rfl
  | pressSheet index =>
    simp only [HeadlineScreen.step] at h
    split_ifs at h
    obtain rfl := Option.some.inj h
    unfold pressSheet
    split <;> rfl
  | picked i path =>
    obtain ⟨-, htexts, hs'⟩ := step_picked_form h
    rw [hs']
    simp [draftSeen, Runs.exec, HeadlineScreen.drafted, htexts]
  | upload i o =>
    obtain ⟨-, htexts, hs'⟩ := step_upload_form h
    rw [hs']
    simp [draftSeen, Runs.exec, HeadlineScreen.drafted, htexts]
  | inputChange key value =>
    obtain rfl := Option.some.inj h
    cases key <;> rfl
  | changeAgreement =>
    obtain rfl := Option.some.inj h
    rfl
  | areaRow e =>
    obtain ⟨t, ht, rfl⟩ := Option.map_eq_some_iff.mp h
    rcases step_form ht with ⟨hform, -⟩ | ⟨label, rfl, rfl⟩
    · have htexts : (s.setAreaRow t).form.texts = s.form.texts := congrArg Form.texts hform
      simp only [draftSeen, Runs.exec, HeadlineScreen.drafted, htexts]
      rfl
    · rfl
  | loaded =>
    simp only [HeadlineScreen.step] at h
    split_ifs at h with hloading
    obtain rfl := Option.some.inj h
    have hstep : s.drafted.step draft .loaded = some { s.drafted with
        form := loadStorageThen draft s.drafted.form
        loading := false } := if_pos hloading
    simp only [draftSeen, Runs.exec, hstep]
    cases draft <;> rfl
  | next =>
    obtain ⟨hform, -, -, -, hloading, htyped, -⟩ := next_cases h
    simp [draftSeen, Runs.exec, HeadlineScreen.drafted, hform, hloading, htyped]
  | applied o =>
    simp only [HeadlineScreen.step] at h
    split_ifs at h
    obtain rfl := Option.some.inj h
    rw [applied_eq]
    rfl

/-- The parts of the form do not disturb one another: whatever happens in between, each
of them goes through a run of its own. -/
theorem headline_form_refines_parts {es : List HeadlineEvent}
    (hrun : Runs.exec (HeadlineScreen.step params draft) {} es = some s) :
    Runs.exec (FormState.step params) {}
        (Runs.seen (HeadlineScreen.step params draft) (picturesSeen draft) {} es) =
        some s.toFormState ∧
      Runs.exec PickerState.step {}
        (Runs.seen (HeadlineScreen.step params draft) (fun _ => areaSeen) {} es) =
        some s.areaRow.bare ∧
      Runs.exec (LoadingForm.step draft) {}
        (Runs.seen (HeadlineScreen.step params draft) (fun _ => draftSeen) {} es) =
        some s.drafted :=
  ⟨Runs.exec_seen (f := HeadlineScreen.toFormState) (fun _ _ _ h => step_pictures h) hrun,
    Runs.exec_seen (f := fun s => s.areaRow.bare) (fun _ _ _ h => step_area h) hrun,
    Runs.exec_seen (f := HeadlineScreen.drafted) (fun _ _ _ h => step_drafted h) hrun⟩

theorem parts_run_while_typing :
    ∃ s, Runs.exec (HeadlineScreen.step none none) {} [.showActionSheet .avatar, .pressSheet 0,
        .inputChange .name "b", .areaRow .tap, .picked 0 (some "a.jpg")] = some s ∧
      Runs.exec (FormState.step none) {} [.edit (.input .name "b"), .pick .avatar "a.jpg"] =
        some s.toFormState ∧
      Runs.exec PickerState.step {} [.tap] = some s.areaRow.bare ∧
      Runs.exec (LoadingForm.step none) {} [.inputChange .name "b"] = some s.drafted :=
  ⟨_, rfl, @headline_form_refines_parts none none _ [.showActionSheet .avatar, .pressSheet 0,
    .inputChange .name "b", .areaRow .tap, .picked 0 (some "a.jpg")] rfl⟩

/-! ### What throws -/

/-- A confirmed label is one of the list that is stored by then, the server answers the
requests of `goNext` and of `fetchArea` with the bodies and the list they read, and an
upload, unless it has been canceled, with a body that can be read. -/
def Readable (s : HeadlineScreen) : HeadlineEvent → Prop
  | .areaRow (.confirm label) => ∃ area ∈ s.areas, area.label.strictEq label = true
  | .areaRow (.respond _ o) => (fetchData o).res.bind Response.data ≠ none
  | .upload i o => o = .responded none → ∀ u ∈ s.uploads[i]?, u.hasCanceled = true
  | .applied o => (fetchData o).res ≠ none
  | _ => True

theorem confirmed_ne_none {t : PickerState} {label : Value} :
    (onPickerConfirm label t).form.area ≠ none ↔
      ∃ area ∈ t.areas, area.label.strictEq label = true := by
  rw [onPickerConfirm_area, ne_eq, List.find?_eq_none]
  simp

/-! Which callbacks throw. -/

theorem fetchAreaThen_throws {t : PickerState} (harea : t.form.area ≠ none) (callback : Bool)
    (res : Option (Response (List Area))) :
    (fetchAreaThen callback res t).toOption.isNone = (res.bind Response.data).isNone := by
  obtain ⟨u, hu⟩ := initAreaPicker_ok harea
  unfold fetchAreaThen categoryList
  cases res.bind Response.data with
  | none => rfl
  | some list =>
    simp only [bind, Except.bind, hu]
    split
    · rfl
    · split <;> rfl

theorem respondThrows_eq {t t' : PickerState} {i : ℕ} {o : Outcome (List Area)}
    (harea : t.form.area ≠ none) (h : t.step (.respond i o) = some t') :
    respondThrows t i o = ((fetchData o).res.bind Response.data).isNone := by
  obtain ⟨callback, hcallback, -⟩ := respond_cases h
  simp only [respondThrows, hcallback, Option.any_some]
  exact fetchAreaThen_throws (t := t.answered i o) harea callback _

theorem uploadThrows_eq_false {t : FormState} {i : ℕ} {o : UploadOutcome} :
    uploadThrows t i o = false ↔
      (o = .responded none → ∀ u ∈ t.uploads[i]?, u.hasCanceled = true) := by
  cases hu : t.uploads[i]? with
  | none => simp [uploadThrows, hu]
  | some u => cases hc : u.hasCanceled <;> simp [uploadThrows, hu, hc]

theorem goNextThen_throws (res : Option (Response Unit)) :
    (Net.HeadlineForm.goNextThen res).thrown.isSome = res.isNone := by
  cases res with
  | none => rfl
  | some r =>
    simp only [Net.HeadlineForm.goNextThen]
    split <;> rfl

/-- What does not answer a request or an upload rejects no promise, and only a tap on the
button sets the flag. -/
theorem step_unanswered {e : HeadlineEvent} (hrow : ∀ a, e ≠ .areaRow a)
    (hupload : ∀ i o, e ≠ .upload i o) (happlied : ∀ o, e ≠ .applied o)
    (h : s.step params draft e = some s') :
    s'.rejected = s.rejected ∧ (e ≠ .next → s'.submitting = s.submitting) := by
  cases e with
  | showActionSheet key =>
    obtain rfl := Option.some.inj h
    exact ⟨rfl, fun _ => rfl⟩
  | pressSheet index =>
    simp only [HeadlineScreen.step] at h
    split_ifs at h
    obtain rfl := Option.some.inj h
    unfold pressSheet
    split <;> exact ⟨rfl, fun _ => rfl⟩
  | picked i path =>
    obtain ⟨key, -, rfl⟩ := Option.map_eq_some_iff.mp h
    cases path <;> exact ⟨rfl, fun _ => rfl⟩
  | upload i o => exact absurd rfl (hupload i o)
  | inputChange key value =>
    obtain rfl := Option.some.inj h
    exact ⟨rfl, fun _ => rfl⟩
  | changeAgreement =>
    obtain rfl := Option.some.inj h
    exact ⟨rfl, fun _ => rfl⟩
  | areaRow a => exact absurd rfl (hrow a)
  | loaded =>
    simp only [HeadlineScreen.step] at h
    split_ifs at h
    obtain rfl := Option.some.inj h
    exact ⟨rfl, fun _ => rfl⟩
  | next =>
    refine ⟨?_, fun hnext => absurd rfl hnext⟩
    simp only [HeadlineScreen.step] at h
    split at h <;> obtain rfl := Option.some.inj h <;> rfl
  | applied o => exact absurd rfl (happlied o)

theorem step_areaRow_alive_iff {e : PickerEvent} (harea : s.form.area ≠ none)
    (hrejected : s.rejected = false) (h : s.step params draft (.areaRow e) = some s') :
    s'.form.area ≠ none ∧ s'.rejected = false ↔ Readable s (.areaRow e) := by
  obtain ⟨t, ht, rfl⟩ := Option.map_eq_some_iff.mp h
  have hsame : (s.setAreaRow t).form = t.form := rfl
  simp only [hrejected, Bool.false_or, hsame]
  rcases step_form ht with ⟨hform, hne⟩ | ⟨label, rfl, rfl⟩
  · have hkept : t.form.area ≠ none := by
      rw [hform]
      exact harea
    simp only [hkept, not_false_eq_true, ne_eq, true_and]
    cases e with
    | respond i o =>
      simp only [PickerEvent.throws, respondThrows_eq (t := s.areaRow) harea ht, Readable]
      cases (fetchData o).res.bind Response.data <;> simp
    | confirm label => exact absurd rfl (hne label)
    | tap => exact iff_of_true rfl trivial
    | cancel => exact iff_of_true rfl trivial
  · exact (and_iff_left rfl).trans confirmed_ne_none

theorem step_alive_iff {e : HeadlineEvent} (harea : s.form.area ≠ none)
    (hrejected : s.rejected = false) (h : s.step params draft e = some s') :
    s'.form.area ≠ none ∧ s'.rejected = false ↔ Readable s e := by
  by_cases hrow : ∃ a, e = .areaRow a
  · obtain ⟨a, rfl⟩ := hrow
    exact step_areaRow_alive_iff harea hrejected h
  · have hne : ∀ a, e ≠ .areaRow a := fun a ha => hrow ⟨a, ha⟩
    have hkept : s'.form.area ≠ none := by
      rw [(step_areaRow hne h).1]
      exact harea
    simp only [ne_eq, hkept, not_false_eq_true, true_and]
    cases e with
    | upload i o =>
      obtain ⟨t, -, rfl⟩ := Option.map_eq_some_iff.mp h
      simp only [hrejected, Bool.false_or]
      exact uploadThrows_eq_false
    | applied o =>
      simp only [HeadlineScreen.step] at h
      split_ifs at h
      obtain rfl := Option.some.inj h
      simp only [hrejected, Bool.false_or, goNextThen_throws, Readable]
      cases (fetchData o).res <;> simp
    | areaRow a => exact absurd rfl (hne a)
    | _ =>
      refine iff_of_true ?_ trivial
      rw [(step_unanswered (by simp) (by simp) (by simp) h).1]
      exact hrejected

end RNFantuan.Views.HeadlineForm
