import RNFantuan.Views.HeadlineForm.Screen

/-!
# What is applied with

The request of `goNext`, in runs of the whole form. Its pictures come from the
uploads and its area from a list of the server, and both have passed through state
that other handlers write to. The area is one the server has offered in every run. A
picture is the one that is shown exactly when it is not uploading.
-/

namespace RNFantuan.Views.HeadlineForm
open JS Nav Net

def ApplyRequest.picture (r : ApplyRequest) : ImageKey → Value
  | .avatar => r.avatar
  | .idCardImage => r.idImg

structure Offered (s : HeadlineScreen) (r : ApplyRequest) : Prop where
  area : ∃ list ∈ s.received, ∃ area ∈ list, s.form.area = some area ∧ r.cid = area.value
  picture : ∀ key, RightPicture s.toFormState key (r.picture key) ↔
    (s.form.image key).uploading = false

def AppliesWithOffered (params : Option Params) (s : HeadlineScreen) : HeadlineEvent → Prop
  | .next => ∀ r, goNext params s.form s.submitting = .ok (.issued r) → Offered s r
  | _ => True

/-- The chosen area, if there is one, is of a list that has been received. -/
structure Chosen (t : PickerState) : Prop where
  stored : AreasReceived t
  area : ∀ area, t.form.area = some area →
    area = {} ∨ ∃ list ∈ t.received, area ∈ list

theorem step_received {t t' : PickerState} {e : PickerEvent} (h : t.step e = some t') :
    ∀ list ∈ t.received, list ∈ t'.received := by
  intro list hlist
  cases e with
  | tap =>
    obtain ⟨-, ⟨rfl, -⟩ | hinit⟩ := tap_cases h
    · exact hlist
    · rw [(initAreaPicker_frame hinit).2.2.2.1]
      exact hlist
  | respond i o =>
    have hmore : list ∈ (t.answered i o).received := List.mem_append_right _ hlist
    obtain ⟨callback, -, ⟨rfl, -⟩ | ⟨stored, u, -, rfl, -, hu⟩⟩ := respond_cases h
    · exact hmore
    · rw [(setAreas_rest stored u).2.1]
      split_ifs at hu
      · rw [(initAreaPicker_frame hu).2.2.2.1]
        exact hmore
      · rw [hu]
        exact hmore
  | confirm label =>
    obtain ⟨-, rfl⟩ := confirm_cases h
    exact hlist
  | cancel =>
    obtain rfl := cancel_cases h
    exact hlist

theorem step_chosen {t t' : PickerState} {e : PickerEvent} (ht : Chosen t)
    (h : t.step e = some t') : Chosen t' := by
  refine ⟨step_areasReceived ht.stored h, fun area harea => ?_⟩
  rcases step_form h with ⟨hform, -⟩ | ⟨label, rfl, rfl⟩
  · rw [hform] at harea
    rcases ht.area area harea with hinitial | ⟨list, hlist, hmem⟩
    · exact Or.inl hinitial
    · exact Or.inr ⟨list, step_received h list hlist, hmem⟩
  · rw [onPickerConfirm_area] at harea
    exact Or.inr (ht.stored.exists_list (List.mem_of_find?_eq_some harea))

structure ApplicationInv (s : HeadlineScreen) : Prop where
  pictures : UploadInv s.toFormState
  area : Chosen s.areaRow.bare

theorem start_applicationInv : ApplicationInv {} where
  pictures := start_uploadInv
  area := ⟨Or.inl rfl, fun _ harea => Or.inl (Option.some.inj harea).symm⟩

variable {params : Option Params} {draft : Option Form} {s s' : HeadlineScreen}

/-- What each part keeps in its own runs holds of the whole form. -/
theorem step_applicationInv {e : HeadlineEvent} (hs : ApplicationInv s)
    (h : s.step params draft e = some s') : ApplicationInv s' where
  pictures := Runs.exec_invariant (fun _ _ _ hI hstep => step_uploadInv hI hstep) hs.pictures
    (step_pictures h)
  area := Runs.exec_invariant (fun _ _ _ hI hstep => step_chosen hI hstep) hs.area (step_area h)

theorem ApplicationInv.offered (hs : ApplicationInv s) {r : ApplyRequest}
    (hissued : goNext params s.form s.submitting = .ok (.issued r)) : Offered s r := by
  obtain ⟨person, -, htype, hvalid, hsubmitting, -⟩ := goNext_eq_issued hissued
  obtain ⟨area, harea⟩ := hvalid.area
  rw [goNext_of_valid htype hvalid harea, hsubmitting] at hissued
  obtain rfl : rData params s.form area = r := by simpa using hissued
  refine ⟨?_, fun key => ?_⟩
  · have hchosen : areaChosen area.value = true := by
      simpa [goNextValidates, validates, harea] using hvalid .area
    rcases hs.area.area area harea with rfl | ⟨list, hlist, hmem⟩
    · cases hchosen
    · exact ⟨list, hlist, area, hmem, harea, rfl⟩
  · have hvalue : (rData params s.form area).picture key = (s.form.image key).value := by
      cases key <;> rfl
    rw [hvalue]
    exact rightPicture_iff hs.pictures (hvalid.image key)

/-- In every run of the whole form, a request names an area the server has offered, and
the id of the image shown for a key exactly when that image is not uploading. -/
theorem applications_name_offered (params : Option Params) (draft : Option Form)
    (es : List HeadlineEvent) :
    Runs.Along (HeadlineScreen.step params draft) (AppliesWithOffered params) {} es := by
  refine Runs.Along.of_invariant (I := ApplicationInv)
    (fun _ _ _ hs h => step_applicationInv hs h) (fun s e hs => ?_) start_applicationInv es
  cases e with
  | next => exact fun r hissued => hs.offered hissued
  | _ => trivial

end RNFantuan.Views.HeadlineForm
