import RNFantuan.Runtime.Runs
import RNFantuan.Views.HeadlineForm.Form

/-!
# Pictures and their uploads

`uploadPic` and `lib/MakeCancelAble.js`. A pick shows its image at once and starts
an upload; the upload's id comes into the form when the server has returned it. A
later pick for the same key cancels the earlier upload, which is noticed when that
one settles. The validators look at the id alone, so a form with an id of an image
picked before is submitted: the pictures are right as long as nothing is submitted
while one of them is uploading, which includes an upload that has failed.
-/

namespace RNFantuan.Views.HeadlineForm
open JS Nav

/-- A wrapped promise of `UploadImage`; `id` records what the server has returned. -/
structure Upload where
  key : ImageKey
  uri : String
  hasCanceled : Bool := false
  pending : Bool := true
  id : Option Value := none
  deriving DecidableEq

def Upload.cancel (u : Upload) : Upload := { u with hasCanceled := true }

/-- `data` lists `data.id`, if there are data. -/
structure UploadResponse where
  error : Value
  data : Option (List Value)
  deriving DecidableEq

/-- `res.data.id[0]`, if `!res.error && res.data`. -/
def UploadResponse.id (res : UploadResponse) : Option Value :=
  if res.error.truthy then none else res.data.map fun ids => ids.headD .undefined

/-- A body is `none` when the success callback throws on it before it touches the form:
`null`, or a body without an error whose `data.id` cannot be indexed. -/
inductive UploadOutcome
  | responded (res : Option UploadResponse)
  | failed
  deriving DecidableEq

def UploadOutcome.id : UploadOutcome → Option Value
  | .responded res => res.bind UploadResponse.id
  | .failed => none

/-- `current key` is `this[key]`, the place of its upload in `uploads`. -/
structure FormState where
  form : Form := {}
  submitting : Bool := false
  current : ImageKey → Option ℕ := fun _ => none
  uploads : List Upload := []

def cancelAt (uploads : List Upload) : Option ℕ → List Upload
  | none => uploads
  | some i => uploads.modify i Upload.cancel

def uploadPic (s : FormState) (key : ImageKey) (uri : String) : FormState :=
  { s with
    uploads := cancelAt s.uploads (s.current key) ++ [{ key := key, uri := uri }]
    current := Function.update s.current key (some s.uploads.length)
    form := s.form.setImage key { s.form.image key with
      url := some uri
      uploading := true
      uploadText := "上传中..." } }

/-- The two callbacks of `this[key].promise.then`; the first may throw. -/
def uploadThen (key : ImageKey) (hasCanceled : Bool) (o : UploadOutcome) (form : Form) : Form :=
  if hasCanceled then form.setImage key { form.image key with uploadText := "取消上传" }
  else
    match o with
    | .failed => form.setImage key { form.image key with uploadText := "上传失败" }
    | .responded _ =>
      match o.id with
      | some id => form.setImage key { form.image key with value := id, uploading := false }
      | none => form

def Upload.settle (u : Upload) (o : UploadOutcome) : Upload :=
  { u with pending := false, id := o.id }

def FormState.settle (s : FormState) (i : ℕ) (u : Upload) (o : UploadOutcome) : FormState :=
  { s with
    uploads := s.uploads.set i (u.settle o)
    form := uploadThen u.key u.hasCanceled o s.form }

inductive FormEvent
  | pick (key : ImageKey) (uri : String)
  | upload (i : ℕ) (o : UploadOutcome)
  | edit (e : Edit)
  | restore (res : Form)
  | next
  | applied

/-- `next` taps `goNext`, and `applied` is the response to its request. -/
def FormState.step (params : Option Params) (s : FormState) : FormEvent → Option FormState
  | .pick key uri => some (uploadPic s key uri)
  | .upload i o => (s.uploads[i]?.filter Upload.pending).map fun u => s.settle i u o
  | .edit e => some { s with form := s.form.edit e }
  | .restore res => some { s with form := s.form.assignStored res }
  | .next =>
    match goNext params s.form s.submitting with
    | .ok (.issued _) => some { s with submitting := true }
    | _ => some s
  | .applied => if s.submitting then some { s with submitting := false } else none

/-! ### The callbacks -/

section Callbacks

variable {key : ImageKey} {hasCanceled : Bool} {o : UploadOutcome} (form : Form)

theorem uploadThen_image_of_ne {key' : ImageKey} (h : key' ≠ key) :
    (uploadThen key hasCanceled o form).image key' = form.image key' := by
  unfold uploadThen
  split
  · exact form.image_setImage_of_ne _ h
  · split
    · exact form.image_setImage_of_ne _ h
    · split
      · exact form.image_setImage_of_ne _ h
      · rfl

variable (key hasCanceled) in
theorem uploadThen_keeps (h : hasCanceled = true ∨ o.id = none) (key' : ImageKey) :
    ((uploadThen key hasCanceled o form).image key').value = (form.image key').value ∧
      ((uploadThen key hasCanceled o form).image key').url = (form.image key').url ∧
      ((uploadThen key hasCanceled o form).image key').uploading =
        (form.image key').uploading := by
  by_cases hkey : key' = key
  · subst hkey
    cases hasCanceled with
    | true => simp [uploadThen]
    | false =>
      have hid : o.id = none := by simpa using h
      cases o with
      | failed => simp [uploadThen]
      | responded res => simp [uploadThen, hid]
  · rw [uploadThen_image_of_ne form hkey]
    exact ⟨rfl, rfl, rfl⟩

theorem uploadThen_done {id : Value} (h : o.id = some id) :
    (uploadThen key false o form).image key =
      { form.image key with value := id, uploading := false } := by
  cases o with
  | failed => cases h
  | responded res => simp [uploadThen, h]

end Callbacks

theorem getElem?_cancelAt (uploads : List Upload) (current : Option ℕ) (i : ℕ) :
    (cancelAt uploads current)[i]? =
      uploads[i]?.map fun u => if current = some i then u.cancel else u := by
  cases current with
  | none => simp [cancelAt]
  | some j => by_cases h : j = i <;> simp [cancelAt, h]

@[simp]
theorem length_cancelAt (uploads : List Upload) (current : Option ℕ) :
    (cancelAt uploads current).length = uploads.length := by
  cases current <;> simp [cancelAt]

theorem getElem?_uploadPic {s : FormState} (key : ImageKey) (uri : String) {i : ℕ} {u : Upload}
    (hu : s.uploads[i]? = some u) :
    (uploadPic s key uri).uploads[i]? =
      some (if s.current key = some i then u.cancel else u) := by
  have hlt : i < (cancelAt s.uploads (s.current key)).length := by
    rw [length_cancelAt]
    exact (List.getElem?_eq_some_iff.mp hu).1
  simp only [uploadPic]
  rw [List.getElem?_append_left hlt, getElem?_cancelAt, hu]
  rfl

/-! ### The invariant -/

/-- The item shows the image of an upload, and has its id once it is not uploading
any more. -/
structure ShownBy (item : ImageItem) (key : ImageKey) (u : Upload) : Prop where
  key_eq : u.key = key
  live : u.hasCanceled = false
  url : item.url = some u.uri
  id : u.id = if item.uploading then none else some item.value
  settled : item.uploading = false → u.pending = false

def Tracks (s : FormState) (key : ImageKey) : Prop :=
  match s.current key with
  | none => (s.form.image key).value = .str ""
  | some i => ∃ u, s.uploads[i]? = some u ∧ ShownBy (s.form.image key) key u

theorem Tracks.shownBy {s : FormState} {key : ImageKey} {i : ℕ} (h : Tracks s key)
    (hc : s.current key = some i) :
    ∃ u, s.uploads[i]? = some u ∧ ShownBy (s.form.image key) key u := by
  unfold Tracks at h
  rw [hc] at h
  exact h

structure UploadInv (s : FormState) : Prop where
  tracks : ∀ key, Tracks s key
  superseded : ∀ i u, s.uploads[i]? = some u → s.current u.key ≠ some i → u.hasCanceled = true

theorem start_uploadInv : UploadInv {} where
  tracks key := by cases key <;> rfl
  superseded i u h := by simp at h

theorem UploadInv.of_images {s s' : FormState} (h : UploadInv s)
    (hform : ∀ key, s'.form.image key = s.form.image key) (hcurrent : s'.current = s.current)
    (huploads : s'.uploads = s.uploads) : UploadInv s' := by
  refine ⟨fun key => ?_, ?_⟩
  · have htracks := h.tracks key
    unfold Tracks at htracks ⊢
    rw [hcurrent, huploads, hform]
    exact htracks
  · rw [hcurrent, huploads]
    exact h.superseded

theorem uploadPic_tracks {s : FormState} (h : UploadInv s) (key : ImageKey) (uri : String)
    (key' : ImageKey) : Tracks (uploadPic s key uri) key' := by
  by_cases hkey : key' = key
  · subst hkey
    have hcurrent : (uploadPic s key' uri).current key' = some s.uploads.length :=
      Function.update_self _ _ _
    unfold Tracks
    rw [hcurrent]
    refine ⟨{ key := key', uri := uri }, by simp [uploadPic], rfl, rfl, ?_, ?_, ?_⟩ <;>
      simp [uploadPic]
  · have htracks := h.tracks key'
    have himage : (uploadPic s key uri).form.image key' = s.form.image key' :=
      s.form.image_setImage_of_ne _ hkey
    have hcurrent : (uploadPic s key uri).current key' = s.current key' :=
      Function.update_of_ne hkey _ _
    cases hc : s.current key' with
    | none =>
      unfold Tracks at htracks ⊢
      rw [hc] at htracks
      rw [hcurrent, hc, himage]
      exact htracks
    | some i =>
      obtain ⟨u, hu, hshown⟩ := htracks.shownBy hc
      -- the upload canceled now is one of the other key
      have hother : s.current key ≠ some i := by
        intro heq
        obtain ⟨v, hv, hv'⟩ := (h.tracks key).shownBy heq
        obtain rfl : u = v := Option.some.inj (hu.symm.trans hv)
        exact hkey (hshown.key_eq.symm.trans hv'.key_eq)
      unfold Tracks
      rw [hcurrent, hc]
      refine ⟨u, ?_, himage ▸ hshown⟩
      rw [getElem?_uploadPic key uri hu, if_neg hother]

theorem uploadPic_inv {s : FormState} (h : UploadInv s) (key : ImageKey) (uri : String) :
    UploadInv (uploadPic s key uri) := by
  refine ⟨uploadPic_tracks h key uri, fun i u hu hne => ?_⟩
  rcases Nat.lt_trichotomy i s.uploads.length with hlt | rfl | hgt
  · have hold := List.getElem?_eq_getElem hlt
    rw [getElem?_uploadPic key uri hold] at hu
    by_cases hc : s.current key = some i
    · rw [if_pos hc] at hu
      rw [← Option.some.inj hu]
      rfl
    · rw [if_neg hc] at hu
      obtain rfl := Option.some.inj hu
      refine h.superseded i _ hold fun hcur => ?_
      by_cases hkey : s.uploads[i].key = key
      · exact hc (hkey ▸ hcur)
      · exact hne ((Function.update_of_ne hkey _ _).trans hcur)
  · -- the new upload is the current one of its key
    obtain rfl : { key := key, uri := uri } = u := by simpa [uploadPic] using hu
    exact absurd (Function.update_self _ _ _) hne
  · have hlen : (uploadPic s key uri).uploads.length = s.uploads.length + 1 := by simp [uploadPic]
    have hlt := (List.getElem?_eq_some_iff.mp hu).1
    omega

theorem ShownBy.of_eq {item item' : ImageItem} {key : ImageKey} {u : Upload}
    (h : ShownBy item key u) (hvalue : item'.value = item.value) (hurl : item'.url = item.url)
    (huploading : item'.uploading = item.uploading) : ShownBy item' key u := by
  refine ⟨h.key_eq, h.live, ?_, ?_, ?_⟩
  · rw [hurl]
    exact h.url
  · rw [huploading, hvalue]
    exact h.id
  · rw [huploading]
    exact h.settled

theorem ShownBy.settle {form : Form} {key : ImageKey} {u : Upload}
    (h : ShownBy (form.image key) key u) (hpending : u.pending = true) (o : UploadOutcome) :
    ShownBy ((uploadThen u.key u.hasCanceled o form).image key) key (u.settle o) := by
  obtain ⟨rfl, hlive, hurl, hid, hsettled⟩ := h
  cases ho : o.id with
  | none =>
    obtain ⟨hvalue, hurl', huploading⟩ :=
      uploadThen_keeps u.key u.hasCanceled form (Or.inr ho) u.key
    have hup : (form.image u.key).uploading = true := by
      by_contra hdown
      rw [hsettled (by simpa using hdown)] at hpending
      cases hpending
    exact ⟨rfl, hlive, hurl'.trans hurl, by simp [Upload.settle, ho, huploading, hup],
      fun _ => rfl⟩
  | some id =>
    rw [hlive, uploadThen_done form ho]
    exact ⟨rfl, hlive, hurl, by simp [Upload.settle, ho], fun _ => rfl⟩

theorem settle_tracks {s : FormState} (h : UploadInv s) {i : ℕ} {u : Upload}
    (hu : s.uploads[i]? = some u) (hpending : u.pending = true) (o : UploadOutcome)
    (key : ImageKey) : Tracks (s.settle i u o) key := by
  have hlt := (List.getElem?_eq_some_iff.mp hu).1
  -- an upload that is not the newest of its key changes at most a text
  have hkeeps : s.current key ≠ some i →
      ((s.settle i u o).form.image key).value = (s.form.image key).value ∧
        ((s.settle i u o).form.image key).url = (s.form.image key).url ∧
        ((s.settle i u o).form.image key).uploading = (s.form.image key).uploading := by
    intro hne
    by_cases hkey : key = u.key
    · subst hkey
      exact uploadThen_keeps u.key u.hasCanceled s.form (Or.inl (h.superseded i u hu hne)) u.key
    · have himage : (s.settle i u o).form.image key = s.form.image key :=
        uploadThen_image_of_ne s.form hkey
      rw [himage]
      exact ⟨rfl, rfl, rfl⟩
  have hcurrent : (s.settle i u o).current key = s.current key := rfl
  have htracks := h.tracks key
  cases hc : s.current key with
  | none =>
    have hvalue := (hkeeps (by simp [hc])).1
    unfold Tracks at htracks ⊢
    rw [hc] at htracks
    rw [hcurrent, hc]
    exact hvalue.trans htracks
  | some j =>
    obtain ⟨v, hv, hshown⟩ := htracks.shownBy hc
    unfold Tracks
    rw [hcurrent, hc]
    by_cases hji : j = i
    · subst hji
      obtain rfl : u = v := Option.some.inj (hu.symm.trans hv)
      exact ⟨u.settle o, List.getElem?_set_self hlt, hshown.settle hpending o⟩
    · obtain ⟨hvalue, hurl, huploading⟩ := hkeeps (by simpa [hc] using hji)
      refine ⟨v, ?_, hshown.of_eq hvalue hurl huploading⟩
      exact (List.getElem?_set_ne (Ne.symm hji)).trans hv

theorem settle_inv {s : FormState} (h : UploadInv s) {i : ℕ} {u : Upload}
    (hu : s.uploads[i]? = some u) (hpending : u.pending = true) (o : UploadOutcome) :
    UploadInv (s.settle i u o) := by
  have hlt := (List.getElem?_eq_some_iff.mp hu).1
  refine ⟨settle_tracks h hu hpending o, fun j v hv hne => ?_⟩
  by_cases hji : j = i
  · subst hji
    obtain rfl : u.settle o = v :=
      Option.some.inj ((List.getElem?_set_self hlt).symm.trans hv)
    exact h.superseded j u hu hne
  · exact h.superseded j v ((List.getElem?_set_ne (Ne.symm hji)).symm.trans hv) hne

theorem FormState.step_cases {params : Option Params} {s s' : FormState} {e : FormEvent}
    (h : s.step params e = some s') :
    (∃ key uri, e = .pick key uri ∧ s' = uploadPic s key uri) ∨
      (∃ i o u, e = .upload i o ∧ s.uploads[i]? = some u ∧ u.pending = true ∧
        s' = s.settle i u o) ∨
      ((∀ i o, e ≠ .upload i o) ∧ (∀ key, s'.form.image key = s.form.image key) ∧
        s'.current = s.current ∧ s'.uploads = s.uploads) := by
  cases e with
  | pick key uri => exact Or.inl ⟨key, uri, rfl, (Option.some.inj h).symm⟩
  | upload i o =>
    obtain ⟨u, hu, rfl⟩ := Option.map_eq_some_iff.mp h
    obtain ⟨hu, hpending⟩ := Option.filter_eq_some_iff.mp hu
    exact Or.inr (Or.inl ⟨i, o, u, rfl, hu, hpending, rfl⟩)
  | edit e =>
    obtain rfl := Option.some.inj h
    exact Or.inr (Or.inr ⟨by simp, fun key => s.form.image_edit e key, rfl, rfl⟩)
  | restore res =>
    obtain rfl := Option.some.inj h
    exact Or.inr (Or.inr ⟨by simp, fun key => s.form.image_assignStored res key, rfl, rfl⟩)
  | next =>
    refine Or.inr (Or.inr ⟨by simp, ?_⟩)
    simp only [FormState.step] at h
    split at h <;> obtain rfl := Option.some.inj h <;> exact ⟨fun _ => rfl, rfl, rfl⟩
  | applied =>
    refine Or.inr (Or.inr ⟨by simp, ?_⟩)
    simp only [FormState.step] at h
    split at h
    · obtain rfl := Option.some.inj h
      exact ⟨fun _ => rfl, rfl, rfl⟩
    · cases h

theorem step_uploadInv {params : Option Params} {s s' : FormState} {e : FormEvent}
    (h : UploadInv s) (hstep : s.step params e = some s') : UploadInv s' := by
  rcases FormState.step_cases hstep with
    ⟨key, uri, -, rfl⟩ | ⟨i, o, u, -, hu, hpending, rfl⟩ | ⟨-, hform, hcurrent, huploads⟩
  · exact uploadPic_inv h key uri
  · exact settle_inv h hu hpending o
  · exact h.of_images hform hcurrent huploads

/-! ### What is submitted -/

def RightPicture (s : FormState) (key : ImageKey) (id : Value) : Prop :=
  ∃ i u, s.current key = some i ∧ s.uploads[i]? = some u ∧
    (s.form.image key).url = some u.uri ∧ u.id = some id

def SubmitsShown (params : Option Params) (s : FormState) : FormEvent → Prop
  | .next => ∀ r, goNext params s.form s.submitting = .ok (.issued r) →
      RightPicture s .avatar r.avatar ∧ RightPicture s .idCardImage r.idImg
  | _ => True

/-- A tap on a valid form that is not being submitted finds neither image uploading. -/
def NothingUploading (params : Option Params) (s : FormState) : FormEvent → Prop
  | .next => ∀ person, typeIs params "1" = .ok person → AllValid person s.form →
      s.submitting = false → ∀ key, (s.form.image key).uploading = false
  | _ => True

theorem rightPicture_iff {s : FormState} (h : UploadInv s) {key : ImageKey}
    (hvalue : (s.form.image key).value.truthy = true) :
    RightPicture s key (s.form.image key).value ↔ (s.form.image key).uploading = false := by
  have htracks := h.tracks key
  cases hc : s.current key with
  | none =>
    unfold Tracks at htracks
    rw [hc] at htracks
    rw [htracks] at hvalue
    cases hvalue
  | some i =>
    obtain ⟨u, hu, hshown⟩ := htracks.shownBy hc
    have hid := hshown.id
    constructor
    · rintro ⟨j, v, hj, hv, -, hvid⟩
      obtain rfl : i = j := Option.some.inj (hc.symm.trans hj)
      obtain rfl : u = v := Option.some.inj (hu.symm.trans hv)
      by_contra hup
      rw [hvid, if_pos (by simpa using hup)] at hid
      cases hid
    · intro hdown
      refine ⟨i, u, hc, hu, hshown.url, ?_⟩
      rw [hid, hdown]
      rfl

theorem submitsShown_iff {params : Option Params} {s : FormState} (h : UploadInv s)
    (e : FormEvent) : SubmitsShown params s e ↔ NothingUploading params s e := by
  cases e with
  | next =>
    constructor
    · intro hright person htype hvalid hsubmitting key
      obtain ⟨area, harea⟩ := hvalid.area
      have hissued : goNext params s.form s.submitting =
          .ok (.issued (rData params s.form area)) := by
        rw [goNext_of_valid htype hvalid harea, hsubmitting]
        rfl
      obtain ⟨havatar, hidImg⟩ := hright _ hissued
      cases key with
      | avatar => exact (rightPicture_iff h (hvalid.image .avatar)).mp havatar
      | idCardImage => exact (rightPicture_iff h (hvalid.image .idCardImage)).mp hidImg
    · intro hdone r hissued
      obtain ⟨person, area, htype, hvalid, hsubmitting, rfl⟩ := goNext_eq_issued hissued
      have hdown := hdone person htype hvalid hsubmitting
      exact ⟨(rightPicture_iff h (hvalid.image .avatar)).mpr (hdown .avatar),
        (rightPicture_iff h (hvalid.image .idCardImage)).mpr (hdown .idCardImage)⟩
  | _ => exact Iff.rfl

/-- In every run of the form, each request carries the ids of the images shown exactly
when no valid form is submitted while an image is uploading. -/
theorem submits_shown_iff_nothing_uploading (params : Option Params) (es : List FormEvent) :
    Runs.Along (FormState.step params) (SubmitsShown params) {} es ↔
      Runs.Along (FormState.step params) (NothingUploading params) {} es :=
  Runs.along_congr (fun _ _ _ h hstep => step_uploadInv h hstep)
    (fun _ e _ h _ => submitsShown_iff h e) start_uploadInv

theorem old_avatar_submitted :
    ¬ Runs.Along (FormState.step (some { type := some (nat 1) }))
      (SubmitsShown (some { type := some (nat 1) })) {}
      [.pick .avatar "a.jpg", .upload 0 (.responded (some ⟨nat 0, some [nat 7]⟩)),
        .pick .idCardImage "c.jpg", .upload 1 (.responded (some ⟨nat 0, some [nat 8]⟩)),
        .edit (.input .name "a"), .edit (.input .phone "13800000000"),
        .edit (.area (some ⟨nat 3, .str "b"⟩)), .edit (.input .intro "0123456789"),
        .edit (.input .realName "c"), .edit (.input .idCardNumber "d"),
        .pick .avatar "b.jpg", .next] := by
  intro h
  have hlast := ((((((((((((h _ rfl).2 _ rfl).2 _ rfl).2 _ rfl).2 _ rfl).2 _ rfl).2 _ rfl).2 _
    rfl).2 _ rfl).2 _ rfl).2 _ rfl).2 _ rfl).1 _ rfl
  obtain ⟨i, u, hi, hu, -, hid⟩ := hlast.1
  obtain rfl : 2 = i := Option.some.inj hi
  obtain rfl := Option.some.inj hu
  cases hid

end RNFantuan.Views.HeadlineForm
