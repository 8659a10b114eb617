import RNFantuan.Views.HeadlineForm.Upload

/-!
# What an upload leaves behind

A later pick cancels the upload, and `MakeCancelAble` then turns its outcome into a
rejection. The rejection still runs the second callback of `uploadPic`, which writes
a text into the entry that by then shows the newer image. An upload nobody has
canceled ends in one of three ways: its id is taken, it fails, or the server answers
without an id, for which neither callback has a branch.
-/

namespace RNFantuan.Views.HeadlineForm
open JS Nav

def Superseded (s : FormState) (i : ℕ) (u : Upload) : Prop :=
  ∃ j v, i < j ∧ s.uploads[j]? = some v ∧ v.key = u.key

structure Newest (s : FormState) (key : ImageKey) (i : ℕ) (u : Upload) : Prop where
  started : s.uploads[i]? = some u
  key_eq : u.key = key
  last : ∀ j v, i < j → s.uploads[j]? = some v → v.key ≠ key

def SupersededInert (params : Option Params) (s : FormState) : FormEvent → Prop
  | .upload i o => ∀ u, s.uploads[i]? = some u → Superseded s i u →
      ∀ s', s.step params (.upload i o) = some s' → s'.form = s.form
  | _ => True

/-- When a superseded upload completes, the text of its key is the one of a canceled
upload already. -/
def CanceledBefore (s : FormState) : FormEvent → Prop
  | .upload i _ => ∀ u, s.uploads[i]? = some u → Superseded s i u →
      (s.form.image u.key).uploadText = "取消上传"
  | _ => True

/-- The upload that completes is the newest of its key. -/
def CompletesNewest (s : FormState) : FormEvent → Prop
  | .upload i _ => ∀ u, s.uploads[i]? = some u → ¬ Superseded s i u
  | _ => True

/-- Once the newest upload of the key has settled, the form shows how. -/
def ShowsOutcome (s : FormState) (key : ImageKey) : Prop :=
  ∀ i u, Newest s key i u → u.pending = false →
    match u.id with
    | some id => (s.form.image key).uploading = false ∧ (s.form.image key).value = id
    | none => (s.form.image key).uploadText = "上传失败"

/-- The newest upload of a key is not answered without an id, and after it has ended
without one, no older upload of the key completes. -/
def EndsVisibly (s : FormState) : FormEvent → Prop
  | .upload i o => ∀ u, s.uploads[i]? = some u →
      (¬ Superseded s i u → o = .failed ∨ o.id ≠ none) ∧
        (Superseded s i u → ∀ j v, Newest s u.key j v → v.pending = false → v.id ≠ none)
  | _ => True

/-! ### The order of the picks -/

def FormState.keys (s : FormState) : List ImageKey := s.uploads.map Upload.key

def PicksInOrder (s : FormState) : Prop :=
  ∀ j key, s.keys[j]? = some key → ∃ i, s.current key = some i ∧ j ≤ i

theorem keys_cancelAt (uploads : List Upload) (current : Option ℕ) :
    (cancelAt uploads current).map Upload.key = uploads.map Upload.key := by
  apply List.ext_getElem?
  intro j
  rw [List.getElem?_map, List.getElem?_map, getElem?_cancelAt, Option.map_map]
  congr 1
  funext u
  simp only [Function.comp_apply]
  split <;> rfl

@[simp]
theorem keys_uploadPic (s : FormState) (key : ImageKey) (uri : String) :
    (uploadPic s key uri).keys = s.keys ++ [key] := by
  simp [FormState.keys, uploadPic, keys_cancelAt]

theorem keys_settle {s : FormState} {i : ℕ} {u : Upload} (hu : s.uploads[i]? = some u)
    (o : UploadOutcome) : (s.settle i u o).keys = s.keys := by
  apply List.ext_getElem?
  intro j
  simp only [FormState.keys, FormState.settle, List.getElem?_map, List.getElem?_set]
  by_cases hji : i = j
  · subst hji
    have hlt := (List.getElem?_eq_some_iff.mp hu).1
    simp [hlt, Upload.settle, (List.getElem?_eq_some_iff.mp hu).2]
  · simp [hji]

variable {params : Option Params} {s s' : FormState} {e : FormEvent}

def RunningText (s : FormState) : Prop :=
  ∀ key i u, s.current key = some i → s.uploads[i]? = some u → u.pending = true →
    (s.form.image key).uploadText ≠ "上传失败"

structure SettledInv (s : FormState) : Prop extends UploadInv s where
  inOrder : PicksInOrder s
  running : RunningText s

theorem start_settledInv : SettledInv {} where
  toUploadInv := start_uploadInv
  inOrder j key h := by simp [FormState.keys] at h
  running key i u h := by simp at h

theorem uploadPic_inOrder (h : PicksInOrder s) (key : ImageKey) (uri : String) :
    PicksInOrder (uploadPic s key uri) := by
  intro j key' hj
  rw [keys_uploadPic] at hj
  have hlen : s.keys.length = s.uploads.length := List.length_map _
  by_cases hkey : key' = key
  · subst hkey
    refine ⟨s.uploads.length, Function.update_self _ _ _, ?_⟩
    have hlt := (List.getElem?_eq_some_iff.mp hj).1
    rw [List.length_append, List.length_singleton] at hlt
    omega
  · have hcurrent : (uploadPic s key uri).current key' = s.current key' :=
      Function.update_of_ne hkey _ _
    rw [hcurrent]
    rcases Nat.lt_or_ge j s.keys.length with hlt | hge
    · rw [List.getElem?_append_left hlt] at hj
      exact h j key' hj
    · rw [List.getElem?_append_right hge, List.getElem?_singleton] at hj
      split at hj
      · exact absurd (Option.some.inj hj).symm hkey
      · cases hj

theorem uploadPic_running (hU : UploadInv s) (h : RunningText s) (key : ImageKey) (uri : String) :
    RunningText (uploadPic s key uri) := by
  intro key' i u hc hu hpending
  by_cases hkey : key' = key
  · subst hkey
    simp [uploadPic]
  · have hcurrent : s.current key' = some i := (Function.update_of_ne hkey _ _).symm.trans hc
    have himage : (uploadPic s key uri).form.image key' = s.form.image key' :=
      s.form.image_setImage_of_ne _ hkey
    obtain ⟨v, hv, -⟩ := (hU.tracks key').shownBy hcurrent
    rw [getElem?_uploadPic key uri hv] at hu
    rw [himage]
    refine h key' i v hcurrent hv ?_
    obtain rfl := Option.some.inj hu
    split at hpending <;> exact hpending

theorem settle_running (h : SettledInv s) {i : ℕ} {u : Upload} (hu : s.uploads[i]? = some u)
    (o : UploadOutcome) : RunningText (s.settle i u o) := by
  have hlt := (List.getElem?_eq_some_iff.mp hu).1
  intro key j v hc hv hpending
  have hcurrent : s.current key = some j := hc
  by_cases hji : j = i
  · subst hji
    obtain rfl : u.settle o = v := Option.some.inj ((List.getElem?_set_self hlt).symm.trans hv)
    cases hpending
  · have hold : s.uploads[j]? = some v := (List.getElem?_set_ne (Ne.symm hji)).symm.trans hv
    by_cases hkey : key = u.key
    · subst hkey
      have hcanceled := h.superseded i u hu (by simpa [hcurrent] using hji)
      simp [FormState.settle, uploadThen, hcanceled]
    · have himage : (s.settle i u o).form.image key = s.form.image key :=
        uploadThen_image_of_ne s.form hkey
      rw [himage]
      exact h.running key j v hcurrent hold hpending

theorem step_settledInv (h : SettledInv s) (hstep : s.step params e = some s') :
    SettledInv s' := by
  refine ⟨step_uploadInv h.toUploadInv hstep, ?_, ?_⟩
  · rcases FormState.step_cases hstep with
      ⟨key, uri, -, rfl⟩ | ⟨i, o, u, -, hu, -, rfl⟩ | ⟨-, -, hcurrent, huploads⟩
    · exact uploadPic_inOrder h.inOrder key uri
    · intro j key hj
      rw [keys_settle hu] at hj
      exact h.inOrder j key hj
    · intro j key hj
      rw [FormState.keys, huploads] at hj
      rw [hcurrent]
      exact h.inOrder j key hj
  · rcases FormState.step_cases hstep with
      ⟨key, uri, -, rfl⟩ | ⟨i, o, u, -, hu, -, rfl⟩ | ⟨-, hform, hcurrent, huploads⟩
    · exact uploadPic_running h.toUploadInv h.running key uri
    · exact settle_running h hu o
    · intro key i u hc hu hpending
      rw [hform]
      exact h.running key i u (hcurrent ▸ hc) (huploads ▸ hu) hpending

/-! ### Superseded and newest uploads -/

theorem newest_iff (h : SettledInv s) {key : ImageKey} {i : ℕ} {u : Upload} :
    Newest s key i u ↔ s.current key = some i ∧ s.uploads[i]? = some u := by
  constructor
  · rintro ⟨hu, rfl, hlast⟩
    refine ⟨?_, hu⟩
    obtain ⟨j, hj, hij⟩ := h.inOrder i u.key (by simp [FormState.keys, hu])
    obtain ⟨v, hv, hshown⟩ := (h.tracks u.key).shownBy hj
    rcases Nat.eq_or_lt_of_le hij with rfl | hlt
    · exact hj
    · exact absurd hshown.key_eq (hlast j v hlt hv)
  · rintro ⟨hc, hu⟩
    obtain ⟨v, hv, hshown⟩ := (h.tracks key).shownBy hc
    obtain rfl : u = v := Option.some.inj (hu.symm.trans hv)
    refine ⟨hu, hshown.key_eq, fun j w hlt hw hkey => ?_⟩
    obtain ⟨k, hk, hjk⟩ := h.inOrder j key (by simp [FormState.keys, hw, hkey])
    have hik : i = k := Option.some.inj (hc.symm.trans hk)
    omega

theorem superseded_iff (h : SettledInv s) {i : ℕ} {u : Upload} (hu : s.uploads[i]? = some u) :
    Superseded s i u ↔ s.current u.key ≠ some i := by
  constructor
  · rintro ⟨j, v, hlt, hv, hkey⟩ hc
    exact ((newest_iff h).mpr ⟨hc, hu⟩).last j v hlt hv hkey
  · intro hne
    obtain ⟨j, hj, hij⟩ := h.inOrder i u.key (by simp [FormState.keys, hu])
    obtain ⟨v, hv, hshown⟩ := (h.tracks u.key).shownBy hj
    have hji : i ≠ j := fun heq => hne (heq ▸ hj)
    exact ⟨j, v, by omega, hv, hshown.key_eq⟩

theorem Superseded.hasCanceled (h : SettledInv s) {i : ℕ} {u : Upload}
    (hu : s.uploads[i]? = some u) (hsup : Superseded s i u) : u.hasCanceled = true :=
  h.superseded i u hu ((superseded_iff h hu).mp hsup)

/-! ### A superseded upload completes -/

theorem setText_eq_self (form : Form) (key : ImageKey) (text : String) :
    form.setImage key { form.image key with uploadText := text } = form ↔
      (form.image key).uploadText = text := by
  constructor
  · intro h
    rw [← h, Form.image_setImage]
  · rintro rfl
    cases key <;> rfl

theorem supersededInert_iff (h : SettledInv s) (hstep : s.step params e = some s') :
    SupersededInert params s e ↔ CanceledBefore s e := by
  rcases FormState.step_cases hstep with
    ⟨key, uri, rfl, -⟩ | ⟨i, o, u, rfl, hu, -, rfl⟩ | ⟨hne, -⟩
  · exact Iff.rfl
  · have hform : Superseded s i u →
        (s.settle i u o).form =
          s.form.setImage u.key { s.form.image u.key with uploadText := "取消上传" } := by
      intro hsup
      simp [FormState.settle, uploadThen, hsup.hasCanceled h hu]
    constructor
    · intro hinert v hv hsup
      obtain rfl : u = v := Option.some.inj (hu.symm.trans hv)
      have hkept := hinert u hu hsup _ hstep
      rw [hform hsup, setText_eq_self] at hkept
      exact hkept
    · intro htext v hv hsup t ht
      obtain rfl : u = v := Option.some.inj (hu.symm.trans hv)
      obtain rfl := Option.some.inj (hstep.symm.trans ht)
      rw [hform hsup, setText_eq_self]
      exact htext u hu hsup
  · cases e with
    | upload i o => exact absurd rfl (hne i o)
    | _ => exact Iff.rfl

/-! Only a superseded upload writes the text of a canceled one, so in a run that meets
the condition from the start none completes. -/

def NoneCanceled (s : FormState) : Prop :=
  ∀ key, (s.form.image key).uploadText ≠ "取消上传"

theorem hasCanceled_eq_false (h : SettledInv s) {i : ℕ} {u : Upload} (hu : s.uploads[i]? = some u)
    (hnot : ¬ Superseded s i u) : u.hasCanceled = false := by
  have hc : s.current u.key = some i := by
    by_contra hne
    exact hnot ((superseded_iff h hu).mpr hne)
  obtain ⟨v, hv, hshown⟩ := (h.tracks u.key).shownBy hc
  obtain rfl : u = v := Option.some.inj (hu.symm.trans hv)
  exact hshown.live

theorem uploadThen_noneCanceled {key : ImageKey} {o : UploadOutcome} {form : Form}
    (hform : ∀ key, (form.image key).uploadText ≠ "取消上传") (key' : ImageKey) :
    ((uploadThen key false o form).image key').uploadText ≠ "取消上传" := by
  by_cases hkey : key' = key
  · subst hkey
    cases o with
    | failed => simp [uploadThen]
    | responded res =>
      cases hid : (UploadOutcome.responded res).id with
      | none =>
        simp only [uploadThen, hid]
        exact hform key'
      | some id =>
        rw [uploadThen_done form hid]
        exact hform key'
  · rw [uploadThen_image_of_ne form hkey]
    exact hform key'

theorem step_noneCanceled (h : SettledInv s) (hs : NoneCanceled s) (hok : CompletesNewest s e)
    (hstep : s.step params e = some s') : NoneCanceled s' := by
  rcases FormState.step_cases hstep with
    ⟨key, uri, -, rfl⟩ | ⟨i, o, u, rfl, hu, -, rfl⟩ | ⟨-, hform, -⟩
  · intro key'
    by_cases hkey : key' = key
    · subst hkey
      simp [uploadPic]
    · have himage : (uploadPic s key uri).form.image key' = s.form.image key' :=
        s.form.image_setImage_of_ne _ hkey
      rw [himage]
      exact hs key'
  · have hlive := hasCanceled_eq_false h hu (hok u hu)
    intro key'
    simp only [FormState.settle, hlive]
    exact uploadThen_noneCanceled hs key'
  · intro key'
    rw [hform]
    exact hs key'

theorem canceledBefore_iff (hs : NoneCanceled s) : CanceledBefore s e ↔ CompletesNewest s e := by
  cases e with
  | upload i o => exact forall_congr' fun u => forall_congr' fun hu =>
      ⟨fun h hsup => hs u.key (h hsup), fun h hsup => absurd hsup h⟩
  | _ => exact Iff.rfl

theorem along_canceledBefore_iff (h : SettledInv s) (hs : NoneCanceled s) (es : List FormEvent) :
    Runs.Along (FormState.step params) CanceledBefore s es ↔
      Runs.Along (FormState.step params) CompletesNewest s es := by
  induction es generalizing s with
  | nil => exact Iff.rfl
  | cons e es ih =>
    refine forall_congr' fun t => forall_congr' fun ht => ?_
    refine (and_congr_left fun _ => canceledBefore_iff hs).trans (and_congr_right fun hok => ?_)
    exact ih (step_settledInv h ht) (step_noneCanceled h hs hok ht)

/-- In every run of the form, superseded uploads leave it as it was exactly when each
finds the text of a canceled upload already there; and that is so only in the runs in
which no superseded upload completes. -/
theorem superseded_inert_iff (params : Option Params) (es : List FormEvent) :
    (Runs.Along (FormState.step params) (SupersededInert params) {} es ↔
      Runs.Along (FormState.step params) CanceledBefore {} es) ∧
    (Runs.Along (FormState.step params) CanceledBefore {} es ↔
      Runs.Along (FormState.step params) CompletesNewest {} es) := by
  refine ⟨Runs.along_congr (fun _ _ _ h hstep => step_settledInv h hstep)
    (fun _ _ _ h hstep => supersededInert_iff h hstep) start_settledInv, ?_⟩
  exact along_canceledBefore_iff start_settledInv (fun key => by cases key <;> simp [Form.image]) es

theorem canceled_marks_newer :
    ¬ Runs.Along (FormState.step none) (SupersededInert none) {}
      [.pick .avatar "a.jpg", .pick .avatar "b.jpg", .upload 0 .failed] := by
  intro h
  have hlast := ((h _ rfl).2 _ rfl).2 _ rfl
  have hform := hlast.1 _ rfl ⟨1, _, Nat.zero_lt_one, rfl, rfl⟩ _ rfl
  have htext := congrArg (fun form => form.avatar.uploadText) hform
  revert htext
  decide

/-! ### The newest upload has settled -/

theorem showsOutcome_of_pending {key : ImageKey} (h : SettledInv s) {i : ℕ} {u : Upload}
    (hc : s.current key = some i) (hu : s.uploads[i]? = some u) (hpending : u.pending = true) :
    ShowsOutcome s key := by
  intro j v hnewest hsettled
  obtain ⟨hc', hv⟩ := (newest_iff h).mp hnewest
  obtain rfl : i = j := Option.some.inj (hc.symm.trans hc')
  obtain rfl : u = v := Option.some.inj (hu.symm.trans hv)
  rw [hpending] at hsettled
  cases hsettled

theorem showsOutcome_iff {key : ImageKey} (h : SettledInv s) {i : ℕ} {u : Upload}
    (hc : s.current key = some i) (hu : s.uploads[i]? = some u) (hsettled : u.pending = false) :
    ShowsOutcome s key ↔ (u.id = none → (s.form.image key).uploadText = "上传失败") := by
  obtain ⟨v, hv, hshown⟩ := (h.tracks key).shownBy hc
  obtain rfl : u = v := Option.some.inj (hu.symm.trans hv)
  have hnewest : Newest s key i u := (newest_iff h).mpr ⟨hc, hu⟩
  constructor
  · intro hshows hid
    have hout := hshows i u hnewest hsettled
    rw [hid] at hout
    exact hout
  · intro htext j w hw _
    obtain ⟨hc', hw'⟩ := (newest_iff h).mp hw
    obtain rfl : i = j := Option.some.inj (hc.symm.trans hc')
    obtain rfl : u = w := Option.some.inj (hu.symm.trans hw')
    have hid := hshown.id
    cases huid : u.id with
    | none => exact htext huid
    | some id =>
      rw [huid] at hid
      split at hid
      · cases hid
      · rename_i hdown
        exact ⟨by simpa using hdown, (Option.some.inj hid).symm⟩

section Settle

variable {i : ℕ} {u : Upload} {o : UploadOutcome}

theorem settle_showsOutcome_of_ne (h : SettledInv s) (h' : SettledInv (s.settle i u o))
    (hu : s.uploads[i]? = some u) {key : ImageKey} (hkey : key ≠ u.key)
    (hshows : ShowsOutcome s key) : ShowsOutcome (s.settle i u o) key := by
  intro j v hnewest hsettled
  have himage : (s.settle i u o).form.image key = s.form.image key :=
    uploadThen_image_of_ne s.form hkey
  obtain ⟨hc, hv⟩ := (newest_iff h').mp hnewest
  have hji : i ≠ j := by
    rintro rfl
    have hlt := (List.getElem?_eq_some_iff.mp hu).1
    obtain rfl : u.settle o = v := Option.some.inj ((List.getElem?_set_self hlt).symm.trans hv)
    exact hkey hnewest.key_eq.symm
  have hold : s.uploads[j]? = some v := (List.getElem?_set_ne hji).symm.trans hv
  rw [himage]
  exact hshows j v ((newest_iff h).mpr ⟨hc, hold⟩) hsettled

theorem settle_newest_iff (h : SettledInv s) (h' : SettledInv (s.settle i u o))
    (hu : s.uploads[i]? = some u) (hpending : u.pending = true)
    (hc : s.current u.key = some i) :
    ShowsOutcome (s.settle i u o) u.key ↔ o = .failed ∨ o.id ≠ none := by
  have hlt := (List.getElem?_eq_some_iff.mp hu).1
  have hlive : u.hasCanceled = false := by
    obtain ⟨v, hv, hshown⟩ := (h.tracks u.key).shownBy hc
    obtain rfl : u = v := Option.some.inj (hu.symm.trans hv)
    exact hshown.live
  have hset : (s.settle i u o).uploads[i]? = some (u.settle o) := List.getElem?_set_self hlt
  rw [showsOutcome_iff h' hc hset rfl]
  cases o with
  | failed => simp [FormState.settle, uploadThen, hlive]
  | responded res =>
    cases hid : (UploadOutcome.responded res).id with
    | some id => simp [Upload.settle, hid]
    | none =>
      have hrunning := h.running u.key i u hc hu hpending
      simp [FormState.settle, Upload.settle, uploadThen, hlive, hid, hrunning]

theorem settle_superseded_iff (h : SettledInv s) (h' : SettledInv (s.settle i u o))
    (hu : s.uploads[i]? = some u) (hc : s.current u.key ≠ some i) :
    ShowsOutcome (s.settle i u o) u.key ↔
      ∀ j v, Newest s u.key j v → v.pending = false → v.id ≠ none := by
  have hcanceled := h.superseded i u hu hc
  have htext : ((s.settle i u o).form.image u.key).uploadText = "取消上传" := by
    simp [FormState.settle, uploadThen, hcanceled]
  have hset : ∀ j v, s.current u.key = some j → s.uploads[j]? = some v →
      (s.settle i u o).uploads[j]? = some v := by
    intro j v hj hv
    have hji : i ≠ j := fun heq => hc (heq ▸ hj)
    exact (List.getElem?_set_ne hji).trans hv
  constructor
  · intro hafter j v hnewest hsettled hid
    obtain ⟨hj, hv⟩ := (newest_iff h).mp hnewest
    have hfail := (showsOutcome_iff h' hj (hset j v hj hv) hsettled).mp hafter hid
    rw [htext] at hfail
    revert hfail
    decide
  · intro hids
    obtain ⟨j, hj, -⟩ := h.inOrder i u.key (by simp [FormState.keys, hu])
    obtain ⟨v, hv, -⟩ := (h.tracks u.key).shownBy hj
    have hold := hset j v hj hv
    cases hpending : v.pending with
    | true => exact showsOutcome_of_pending h' hj hold hpending
    | false =>
      have hid := hids j v ((newest_iff h).mpr ⟨hj, hv⟩) hpending
      exact (showsOutcome_iff h' hj hold hpending).mpr fun hnone => absurd hnone hid

theorem settle_showsOutcome_iff (h : SettledInv s) (hshows : ∀ key, ShowsOutcome s key)
    (h' : SettledInv (s.settle i u o)) (hu : s.uploads[i]? = some u)
    (hpending : u.pending = true) :
    (∀ key, ShowsOutcome (s.settle i u o) key) ↔ EndsVisibly s (.upload i o) := by
  have hkey : (∀ key, ShowsOutcome (s.settle i u o) key) ↔
      ShowsOutcome (s.settle i u o) u.key := by
    refine ⟨fun hall => hall u.key, fun hown key => ?_⟩
    by_cases hkey : key = u.key
    · rw [hkey]
      exact hown
    · exact settle_showsOutcome_of_ne h h' hu hkey (hshows key)
  have hsup := superseded_iff h hu
  rw [hkey]
  by_cases hc : s.current u.key = some i
  · rw [settle_newest_iff h h' hu hpending hc]
    simp [EndsVisibly, hu, hsup, hc]
  · rw [settle_superseded_iff h h' hu hc]
    simp [EndsVisibly, hu, hsup, hc]

end Settle

theorem uploadPic_showsOutcome (h : SettledInv s) {key : ImageKey} {uri : String}
    (h' : SettledInv (uploadPic s key uri)) {key' : ImageKey} (hshows : ShowsOutcome s key') :
    ShowsOutcome (uploadPic s key uri) key' := by
  by_cases hkey : key' = key
  · subst hkey
    have hc : (uploadPic s key' uri).current key' = some s.uploads.length :=
      Function.update_self _ _ _
    exact showsOutcome_of_pending h' hc
      (u := { key := key', uri := uri }) (by simp [uploadPic]) rfl
  · intro i u hnewest hsettled
    have himage : (uploadPic s key uri).form.image key' = s.form.image key' :=
      s.form.image_setImage_of_ne _ hkey
    obtain ⟨hc, hu⟩ := (newest_iff h').mp hnewest
    have hcurrent : s.current key' = some i := (Function.update_of_ne hkey _ _).symm.trans hc
    obtain ⟨v, hv, -⟩ := (h.tracks key').shownBy hcurrent
    have hold := hshows i v ((newest_iff h).mpr ⟨hcurrent, hv⟩)
    rw [getElem?_uploadPic key uri hv] at hu
    obtain rfl := Option.some.inj hu
    rw [himage]
    split at hsettled
    · rw [if_pos ‹_›]
      exact hold hsettled
    · rw [if_neg ‹_›]
      exact hold hsettled

theorem step_showsOutcome_iff (h : SettledInv s) (hshows : ∀ key, ShowsOutcome s key)
    (hstep : s.step params e = some s') :
    (∀ key, ShowsOutcome s' key) ↔ EndsVisibly s e := by
  have h' := step_settledInv h hstep
  rcases FormState.step_cases hstep with
    ⟨key, uri, rfl, rfl⟩ | ⟨i, o, u, rfl, hu, hpending, rfl⟩ | ⟨hne, hform, hcurrent, huploads⟩
  · exact iff_of_true (fun key' => uploadPic_showsOutcome h h' (hshows key')) trivial
  · exact settle_showsOutcome_iff h hshows h' hu hpending
  · have hkeeps : ∀ key, ShowsOutcome s' key := by
      intro key i u hnewest
      obtain ⟨hc, hu⟩ := (newest_iff h').mp hnewest
      rw [hform]
      exact hshows key i u ((newest_iff h).mpr ⟨hcurrent ▸ hc, huploads ▸ hu⟩)
    refine iff_of_true hkeeps ?_
    cases e with
    | upload i o => exact absurd rfl (hne i o)
    | _ => trivial

/-- In every run of the form, each state shows how the newest uploads have ended exactly
when none of them is answered without an id, and none that has ended without one is
followed by the end of an older one. -/
theorem outcomes_shown_iff (params : Option Params) (es : List FormEvent) :
    Runs.Throughout (FormState.step params) (fun s => ∀ key, ShowsOutcome s key) {} es ↔
      Runs.Along (FormState.step params) EndsVisibly {} es := by
  have hstart : ∀ key, ShowsOutcome {} key := by
    intro key i u hnewest
    have hu := hnewest.started
    simp at hu
  exact Runs.throughout_iff_along (fun _ _ _ h _ hstep _ => step_settledInv h hstep)
    (fun _ _ _ h hshows hstep => step_showsOutcome_iff h hshows hstep) start_settledInv hstart

theorem refused_upload_hangs :
    ¬ Runs.Throughout (FormState.step none) (fun s => ∀ key, ShowsOutcome s key) {}
      [.pick .avatar "a.jpg", .upload 0 (.responded (some ⟨nat 1, none⟩))] := by
  intro h
  have htext : "上传中..." = "上传失败" := by
    refine ((h.2 _ rfl).2 _ rfl) .avatar 0 _ ⟨rfl, rfl, fun j v hj hv => ?_⟩ rfl
    cases j with
    | zero => exact absurd hj (Nat.lt_irrefl 0)
    | succ j => cases hv
  revert htext
  decide

end RNFantuan.Views.HeadlineForm
