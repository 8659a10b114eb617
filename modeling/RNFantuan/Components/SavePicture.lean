import RNFantuan.Net.Continuations
import RNFantuan.Runtime.Runs
import Mathlib.Data.List.Perm.Basic

/-!
# Saving a picture

`showActionSheet` and the `onPress` of the sheet of `components/ImageBrowser.js`, and
`lib/DownloadUtil.js`. On Android the picture is fetched to a temporary file and copied
to the album from there. The `catch` of `saveImageAlbum` speaks of a `res` that is not in
its scope, so it throws, and it is by this that the caller learns of the failure; but the
temporary file stays. For an empty url `saveImageAlbum` returns nothing, on which `then`
is called all the same.

Several pictures may be on their way at once, and their promises settle in any order.
-/

namespace RNFantuan.Components.SavePicture
open Net

/-- A saving under way. A path is the number of a temporary file. -/
inductive Saving
  | fetching (url : String)
  | copying (url : String) (path : Option ℕ)
  | unlinking (path : ℕ)
  deriving DecidableEq

def Saving.path : Saving → Option ℕ
  | .fetching _ => none
  | .copying _ path => path
  | .unlinking path => some path

/-- The picture that is not in the album yet. -/
def Saving.url : Saving → Option String
  | .fetching url => some url
  | .copying url _ => some url
  | .unlinking _ => none

/-- `files` are the temporary files on the disk. `left` records those that no saving will
remove any more, `chosen` the pictures whose saving was asked for, `lost` those of them that
could not be saved, and `dropped` those for which there was no promise. -/
structure Saver where
  saveUrl : Option String := none
  sheet : Bool := false
  savings : List Saving := []
  nextPath : ℕ := 0
  files : List ℕ := []
  album : List String := []
  toasts : List String := []
  left : List ℕ := []
  chosen : List String := []
  lost : List String := []
  dropped : List String := []
  deriving DecidableEq

def saved : String := "已保存到手机相册"

def failed : String := "保存图片失败"

/-- `promise` of the first option; `none` for the empty url on Android. -/
def savePromise (os : Platform) (url : String) : Option Saving :=
  match os with
  | .ios => some (.copying url none)
  | .android => if url = "" then none else some (.fetching url)

inductive SaveEvent
  | longPress (url : String)
  | pressSheet (index : ℕ)
  | hide
  | fetched (i : ℕ) (ok : Bool)
  | copied (i : ℕ) (ok : Bool)
  | unlinked (i : ℕ) (ok : Bool)
  deriving DecidableEq

/-- Where there is no promise, `promise.then` throws. -/
def pressSheet (os : Platform) (index : ℕ) (s : Saver) : Saver :=
  match index, s.saveUrl with
  | 0, some url =>
    let s := { s with
      sheet := false
      chosen := url :: s.chosen }
    match savePromise os url with
    | some saving => { s with savings := s.savings ++ [saving] }
    | none => { s with dropped := url :: s.dropped }
  | _, _ => { s with sheet := false }

/-- The `catch` of `saveImageAlbum` throws before it removes the file, if there is one. -/
def saveFailed (i : ℕ) (url : String) (path : Option ℕ) (s : Saver) : Saver :=
  { s with
    savings := s.savings.eraseIdx i
    left := path.toList ++ s.left
    toasts := failed :: s.toasts
    lost := url :: s.lost }

def saveDone (i : ℕ) (url : String) (path : Option ℕ) (s : Saver) : Saver :=
  { s with
    savings := s.savings.eraseIdx i ++ (path.map Saving.unlinking).toList
    album := url :: s.album
    toasts := saved :: s.toasts }

def Saver.step (os : Platform) (s : Saver) : SaveEvent → Option Saver
  | .longPress url => some { s with saveUrl := some url, sheet := true }
  | .pressSheet index => if s.sheet then some (pressSheet os index s) else none
  -- the browser closes, and its sheet with it; savings go on
  | .hide => some { s with sheet := false }
  | .fetched i ok =>
    match s.savings[i]? with
    | some (.fetching url) =>
      if ok then
        some { s with
          savings := s.savings.eraseIdx i ++ [.copying url (some s.nextPath)]
          nextPath := s.nextPath + 1
          files := s.nextPath :: s.files }
      else some (saveFailed i url none s)
    | _ => none
  | .copied i ok =>
    match s.savings[i]? with
    | some (.copying url path) =>
      some (if ok then saveDone i url path s else saveFailed i url path s)
    | _ => none
  | .unlinked i ok =>
    match s.savings[i]? with
    | some (.unlinking path) =>
      if ok then
        some { s with savings := s.savings.eraseIdx i, files := s.files.erase path }
      else some { s with savings := s.savings.eraseIdx i, left := path :: s.left }
    | _ => none

/-! ### Accounts -/

def unpromised (os : Platform) (url : String) : Bool := os = .android ∧ url = ""

/-- Every picture asked for is being saved, in the album, lost or dropped, and every
temporary file belongs to a saving or has been left. -/
structure Accounted (os : Platform) (s : Saver) : Prop where
  pictures : ∀ url, s.chosen.count url =
    (s.savings.filterMap Saving.url).count url + s.album.count url + s.lost.count url +
      s.dropped.count url
  dropped : s.dropped = s.chosen.filter (unpromised os)
  files : ∀ path, s.files.count path =
    (s.savings.filterMap Saving.path).count path + s.left.count path
  saved : s.toasts.count saved = s.album.length
  failed : s.toasts.count failed = s.lost.length

theorem count_filterMap_eraseIdx {α β : Type*} [DecidableEq β] {f : α → Option β} {l : List α}
    {i : ℕ} {x : α} (h : l[i]? = some x) (b : β) :
    (l.filterMap f).count b = (f x).toList.count b + ((l.eraseIdx i).filterMap f).count b := by
  obtain ⟨hi, rfl⟩ := List.getElem?_eq_some_iff.mp h
  have hperm := (List.getElem_cons_eraseIdx_perm hi).filterMap f
  rw [← hperm.count_eq, ← List.count_append, List.filterMap_cons]
  cases f l[i] <;> rfl

variable {os : Platform} {s s' : Saver}

theorem savePromise_cases (os : Platform) (url : String) :
    (unpromised os url = true ∧ savePromise os url = none) ∨
      unpromised os url = false ∧ ∃ saving, savePromise os url = some saving ∧
        saving.url = some url ∧ saving.path = none := by
  cases os with
  | ios => exact Or.inr ⟨rfl, _, rfl, rfl, rfl⟩
  | android =>
    by_cases hurl : url = ""
    · exact Or.inl ⟨by simp [unpromised, hurl], if_pos hurl⟩
    · exact Or.inr ⟨by simp [unpromised, hurl], _, if_neg hurl, rfl, rfl⟩

theorem pressSheet_accounted (hs : Accounted os s) (index : ℕ) :
    Accounted os (pressSheet os index s) := by
  unfold pressSheet
  split
  · rename_i url _
    rcases savePromise_cases os url with ⟨hnone, hpromise⟩ | ⟨hsome, saving, hpromise, hurl, hpath⟩
    · rw [hpromise]
      refine ⟨fun u => ?_, ?_, hs.files, hs.saved, hs.failed⟩
      · have hpictures := hs.pictures u
        simp only [List.count_cons]
        omega
      · rw [List.filter_cons_of_pos hnone, ← hs.dropped]
    · rw [hpromise]
      refine ⟨fun u => ?_, ?_, fun path => ?_, hs.saved, hs.failed⟩
      · have hpictures := hs.pictures u
        simp only [List.filterMap_append, List.filterMap_cons, List.filterMap_nil, hurl,
          List.count_append, List.count_cons, List.count_nil]
        omega
      · rw [List.filter_cons_of_neg (by simp [hsome])]
        exact hs.dropped
      · have hfiles := hs.files path
        simp only [List.filterMap_append, List.filterMap_cons, List.filterMap_nil, hpath,
          List.append_nil]
        exact hfiles
  · exact ⟨hs.pictures, hs.dropped, hs.files, hs.saved, hs.failed⟩

theorem saveFailed_accounted (hs : Accounted os s) {i : ℕ} {x : Saving} {url : String}
    (hi : s.savings[i]? = some x) (hurl : x.url = some url) :
    Accounted os (saveFailed i url x.path s) := by
  have hne : failed ≠ saved := by decide
  refine ⟨fun u => ?_, hs.dropped, fun path => ?_, ?_, ?_⟩
  · have hpictures := hs.pictures u
    rw [count_filterMap_eraseIdx hi, hurl] at hpictures
    simp only [saveFailed, List.count_cons, Option.toList_some, List.count_nil] at hpictures ⊢
    omega
  · have hfiles := hs.files path
    rw [count_filterMap_eraseIdx hi] at hfiles
    simp only [saveFailed, List.count_append]
    omega
  · exact (List.count_cons_of_ne hne).trans hs.saved
  · simp only [saveFailed, List.count_cons_self, List.length_cons, hs.failed]

theorem saveDone_accounted (hs : Accounted os s) {i : ℕ} {url : String} {path : Option ℕ}
    (hi : s.savings[i]? = some (.copying url path)) : Accounted os (saveDone i url path s) := by
  have hne : saved ≠ failed := by decide
  have hurls : (path.map Saving.unlinking).toList.filterMap Saving.url = [] := by
    cases path <;> rfl
  have hpaths : (path.map Saving.unlinking).toList.filterMap Saving.path = path.toList := by
    cases path <;> rfl
  refine ⟨fun u => ?_, hs.dropped, fun p => ?_, ?_, ?_⟩
  · have hpictures := hs.pictures u
    rw [count_filterMap_eraseIdx hi] at hpictures
    simp only [saveDone, Saving.url, List.filterMap_append, hurls, List.append_nil,
      List.count_cons, Option.toList_some, List.count_nil] at hpictures ⊢
    omega
  · have hfiles := hs.files p
    rw [count_filterMap_eraseIdx hi] at hfiles
    simp only [saveDone, Saving.path, List.filterMap_append, hpaths, List.count_append]
      at hfiles ⊢
    omega
  · simp only [saveDone, List.count_cons_self, List.length_cons, hs.saved]
  · exact (List.count_cons_of_ne hne).trans hs.failed

theorem step_accounted {e : SaveEvent} (hs : Accounted os s) (h : s.step os e = some s') :
    Accounted os s' := by
  cases e with
  | longPress url =>
    obtain rfl := Option.some.inj h
    exact ⟨hs.pictures, hs.dropped, hs.files, hs.saved, hs.failed⟩
  | pressSheet index =>
    simp only [Saver.step] at h
    split_ifs at h
    obtain rfl := Option.some.inj h
    exact pressSheet_accounted hs index
  | hide =>
    obtain rfl := Option.some.inj h
    exact ⟨hs.pictures, hs.dropped, hs.files, hs.saved, hs.failed⟩
  | fetched i ok =>
    simp only [Saver.step] at h
    split at h
    · rename_i url hi
      split_ifs at h
      · obtain rfl := Option.some.inj h
        refine ⟨fun u => ?_, hs.dropped, fun path => ?_, hs.saved, hs.failed⟩
        · have hpictures := hs.pictures u
          rw [count_filterMap_eraseIdx hi] at hpictures
          simp only [Saving.url, List.filterMap_append, List.filterMap_cons, List.filterMap_nil,
            List.count_append, Option.toList_some] at hpictures ⊢
          omega
        · have hfiles := hs.files path
          rw [count_filterMap_eraseIdx hi] at hfiles
          simp only [Saving.path, List.filterMap_append, List.filterMap_cons, List.filterMap_nil,
            List.count_append, List.count_cons, List.count_nil, Option.toList_none] at hfiles ⊢
          omega
      · obtain rfl := Option.some.inj h
        exact saveFailed_accounted hs hi rfl
    · cases h
  | copied i ok =>
    simp only [Saver.step] at h
    split at h
    · rename_i url path hi
      obtain rfl := Option.some.inj h
      split_ifs
      · exact saveDone_accounted hs hi
      · exact saveFailed_accounted hs hi rfl
    · cases h
  | unlinked i ok =>
    simp only [Saver.step] at h
    split at h
    · rename_i path hi
      have hpictures : ∀ url, s.chosen.count url =
          ((s.savings.eraseIdx i).filterMap Saving.url).count url + s.album.count url +
            s.lost.count url + s.dropped.count url := by
        intro url
        rw [hs.pictures url, count_filterMap_eraseIdx hi]
        simp [Saving.url]
      have hfiles := fun p => hs.files p
      simp only [count_filterMap_eraseIdx hi, Saving.path, Option.toList_some,
        List.count_singleton] at hfiles
      split_ifs at h
      · obtain rfl := Option.some.inj h
        refine ⟨hpictures, hs.dropped, fun p => ?_, hs.saved, hs.failed⟩
        have hp := hfiles p
        simp only [List.count_erase]
        omega
      · obtain rfl := Option.some.inj h
        refine ⟨hpictures, hs.dropped, fun p => ?_, hs.saved, hs.failed⟩
        have hp := hfiles p
        simp only [List.count_cons]
        omega
    · cases h

/-! ### Runs -/

/-- A copy or a removal that fails. -/
def SaveEvent.fails : SaveEvent → Bool
  | .copied _ false | .unlinked _ false => true
  | _ => false

theorem step_left {e : SaveEvent} (h : s.step os e = some s') :
    s'.left.length ≤ s.left.length + if e.fails then 1 else 0 := by
  cases e with
  | longPress url =>
    obtain rfl := Option.some.inj h
    exact le_rfl
  | pressSheet index =>
    simp only [Saver.step] at h
    split_ifs at h
    obtain rfl := Option.some.inj h
    unfold pressSheet
    split
    · split <;> exact le_rfl
    · exact le_rfl
  | hide =>
    obtain rfl := Option.some.inj h
    exact le_rfl
  | fetched i ok =>
    simp only [Saver.step] at h
    split at h
    · split_ifs at h <;> obtain rfl := Option.some.inj h <;> exact le_rfl
    · cases h
  | copied i ok =>
    simp only [Saver.step] at h
    split at h
    · rename_i url path _
      obtain rfl := Option.some.inj h
      cases ok with
      | true => exact le_rfl
      | false => cases path <;> simp [saveFailed, SaveEvent.fails]
    · cases h
  | unlinked i ok =>
    simp only [Saver.step] at h
    split at h
    · split_ifs at h with hok <;> obtain rfl := Option.some.inj h
      · exact Nat.le_add_right _ _
      · simp [SaveEvent.fails, hok]
    · cases h

/-- In every run, however the savings overlap, each picture asked for is being saved, in
the album or lost, with one toast that says which, except the empty urls on Android,
which are dropped; and the temporary files on the disk are those of the savings under
way and those of copies or removals that failed. -/
theorem pictures_accounted {es : List SaveEvent} (hrun : Runs.exec (Saver.step os) {} es = some s) :
    s.chosen.Perm (s.savings.filterMap Saving.url ++ s.album ++ s.lost ++ s.dropped) ∧
      s.dropped = s.chosen.filter (unpromised os) ∧
      s.toasts.count saved = s.album.length ∧ s.toasts.count failed = s.lost.length ∧
      s.files.Perm (s.savings.filterMap Saving.path ++ s.left) ∧
      s.left.length ≤ es.countP SaveEvent.fails := by
  have hI : Accounted os s := Runs.exec_invariant (fun _ _ _ hs h => step_accounted hs h)
    ⟨by simp, rfl, by simp, rfl, rfl⟩ hrun
  refine ⟨List.perm_iff_count.mpr fun url => ?_, hI.dropped, hI.saved, hI.failed,
    List.perm_iff_count.mpr fun path => ?_, ?_⟩
  · rw [List.count_append, List.count_append, List.count_append]
    exact hI.pictures url
  · rw [List.count_append]
    exact hI.files path
  · simpa using Runs.exec_count_le (V := fun s : Saver => s.left.length)
      (fun _ _ _ h => step_left h) hrun

/-- The first picture fails to be copied while the second is saved, and its file stays;
the third has no url. -/
theorem pictures_accounted_after_failure :
    ∃ s, Runs.exec (Saver.step .android) {} [.longPress "a", .pressSheet 0, .longPress "b",
        .pressSheet 0, .longPress "", .pressSheet 0, .hide, .fetched 1 true, .fetched 0 true,
        .copied 0 true, .copied 0 false, .unlinked 0 true] = some s ∧
      s.files = [1] ∧ s.left = [1] ∧ s.toasts = [failed, saved] ∧ s.dropped = [""] ∧
      s.chosen.Perm (s.savings.filterMap Saving.url ++ s.album ++ s.lost ++ s.dropped) :=
  ⟨_, rfl, by decide, by decide, by decide, by decide, (@pictures_accounted .android _
    [.longPress "a", .pressSheet 0, .longPress "b", .pressSheet 0, .longPress "", .pressSheet 0,
      .hide, .fetched 1 true, .fetched 0 true, .copied 0 true, .copied 0 false,
      .unlinked 0 true] rfl).1⟩

end RNFantuan.Components.SavePicture
