import RNFantuan.Runtime.Rank
import RNFantuan.Runtime.Value

/-!
# The pictures of an activity

The introduction as `fetchActivity` of `ActivityDetail` takes it from a response, and
`viewImages`. The items are numbered after those of type `'0'` have been dropped, the
images are picked from them with their numbers, and a tap looks the number of its item
up among the images.
-/

namespace RNFantuan.Views.ActivityDetail
open JS

structure ContentItem where
  type : Value
  content : Value
  imageUrl : Value
  des : Value
  width : Value
  height : Value
  deriving DecidableEq

inductive IntroContent
  | text (content : Value)
  | picture (image description : Value)
  deriving DecidableEq

structure IntroItem where
  type : Value
  content : IntroContent
  idx : ℕ
  des : Value
  width : Value
  height : Value
  deriving DecidableEq

structure ContentImage where
  idx : ℕ
  url : Value
  deriving DecidableEq

structure Intro where
  content : List IntroItem
  contentImages : List ContentImage
  deriving DecidableEq

def isType (text : String) (type : Value) : Bool := type.toString.toOption = some text

def introItem (idx : ℕ) (item : ContentItem) : IntroItem where
  type := item.type
  content :=
    if isType "1" item.type then .text item.content else .picture item.imageUrl item.des
  idx := idx
  des := item.des
  width := item.width
  height := item.height

def IntroContent.image : IntroContent → Value
  | .text _ => .undefined
  | .picture image _ => image

def ContentItem.kept (item : ContentItem) : Bool := !isType "0" item.type

def ContentItem.isPicture (item : ContentItem) : Bool := isType "2" item.type

def IntroItem.isPicture (item : IntroItem) : Bool := isType "2" item.type

/-- A type without `toString` makes the `then` throw before anything is set. -/
def fetchedIntro (content : List ContentItem) : Except Thrown Intro :=
  if content.any fun item => item.type = .undefined ∨ item.type = .null then .error .error
  else
    let content := (content.filter ContentItem.kept).mapIdx introItem
    let images := content.filter IntroItem.isPicture
    .ok
      { content := content
        contentImages := images.map fun item => { idx := item.idx, url := item.content.image } }

/-- The argument of `ImageBrowser.show`, `none` standing for `''`. -/
def viewImages (contentImages : List ContentImage) (index : ℕ) : Option ℕ :=
  Rank.lastIndex (fun item => item.idx = index) contentImages

def shownIndex (idx : Option ℕ) : ℕ := idx.getD 0

/-- A tap on the item shows the image of item `x`, and that is where it is in the list. -/
structure Opens (intro : Intro) (item : IntroItem) (x : ContentItem) (p : ℕ) : Prop where
  shows : viewImages intro.contentImages item.idx = some p
  index : shownIndex (viewImages intro.contentImages item.idx) = p
  url : intro.contentImages[p]?.map ContentImage.url = some x.imageUrl

theorem isType_unique {s t : String} {type : Value} (hs : isType s type = true)
    (ht : isType t type = true) : s = t := by
  simp only [isType, decide_eq_true_eq] at hs ht
  exact Option.some.inj (hs.symm.trans ht)

variable {content : List ContentItem} {intro : Intro}

theorem fetchedIntro_eq (h : fetchedIntro content = .ok intro) :
    intro.content = (content.filter ContentItem.kept).mapIdx introItem ∧
      intro.contentImages = (intro.content.filter IntroItem.isPicture).map
        fun item => { idx := item.idx, url := item.content.image } := by
  unfold fetchedIntro at h
  split at h
  · cases h
  · obtain rfl := Except.ok.inj h
    exact ⟨rfl, rfl⟩

/-! ### The two lists -/

theorem isPicture_kept (item : ContentItem) :
    (item.isPicture && item.kept) = item.isPicture := by
  cases h : item.isPicture with
  | false => rfl
  | true =>
    have hzero : isType "0" item.type = false := by
      by_contra hzero
      have heq := isType_unique h (by simpa using hzero)
      revert heq
      decide
    simp [ContentItem.kept, hzero]

theorem introItem_isPicture (idx : ℕ) (item : ContentItem) :
    (introItem idx item).isPicture = item.isPicture := rfl

theorem introItem_content {item : ContentItem} (idx : ℕ) (h : item.isPicture = true) :
    (introItem idx item).content = .picture item.imageUrl item.des := by
  have hone : isType "1" item.type = false := by
    by_contra hone
    have heq := isType_unique h (by simpa using hone)
    revert heq
    decide
  simp [introItem, hone]

theorem contentImages_url (h : fetchedIntro content = .ok intro) :
    intro.contentImages.map ContentImage.url =
      (content.filter ContentItem.isPicture).map ContentItem.imageUrl := by
  obtain ⟨hcontent, himages⟩ := fetchedIntro_eq h
  have hurl : ∀ idx (item : ContentItem), item.isPicture = true →
      (introItem idx item).content.image = item.imageUrl := by
    intro idx item hpicture
    rw [introItem_content idx hpicture]
    rfl
  have hkept : (content.filter ContentItem.kept).filter ContentItem.isPicture =
      content.filter ContentItem.isPicture := by
    rw [List.filter_filter]
    simp only [isPicture_kept]
  calc intro.contentImages.map ContentImage.url
      = (((content.filter ContentItem.kept).mapIdx introItem).filter IntroItem.isPicture).map
          fun item => item.content.image := by
        rw [himages, hcontent, List.map_map]
        rfl
    _ = ((content.filter ContentItem.kept).filter ContentItem.isPicture).map
          ContentItem.imageUrl := Rank.map_filter_mapIdx introItem_isPicture hurl _
    _ = (content.filter ContentItem.isPicture).map ContentItem.imageUrl := by rw [hkept]

theorem content_of_response (h : fetchedIntro content = .ok intro) {k : ℕ} {item : IntroItem}
    (hk : intro.content[k]? = some item) :
    ∃ i x, content[i]? = some x ∧ item = introItem k x ∧
      Rank.rank ContentItem.kept content i = k := by
  rw [(fetchedIntro_eq h).1, List.getElem?_mapIdx] at hk
  obtain ⟨x, hx, rfl⟩ := Option.map_eq_some_iff.mp hk
  obtain ⟨i, hi, -, hrank⟩ := Rank.exists_of_getElem?_filter hx
  exact ⟨i, x, hi, rfl, hrank⟩

theorem content_idx (h : fetchedIntro content = .ok intro) {k : ℕ} {item : IntroItem}
    (hk : intro.content[k]? = some item) : item.idx = k := by
  obtain ⟨i, x, -, rfl, -⟩ := content_of_response h hk
  rfl

theorem rank_content (h : fetchedIntro content = .ok intro) (i : ℕ) :
    Rank.rank IntroItem.isPicture intro.content (Rank.rank ContentItem.kept content i) =
      Rank.rank ContentItem.isPicture content i := by
  rw [(fetchedIntro_eq h).1, Rank.rank_mapIdx introItem_isPicture, Rank.rank_filter]
  simp only [isPicture_kept]

/-! ### The tap -/

section Tap

variable {k : ℕ} {item : IntroItem}

theorem contentImages_getElem? (h : fetchedIntro content = .ok intro)
    (hk : intro.content[k]? = some item) (hpicture : item.isPicture = true) :
    intro.contentImages[Rank.rank IntroItem.isPicture intro.content k]? =
      some ⟨k, item.content.image⟩ := by
  rw [(fetchedIntro_eq h).2, List.getElem?_map, Rank.getElem?_filter_rank hk hpicture,
    Option.map_some, content_idx h hk]

theorem later_image_ne (h : fetchedIntro content = .ok intro) {image : ContentImage}
    (hlater : image ∈
      intro.contentImages.drop (Rank.rank IntroItem.isPicture intro.content k + 1)) :
    image.idx ≠ k := by
  rintro rfl
  obtain ⟨j, hj⟩ := List.mem_iff_getElem?.mp hlater
  rw [List.getElem?_drop, (fetchedIntro_eq h).2, List.getElem?_map] at hj
  obtain ⟨item, hitem, rfl⟩ := Option.map_eq_some_iff.mp hj
  obtain ⟨i, hi, -, hrank⟩ := Rank.exists_of_getElem?_filter hitem
  dsimp only at hrank
  rw [content_idx h hi] at hrank
  omega

theorem viewImages_eq (h : fetchedIntro content = .ok intro) (hk : intro.content[k]? = some item)
    (hpicture : item.isPicture = true) :
    viewImages intro.contentImages k =
      some (Rank.rank IntroItem.isPicture intro.content k) :=
  Rank.lastIndex_eq_some (contentImages_getElem? h hk hpicture) (by simp)
    (fun image hlater => by simpa using later_image_ne h hlater)

end Tap

/-- The images are the pictures of the response in their order, and a tap on a rendered
picture opens the image of its own item, after those of the pictures before it. -/
theorem pictures_open (h : fetchedIntro content = .ok intro) :
    intro.contentImages.map ContentImage.url =
        (content.filter ContentItem.isPicture).map ContentItem.imageUrl ∧
      ∀ k item, intro.content[k]? = some item → item.isPicture = true →
        ∃ i x, content[i]? = some x ∧ item = introItem k x ∧
          Rank.rank ContentItem.kept content i = k ∧
          Opens intro item x (Rank.rank ContentItem.isPicture content i) := by
  refine ⟨contentImages_url h, fun k item hk hpicture => ?_⟩
  obtain ⟨i, x, hi, rfl, hrank⟩ := content_of_response h hk
  refine ⟨i, x, hi, rfl, hrank, ?_⟩
  have hplace := rank_content h i
  rw [hrank] at hplace
  have hview := viewImages_eq h hk hpicture
  rw [hplace] at hview
  refine ⟨hview, ?_, ?_⟩
  · have hidx : (introItem k x).idx = k := rfl
    rw [hidx, hview]
    rfl
  · rw [← hplace, contentImages_getElem? h hk hpicture, introItem_content k hpicture]
    rfl

def repeatedPicture : List ContentItem :=
  [⟨nat 0, .null, .null, .null, .null, .null⟩, ⟨nat 2, .null, .str "a", .null, .null, .null⟩,
    ⟨nat 1, .str "b", .null, .null, .null, .null⟩, ⟨nat 2, .null, .str "a", .null, .null, .null⟩]

theorem repeated_picture_opens :
    ∃ intro, fetchedIntro repeatedPicture = .ok intro ∧
      ∃ item x, intro.content[2]? = some item ∧ Opens intro item x 1 := by
  refine ⟨_, rfl, ?_⟩
  obtain ⟨i, x, hi, hitem, hrank, hopens⟩ := (@pictures_open repeatedPicture _ rfl).2 2 _ rfl rfl
  have hp : Rank.rank ContentItem.isPicture repeatedPicture i = 1 := by
    match i with
    | 0 | 1 | 2 => cases hrank
    | 3 => rfl
    | i + 4 => cases hi
  rw [hp] at hopens
  exact ⟨_, x, rfl, hopens⟩

end RNFantuan.Views.ActivityDetail
