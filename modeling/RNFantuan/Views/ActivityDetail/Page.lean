import RNFantuan.Net.FetchData
import RNFantuan.Runtime.Runs
import RNFantuan.Views.ActivityDetail.Pictures

/-!
# The page of an activity

`fetchActivity` of `ActivityDetail`, what `render` makes of its result, and the buttons
that hand the activity to the native side. The response is taken apart at once, so it is
shown whole or not at all: any part of it that is missing leaves the page as it was, and
it is not fetched again. What `render` reads is not checked there.
-/

namespace RNFantuan.Views.ActivityDetail
open JS Net

structure Cover where
  compress : Value
  url : Value
  deriving DecidableEq

structure Circle where
  id : Value
  name : Value
  cover : Option Cover
  circleHasActivity : Value
  deriving DecidableEq

/-- The `data` of a response. An object or a list may be missing, which has no property
to read, and so may an entry of a list; of the joined users and of the images only the
urls are read. A missing entry of the content is one without a type. -/
structure ActivityBody where
  id : Value
  covers : Option (List (Option Cover))
  title : Value
  circle : Option Circle
  oid : Value
  phone : Value
  addressText : Value
  longitude : Value
  latitude : Value
  timeText : Value
  money : Value
  deadline : Value
  deadlineText : Value
  refund : Value
  insurance : Value
  joinedUsers : Option (List (Option Value))
  joinedTotal : Value
  activityImages : Option (List (Option Value))
  statusText : Value
  status : Value
  shareUrl : Value
  shareContent : Value
  content : Option (List ContentItem)

structure Activity where
  id : Value := .str ""
  bannerUrl : Value := .str ""
  title : Value := .str ""
  from' : Value := .str ""
  sponsorName : Value := .str ""
  sponsorPhone : Value := .str ""
  address : Value := .str ""
  lng : Value := .str ""
  lat : Value := .str ""
  locationName : Value := .undefined
  date : Value := .str ""
  cost : Value := .str ""
  deadline : Value := .str ""
  deadlineText : Value := .undefined
  tags : List String := []
  join : Option (List (Option Value)) := some []
  activityImages : List (Option Value) := []
  activityImageLength : ℕ := 0
  status : Value := .str ""
  statusText : Value := .str ""
  circle : Option Circle := none
  joinedTotal : Value := .str ""
  shareUrl : Value := .str ""
  shareContent : Value := .str ""
  intro : Intro := ⟨[], []⟩

def tags (body : ActivityBody) : List String :=
  (if body.refund.truthy then [] else ["不可退票"]) ++
    if body.insurance.truthy then ["费用中包含保险"] else []

/-- The `_obj` of `fetchActivity`. -/
def fetchedActivity (body : ActivityBody) : Except Thrown Activity :=
  match body.covers, body.circle, body.activityImages, body.content with
  | some (some cover :: _), some circle, some images, some content =>
    (fetchedIntro content).map fun intro =>
      { id := body.id
        bannerUrl := cover.compress
        title := body.title
        from' := circle.name
        sponsorName := body.oid
        sponsorPhone := body.phone
        address := body.addressText
        lng := body.longitude
        lat := body.latitude
        locationName := body.addressText
        date := body.timeText
        cost := body.money
        deadline := body.deadline
        deadlineText := body.deadlineText
        tags := tags body
        join := body.joinedUsers
        activityImages := images.take 3
        activityImageLength := images.length
        status := body.status
        statusText := body.statusText
        circle := some circle
        joinedTotal := body.joinedTotal
        shareUrl := body.shareUrl
        shareContent := body.shareContent
        intro := intro }
  | _, _, _, _ => .error .error

/-- `this.state.activity.id == ''`. -/
def Activity.loading (a : Activity) : Bool := a.id.looseEq (.str "")

/-- What of `render` can throw: `cost.toString()`, an entry of the joined users or of the
images that is missing, and the cover of the circle. -/
def renderActivity (a : Activity) : Except Thrown Unit :=
  if a.loading then .ok ()
  else
    match a.cost.toString with
    | .error err => .error err
    | .ok _ =>
      if none ∈ a.join.getD [] ∨ (0 < a.activityImageLength ∧ none ∈ a.activityImages.take 3) ∨
          a.circle.any fun circle => circle.cover = none then
        .error .error
      else .ok ()

/-! ### The buttons -/

inductive NativeCall
  | shareActivity (bannerUrl title shareContent shareUrl : Value)
  | goPublishDynamic (id name actid : Value)
  | goPublishArticleDynamic (id name actid : Value)
  | goActivityMap (destName longitude latitude : Value)
  | goActivityShow (id name actid : Value)
  | goActivityOrder (id : Value)
  | goCircleDetail (id name coverUrl : Value) (hasActivity : String)
  deriving DecidableEq

/-- `status.toString() === '0' || status.toString() === '2'`. -/
def offline (status : Value) : Except Thrown Bool :=
  status.toString.map fun s => s = "0" ∨ s = "2"

inductive Pressed
  | nothing
  | toast (msg : String)
  | call (c : NativeCall)

/-- `share` reads the activity from the params, and its status from the state. -/
def share (paramsActivity : Option Activity) (a : Activity) : Except Thrown Pressed :=
  if a.status.strictEq (.str "") then .ok .nothing
  else
    match offline a.status, paramsActivity with
    | .error err, _ => .error err
    | .ok true, _ => .ok (.toast "活动未上线，还不能操作哦~")
    | .ok false, none => .error .error
    | .ok false, some p =>
      .ok (.call (.shareActivity p.bannerUrl p.title p.shareContent p.shareUrl))

/-- The buttons of the loaded page that call the native side at once. -/
inductive Button
  | map
  | show
  | order
  | circle
  deriving DecidableEq

/-- Nothing is done where the button is not rendered or is disabled. -/
def Button.press (a : Activity) : Button → Except Thrown Pressed
  | .map => .ok (if a.address.truthy ∧ a.lng.truthy ∧ a.lat.truthy then
      .call (.goActivityMap a.locationName a.lng a.lat) else .nothing)
  | .show =>
    if a.activityImageLength = 0 then .ok .nothing
    else match a.circle with
      | none => .error .error
      | some c => .ok (.call (.goActivityShow c.id c.name a.id))
  | .order => .ok (if a.statusText.strictEq (.str "购票") then .call (.goActivityOrder a.id)
      else .nothing)
  | .circle =>
    match a.circle with
    | none => .ok .nothing
    | some c =>
      match c.cover with
      | none => .error .error
      | some cover => .ok (.call (.goCircleDetail c.id c.name cover.compress
          (if c.circleHasActivity.truthy then "1" else "0")))

/-- The `onPress` of the action sheet. -/
def pressSheet (a : Activity) (index : ℕ) : Except Thrown Pressed :=
  match index, a.circle with
  | 0, some circle => .ok (.call (.goPublishDynamic circle.id circle.name a.id))
  | 1, some circle => .ok (.call (.goPublishArticleDynamic circle.id circle.name a.id))
  | 0, none | 1, none => .error .error
  | _, _ => .ok .nothing

/-! ### The page -/

/-- `crashed` says that `render` has thrown, upon which the page is unmounted; `asking`
counts the calls of `canCreateDynamic` that have not come back, and `received` records the
body of the activity. -/
structure Page where
  activity : Activity := {}
  paramsActivity : Option Activity := none
  fetching : Bool := true
  crashed : Bool := false
  asking : ℕ := 0
  sheet : Bool := false
  toasts : List String := []
  calls : List NativeCall := []
  received : Option ActivityBody := none

inductive PageEvent
  | fetched (o : Outcome ActivityBody)
  | share
  | publish
  | canCreate (ok : Bool)
  | pressSheet (index : ℕ)
  | tap (b : Button)

/-- The `then` of `fetchActivity`. Where `render` throws, `setState` does. -/
def fetchActivityThen (res : Option (Response ActivityBody)) (s : Page) : Page :=
  match res.bind Response.data with
  | none => s
  | some body =>
    match fetchedActivity body with
    | .error _ => s
    | .ok a =>
      let s := { s with activity := a, received := some body }
      match renderActivity a with
      | .ok () => { s with paramsActivity := some a }
      | .error _ => { s with crashed := true }

/-- `publish` up to its first `await`; what it throws rejects its promise. -/
def publish (s : Page) : Page :=
  match offline s.activity.status with
  | .error _ => s
  | .ok true => { s with toasts := "活动未上线，还不能操作哦~" :: s.toasts }
  | .ok false => { s with asking := s.asking + 1 }

def Page.shown (s : Page) : Bool := !s.crashed && !s.activity.loading

/-- A handler that throws leaves the page as it is. -/
def Page.react (s : Page) : Except Thrown Pressed → Page
  | .error _ | .ok .nothing => s
  | .ok (.toast msg) => { s with toasts := msg :: s.toasts }
  | .ok (.call c) => { s with calls := c :: s.calls }

def Page.step (s : Page) : PageEvent → Option Page
  | .fetched o =>
    if s.fetching then some (fetchActivityThen (fetchData o).res { s with fetching := false })
    else none
  | .share => if s.crashed then none else some (s.react (share s.paramsActivity s.activity))
  | .publish => if s.shown then some (publish s) else none
  | .canCreate ok =>
    if 0 < s.asking then some { s with asking := s.asking - 1, sheet := s.sheet || ok } else none
  | .pressSheet index =>
    if s.sheet ∧ ¬ s.crashed then
      some ({ s with sheet := false }.react (pressSheet s.activity index))
    else none
  | .tap b => if s.shown then some (s.react (b.press s.activity)) else none

/-! ### What is shown -/

/-- All that `fetchActivity` reads of the body is there. -/
structure WellFormed (body : ActivityBody) : Prop where
  covers : ∃ cover covers, body.covers = some (some cover :: covers)
  circle : body.circle ≠ none
  activityImages : body.activityImages ≠ none
  content : ∃ content, body.content = some content ∧
    ∀ item ∈ content, item.type ≠ .undefined ∧ item.type ≠ .null

theorem fetchedIntro_isOk {content : List ContentItem} :
    (∃ intro, fetchedIntro content = .ok intro) ↔
      ∀ item ∈ content, item.type ≠ .undefined ∧ item.type ≠ .null := by
  have hany : (content.any fun item => item.type = .undefined ∨ item.type = .null) = false ↔
      ∀ item ∈ content, item.type ≠ .undefined ∧ item.type ≠ .null := by
    simp [List.any_eq_false, not_or]
  rw [← hany]
  unfold fetchedIntro
  split
  · rename_i h
    exact iff_of_false (by simp) (by rw [h]; simp)
  · rename_i h
    exact iff_of_true ⟨_, rfl⟩ (by simpa only [Bool.not_eq_true] using h)

theorem fetchedActivity_isOk {body : ActivityBody} :
    (∃ a, fetchedActivity body = .ok a) ↔ WellFormed body := by
  constructor
  · rintro ⟨a, h⟩
    unfold fetchedActivity at h
    split at h
    · rename_i cover covers circle images content hcovers hcircle himages hcontent
      cases hintro : fetchedIntro content with
      | error err =>
        rw [hintro] at h
        cases h
      | ok intro =>
        exact ⟨⟨cover, covers, hcovers⟩, by simp [hcircle], by simp [himages], content, hcontent,
          fetchedIntro_isOk.mp ⟨intro, hintro⟩⟩
    · cases h
  · rintro ⟨⟨cover, covers, hcovers⟩, hcircle, himages, content, hcontent, htypes⟩
    obtain ⟨circle, hcircle⟩ := Option.ne_none_iff_exists'.mp hcircle
    obtain ⟨images, himages⟩ := Option.ne_none_iff_exists'.mp himages
    obtain ⟨intro, hintro⟩ := fetchedIntro_isOk.mpr htypes
    unfold fetchedActivity
    rw [hcovers, hcircle, himages, hcontent]
    simp [hintro, Except.map]

/-- What `render` and the buttons read of the activity is in the body. -/
structure Shows (body : ActivityBody) (a : Activity) : Prop where
  id : a.id = body.id
  cost : a.cost = body.money
  status : a.status = body.status
  circle : a.circle = body.circle
  circle_ne : a.circle ≠ none
  join : a.join = body.joinedUsers
  images : ∃ images, body.activityImages = some images ∧ a.activityImages = images.take 3 ∧
    a.activityImageLength = images.length

theorem fetchedActivity_shows {body : ActivityBody} {a : Activity}
    (h : fetchedActivity body = .ok a) : Shows body a := by
  unfold fetchedActivity at h
  split at h
  · rename_i cover covers circle images content hcovers hcircle himages hcontent
    cases hintro : fetchedIntro content with
    | error err =>
      rw [hintro] at h
      cases h
    | ok intro =>
      rw [hintro] at h
      obtain rfl := Except.ok.inj h
      exact ⟨rfl, rfl, rfl, hcircle.symm, Option.some_ne_none _, rfl, images, himages, rfl, rfl⟩
  · cases h

/-! ### What is handed over -/

def Online (a : Activity) : Prop := offline a.status = .ok false

def OfCircle (a : Activity) (id name : Value) : Prop :=
  ∃ circle, a.circle = some circle ∧ id = circle.id ∧ name = circle.name

/-- The call is one that the activity allows, with the activity's own data. -/
def About (a : Activity) : NativeCall → Prop
  | .shareActivity bannerUrl title shareContent shareUrl =>
    Online a ∧ bannerUrl = a.bannerUrl ∧ title = a.title ∧ shareContent = a.shareContent ∧
      shareUrl = a.shareUrl
  | .goPublishDynamic id name actid | .goPublishArticleDynamic id name actid =>
    Online a ∧ OfCircle a id name ∧ actid = a.id
  | .goActivityMap destName longitude latitude =>
    (a.address.truthy ∧ a.lng.truthy ∧ a.lat.truthy) ∧ destName = a.locationName ∧
      longitude = a.lng ∧ latitude = a.lat
  | .goActivityShow id name actid =>
    0 < a.activityImageLength ∧ OfCircle a id name ∧ actid = a.id
  | .goActivityOrder id => a.statusText = .str "购票" ∧ id = a.id
  | .goCircleDetail id name coverUrl hasActivity =>
    OfCircle a id name ∧
      ∃ circle cover, a.circle = some circle ∧ circle.cover = some cover ∧
        coverUrl = cover.compress ∧
        (hasActivity = "1" ↔ circle.circleHasActivity.truthy)

theorem share_about {a : Activity} {c : NativeCall} (h : share (some a) a = .ok (.call c)) :
    About a c := by
  unfold share at h
  split_ifs at h
  · cases h
  split at h
  · cases h
  · cases h
  · rename_i hnone
    cases hnone
  · rename_i p honline hp
    obtain rfl := Option.some.inj hp
    obtain rfl := Pressed.call.inj (Except.ok.inj h)
    exact ⟨honline, rfl, rfl, rfl, rfl⟩

theorem press_about {a : Activity} {b : Button} {c : NativeCall}
    (h : b.press a = .ok (.call c)) : About a c := by
  cases b with
  | map =>
    simp only [Button.press, Except.ok.injEq] at h
    split_ifs at h with hplace
    obtain rfl := Pressed.call.inj h
    exact ⟨hplace, rfl, rfl, rfl⟩
  | «show» =>
    simp only [Button.press] at h
    split_ifs at h with hnone
    · cases h
    · split at h
      · cases h
      · rename_i circle hcircle
        obtain rfl := Pressed.call.inj (Except.ok.inj h)
        exact ⟨Nat.pos_of_ne_zero hnone, ⟨circle, hcircle, rfl, rfl⟩, rfl⟩
  | order =>
    simp only [Button.press, Except.ok.injEq] at h
    split_ifs at h with hstatus
    obtain rfl := Pressed.call.inj h
    exact ⟨Value.strictEq_str.mp hstatus, rfl⟩
  | circle =>
    simp only [Button.press] at h
    split at h
    · cases h
    · rename_i circle hcircle
      split at h
      · cases h
      · rename_i cover hcover
        obtain rfl := Pressed.call.inj (Except.ok.inj h)
        refine ⟨⟨circle, hcircle, rfl, rfl⟩, circle, cover, hcircle, hcover, rfl, ?_⟩
        cases circle.circleHasActivity.truthy <;> decide

theorem pressSheet_about {a : Activity} {index : ℕ} {c : NativeCall} (honline : Online a)
    (h : pressSheet a index = .ok (.call c)) : About a c := by
  unfold pressSheet at h
  split at h
  · rename_i circle hcircle
    obtain rfl := Pressed.call.inj (Except.ok.inj h)
    exact ⟨honline, ⟨circle, hcircle, rfl, rfl⟩, rfl⟩
  · rename_i circle hcircle
    obtain rfl := Pressed.call.inj (Except.ok.inj h)
    exact ⟨honline, ⟨circle, hcircle, rfl, rfl⟩, rfl⟩
  · cases h
  · cases h
  · cases h

/-! ### Runs of the page -/

structure Loaded (s : Page) (body : ActivityBody) : Prop where
  received : s.received = some body
  activity : fetchedActivity body = .ok s.activity
  fetching : s.fetching = false
  crashed_iff : s.crashed = false ↔ renderActivity s.activity = .ok ()
  params : s.crashed = false → s.paramsActivity = some s.activity
  online : 0 < s.asking ∨ s.sheet = true → Online s.activity
  calls : ∀ c ∈ s.calls, About s.activity c

/-- The page before its activity has come, which may be for ever. -/
structure Waiting (s : Page) : Prop where
  activity : s.activity = {}
  crashed : s.crashed = false
  asking : s.asking = 0
  sheet : s.sheet = false
  calls : s.calls = []

def PageInv (s : Page) : Prop := Waiting s ∨ ∃ body, Loaded s body

theorem react_loaded {s : Page} {body : ActivityBody} {r : Except Thrown Pressed}
    (hs : Loaded s body) (hr : ∀ c, r = .ok (.call c) → About s.activity c) :
    Loaded (s.react r) body := by
  cases r with
  | error err => exact hs
  | ok pressed =>
    cases pressed with
    | nothing => exact hs
    | toast msg => exact { hs with }
    | call c => exact { hs with calls := List.forall_mem_cons.mpr ⟨hr c rfl, hs.calls⟩ }

theorem Waiting.not_shown {s : Page} (hs : Waiting s) : s.shown = false := by
  simp only [Page.shown, hs.activity, hs.crashed]
  decide

/-- The response is shown whole or not at all. -/
theorem fetched_cases {s s' : Page} {o : Outcome ActivityBody} (hs : Waiting s)
    (h : s.step (.fetched o) = some s') :
    (Waiting s' ∧ ∀ body, (fetchData o).res.bind Response.data = some body → ¬ WellFormed body) ∨
      ∃ body, (fetchData o).res.bind Response.data = some body ∧ WellFormed body ∧
        Loaded s' body := by
  simp only [Page.step] at h
  split_ifs at h with hfetching
  obtain rfl := Option.some.inj h
  have hsame : Waiting { s with fetching := false } :=
    ⟨hs.activity, hs.crashed, hs.asking, hs.sheet, hs.calls⟩
  unfold fetchActivityThen
  cases hbody : (fetchData o).res.bind Response.data with
  | none => exact Or.inl ⟨hsame, by simp⟩
  | some body =>
    dsimp only
    cases ha : fetchedActivity body with
    | error err =>
      refine Or.inl ⟨hsame, fun body' hbody' hwell => ?_⟩
      obtain rfl := Option.some.inj hbody'
      obtain ⟨a, ha'⟩ := fetchedActivity_isOk.mpr hwell
      rw [ha] at ha'
      cases ha'
    | ok a =>
      have hquiet : ¬ (0 < s.asking ∨ s.sheet = true) := by simp [hs.asking, hs.sheet]
      have hcalls : ∀ c ∈ s.calls, About a c := by simp [hs.calls]
      refine Or.inr ⟨body, rfl, fetchedActivity_isOk.mp ⟨a, ha⟩, ?_⟩
      dsimp only
      cases hrender : renderActivity a with
      | ok _ =>
        exact ⟨rfl, ha, rfl, iff_of_true hs.crashed hrender, fun _ => rfl,
          fun h => absurd h hquiet, hcalls⟩
      | error err =>
        refine ⟨rfl, ha, rfl, iff_of_false (by simp) (by simp [hrender]), fun h => ?_,
          fun h => absurd h hquiet, hcalls⟩
        simp at h

theorem publish_loaded {s : Page} {body : ActivityBody} (hs : Loaded s body) :
    Loaded (publish s) body := by
  unfold publish
  split
  · exact hs
  · exact { hs with }
  · rename_i honline
    exact { hs with online := fun _ => honline }

theorem step_loaded {s s' : Page} {body : ActivityBody} {e : PageEvent} (hs : Loaded s body)
    (h : s.step e = some s') : Loaded s' body := by
  cases e with
  | fetched o =>
    simp only [Page.step, hs.fetching, Bool.false_eq_true, if_false] at h
    cases h
  | share =>
    simp only [Page.step] at h
    split_ifs at h with hcrashed
    obtain rfl := Option.some.inj h
    refine react_loaded hs fun c hc => ?_
    rw [hs.params (by simpa using hcrashed)] at hc
    exact share_about hc
  | publish =>
    simp only [Page.step] at h
    split_ifs at h
    obtain rfl := Option.some.inj h
    exact publish_loaded hs
  | canCreate ok =>
    simp only [Page.step] at h
    split_ifs at h with hasking
    obtain rfl := Option.some.inj h
    exact { hs with online := fun _ => hs.online (Or.inl hasking) }
  | pressSheet index =>
    simp only [Page.step] at h
    split_ifs at h with hsheet
    obtain rfl := Option.some.inj h
    have honline := hs.online (Or.inr hsheet.1)
    have hclosed : Loaded { s with sheet := false } body :=
      { hs with online := fun _ => honline }
    exact react_loaded hclosed fun c hc => pressSheet_about honline hc
  | tap b =>
    simp only [Page.step] at h
    split_ifs at h
    obtain rfl := Option.some.inj h
    exact react_loaded hs fun c hc => press_about hc

/-- Until the activity has come nothing can be done with the page. -/
theorem step_waiting {s s' : Page} {e : PageEvent} (hs : Waiting s) (hne : ∀ o, e ≠ .fetched o)
    (h : s.step e = some s') : Waiting s' := by
  cases e with
  | fetched o => exact absurd rfl (hne o)
  | share =>
    have hnothing : share s.paramsActivity s.activity = .ok .nothing := by
      rw [hs.activity]
      rfl
    simp only [Page.step, hs.crashed, hnothing, Bool.false_eq_true, if_false] at h
    obtain rfl := Option.some.inj h
    exact hs
  | publish => simp [Page.step, hs.not_shown] at h
  | canCreate ok => simp [Page.step, hs.asking] at h
  | pressSheet index => simp [Page.step, hs.sheet] at h
  | tap b => simp [Page.step, hs.not_shown] at h

theorem step_inv {s s' : Page} {e : PageEvent} (hs : PageInv s) (h : s.step e = some s') :
    PageInv s' := by
  rcases hs with hs | ⟨body, hs⟩
  · by_cases hfetched : ∃ o, e = .fetched o
    · obtain ⟨o, rfl⟩ := hfetched
      exact (fetched_cases hs h).imp (fun h => h.1) fun ⟨body, _, _, h⟩ => ⟨body, h⟩
    · exact Or.inl (step_waiting hs (fun o ho => hfetched ⟨o, ho⟩) h)
  · exact Or.inr ⟨body, step_loaded hs h⟩

theorem start_waiting : Waiting {} := ⟨rfl, rfl, rfl, rfl, rfl⟩

/-- In every run whatever is handed to the native side is the data of the one activity
that has been fetched, and allowed by it: nothing is shared or published while it is
offline, and nothing is ordered that is not on sale. -/
theorem calls_about_fetched_activity {es : List PageEvent} {s : Page}
    (hrun : Runs.exec Page.step {} es = some s) :
    ∀ c ∈ s.calls, ∃ body, s.received = some body ∧ fetchedActivity body = .ok s.activity ∧
      About s.activity c := by
  have hI : PageInv s := Runs.exec_invariant (fun _ _ _ hs h => step_inv hs h)
    (Or.inl start_waiting) hrun
  intro c hc
  rcases hI with hs | ⟨body, hs⟩
  · simp [hs.calls] at hc
  · exact ⟨body, hs.received, hs.activity, hs.calls c hc⟩

def onSale : ActivityBody where
  id := nat 7
  covers := some [some ⟨.str "b", .str "b"⟩]
  title := .str "t"
  circle := some ⟨nat 3, .str "c", some ⟨.str "s", .str "l"⟩, .bool true⟩
  oid := .str "o"
  phone := .undefined
  addressText := .str ""
  longitude := .undefined
  latitude := .undefined
  timeText := .str ""
  money := nat 0
  deadline := .undefined
  deadlineText := .undefined
  refund := .bool true
  insurance := .bool false
  joinedUsers := none
  joinedTotal := nat 0
  activityImages := some []
  statusText := .str "购票"
  status := nat 1
  shareUrl := .str "u"
  shareContent := .str "w"
  content := some []

theorem calls_about_activity_on_sale :
    ∃ s, Runs.exec Page.step {} [.share, .fetched (.json (some ⟨nat 0, .undefined, some onSale⟩)),
        .publish, .tap .order, .canCreate true, .pressSheet 0] = some s ∧
      s.calls = [.goPublishDynamic (nat 3) (.str "c") (nat 7), .goActivityOrder (nat 7)] ∧
      ∀ c ∈ s.calls, About s.activity c := by
  refine ⟨_, rfl, rfl, fun c hc => ?_⟩
  obtain ⟨body, -, -, habout⟩ := @calls_about_fetched_activity [.share,
    .fetched (.json (some ⟨nat 0, .undefined, some onSale⟩)), .publish, .tap .order,
    .canCreate true, .pressSheet 0] _ rfl c hc
  exact habout

/-! ### Pages that stay alive -/

structure PageAlive (s : Page) : Prop where
  crashed : s.crashed = false
  share : ∃ r, share s.paramsActivity s.activity = .ok r
  press : s.shown = true → ∀ b : Button, ∃ r, b.press s.activity = .ok r
  sheet : s.sheet = true → ∀ index, ∃ r, pressSheet s.activity index = .ok r

/-- What `render` and the buttons read is there as well. -/
structure Renderable (body : ActivityBody) : Prop where
  status : body.status ≠ .undefined ∧ body.status ≠ .null
  shown : body.id.looseEq (.str "") = false →
    (body.money ≠ .undefined ∧ body.money ≠ .null) ∧
      (∀ users ∈ body.joinedUsers, none ∉ users) ∧
      (∀ images ∈ body.activityImages, none ∉ images.take 3) ∧
      ∀ circle ∈ body.circle, circle.cover ≠ none

def BringsRenderable (_ : Page) : PageEvent → Prop
  | .fetched o => ∀ body, (fetchData o).res.bind Response.data = some body →
      WellFormed body → Renderable body
  | _ => True

theorem toString_isOk {v : Value} : (∃ s, v.toString = .ok s) ↔ v ≠ .undefined ∧ v ≠ .null := by
  cases v <;> simp [Value.toString]

theorem waiting_alive {s : Page} (hs : Waiting s) : PageAlive s where
  crashed := hs.crashed
  share := by
    rw [hs.activity]
    exact ⟨_, rfl⟩
  press h := by simp [hs.not_shown] at h
  sheet h := by simp [hs.sheet] at h

theorem share_isOk {a : Activity} :
    (∃ r, share (some a) a = .ok r) ↔ a.status ≠ .undefined ∧ a.status ≠ .null := by
  rw [← toString_isOk]
  unfold share offline
  split_ifs with hempty
  · rw [Value.strictEq_str] at hempty
    exact iff_of_true ⟨_, rfl⟩ ⟨"", by simp [hempty, Value.toString]⟩
  · cases htext : a.status.toString with
    | error err => simp [Except.map]
    | ok t =>
      refine iff_of_true ?_ ⟨t, rfl⟩
      simp only [Except.map]
      cases decide (t = "0" ∨ t = "2") <;> exact ⟨_, rfl⟩

theorem renderActivity_eq_ok {body : ActivityBody} {a : Activity} (h : Shows body a) :
    renderActivity a = .ok () ↔ (body.id.looseEq (.str "") = false →
      (body.money ≠ .undefined ∧ body.money ≠ .null) ∧
        (∀ users ∈ body.joinedUsers, none ∉ users) ∧
        (∀ images ∈ body.activityImages, none ∉ images.take 3) ∧
        ∀ circle ∈ body.circle, circle.cover ≠ none) := by
  obtain ⟨images, himages, hfirst, hlength⟩ := h.images
  have husers : none ∈ a.join.getD [] ↔ ¬ ∀ users ∈ body.joinedUsers, none ∉ users := by
    rw [h.join]
    cases body.joinedUsers <;> simp
  have hshown : (0 < a.activityImageLength ∧ none ∈ a.activityImages.take 3) ↔
      ¬ ∀ images ∈ body.activityImages, none ∉ images.take 3 := by
    simp only [himages, hfirst, hlength, List.take_take, min_self, Option.mem_some_iff,
      forall_eq', not_not]
    cases images with
    | nil => simp
    | cons image images => exact and_iff_right (Nat.succ_pos _)
  have hcover : (a.circle.any fun circle => circle.cover = none) = true ↔
      ¬ ∀ circle ∈ body.circle, circle.cover ≠ none := by
    rw [h.circle]
    cases body.circle <;> simp
  have hid : a.loading = body.id.looseEq (.str "") := congrArg (Value.looseEq · (.str "")) h.id
  unfold renderActivity
  rw [← toString_isOk, hid, h.cost]
  cases body.id.looseEq (.str "") with
  | true => simp
  | false =>
    cases htext : body.money.toString with
    | error err => simp
    | ok text =>
      simp only [husers, hshown, hcover, Bool.false_eq_true, if_false, ← not_and_or, ite_not]
      simp

theorem loaded_alive_iff {s : Page} {body : ActivityBody} (hs : Loaded s body) :
    PageAlive s ↔ Renderable body := by
  have hshows := fetchedActivity_shows hs.activity
  have hrender := renderActivity_eq_ok hshows
  obtain ⟨hid, -, hstatus, hcircle, hsome, -⟩ := hshows
  rw [← hs.crashed_iff] at hrender
  constructor
  · intro h
    refine ⟨?_, hrender.mp h.crashed⟩
    have hshare := h.share
    rw [hs.params h.crashed, share_isOk, hstatus] at hshare
    exact hshare
  · intro h
    have hcrashed := hrender.mpr h.shown
    obtain ⟨circle, hc⟩ := Option.ne_none_iff_exists'.mp hsome
    refine ⟨hcrashed, ?_, fun hshown b => ?_, fun _ index => ?_⟩
    · rw [hs.params hcrashed, share_isOk, hstatus]
      exact h.status
    · have hloading : body.id.looseEq (.str "") = false := by
        simpa [Page.shown, hcrashed, Activity.loading, hid] using hshown
      obtain ⟨cover, hcover⟩ := Option.ne_none_iff_exists'.mp
        ((h.shown hloading).2.2.2 circle (hcircle ▸ hc))
      cases b with
      | map => exact ⟨_, rfl⟩
      | «show» =>
        simp only [Button.press, hc]
        split_ifs <;> exact ⟨_, rfl⟩
      | order => exact ⟨_, rfl⟩
      | circle =>
        simp only [Button.press, hc, hcover]
        exact ⟨_, rfl⟩
    · unfold pressSheet
      rw [hc]
      match index with
      | 0 | 1 | _ + 2 => exact ⟨_, rfl⟩

theorem step_alive_iff {s s' : Page} {e : PageEvent} (hs : PageInv s) (halive : PageAlive s)
    (h : s.step e = some s') : PageAlive s' ↔ BringsRenderable s e := by
  have htrivial : (∀ o, e ≠ .fetched o) → BringsRenderable s e := by
    intro hne
    cases e with
    | fetched o => exact absurd rfl (hne o)
    | _ => trivial
  rcases hs with hs | ⟨body, hs⟩
  · by_cases hfetched : ∃ o, e = .fetched o
    · obtain ⟨o, rfl⟩ := hfetched
      rcases fetched_cases hs h with ⟨hwaiting, hnone⟩ | ⟨body, hbody, hwell, hloaded⟩
      · exact iff_of_true (waiting_alive hwaiting)
          fun body hbody hwell => absurd hwell (hnone body hbody)
      · rw [loaded_alive_iff hloaded]
        constructor
        · intro hrenderable body' hbody' _
          obtain rfl := Option.some.inj (hbody.symm.trans hbody')
          exact hrenderable
        · exact fun hbrings => hbrings body hbody hwell
    · have hne : ∀ o, e ≠ .fetched o := fun o ho => hfetched ⟨o, ho⟩
      exact iff_of_true (waiting_alive (step_waiting hs hne h)) (htrivial hne)
  · have hloaded := step_loaded hs h
    refine iff_of_true ?_ (htrivial ?_)
    · rw [loaded_alive_iff hloaded, ← loaded_alive_iff hs]
      exact halive
    · rintro o rfl
      simp [Page.step, hs.fetching] at h

/-- In every run of the page nothing throws in any state reached, neither `render` nor a
button that is shown, exactly when a body that can be taken apart has a status, and, where
it has an id, a price, all its joined users and its first images, and a cover of its
circle. -/
theorem page_alive_iff (es : List PageEvent) :
    Runs.Throughout Page.step PageAlive {} es ↔ Runs.Along Page.step BringsRenderable {} es :=
  Runs.throughout_iff_along (fun _ _ _ hs _ h _ => step_inv hs h)
    (fun _ _ _ hs halive h => step_alive_iff hs halive h) (Or.inl start_waiting)
    (waiting_alive start_waiting)

end RNFantuan.Views.ActivityDetail
