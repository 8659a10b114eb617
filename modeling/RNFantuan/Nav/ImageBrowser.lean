import RNFantuan.Nav.Wrapper

/-!
# The image browser and swiping back

`components/ImageBrowser.js` and `ActivityDetail.navigationOptions`. Showing and
hiding the browser only sets params of its page; whether the page can be swiped
away is decided by the calls the wrapper makes on a single-route stack and by
`gesturesEnabled` above it. A run here is made of the actions of the browser,
other `setParams` calls of pages, pushes, pops, BACKs and completed transitions,
from the state in which `Index` opens a page by `replace`. The BACK of a swipe is
`immediate`: it starts no transition.

`Agrees` says that swiping is off exactly while the browser is shown. It fails
above a single route, since `navigationOptions` turns `false` into `true`, and on
a single route when an action not about the browser makes a call, or when a page
is uncovered there with no transition to follow. `Harmless` is the exact condition
on a step.
-/

namespace RNFantuan.Nav
open JS

/-- `params && params.gesturesEnabled ? params.gesturesEnabled : true`. -/
def gesturesEnabled (params : Option Params) : Value :=
  match params with
  | none => .bool true
  | some p => (p.gesturesEnabled.getD .undefined).or (.bool true)

/-- The params pages are given and set themselves: never those of the browser. -/
structure PageParams where
  type : Option Value := none
  deriving DecidableEq

def PageParams.params (q : PageParams) : Params := { type := q.type }

inductive BrowserEvent
  | show (page : Key)
  | hide (page : Key)
  | unmount (page : Key)
  | setParams (page : Key) (q : PageParams)
  | push (q : Option PageParams) (immediate : Bool)
  | pop (immediate : Bool)
  | back (key : Option Key) (immediate : Bool)
  | completeTransition
  deriving DecidableEq

def browserParams (gesturesEnabled stopBack : Bool) : Params where
  gesturesEnabled := some (.bool gesturesEnabled)
  stopBack := some (.bool stopBack)

def paramsAction (page : Key) (q : Params) : Action :=
  { type := .setParams, key := some page, params := some q }

def BrowserEvent.action : BrowserEvent → Action
  | .show page => paramsAction page (browserParams false true)
  | .hide page => paramsAction page (browserParams false false)
  | .unmount page => paramsAction page (browserParams true false)
  | .setParams page q => paramsAction page q.params
  | .push q immediate =>
    { type := .push, params := q.map PageParams.params, immediate := immediate }
  | .pop immediate => { type := .pop, immediate := immediate }
  | .back key immediate => { type := .back, key := key, immediate := immediate }
  | .completeTransition => { type := .completeTransition }

def browserStep (router : Router) (s : Sys) (e : BrowserEvent) : Option Sys :=
  some (s.dispatch router e.action)

/-- The only route is the page `Index` has replaced itself with. -/
def Sys.opened (key : Key) (q : Option PageParams) : Sys :=
  { nav := single ⟨key, q.map PageParams.params⟩, calls := [.enable] }

example : ((Sys.start (single ⟨0, none⟩)).dispatch stackRouter
      { type := .replace, key := some 0, params := some {} }) =
    { Sys.opened 1 (some {}) with globals := { stateIndex := nat 0 } } := by decide

def Sys.shown (s : Sys) : Bool := s.nav.top.stopsBack

def Sys.lastCall (s : Sys) : Option Call := s.calls.head?

/-- While the browser is shown the page cannot be swiped away; while it is not and
no transition is pending, it can. -/
structure Agrees (s : Sys) : Prop where
  off : s.shown = true →
    (s.nav.routes.length = 1 → s.lastCall = some .disable) ∧
    (2 ≤ s.nav.routes.length → gesturesEnabled s.nav.top.params = .bool false)
  on : s.shown = false → s.nav.isTransitioning = false →
    (s.nav.routes.length = 1 → s.lastCall = some .enable) ∧
    (2 ≤ s.nav.routes.length → gesturesEnabled s.nav.top.params = .bool true)

/-- What leaving down to `j` routes uncovers: above a single route no page on which
the browser is shown, and on a single one without a transition only such a page. -/
def UncoversWell (s : Sys) (j : ℕ) (immediate : Bool) : Prop :=
  ∀ r ∈ s.nav.routes[j - 1]?,
    (j = 1 → immediate = true → r.stopsBack = true) ∧ (2 ≤ j → r.stopsBack = false)

/-- The condition on a step. On a single route: the browser is shown or hidden by
the page on top, no other params are set and no transition completes while it is
shown, BACK comes only while it is shown or a transition is pending, and POP, which
exits, only while a transition is pending and it is not shown. Above: the browser
is not shown on the top route, and what a POP or BACK uncovers is as it should be. -/
def Harmless (s : Sys) : BrowserEvent → Prop
  | .show page =>
    if s.nav.routes.length = 1 then
      page = s.nav.top.key ∨ s.shown = true ∨ s.nav.isTransitioning = true
    else page ≠ s.nav.top.key
  | .hide page | .unmount page =>
    s.nav.routes.length = 1 → page = s.nav.top.key ∨ s.shown = false
  | .setParams _ _ | .completeTransition => s.nav.routes.length = 1 → s.shown = false
  | .push _ _ => True
  | .pop immediate =>
    if s.nav.routes.length = 1 then s.shown = false ∧ s.nav.isTransitioning = true
    else UncoversWell s s.nav.index immediate
  | .back key immediate =>
    if s.nav.routes.length = 1 then s.shown = true ∨ s.nav.isTransitioning = true
    else UncoversWell s (s.nav.cutAt { type := .back, key := key }) immediate

/-! ### The top route after an action -/

namespace NavState

theorem getElem?_top (nav : NavState) : nav.routes[nav.index]? = some nav.top := by
  rw [List.getElem?_eq_getElem nav.index_lt]
  rfl

theorem top_eq_of_getElem? {nav : NavState} {r : Route} (h : nav.routes[nav.index]? = some r) :
    nav.top = r :=
  Option.some.inj (nav.getElem?_top.symm.trans h)

theorem top_of_map {nav nav' : NavState} {f : Route → Route}
    (hroutes : nav'.routes = nav.routes.map f) (hindex : nav'.index = nav.index) :
    nav'.top = f nav.top := by
  apply top_eq_of_getElem?
  rw [hroutes, hindex, List.getElem?_map, nav.getElem?_top]
  rfl

theorem top_of_append {nav nav' : NavState} {r : Route}
    (hroutes : nav'.routes = nav.routes ++ [r]) (hindex : nav'.index = nav.routes.length) :
    nav'.top = r := by
  apply top_eq_of_getElem?
  simp [hroutes, hindex]

theorem top_of_take {nav nav' : NavState} {j : ℕ} {r : Route} (hj : 0 < j)
    (hroutes : nav'.routes = nav.routes.take j) (hindex : nav'.index = j - 1)
    (hr : nav.routes[j - 1]? = some r) : nav'.top = r := by
  apply top_eq_of_getElem?
  rw [hroutes, hindex, List.getElem?_take_of_lt (by omega), hr]

end NavState

/-! ### The invariant -/

def Route.plain (r : Route) : Prop :=
  r.guarded = false ∧ gesturesEnabled r.params = .bool true

/-- No page is guarded or asks for other gestures, the top route is the last, and
above a single route the last call is `disable()`. -/
structure BrowserInv (s : Sys) : Prop where
  plain : ∀ r ∈ s.nav.routes, r.plain
  last : s.nav.index + 1 = s.nav.routes.length
  above : s.nav.routes.length ≠ 1 → s.lastCall = some .disable

theorem agrees_iff {s : Sys} (hI : BrowserInv s) :
    Agrees s ↔
      (s.nav.routes.length = 1 →
        (s.shown = true → s.lastCall = some .disable) ∧
        (s.shown = false → s.nav.isTransitioning = false →
          s.lastCall = some .enable)) ∧
      (s.nav.routes.length ≠ 1 → s.shown = false) := by
  have hpos := s.nav.length_pos
  have hge : gesturesEnabled s.nav.top.params = .bool true := (hI.plain _ s.nav.top_mem).2
  constructor
  · intro h
    refine ⟨fun h1 => ⟨fun hs => (h.off hs).1 h1, fun hs ht => (h.on hs ht).1 h1⟩, fun h1 => ?_⟩
    by_contra hs
    have hoff := (h.off (by simpa using hs)).2 (by omega)
    rw [hge] at hoff
    cases hoff
  · intro h
    refine ⟨fun hs => ⟨fun h1 => (h.1 h1).1 hs, fun h2 => ?_⟩,
      fun hs ht => ⟨fun h1 => (h.1 h1).2 hs ht, fun _ => hge⟩⟩
    have hnot := h.2 (by omega)
    rw [hs] at hnot
    cases hnot

theorem opened_inv (key : Key) (q : Option PageParams) : BrowserInv (Sys.opened key q) where
  plain r hr := by
    obtain rfl : r = ⟨key, q.map PageParams.params⟩ := by simpa [Sys.opened, single] using hr
    cases q <;> exact ⟨rfl, rfl⟩
  last := rfl
  above h := absurd rfl h

theorem opened_agrees (key : Key) (q : Option PageParams) : Agrees (Sys.opened key q) := by
  refine (agrees_iff (opened_inv key q)).mpr ⟨fun _ => ⟨fun hs => ?_, fun _ _ => rfl⟩,
    fun h => absurd rfl h⟩
  cases q <;> cases hs

/-! ### One step -/

/-- The last call after an action the wrapper hands on. -/
def callAfter (s : Sys) (a : Action) : Option Call :=
  if a.stopBack then some .disable
  else if s.nav.routes.length = 1 then
    match a.type with
    | .pop => some .exit
    | .replace | .completeTransition | .setParams => some .enable
    | _ => some .disable
  else s.lastCall

theorem head?_swipBackCalls (s : Sys) (a : Action) :
    (swipBackCalls a s.nav ++ s.calls).head? = callAfter s a := by
  unfold swipBackCalls callAfter Sys.lastCall
  by_cases hs : a.stopBack = true
  · simp [hs]
  · by_cases h1 : s.nav.routes.length = 1
    · cases a.type <;> simp [hs, h1]
    · simp [hs, h1]

variable {router : Router}

theorem BrowserInv.dispatch (router : Router) {s : Sys} (hI : BrowserInv s) (a : Action) :
    (s.dispatch router a).nav = router a (some s.nav) ∧
      (s.dispatch router a).lastCall = callAfter s a := by
  have hnot : ¬ (a.leaves = true ∧ Asks s.globals s.nav) := by
    rintro ⟨-, hguard, -⟩
    rw [(hI.plain _ s.nav.top_mem).1] at hguard
    cases hguard
  have hpass := getStateForAction_passes router hnot
  refine ⟨hpass.1, ?_⟩
  simp only [Sys.lastCall, Sys.dispatch, hpass.2]
  exact head?_swipBackCalls s a

theorem Route.plain_setParams {r : Route} (hr : r.plain) {q : Params} (hback : q.backFn = false)
    (hgest : ∀ v, q.gesturesEnabled = some v → v.or (.bool true) = .bool true) :
    (r.setParams q).plain := by
  obtain ⟨hguard, hget⟩ := hr
  obtain ⟨key, params⟩ := r
  refine ⟨?_, ?_⟩
  · cases params <;> simp_all [Route.guarded, Route.setParams, Params.merge]
  · cases hq : q.gesturesEnabled with
    | some v =>
      have hv := hgest v hq
      simpa [gesturesEnabled, Route.setParams, Params.merge, hq] using hv
    | none =>
      cases params with
      | none => simp [gesturesEnabled, Route.setParams, Params.merge, hq, Value.or, Value.truthy]
      | some p => simpa [gesturesEnabled, Route.setParams, Params.merge, hq] using hget

theorem browserParams_gestures {g b : Bool} (v : Value)
    (hv : (browserParams g b).gesturesEnabled = some v) : v.or (.bool true) = .bool true := by
  obtain rfl : Value.bool g = v := Option.some.inj hv
  cases g <;> rfl

theorem BrowserInv.setParams (hM : MergesParams router) {s : Sys} (hI : BrowserInv s)
    (page : Key) {q : Params} (hback : q.backFn = false)
    (hgest : ∀ v, q.gesturesEnabled = some v → v.or (.bool true) = .bool true) :
    let s' := s.dispatch router (paramsAction page q)
    BrowserInv s' ∧ s'.nav.routes.length = s.nav.routes.length ∧
      s'.nav.top = (if s.nav.top.key = page then s.nav.top.setParams q else s.nav.top) := by
  intro s'
  obtain ⟨hroutes, hindex⟩ := hM.setParams (paramsAction page q) s.nav page q rfl rfl rfl
  obtain ⟨hnav, hcalls⟩ := hI.dispatch router (paramsAction page q)
  rw [← hnav] at hroutes hindex
  have hlength : s'.nav.routes.length = s.nav.routes.length := by
    rw [hroutes, List.length_map]
  refine ⟨⟨?_, ?_, ?_⟩, hlength, ?_⟩
  · intro r hr
    rw [hroutes] at hr
    obtain ⟨r₀, hr₀, rfl⟩ := List.mem_map.mp hr
    split
    · exact Route.plain_setParams (hI.plain r₀ hr₀) hback hgest
    · exact hI.plain r₀ hr₀
  · rw [hindex, hlength]
    exact hI.last
  · intro h1
    rw [hlength] at h1
    rw [hcalls]
    simp [callAfter, h1, hI.above h1]
  · exact NavState.top_of_map (f := fun r => if r.key = page then r.setParams q else r)
      hroutes hindex

theorem BrowserInv.leave (hL : LeavesTop router) {s : Sys} (hI : BrowserInv s) {a : Action}
    (ha : a.leaves = true) (hstop : a.stopBack = false) :
    BrowserInv (s.dispatch router a) := by
  obtain ⟨hnav, hcalls⟩ := hI.dispatch router a
  have hlast := hI.last
  have habove : s.nav.routes.length ≠ 1 →
      (s.dispatch router a).lastCall = some .disable := by
    intro h1
    rw [hcalls]
    simp [callAfter, hstop, h1, hI.above h1]
  rcases Nat.eq_zero_or_pos (s.nav.cutAt a) with h0 | hpos
  · rw [hL.keep a s.nav ha h0] at hnav
    exact ⟨by rw [hnav]; exact hI.plain, by rw [hnav]; exact hlast, by rw [hnav]; exact habove⟩
  · obtain ⟨hroutes, hindex⟩ := hL.cut a s.nav ha hpos
    rw [← hnav] at hroutes hindex
    have hlt := s.nav.cutAt_lt a
    refine ⟨fun r hr => ?_, ?_, fun _ => habove (by omega)⟩
    · rw [hroutes] at hr
      exact hI.plain r (List.mem_of_mem_take hr)
    · rw [hroutes, hindex, List.length_take]
      omega

theorem BrowserInv.push (hM : MergesParams router) {s : Sys} (hI : BrowserInv s)
    (q : Option PageParams) (immediate : Bool) :
    BrowserInv (s.dispatch router (BrowserEvent.push q immediate).action) := by
  obtain ⟨hnav, hcalls⟩ := hI.dispatch router (BrowserEvent.push q immediate).action
  obtain ⟨k, -, hroutes, hindex⟩ := hM.push (BrowserEvent.push q immediate).action s.nav rfl
  rw [← hnav] at hroutes hindex
  refine ⟨fun r hr => ?_, ?_, fun _ => ?_⟩
  · rw [hroutes] at hr
    rcases List.mem_append.mp hr with hr | hr
    · exact hI.plain r hr
    · obtain rfl := List.mem_singleton.mp hr
      cases q <;> exact ⟨rfl, rfl⟩
  · simp [hroutes, hindex]
  · rw [hcalls]
    have hstop : (BrowserEvent.push q immediate).action.stopBack = false := by cases q <;> rfl
    by_cases h1 : s.nav.routes.length = 1
    · simp [callAfter, h1, BrowserEvent.action]
    · simp [callAfter, hstop, h1, hI.above h1]

theorem BrowserInv.completeTransition (hM : MergesParams router) {s : Sys} (hI : BrowserInv s) :
    BrowserInv (s.dispatch router BrowserEvent.completeTransition.action) := by
  obtain ⟨hnav, hcalls⟩ := hI.dispatch router BrowserEvent.completeTransition.action
  obtain ⟨hroutes, hindex⟩ :=
    hM.completeTransition BrowserEvent.completeTransition.action s.nav rfl
  rw [← hnav] at hroutes hindex
  refine ⟨by rw [hroutes]; exact hI.plain, by rw [hroutes, hindex]; exact hI.last, fun h1 => ?_⟩
  rw [hroutes] at h1
  rw [hcalls]
  simp [callAfter, h1, hI.above h1, BrowserEvent.action, Action.stopBack]

theorem browserStep_inv (hL : LeavesTop router) (hM : MergesParams router) {s s' : Sys}
    {e : BrowserEvent} (hI : BrowserInv s) (h : browserStep router s e = some s') :
    BrowserInv s' := by
  obtain rfl := Option.some.inj h
  cases e with
  | «show» page => exact (hI.setParams hM page rfl browserParams_gestures).1
  | hide page => exact (hI.setParams hM page rfl browserParams_gestures).1
  | unmount page => exact (hI.setParams hM page rfl browserParams_gestures).1
  | setParams page q => exact (hI.setParams hM page rfl (by simp [PageParams.params])).1
  | push q immediate => exact hI.push hM q immediate
  | pop immediate => exact hI.leave hL rfl rfl
  | back key immediate => exact hI.leave hL rfl rfl
  | completeTransition => exact hI.completeTransition hM

/-! ### When a step keeps the agreement -/

@[simp]
theorem browserParams_stopBack (page : Key) (g b : Bool) :
    Action.stopBack (paramsAction page (browserParams g b)) = b := by
  cases b <;> rfl

@[simp]
theorem stopsBack_browserParams (r : Route) (g b : Bool) :
    (r.setParams (browserParams g b)).stopsBack = b := by
  cases b <;> simp [Route.stopsBack, Route.setParams, Params.merge, browserParams, Value.truthy]

theorem Route.stopsBack_setParams_page (r : Route) (q : PageParams) :
    (r.setParams q.params).stopsBack = r.stopsBack := by
  obtain ⟨key, _ | p⟩ := r
  · simp [Route.stopsBack, Route.setParams, Params.merge, PageParams.params, Value.truthy]
  · simp [Route.stopsBack, Route.setParams, Params.merge, PageParams.params]

theorem setParams_agrees_iff (hM : MergesParams router) (hT : Transitions router)
    {s : Sys} (hI : BrowserInv s)
    (page : Key) {q : Params} {b : Bool} (hback : q.backFn = false)
    (hgest : ∀ v, q.gesturesEnabled = some v → v.or (.bool true) = .bool true)
    (hb : (if s.nav.top.key = page then s.nav.top.setParams q else s.nav.top).stopsBack = b) :
    Agrees (s.dispatch router (paramsAction page q)) ↔
      (s.nav.routes.length = 1 →
        (b = true → Action.stopBack (paramsAction page q) = true) ∧
        (b = false → s.nav.isTransitioning = false →
          Action.stopBack (paramsAction page q) = false)) ∧
      (s.nav.routes.length ≠ 1 → b = false) := by
  obtain ⟨hI', hlength, htop⟩ := hI.setParams hM page hback hgest
  obtain ⟨hnav, hcalls⟩ := hI.dispatch router (paramsAction page q)
  have htrans := hT.setParams (paramsAction page q) s.nav page q rfl rfl rfl
  rw [← hnav] at htrans
  have hshown : (s.dispatch router (paramsAction page q)).shown = b :=
    (congrArg Route.stopsBack htop).trans hb
  rw [agrees_iff hI', hlength, htrans, hshown, hcalls]
  refine and_congr (forall_congr' fun h1 => ?_) Iff.rfl
  have htype : (paramsAction page q).type = .setParams := rfl
  cases hstop : (paramsAction page q).stopBack <;> simp [callAfter, h1, hstop, htype]

theorem browserParams_agrees_iff (hM : MergesParams router) (hT : Transitions router)
    {s : Sys} (hI : BrowserInv s) (page : Key) (g b : Bool) :
    Agrees (s.dispatch router (paramsAction page (browserParams g b))) ↔
      (s.nav.routes.length = 1 →
        page = s.nav.top.key ∨ s.shown = b ∨ (b = true ∧ s.nav.isTransitioning = true)) ∧
      (s.nav.routes.length ≠ 1 →
        (if page = s.nav.top.key then b else s.shown) = false) := by
  refine (setParams_agrees_iff hM hT hI page rfl browserParams_gestures rfl).trans ?_
  rw [browserParams_stopBack]
  by_cases hkey : s.nav.top.key = page
  · simpa [hkey] using fun _ _ h _ => h
  · have hne : page ≠ s.nav.top.key := fun h => hkey h.symm
    have hshown : s.nav.top.stopsBack = s.shown := rfl
    simp only [hkey, hne, hshown, if_false, false_or]
    cases b <;> cases s.shown <;> simp

theorem hidden_agrees_iff (hM : MergesParams router) (hT : Transitions router)
    {s : Sys} (hI : BrowserInv s) (hA : Agrees s) (page : Key) (g : Bool) :
    Agrees (s.dispatch router (paramsAction page (browserParams g false))) ↔
      (s.nav.routes.length = 1 → page = s.nav.top.key ∨ s.shown = false) := by
  have hold := ((agrees_iff hI).mp hA).2
  refine (browserParams_agrees_iff hM hT hI page g false).trans ?_
  by_cases h1 : s.nav.routes.length = 1
  · simp [h1]
  · simp [h1, hold h1]

theorem completeTransition_agrees_iff (hM : MergesParams router) (hT : Transitions router)
    {s : Sys} (hI : BrowserInv s) (hA : Agrees s) :
    Agrees (s.dispatch router BrowserEvent.completeTransition.action) ↔
      (s.nav.routes.length = 1 → s.shown = false) := by
  have hold := ((agrees_iff hI).mp hA).2
  obtain ⟨hnav, hcalls⟩ := hI.dispatch router BrowserEvent.completeTransition.action
  obtain ⟨hroutes, hindex⟩ :=
    hM.completeTransition BrowserEvent.completeTransition.action s.nav rfl
  have htrans := hT.completeTransition BrowserEvent.completeTransition.action s.nav rfl
  rw [← hnav] at hroutes hindex htrans
  have htop : (s.dispatch router BrowserEvent.completeTransition.action).nav.top = s.nav.top :=
    NavState.top_of_map (f := id) (by rw [hroutes, List.map_id]) hindex
  have hshown : (s.dispatch router BrowserEvent.completeTransition.action).shown = s.shown :=
    congrArg Route.stopsBack htop
  rw [agrees_iff (hI.completeTransition hM), hroutes, htrans, hshown, hcalls]
  by_cases h1 : s.nav.routes.length = 1
  · simp [callAfter, h1, BrowserEvent.action, Action.stopBack]
  · simp [h1, hold h1]

theorem push_agrees (hM : MergesParams router) {s : Sys} (hI : BrowserInv s)
    (q : Option PageParams) (immediate : Bool) :
    Agrees (s.dispatch router (BrowserEvent.push q immediate).action) := by
  obtain ⟨hnav, -⟩ := hI.dispatch router (BrowserEvent.push q immediate).action
  obtain ⟨k, -, hroutes, hindex⟩ := hM.push (BrowserEvent.push q immediate).action s.nav rfl
  rw [← hnav] at hroutes hindex
  have htop := NavState.top_of_append hroutes hindex
  have hpos := s.nav.length_pos
  refine (agrees_iff (hI.push hM q immediate)).mpr ⟨fun h1 => ?_, fun _ => ?_⟩
  · rw [hroutes, List.length_append, List.length_singleton] at h1
    omega
  · refine (congrArg Route.stopsBack htop).trans ?_
    cases q <;> rfl

/-- On the only route BACK calls `disable()` and POP calls `exit()`. -/
theorem leave_agrees_iff_of_keep (hL : LeavesTop router) {s : Sys} (hI : BrowserInv s)
    (hA : Agrees s) {a : Action} (ha : a.leaves = true) (hstop : a.stopBack = false)
    (h0 : s.nav.cutAt a = 0) :
    Agrees (s.dispatch router a) ↔
      (s.nav.routes.length = 1 →
        if a.type = .back then s.shown = true ∨ s.nav.isTransitioning = true
        else s.shown = false ∧ s.nav.isTransitioning = true) := by
  have hold := ((agrees_iff hI).mp hA).2
  obtain ⟨hnav, hcalls⟩ := hI.dispatch router a
  rw [hL.keep a s.nav ha h0] at hnav
  have hshown : (s.dispatch router a).shown = s.shown :=
    congrArg (fun nav : NavState => nav.top.stopsBack) hnav
  rw [agrees_iff (hI.leave hL ha hstop), hnav, hshown, hcalls]
  by_cases h1 : s.nav.routes.length = 1
  · rcases (by simpa [Action.leaves] using ha : a.type = .pop ∨ a.type = .back) with ht | ht <;>
      cases s.shown <;> simp [callAfter, h1, hstop, ht]
  · simp [h1, hold h1]

theorem leave_agrees_iff_of_cut (hL : LeavesTop router) (hT : Transitions router)
    {s : Sys} (hI : BrowserInv s) {a : Action} (ha : a.leaves = true)
    (hstop : a.stopBack = false) (hpos : 0 < s.nav.cutAt a) :
    Agrees (s.dispatch router a) ↔ UncoversWell s (s.nav.cutAt a) a.immediate := by
  have hlt := s.nav.cutAt_lt a
  obtain ⟨hnav, hcalls⟩ := hI.dispatch router a
  obtain ⟨hroutes, hindex⟩ := hL.cut a s.nav ha hpos
  have htrans := hT.cut a s.nav ha hpos
  rw [← hnav] at hroutes hindex htrans
  obtain ⟨r, hr⟩ : ∃ r, s.nav.routes[s.nav.cutAt a - 1]? = some r :=
    ⟨_, List.getElem?_eq_getElem (by omega)⟩
  have hshown : (s.dispatch router a).shown = r.stopsBack :=
    congrArg Route.stopsBack (NavState.top_of_take hpos hroutes hindex hr)
  have hlength : (s.dispatch router a).nav.routes.length = s.nav.cutAt a := by
    rw [hroutes, List.length_take]
    omega
  have hlast : (s.dispatch router a).lastCall = some .disable := by
    have hne : s.nav.routes.length ≠ 1 := by omega
    rw [hcalls]
    simp [callAfter, hstop, hne, hI.above hne]
  rw [agrees_iff (hI.leave hL ha hstop), hlength, htrans, hshown, hlast]
  simp only [UncoversWell, hr, Option.mem_some_iff, forall_eq']
  by_cases h1 : s.nav.cutAt a = 1
  · cases r.stopsBack <;> simp [h1]
  · have h2 : 2 ≤ s.nav.cutAt a := by omega
    simp [h1, h2]

theorem pop_agrees_iff (hL : LeavesTop router) (hT : Transitions router) {s : Sys}
    (hI : BrowserInv s) (hA : Agrees s) (immediate : Bool) :
    Agrees (s.dispatch router (BrowserEvent.pop immediate).action) ↔
      Harmless s (.pop immediate) := by
  have hcut : s.nav.cutAt (BrowserEvent.pop immediate).action = s.nav.index :=
    s.nav.cutAt_pop rfl
  have hlast := hI.last
  rcases Nat.eq_zero_or_pos s.nav.index with h0 | hpos
  · have h1 : s.nav.routes.length = 1 := by omega
    refine (leave_agrees_iff_of_keep hL hI hA rfl rfl (hcut.trans h0)).trans ?_
    simp [Harmless, BrowserEvent.action, h1]
  · have h1 : s.nav.routes.length ≠ 1 := by omega
    refine (leave_agrees_iff_of_cut hL hT hI rfl rfl (hcut ▸ hpos)).trans ?_
    rw [hcut]
    simp only [Harmless, h1, if_false, BrowserEvent.action]

theorem back_agrees_iff (hL : LeavesTop router) (hT : Transitions router) {s : Sys}
    (hI : BrowserInv s) (hA : Agrees s) (key : Option Key) (immediate : Bool) :
    Agrees (s.dispatch router (BrowserEvent.back key immediate).action) ↔
      Harmless s (.back key immediate) := by
  have hlt := s.nav.cutAt_lt (BrowserEvent.back key immediate).action
  have hcut : s.nav.cutAt (BrowserEvent.back key immediate).action =
    s.nav.cutAt { type := .back, key := key } := rfl
  rcases Nat.eq_zero_or_pos (s.nav.cutAt (BrowserEvent.back key immediate).action) with h0 | hpos
  · refine (leave_agrees_iff_of_keep hL hI hA rfl rfl h0).trans ?_
    rw [hcut] at h0
    by_cases h1 : s.nav.routes.length = 1 <;>
      simp [Harmless, UncoversWell, BrowserEvent.action, h0, h1]
  · have h1 : s.nav.routes.length ≠ 1 := by omega
    refine (leave_agrees_iff_of_cut hL hT hI rfl rfl hpos).trans ?_
    rw [hcut]
    simp only [Harmless, h1, if_false, BrowserEvent.action]

theorem step_agrees_iff (hL : LeavesTop router) (hM : MergesParams router)
    (hT : Transitions router) {s s' : Sys} {e : BrowserEvent} (hI : BrowserInv s)
    (hA : Agrees s) (h : browserStep router s e = some s') : Agrees s' ↔ Harmless s e := by
  obtain rfl := Option.some.inj h
  have hold := ((agrees_iff hI).mp hA).2
  cases e with
  | «show» page =>
    refine (browserParams_agrees_iff hM hT hI page false true).trans ?_
    by_cases h1 : s.nav.routes.length = 1
    · simp [Harmless, h1]
    · simp [Harmless, h1, hold h1]
  | hide page => exact hidden_agrees_iff hM hT hI hA page false
  | unmount page => exact hidden_agrees_iff hM hT hI hA page true
  | setParams page q =>
    refine (setParams_agrees_iff hM hT hI page (q := q.params) (b := s.shown) rfl
      (by simp [PageParams.params]) ?_).trans ?_
    · split
      · exact s.nav.top.stopsBack_setParams_page q
      · rfl
    · have hstop : (paramsAction page q.params).stopBack = false := rfl
      by_cases h1 : s.nav.routes.length = 1
      · simp [Harmless, h1, hstop]
      · simp [Harmless, h1, hold h1]
  | push q immediate => exact iff_of_true (push_agrees hM hI q immediate) trivial
  | pop immediate => exact pop_agrees_iff hL hT hI hA immediate
  | back key immediate => exact back_agrees_iff hL hT hI hA key immediate
  | completeTransition => exact completeTransition_agrees_iff hM hT hI hA

instance (s : Sys) (j : ℕ) (immediate : Bool) : Decidable (UncoversWell s j immediate) :=
  inferInstanceAs (Decidable (∀ r ∈ s.nav.routes[j - 1]?, _ ∧ _))

instance : ∀ (s : Sys) (e : BrowserEvent), Decidable (Harmless s e)
  | s, .show page => inferInstanceAs (Decidable (if s.nav.routes.length = 1 then
      page = s.nav.top.key ∨ s.shown = true ∨ s.nav.isTransitioning = true
    else page ≠ s.nav.top.key))
  | _, .hide _ | _, .unmount _ => inferInstanceAs (Decidable (_ → _ ∨ _))
  | _, .setParams _ _ | _, .completeTransition => inferInstanceAs (Decidable (_ → _))
  | _, .push _ _ => isTrue trivial
  | s, .pop immediate => inferInstanceAs (Decidable (if s.nav.routes.length = 1 then _ ∧ _
    else UncoversWell s s.nav.index immediate))
  | s, .back key immediate => inferInstanceAs (Decidable (if s.nav.routes.length = 1 then _ ∨ _
    else UncoversWell s (s.nav.cutAt { type := .back, key := key }) immediate))

/-- In every run from an opened page, browser and swiping agree in every state
exactly when every step is harmless. -/
theorem swiping_agrees_iff_harmless (hL : LeavesTop router) (hM : MergesParams router)
    (hT : Transitions router) (key : Key) (q : Option PageParams) (es : List BrowserEvent) :
    Runs.Throughout (browserStep router) Agrees (Sys.opened key q) es ↔
      Runs.Along (browserStep router) Harmless (Sys.opened key q) es :=
  Runs.throughout_iff_along (I := BrowserInv)
    (fun _ _ _ hI _ h _ => browserStep_inv hL hM hI h)
    (fun _ _ _ hI hA h => step_agrees_iff hL hM hT hI hA h)
    (opened_inv key q) (opened_agrees key q)

/-- The browser is shown under a pushed page, which is swiped away. -/
theorem swiping_agrees_on_only_page :
    Runs.Throughout (browserStep stackRouter) Agrees (Sys.opened 0 none)
      [.setParams 0 {}, .show 0, .push none false, .completeTransition, .back (some 1) true,
        .hide 0, .push none false, .pop false, .completeTransition] :=
  (swiping_agrees_iff_harmless stackRouter_leavesTop stackRouter_mergesParams
    stackRouter_transitions 0 none _).mpr (by decide)

/-- Shown above another page; shown while another param is set; and hidden on the only
page that a swipe has uncovered. -/
theorem shown_browser_swiped_away :
    ¬ Runs.Throughout (browserStep stackRouter) Agrees (Sys.opened 0 none)
        [.push none false, .completeTransition, .show 1] ∧
      ¬ Runs.Throughout (browserStep stackRouter) Agrees (Sys.opened 0 none)
        [.show 0, .setParams 0 {}] ∧
      ¬ Runs.Throughout (browserStep stackRouter) Agrees (Sys.opened 0 none)
        [.push none false, .completeTransition, .back (some 1) true] := by
  refine ⟨fun h => ?_, fun h => ?_, fun h => ?_⟩
  · have hend := (((h.2 _ rfl).2 _ rfl).2 _ rfl).off (by decide)
    exact absurd (hend.2 (by decide)) (by decide)
  · have hend := ((h.2 _ rfl).2 _ rfl).off (by decide)
    exact absurd (hend.1 (by decide)) (by decide)
  · have hend := (((h.2 _ rfl).2 _ rfl).2 _ rfl).on (by decide) (by decide)
    exact absurd (hend.1 (by decide)) (by decide)

end RNFantuan.Nav
