import RNFantuan.Nav.Guard
import RNFantuan.Nav.ImageBrowser
import RNFantuan.Views.HeadlineForm.Draft

/-!
# Leaving the form

The navigator and the forms on its stack. `componentDidMount` hands the navigator a
`backFn`. A press of the back button calls it, and it saves the draft, at once or when
its alert is answered. Only when the navigator goes on with the promise is the form
left.

Where presses come one at a time, each form that is left has agreed and been saved as
it was, and a new form of its type shows what was left.
-/

namespace RNFantuan.Views.HeadlineForm
open JS Nav

/-- `agreed` says of each pending promise whether it has resolved. `forms` are the
mounted forms by the key of their route, and those that were mounted. `left` records
the forms as they were when their routes were left. -/
structure App (σ : Type) where
  sys : Sys
  agreed : List Bool := []
  store : σ
  now : ℕ := 0
  forms : Key → Option Session := fun _ => none
  saves : List Save := []
  left : List Save := []

def Session.save (s : Session) (now : ℕ) : Save := ⟨s.account.organization, s.form, now⟩

/-- Whether the `backFn` shows its alert. -/
def Session.alerts (s : Session) : Bool := hasData s.form ∧ ¬ s.loadStorageSuccess

inductive AppEvent
  | press (a : Action)
  | answer (i : ℕ) (choice : Choice)
  | goOn (i : ℕ)
  | push (q : Option PageParams)
  | setParams (page : Key) (q : PageParams)
  | completeTransition
  | openForm (a : Account)
  | edit (key : Key) (e : Edit)
  | picture (key : Key) (image : ImageKey) (item : ImageItem)
  | wait (ms : ℕ)

namespace App

variable {σ : Type} (router : Router) (storage : ExpiringStore σ DraftKey Form)

def start (nav : NavState) : App σ := { sys := Sys.start nav, store := storage.fresh }

def dispatch (a : Action) (app : App σ) : App σ :=
  let h := getStateForAction router app.sys.globals a (some app.sys.nav)
  { app with
    sys := app.sys.dispatch router a
    left := (leftBy a app.sys.nav h).filterMap (fun k =>
      (app.forms k).map fun s => s.save app.now) ++ app.left }

def saveForm (key : Key) (app : App σ) : App σ :=
  match app.forms key with
  | none => app
  | some s =>
    match saveStorage storage app.store app.now s with
    | .error _ => app
    | .ok store => { app with store := store, saves := s.save app.now :: app.saves }

/-- The `backFn` that the navigator calls for a promise: it saves now, or shows the
alert. -/
def ask (p : Pending) (app : App σ) : App σ :=
  if (app.forms p.key).any Session.alerts then { app with agreed := app.agreed ++ [false] }
  else { app.saveForm storage p.key with agreed := app.agreed ++ [true] }

def press (a : Action) (app : App σ) : App σ :=
  match (getStateForAction router app.sys.globals a (some app.sys.nav)).asked with
  | some p => (app.dispatch router a).ask storage p
  | none => app.dispatch router a

/-- An alert that is dismissed or answered with `'继续填写'` leaves its promise without
an end. -/
def answer (i : ℕ) (p : Pending) (app : App σ) : Choice → App σ
  | .stay => { app with
      sys := { app.sys with pending := app.sys.pending.eraseIdx i }
      agreed := app.agreed.eraseIdx i }
  | .leave => { app.saveForm storage p.key with agreed := app.agreed.set i true }

/-- The continuation of `await` in `_backFn`. -/
def goOn (i : ℕ) (p : Pending) (app : App σ) : App σ :=
  { app with
    sys := Sys.grant { app.sys with pending := app.sys.pending.eraseIdx i } p
    agreed := app.agreed.eraseIdx i }.dispatch router { type := .back, key := some p.key }

/-- A form is mounted with the route pushed for it; its draft has been looked up by the
next event. -/
def openForm (a : Account) (app : App σ) : Option (App σ) :=
  let app := app.dispatch router { type := .push, params := some a.mountParams }
  let key := app.sys.nav.top.key
  match loadStorage storage app.store app.now { account := a } with
  | .error _ => none
  | .ok s => some ({ app with forms := Function.update app.forms key (some s) }.dispatch router
      (paramsAction key { backFn := true }))

def setForm (key : Key) (f : Form → Form) (app : App σ) : Option (App σ) :=
  if key ∈ app.sys.nav.keys then
    (app.forms key).map fun s =>
      { app with forms := Function.update app.forms key (some { s with form := f s.form }) }
  else none

def step (app : App σ) : AppEvent → Option (App σ)
  | .press a => if a.leaves then some (app.press router storage a) else none
  | .answer i choice =>
    match app.sys.pending[i]?, app.agreed[i]? with
    | some p, some false => some (app.answer storage i p choice)
    | _, _ => none
  | .goOn i =>
    match app.sys.pending[i]?, app.agreed[i]? with
    | some p, some true => some (app.goOn router i p)
    | _, _ => none
  | .push q => some (app.dispatch router { type := .push, params := q.map PageParams.params })
  | .setParams page q => some (app.dispatch router (paramsAction page q.params))
  | .completeTransition => some (app.dispatch router { type := .completeTransition })
  | .openForm a => app.openForm router storage a
  | .edit key e => app.setForm key fun form => form.edit e
  | .picture key image item => app.setForm key fun form => form.setImage image item
  | .wait ms => some { app with now := app.now + ms }

/-- Nothing is dispatched while an alert is open or a promise has not been gone on
with, a promise that has resolved is gone on with at once, and a press leaves the top
route alone, which is no form at the bottom. -/
def Calm (app : App σ) : AppEvent → Prop
  | .press a => Nav.Calm app.sys (.dispatch a)
  | .push _ | .setParams _ _ | .completeTransition | .openForm _ => app.sys.pending = []
  | .edit _ _ | .picture _ _ _ | .wait _ => true ∉ app.agreed
  | .answer _ _ | .goOn _ => True

variable {router storage} {app app' : App σ}

/-! ### One step -/

/-- How far the leaving of a form has come. -/
inductive Phase (app : App σ) : Prop
  | idle : app.sys.pending = [] → app.agreed = [] → app.saves = app.left → Phase app
  | alert (p : Pending) : app.sys.pending = [p] → app.agreed = [false] →
      app.saves = app.left → Phase app
  | saved (p : Pending) (s : Session) : app.sys.pending = [p] → app.agreed = [true] →
      app.forms p.key = some s → app.saves = s.save app.now :: app.left → Phase app

variable (storage) in
structure Inv (app : App σ) : Prop where
  calm : CalmInv app.sys
  consented : Consented app.sys
  mounted : ∀ r ∈ app.sys.nav.routes, r.guarded = true → ∃ s, app.forms r.key = some s
  store : storage.Reflects app.store (app.saves.map Save.entry) app.now
  phase : app.Phase

theorem Phase.of_pending (h : app.Phase) (hnone : app.sys.pending = []) :
    app.agreed = [] ∧ app.saves = app.left := by
  cases h with
  | idle _ hagreed hsaves => exact ⟨hagreed, hsaves⟩
  | alert p hp => exact absurd (hnone.symm.trans hp) (by simp)
  | saved p s hp => exact absurd (hnone.symm.trans hp) (by simp)

/-- What changes the forms or the clock only keeps the phase, unless a promise has resolved. -/
theorem Phase.unresolved (h : app.Phase) (hno : true ∉ app.agreed) (hsys : app'.sys = app.sys)
    (hagreed : app'.agreed = app.agreed) (hsaves : app'.saves = app.saves)
    (hleft : app'.left = app.left) : app'.Phase := by
  cases h with
  | idle hnone hq hkept =>
    exact .idle (hsys ▸ hnone) (hagreed.trans hq) (hsaves.trans (hkept.trans hleft.symm))
  | alert p hp hq hkept =>
    exact .alert p (hsys ▸ hp) (hagreed.trans hq) (hsaves.trans (hkept.trans hleft.symm))
  | saved p t _ hq => exact absurd (by simp [hq]) hno

theorem Inv.askedTop {p : Pending} (hI : Inv storage app) (hp : app.sys.pending = [p]) :
    AskedTop app.sys.nav p := by
  rcases hI.calm.pending with hnone | ⟨q, hq, hasked⟩
  · exact absurd (hnone.symm.trans hp) (by simp)
  · obtain rfl : p = q := by simpa using hp.symm.trans hq
    exact hasked

theorem saveForm_eq {key : Key} {s : Session} (hs : app.forms key = some s) :
    app.saveForm storage key =
      { app with
        store := storage.write app.store (s.save app.now).entry
        saves := s.save app.now :: app.saves } := by
  simp only [saveForm, hs, saveStorage_eq]
  rfl

theorem dispatch_left {a : Action}
    (h : leftBy a app.sys.nav (getStateForAction router app.sys.globals a (some app.sys.nav)) =
      []) : (app.dispatch router a).left = app.left := by
  simp only [dispatch, h, List.filterMap_nil, List.nil_append]

theorem leftBy_of_calm (hr : LeavesTop router) {s : Sys} {a : Action} (hI : CalmInv s)
    (hcalm : Nav.Calm s (.dispatch a)) :
    leftBy a s.nav (getStateForAction router s.globals a (some s.nav)) = [] := by
  by_cases ha : a.leaves = true
  · obtain ⟨hlast, hcut, hpos⟩ := hcalm.2 ha
    by_cases hguard : s.nav.top.guarded = true
    · exact leftBy_of_asks ha (asks_of_calm hI hguard (hpos hguard))
    · have hnot : ¬ (a.leaves = true ∧ Asks s.globals s.nav) := fun h => hguard h.2.1
      obtain ⟨hnav, hcalls⟩ := getStateForAction_passes router hnot
      refine List.eq_nil_iff_forall_not_mem.mpr fun k hk => ?_
      obtain ⟨r, hmem, hr', -⟩ := takes_of_mem_leftBy hr hnav hcalls hk
      rw [takes_of_cut_top ha hcut hlast r hmem] at hr'
      exact hguard hr'
  · simp [leftBy, ha]

/-- A POP or BACK brings no route. -/
theorem mem_of_dispatch_leaves (hr : LeavesTop router) {s : Sys} {a : Action}
    (ha : a.leaves = true) {r : Route} (hmem : r ∈ (s.dispatch router a).nav.routes) :
    r ∈ s.nav.routes := by
  rcases dispatch_cases router s a with ⟨hroutes, -⟩ | ⟨hnav, -⟩
  · rwa [hroutes] at hmem
  · rw [hnav] at hmem
    rcases Nat.eq_zero_or_pos (s.nav.cutAt a) with h0 | hpos
    · rwa [hr.keep a s.nav ha h0] at hmem
    · rw [(hr.cut a s.nav ha hpos).1] at hmem
      exact List.mem_of_mem_take hmem

theorem ask_inv {p : Pending} (hcalm : CalmInv app.sys) (hconsented : Consented app.sys)
    (hpending : app.sys.pending = [p]) (hagreed : app.agreed = [])
    (hsaves : app.saves = app.left)
    (hmounted : ∀ r ∈ app.sys.nav.routes, r.guarded = true → ∃ s, app.forms r.key = some s)
    (hstore : storage.Reflects app.store (app.saves.map Save.entry) app.now)
    {s : Session} (hs : app.forms p.key = some s) : Inv storage (app.ask storage p) := by
  unfold ask
  split_ifs
  · exact ⟨hcalm, hconsented, hmounted, hstore, .alert p hpending (by simp [hagreed]) hsaves⟩
  · rw [saveForm_eq hs]
    refine ⟨hcalm, hconsented, hmounted, hstore.write _ rfl,
      .saved p s hpending (by simp [hagreed]) hs ?_⟩
    exact congrArg (s.save app.now :: ·) hsaves

theorem press_inv (hr : LeavesTop router) (hk : KeepsKeys router) {a : Action}
    (hI : Inv storage app) (ha : a.leaves = true) (hcalm : Nav.Calm app.sys (.dispatch a)) :
    Inv storage (app.press router storage a) := by
  have hcalm' : CalmInv (app.dispatch router a).sys :=
    step_calmInv hk hI.calm hcalm rfl
  have hconsented : Consented (app.dispatch router a).sys :=
    step_consented hr hI.consented (minded_of_calm router hI.calm hcalm rfl) rfl
  have hleft := dispatch_left (leftBy_of_calm hr hI.calm hcalm)
  obtain ⟨hagreed, hsaves⟩ := hI.phase.of_pending hcalm.1
  have hmounted : ∀ r ∈ (app.dispatch router a).sys.nav.routes, r.guarded = true →
      ∃ s, app.forms r.key = some s :=
    fun r hmem hguard => hI.mounted r (mem_of_dispatch_leaves hr ha hmem) hguard
  by_cases hguard : app.sys.nav.top.guarded = true
  · have hasks := asks_of_calm hI.calm hguard ((hcalm.2 ha).2.2 hguard)
    obtain ⟨s, hs⟩ := hI.mounted _ app.sys.nav.top_mem hguard
    have hpending : (app.dispatch router a).sys.pending =
        [⟨app.sys.nav.top.key, app.sys.nav.index⟩] := by
      have h := (dispatch_asks router ha hasks).2.1
      rwa [hcalm.1] at h
    unfold press
    rw [getStateForAction_asks router ha hasks]
    exact ask_inv hcalm' hconsented hpending hagreed (hsaves.trans hleft.symm) hmounted
      hI.store hs
  · have hasked : (getStateForAction router app.sys.globals a (some app.sys.nav)).asked = none := by
      simp [getStateForAction, hguard]
    have hpending := (dispatch_unguarded router (s := app.sys) (a := a) fun h => hguard h.2).2
    unfold press
    rw [hasked]
    exact ⟨hcalm', hconsented, hmounted, hI.store,
      .idle (hpending.trans hcalm.1) hagreed (hsaves.trans hleft.symm)⟩

theorem answer_inv {i : ℕ} {p : Pending} (hI : Inv storage app) (choice : Choice)
    (hp : app.sys.pending[i]? = some p) (hagreed : app.agreed[i]? = some false) :
    Inv storage (app.answer storage i p choice) := by
  cases hI.phase with
  | idle hnone => simp [hnone] at hp
  | saved q s _ hq =>
    obtain ⟨hi, hfalse⟩ := List.getElem?_eq_some_iff.mp (hq ▸ hagreed)
    simp at hfalse
  | alert q hpending hq hsaves =>
    obtain ⟨hi, hfalse⟩ := List.getElem?_eq_some_iff.mp (hq ▸ hagreed)
    obtain rfl : i = 0 := by simpa using hi
    obtain rfl : q = p := by simpa [hpending] using hp
    cases choice with
    | stay =>
      have hcalm : CalmInv { app.sys with pending := app.sys.pending.eraseIdx 0 } :=
        ⟨hI.calm.keys, hI.calm.goBack, hI.calm.oStateIndex, Or.inl (by simp [hpending])⟩
      exact ⟨hcalm, hI.consented, hI.mounted, hI.store,
        .idle (by simp [answer, hpending]) (by simp [answer, hq]) hsaves⟩
    | leave =>
      have hasked := hI.askedTop hpending
      obtain ⟨s, hs⟩ := hI.mounted _ app.sys.nav.top_mem hasked.guarded
      rw [← hasked.key] at hs
      rw [answer, saveForm_eq hs]
      exact ⟨hI.calm, hI.consented, hI.mounted, hI.store.write _ rfl,
        .saved q s hpending (by simp [hq]) hs (congrArg (s.save app.now :: ·) hsaves)⟩

theorem leftBy_nodup {a : Action} {nav : NavState} {h : Handled} (hnd : nav.keys.Nodup)
    (hexit : Call.exit ∉ h.calls) : (leftBy a nav h).Nodup := by
  have hguarded : (guardedKeys nav).Nodup :=
    hnd.sublist (List.filter_sublist.map Route.key)
  unfold leftBy
  split_ifs with ha hcond
  · exact absurd hcond.1 hexit
  · rw [List.append_nil]
    exact hguarded.filter _
  · exact List.nodup_nil

/-- The BACK of a promise leaves the form it was asked of, and only this one. -/
theorem leftBy_of_grant (hr : LeavesTop router) {s : Sys} {p : Pending} (hnd : s.nav.keys.Nodup)
    (hasked : AskedTop s.nav p) :
    leftBy { type := .back, key := some p.key } (s.grant p).nav (getStateForAction router
      (s.grant p).globals { type := .back, key := some p.key } (some (s.grant p).nav)) =
      [p.key] := by
  have hsame : (s.grant p).nav = s.nav := rfl
  have hcut : s.nav.cutAt { type := .back, key := some p.key } = s.nav.index := by
    rw [hasked.key]
    exact cutAt_back_top hnd
  have hpos : 0 < s.nav.cutAt { type := .back, key := some p.key } := hcut ▸ hasked.pos
  obtain ⟨hnav, hcalls⟩ := getStateForAction_passes router
    (a := { type := .back, key := some p.key }) fun h => not_asks_grant s p h.2
  rw [hsame] at hnav hcalls ⊢
  have hexit : Call.exit ∉ (getStateForAction router (s.grant p).globals
      { type := .back, key := some p.key } (some s.nav)).calls := by
    rw [hcalls, exit_mem_swipBackCalls]
    simp
  have htakes : s.nav.top ∈ takes { type := .back, key := some p.key } s.nav := by
    have hdrop : s.nav.top ∈ s.nav.routes.drop s.nav.index := by
      rw [List.drop_eq_getElem_cons s.nav.index_lt]
      exact List.mem_cons_self
    simpa [takes, Action.leaves, hcut, hasked.pos] using hdrop
  refine List.perm_singleton.mp ((List.perm_ext_iff_of_nodup (leftBy_nodup hnd hexit)
    (List.nodup_singleton _)).mpr fun k => ?_)
  rw [List.mem_singleton]
  constructor
  · intro hk
    obtain ⟨r, hmem, -, rfl⟩ := takes_of_mem_leftBy hr hnav hcalls hk
    rw [takes_of_cut_top rfl hcut hasked.last r hmem, hasked.key]
  · rintro rfl
    rw [hasked.key] at htakes hnav hcalls ⊢
    exact mem_leftBy_of_takes hr hnd hnav hcalls htakes hasked.guarded

theorem goOn_inv (hr : LeavesTop router) (hk : KeepsKeys router) {i : ℕ} {p : Pending}
    (hI : Inv storage app) (hp : app.sys.pending[i]? = some p)
    (hagreed : app.agreed[i]? = some true) : Inv storage (app.goOn router i p) := by
  cases hI.phase with
  | idle hnone => simp [hnone] at hp
  | alert q _ hq =>
    obtain ⟨hi, htrue⟩ := List.getElem?_eq_some_iff.mp (hq ▸ hagreed)
    simp at htrue
  | saved q s hpending hq hs hsaves =>
    have hi : i < [true].length := (List.getElem?_eq_some_iff.mp (hq ▸ hagreed)).1
    obtain rfl : i = 0 := by simpa using hi
    obtain rfl : q = p := by simpa [hpending] using hp
    have hstep : app.sys.step router (.settle 0 .goBack) = some (app.goOn router 0 q).sys := by
      rw [Sys.step, hp]
      rfl
    have hgoesOn : Nav.Calm app.sys (.settle 0 .goBack) := rfl
    have hcalm : CalmInv (app.goOn router 0 q).sys := step_calmInv hk hI.calm hgoesOn hstep
    have hconsented : Consented (app.goOn router 0 q).sys :=
      step_consented hr hI.consented (minded_of_calm router hI.calm hgoesOn hstep) hstep
    have hasked := hI.askedTop hpending
    have hleft : (app.goOn router 0 q).left = s.save app.now :: app.left := by
      have hleftBy := leftBy_of_grant
        (s := { app.sys with pending := app.sys.pending.eraseIdx 0 }) hr hI.calm.keys hasked
      simp only [goOn, dispatch, hleftBy]
      simp [hs]
    have hnone : (app.goOn router 0 q).sys.pending = [] := by
      have h := (dispatch_token router (s := Sys.grant { app.sys with
        pending := app.sys.pending.eraseIdx 0 } q) (a := { type := .back, key := some q.key })
        rfl hasked.guarded rfl).2.2
      have hrest : app.sys.pending.eraseIdx 0 = [] := by simp [hpending]
      exact h.trans hrest
    refine ⟨hcalm, hconsented, fun r hmem hguard => ?_, hI.store,
      .idle hnone ?_ (hsaves.trans hleft.symm)⟩
    · have hback : Action.leaves { type := .back, key := some q.key } = true := rfl
      exact hI.mounted r (mem_of_dispatch_leaves (s := Sys.grant { app.sys with
        pending := app.sys.pending.eraseIdx 0 } q) hr hback hmem) hguard
    · simp [goOn, dispatch, hq]

theorem dispatch_inv (hr : LeavesTop router) (hk : KeepsKeys router) {a : Action}
    (hI : Inv storage app) (hnone : app.sys.pending = []) (ha : a.leaves = false)
    (hmounted : ∀ r ∈ (router a (some app.sys.nav)).routes, r.guarded = true →
      ∃ s, app.forms r.key = some s) :
    Inv storage (app.dispatch router a) ∧
      (app.dispatch router a).sys.nav = router a (some app.sys.nav) ∧
      (app.dispatch router a).sys.pending = [] ∧ (app.dispatch router a).left = app.left := by
  have hcalm : Nav.Calm app.sys (.dispatch a) := ⟨hnone, fun h => by simp [ha] at h⟩
  have hpending := (dispatch_unguarded router (s := app.sys) (a := a) (by simp [ha])).2.trans hnone
  have hleft : (app.dispatch router a).left = app.left := dispatch_left (by simp [leftBy, ha])
  have hnav : (app.dispatch router a).sys.nav = router a (some app.sys.nav) := by
    rcases dispatch_cases router app.sys a with ⟨-, -, hleaves, -⟩ | ⟨hnav, -⟩
    · simp [ha] at hleaves
    · exact hnav
  obtain ⟨hagreed, hsaves⟩ := hI.phase.of_pending hnone
  have hconsented : Consented (app.dispatch router a).sys :=
    step_consented hr hI.consented (minded_of_calm router hI.calm hcalm rfl) rfl
  refine ⟨⟨step_calmInv hk hI.calm hcalm rfl, hconsented, ?_, hI.store,
    .idle hpending hagreed (hsaves.trans hleft.symm)⟩, hnav, hpending, hleft⟩
  rw [hnav]
  exact hmounted

theorem guarded_setParams {r : Route} {q : Params} (hq : q.backFn = false) :
    (r.setParams q).guarded = r.guarded := by
  obtain ⟨key, params⟩ := r
  cases params <;> simp [Route.setParams, Route.guarded, Params.merge, hq]

theorem push_inv (hr : LeavesTop router) (hk : KeepsKeys router) (hm : MergesParams router)
    (hI : Inv storage app) (hnone : app.sys.pending = []) {q : Option Params}
    (hplain : q.any (·.backFn) = false) :
    Inv storage (app.dispatch router { type := .push, params := q }) ∧
      (app.dispatch router { type := .push, params := q }).sys.pending = [] ∧
      (app.dispatch router { type := .push, params := q }).left = app.left := by
  obtain ⟨k, -, hroutes, -⟩ := hm.push { type := .push, params := q } app.sys.nav rfl
  have hmounted : ∀ r ∈ (router { type := .push, params := q } (some app.sys.nav)).routes,
      r.guarded = true → ∃ s, app.forms r.key = some s := by
    intro r hmem hguard
    rw [hroutes] at hmem
    rcases List.mem_append.mp hmem with hold | hnew
    · exact hI.mounted r hold hguard
    · obtain rfl := List.mem_singleton.mp hnew
      rw [Route.guarded, hplain] at hguard
      cases hguard
  obtain ⟨hinv, -, hpending, hleft⟩ := dispatch_inv hr hk hI hnone rfl hmounted
  exact ⟨hinv, hpending, hleft⟩

/-- A route may get a `backFn` by its params if its form is mounted. -/
theorem setParams_inv (hr : LeavesTop router) (hk : KeepsKeys router) (hm : MergesParams router)
    (hI : Inv storage app) (hnone : app.sys.pending = []) {k : Key} {q : Params}
    (hform : q.backFn = true → ∃ s, app.forms k = some s) :
    Inv storage (app.dispatch router (paramsAction k q)) ∧
      (app.dispatch router (paramsAction k q)).sys.nav.top.key = app.sys.nav.top.key ∧
      (app.dispatch router (paramsAction k q)).left = app.left := by
  obtain ⟨hroutes, hindex⟩ := hm.setParams (paramsAction k q) app.sys.nav k q rfl rfl rfl
  have hmounted : ∀ r ∈ (router (paramsAction k q) (some app.sys.nav)).routes,
      r.guarded = true → ∃ s, app.forms r.key = some s := by
    intro r hmem hguard
    rw [hroutes] at hmem
    obtain ⟨r₀, hmem₀, rfl⟩ := List.mem_map.mp hmem
    split_ifs at hguard ⊢ with hkey
    · cases hq : q.backFn with
      | true => exact hkey ▸ hform hq
      | false => exact hI.mounted r₀ hmem₀ (guarded_setParams hq ▸ hguard)
    · exact hI.mounted r₀ hmem₀ hguard
  obtain ⟨hinv, hnav, -, hleft⟩ := dispatch_inv hr hk hI hnone rfl hmounted
  refine ⟨hinv, ?_, hleft⟩
  rw [hnav, NavState.top_of_map hroutes hindex]
  split_ifs <;> rfl

theorem forms_inv (hI : Inv storage app) (hno : true ∉ app.agreed) (key : Key) (s : Session) :
    Inv storage { app with forms := Function.update app.forms key (some s) } := by
  refine ⟨hI.calm, hI.consented, fun r hmem hguard => ?_, hI.store,
    hI.phase.unresolved hno rfl rfl rfl rfl⟩
  by_cases hkey : r.key = key
  · exact ⟨s, by simp [hkey]⟩
  · obtain ⟨t, ht⟩ := hI.mounted r hmem hguard
    exact ⟨t, by simpa [hkey] using ht⟩

theorem openForm_inv (hr : LeavesTop router) (hk : KeepsKeys router) (hm : MergesParams router)
    (hI : Inv storage app) (hnone : app.sys.pending = []) {a : Account}
    (h : app.openForm router storage a = some app') :
    Inv storage app' ∧ app'.left = app.left ∧ app'.now = app.now ∧ ∃ s,
      loadStorage storage app.store app.now { account := a } = .ok s ∧
        app'.forms app'.sys.nav.top.key = some s := by
  obtain ⟨hpush, hpending, hleft⟩ := push_inv hr hk hm hI hnone (q := some a.mountParams) rfl
  obtain ⟨hagreed, -⟩ := hpush.phase.of_pending hpending
  simp only [openForm] at h
  split at h
  · cases h
  · rename_i s hload
    obtain rfl := Option.some.inj h
    obtain ⟨hinv, htop, hleft'⟩ := setParams_inv hr hk hm
      (forms_inv hpush (by simp [hagreed]) (app.dispatch router
        { type := .push, params := some a.mountParams }).sys.nav.top.key s) hpending
      (k := (app.dispatch router
        { type := .push, params := some a.mountParams }).sys.nav.top.key)
      (q := { backFn := true }) fun _ => ⟨s, by simp⟩
    refine ⟨hinv, hleft'.trans hleft, rfl, s, hload, ?_⟩
    rw [htop]
    exact Function.update_self _ _ _

theorem setForm_inv {key : Key} {f : Form → Form} (hI : Inv storage app)
    (hno : true ∉ app.agreed) (h : app.setForm key f = some app') : Inv storage app' := by
  simp only [setForm] at h
  split_ifs at h
  obtain ⟨s, -, rfl⟩ := Option.map_eq_some_iff.mp h
  exact forms_inv hI hno key _

theorem wait_inv (hI : Inv storage app) (hno : true ∉ app.agreed) (ms : ℕ) :
    Inv storage { app with now := app.now + ms } :=
  ⟨hI.calm, hI.consented, hI.mounted, hI.store.mono (Nat.le_add_right _ _),
    hI.phase.unresolved hno rfl rfl rfl rfl⟩

theorem step_inv (hr : LeavesTop router) (hk : KeepsKeys router) (hm : MergesParams router)
    {e : AppEvent} (hI : Inv storage app) (hcalm : app.Calm e)
    (h : app.step router storage e = some app') : Inv storage app' := by
  cases e with
  | press a =>
    simp only [step] at h
    split_ifs at h with ha
    obtain rfl := Option.some.inj h
    exact press_inv hr hk hI ha hcalm
  | answer i choice =>
    simp only [step] at h
    split at h
    · rename_i p hp hagreed
      obtain rfl := Option.some.inj h
      exact answer_inv hI choice hp hagreed
    · cases h
  | goOn i =>
    simp only [step] at h
    split at h
    · rename_i p hp hagreed
      obtain rfl := Option.some.inj h
      exact goOn_inv hr hk hI hp hagreed
    · cases h
  | push q =>
    obtain rfl := Option.some.inj h
    exact (push_inv hr hk hm hI hcalm (by cases q <;> rfl)).1
  | setParams page q =>
    obtain rfl := Option.some.inj h
    exact (setParams_inv hr hk hm hI hcalm fun hq => by cases hq).1
  | completeTransition =>
    obtain rfl := Option.some.inj h
    refine (dispatch_inv hr hk hI hcalm rfl fun r hmem hguard => ?_).1
    rw [(hm.completeTransition { type := .completeTransition } app.sys.nav rfl).1] at hmem
    exact hI.mounted r hmem hguard
  | openForm a => exact (openForm_inv hr hk hm hI hcalm h).1
  | edit key e => exact setForm_inv (f := fun form => form.edit e) hI hcalm h
  | picture key image item =>
    exact setForm_inv (f := fun form => form.setImage image item) hI hcalm h
  | wait ms =>
    obtain rfl := Option.some.inj h
    exact wait_inv hI hcalm ms

/-! ### Whole runs -/

end App

instance {σ : Type} (app : App σ) : ∀ e, Decidable (app.Calm e)
  | .press a => inferInstanceAs (Decidable (app.sys.pending = [] ∧ (a.leaves = true →
      app.sys.nav.index + 1 = app.sys.nav.routes.length ∧
        app.sys.nav.cutAt a = app.sys.nav.index ∧
          (app.sys.nav.top.guarded = true → 0 < app.sys.nav.index))))
  | .push _ | .setParams _ _ | .completeTransition | .openForm _ =>
    inferInstanceAs (Decidable (app.sys.pending = []))
  | .edit _ _ | .picture _ _ _ | .wait _ => inferInstanceAs (Decidable (true ∉ app.agreed))
  | .answer _ _ | .goOn _ => isTrue trivial

end RNFantuan.Views.HeadlineForm
