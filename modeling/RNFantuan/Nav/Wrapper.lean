import RNFantuan.Nav.Router
import RNFantuan.Runtime.Runs

/-!
# The overridden `getStateForAction`

`AppNavigators.js`. The wrapper keeps three module globals. On a POP or BACK from
a route with a `backFn` it starts `_backFn`, whose part before `await` runs at
once and whose continuation runs in a later step, when the promise of the
`backFn` has settled. It then decides by `stateIndex != oStateIndex` whether to
keep the state or to hand the action to the default router, and calls
`SwipBackModule`, which is taken to be present.

`Sys` is the navigator with its globals, its pending promises and a record of
the calls made, of the guarded routes left and of the guards that agreed.
-/

namespace RNFantuan.Nav
open JS

/-- The global `goBack`: `false`, `undefined`, or the `navigation.goBack` of the
screen with this key. -/
inductive GoBack
  | no
  | undefined
  | fn (key : Key)
  deriving DecidableEq

def GoBack.truthy : GoBack → Bool
  | .fn _ => true
  | _ => false

structure Globals where
  stateIndex : Value := .undefined
  oStateIndex : Value := .bool false
  goBack : GoBack := .no
  deriving DecidableEq

inductive Call
  | enable
  | disable
  | exit
  deriving DecidableEq

/-- A promise a `backFn` has returned: whose it is, and `state.index` at the call. -/
structure Pending where
  key : Key
  index : ℕ
  deriving DecidableEq

structure Handled where
  globals : Globals
  nav : NavState
  calls : List Call
  asked : Option Pending

/-- `{...state, ...state.routes, index: routes.length - 1}`; nothing reads the
numeric keys this adds. -/
def NavState.intercepted (nav : NavState) : NavState :=
  { nav with
    index := nav.routes.length - 1
    index_lt := Nat.sub_lt nav.length_pos Nat.one_pos }

/-- `_backFn` up to its first `await`. -/
def backFnStart (g : Globals) (state : NavState) : Globals × Option Pending :=
  if g.goBack.truthy then ({ g with goBack := .no, oStateIndex := nat state.index }, none)
  else (g, some ⟨state.top.key, state.index⟩)

def swipBackCalls (a : Action) (state : NavState) : List Call :=
  if state.routes.length = 1 ∧ ¬ a.stopBack then
    match a.type with
    | .pop => [.exit]
    | .replace | .completeTransition | .setParams => [.enable]
    | _ => [.disable]
  else if a.stopBack then [.disable]
  else []

def getStateForAction (router : Router) (g : Globals) (a : Action) : Option NavState → Handled
  | none => ⟨g, router a none, [], none⟩
  | some state =>
    let g := { g with stateIndex := nat state.index }
    let passOn (g : Globals) (asked : Option Pending) : Handled :=
      ⟨g, router a (some state), swipBackCalls a state, asked⟩
    if a.leaves ∧ state.top.guarded then
      let (g, asked) := backFnStart g state
      if ¬ g.stateIndex.looseEq g.oStateIndex then ⟨g, state.intercepted, [], asked⟩
      else passOn { g with oStateIndex := .bool false } asked
    else passOn g none

/-- How a promise settles: with the `goBack` of its screen, or with `undefined`
after an inner error. -/
inductive Settled
  | goBack
  | undefined
  deriving DecidableEq

structure Sys where
  nav : NavState
  globals : Globals := {}
  pending : List Pending := []
  calls : List Call := []
  left : List Key := []
  allowed : List Key := []
  deriving DecidableEq

def guardedKeys (nav : NavState) : List Key := (nav.routes.filter Route.guarded).map Route.key

/-- The guarded routes a POP or BACK leaves: those it removes, and the top one
when `exit` is called. -/
def leftBy (a : Action) (nav : NavState) (h : Handled) : List Key :=
  if a.leaves then
    (guardedKeys nav).filter (fun k => k ∉ h.nav.keys) ++
      if .exit ∈ h.calls ∧ nav.top.guarded then [nav.top.key] else []
  else []

def Sys.dispatch (router : Router) (s : Sys) (a : Action) : Sys :=
  let h := getStateForAction router s.globals a (some s.nav)
  { nav := h.nav, globals := h.globals, pending := s.pending ++ h.asked.toList,
    calls := h.calls ++ s.calls, left := leftBy a s.nav h ++ s.left, allowed := s.allowed }

/-- `goBack = await ...; oStateIndex = state.index` for a promise that resolved
with `goBack`; the record notes that the guard agreed. -/
def Sys.grant (s : Sys) (p : Pending) : Sys :=
  { s with
    globals := { s.globals with goBack := .fn p.key, oStateIndex := nat p.index }
    allowed := p.key :: s.allowed }

def Sys.resume (router : Router) (s : Sys) (p : Pending) : Settled → Sys
  | .goBack => (s.grant p).dispatch router { type := .back, key := some p.key }
  | .undefined =>
      { s with globals := { s.globals with goBack := .undefined, oStateIndex := nat p.index } }

inductive Event
  | dispatch (a : Action)
  | settle (i : ℕ) (r : Settled)
  deriving DecidableEq

def Sys.step (router : Router) (s : Sys) : Event → Option Sys
  | .dispatch a => some (s.dispatch router a)
  | .settle i r => (s.pending[i]?).map fun p =>
      Sys.resume router { s with pending := s.pending.eraseIdx i } p r

def Sys.start (nav : NavState) : Sys := { nav := nav }

/-! ### What one action does -/

variable (router : Router)

/-- The wrapper keeps the action from the router: the top route is guarded, no
`goBack` is left over, and the index differs loosely from `oStateIndex`. -/
def Asks (g : Globals) (state : NavState) : Prop :=
  state.top.guarded = true ∧ g.goBack.truthy = false ∧
    (nat state.index).looseEq g.oStateIndex = false

instance (g : Globals) (state : NavState) : Decidable (Asks g state) :=
  inferInstanceAs (Decidable (_ ∧ _ ∧ _))

theorem getStateForAction_asks {g : Globals} {a : Action} {state : NavState}
    (ha : a.leaves = true) (h : Asks g state) :
    getStateForAction router g a (some state) =
      ⟨{ g with stateIndex := nat state.index }, state.intercepted, [],
        some ⟨state.top.key, state.index⟩⟩ := by
  obtain ⟨hguard, hgo, hne⟩ := h
  simp [getStateForAction, ha, hguard, backFnStart, hgo, hne]

theorem getStateForAction_passes {g : Globals} {a : Action} {state : NavState}
    (h : ¬ (a.leaves = true ∧ Asks g state)) :
    (getStateForAction router g a (some state)).nav = router a (some state) ∧
      (getStateForAction router g a (some state)).calls = swipBackCalls a state := by
  by_cases hl : a.leaves = true ∧ state.top.guarded = true
  · cases hgo : g.goBack.truthy with
    | true =>
      have heq : (nat state.index).looseEq (nat state.index) = true := by simp
      simp [getStateForAction, hl, backFnStart, hgo, heq]
    | false =>
      have heq : (nat state.index).looseEq g.oStateIndex = true := by
        by_contra hne
        exact h ⟨hl.1, hl.2, hgo, by simpa using hne⟩
      simp [getStateForAction, hl, backFnStart, hgo, heq]
  · simp [getStateForAction, hl]

@[simp]
theorem intercepted_routes (nav : NavState) : nav.intercepted.routes = nav.routes := rfl

@[simp]
theorem intercepted_keys (nav : NavState) : nav.intercepted.keys = nav.keys := rfl

theorem dispatch_cases (s : Sys) (a : Action) :
    ((s.dispatch router a).nav.routes = s.nav.routes ∧
        (s.dispatch router a).calls = s.calls ∧ a.leaves = true ∧ Asks s.globals s.nav) ∨
      ((s.dispatch router a).nav = router a (some s.nav) ∧
        (s.dispatch router a).calls = swipBackCalls a s.nav ++ s.calls) := by
  by_cases h : a.leaves = true ∧ Asks s.globals s.nav
  · left
    simp [Sys.dispatch, getStateForAction_asks router h.1 h.2, h]
  · right
    have hp := getStateForAction_passes router h
    exact ⟨hp.1, by simp [Sys.dispatch, hp.2]⟩

end RNFantuan.Nav
