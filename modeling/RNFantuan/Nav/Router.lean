import RNFantuan.Runtime.Value

/-!
# Navigation states and the default stack router

Routes, actions and states as `AppNavigators.js` reads them. The router that the
application overrides is a parameter. What is relied on about it is stated as
`LeavesTop`, `KeepsCount`, `MergesParams` and `Transitions`; `stackRouter` is a
router with all of it.
-/

namespace RNFantuan.Nav
open JS

abbrev Key := ℕ

/-- The params of a route or an action that some modelled function reads. A field
is `none` when the key is absent; `backFn` says that a function is there. -/
structure Params where
  type : Option Value := none
  backFn : Bool := false
  stopBack : Option Value := none
  gesturesEnabled : Option Value := none
  deriving DecidableEq

def Params.merge (p q : Params) : Params where
  type := q.type <|> p.type
  backFn := p.backFn || q.backFn
  stopBack := q.stopBack <|> p.stopBack
  gesturesEnabled := q.gesturesEnabled <|> p.gesturesEnabled

structure Route where
  key : Key
  params : Option Params
  deriving DecidableEq

namespace Route

def guarded (r : Route) : Bool := r.params.any (·.backFn)

def stopsBack (r : Route) : Bool :=
  r.params.any fun p => (p.stopBack.getD .undefined).truthy

def setParams (r : Route) (q : Params) : Route :=
  { r with params := some ((r.params.getD {}).merge q) }

end Route

structure NavState where
  routes : List Route
  index : ℕ
  isTransitioning : Bool
  index_lt : index < routes.length
  deriving DecidableEq

inductive ActionType
  | navigate
  | push
  | pop
  | back
  | replace
  | reset
  | setParams
  | completeTransition
  deriving DecidableEq

/-- `immediate` asks for no transition; the BACK of the swipe gesture has it. -/
structure Action where
  type : ActionType
  key : Option Key := none
  params : Option Params := none
  immediate : Bool := false
  deriving DecidableEq

namespace Action

def leaves (a : Action) : Bool := a.type = .pop ∨ a.type = .back

def stopBack (a : Action) : Bool :=
  a.params.any fun p => (p.stopBack.getD .undefined).truthy

end Action

namespace NavState

def top (nav : NavState) : Route := nav.routes.get ⟨nav.index, nav.index_lt⟩

def keys (nav : NavState) : List Key := nav.routes.map Route.key

theorem length_pos (nav : NavState) : 0 < nav.routes.length :=
  Nat.zero_lt_of_lt nav.index_lt

theorem top_mem (nav : NavState) : nav.top ∈ nav.routes := List.get_mem _ _

/-- The position of the lowest route a POP or BACK removes; zero when nothing is
removed. A key that is not on the stack is at no position. -/
def cutAt (nav : NavState) (a : Action) : ℕ :=
  match a.type, a.key with
  | .back, some k => (nav.routes.findIdx? fun r => r.key = k).getD 0
  | _, _ => nav.index

theorem cutAt_lt (nav : NavState) (a : Action) : nav.cutAt a < nav.routes.length := by
  have hdefault := nav.index_lt
  unfold cutAt
  split
  · rename_i k _ _
    cases hf : nav.routes.findIdx? fun r => decide (r.key = k) with
    | none => exact nav.length_pos
    | some j => exact (List.findIdx?_eq_some_iff_getElem.mp hf).1
  · exact hdefault

theorem cutAt_pop (nav : NavState) {a : Action} (h : a.type = .pop) : nav.cutAt a = nav.index := by
  simp [cutAt, h]

end NavState

/-- `undefined` as the state asks for the initial one. -/
abbrev Router := Action → Option NavState → NavState

/-- POP removes the top route, BACK the route with its key (the top one without a
key) and those above it, and neither does anything at the bottom. -/
structure LeavesTop (router : Router) : Prop where
  cut : ∀ a nav, a.leaves = true → 0 < nav.cutAt a →
    (router a (some nav)).routes = nav.routes.take (nav.cutAt a) ∧
      (router a (some nav)).index = nav.cutAt a - 1
  keep : ∀ a nav, a.leaves = true → nav.cutAt a = 0 → router a (some nav) = nav

/-- REPLACE, SET_PARAMS and COMPLETE_TRANSITION keep the number of routes, POP and
BACK never increase it. -/
structure KeepsCount (router : Router) : Prop where
  same : ∀ a nav, a.type = .replace ∨ a.type = .setParams ∨ a.type = .completeTransition →
    (router a (some nav)).routes.length = nav.routes.length
  le : ∀ a nav, a.leaves = true → (router a (some nav)).routes.length ≤ nav.routes.length

/-- PUSH adds a route under a new key, SET_PARAMS merges into the route with its
key, COMPLETE_TRANSITION keeps the routes. -/
structure MergesParams (router : Router) : Prop where
  push : ∀ a nav, a.type = .push → ∃ k, k ∉ nav.keys ∧
    (router a (some nav)).routes = nav.routes ++ [⟨k, a.params⟩] ∧
      (router a (some nav)).index = nav.routes.length
  setParams : ∀ a nav k q, a.type = .setParams → a.key = some k → a.params = some q →
    (router a (some nav)).routes =
        nav.routes.map (fun r => if r.key = k then r.setParams q else r) ∧
      (router a (some nav)).index = nav.index
  completeTransition : ∀ a nav, a.type = .completeTransition →
    (router a (some nav)).routes = nav.routes ∧ (router a (some nav)).index = nav.index

/-- A PUSH, and a POP or BACK that removes a route, starts a transition unless it is
`immediate`; SET_PARAMS leaves it as it is and COMPLETE_TRANSITION ends it. -/
structure Transitions (router : Router) : Prop where
  push : ∀ a nav, a.type = .push → (router a (some nav)).isTransitioning = !a.immediate
  cut : ∀ a nav, a.leaves = true → 0 < nav.cutAt a →
    (router a (some nav)).isTransitioning = !a.immediate
  setParams : ∀ a nav k q, a.type = .setParams → a.key = some k → a.params = some q →
    (router a (some nav)).isTransitioning = nav.isTransitioning
  completeTransition : ∀ a nav, a.type = .completeTransition →
    (router a (some nav)).isTransitioning = false

/-! ### A router with the relied-on behaviour -/

def freshKey (nav : NavState) : Key := nav.keys.foldr max 0 + 1

theorem freshKey_not_mem (nav : NavState) : freshKey nav ∉ nav.keys := by
  have hle : ∀ (ks : List Key), ∀ k ∈ ks, k ≤ ks.foldr max 0 := by
    intro ks
    induction ks with
    | nil => simp
    | cons a ks ih =>
      intro k hk
      rcases List.mem_cons.mp hk with rfl | hk
      · exact le_max_left _ _
      · exact (ih k hk).trans (le_max_right _ _)
  intro h
  have := hle nav.keys _ h
  simp [freshKey] at this

def single (r : Route) : NavState := ⟨[r], 0, false, by simp⟩

def stackRouter : Router
  | a, none => single ⟨0, a.params⟩
  | a, some nav =>
    match a.type with
    | .navigate | .push =>
      ⟨nav.routes ++ [⟨freshKey nav, a.params⟩], nav.routes.length, !a.immediate, by simp⟩
    | .pop | .back =>
      if h : 0 < nav.cutAt a then
        ⟨nav.routes.take (nav.cutAt a), nav.cutAt a - 1, !a.immediate, by
          have := nav.cutAt_lt a
          rw [List.length_take]
          omega⟩
      else nav
    | .replace =>
      ⟨nav.routes.map fun r => if some r.key = a.key then ⟨freshKey nav, a.params⟩ else r,
        nav.index, nav.isTransitioning, by simpa using nav.index_lt⟩
    | .reset => single ⟨freshKey nav, a.params⟩
    | .setParams =>
      ⟨nav.routes.map fun r => if some r.key = a.key then r.setParams (a.params.getD {}) else r,
        nav.index, nav.isTransitioning, by simpa using nav.index_lt⟩
    | .completeTransition => { nav with isTransitioning := false }

theorem stackRouter_of_leaves {a : Action} (h : a.leaves = true) (nav : NavState)
    (hcut : 0 < nav.cutAt a) :
    (stackRouter a (some nav)).routes = nav.routes.take (nav.cutAt a) ∧
      (stackRouter a (some nav)).index = nav.cutAt a - 1 ∧
      (stackRouter a (some nav)).isTransitioning = !a.immediate := by
  rcases (by simpa [Action.leaves] using h : a.type = .pop ∨ a.type = .back) with ht | ht <;>
    simp [stackRouter, ht, hcut]

theorem stackRouter_at_bottom {a : Action} (h : a.leaves = true) (nav : NavState)
    (hcut : nav.cutAt a = 0) : stackRouter a (some nav) = nav := by
  rcases (by simpa [Action.leaves] using h : a.type = .pop ∨ a.type = .back) with ht | ht <;>
    simp [stackRouter, ht, hcut]

theorem stackRouter_leavesTop : LeavesTop stackRouter where
  cut _ nav h hcut :=
    let ⟨hroutes, hindex, _⟩ := stackRouter_of_leaves h nav hcut
    ⟨hroutes, hindex⟩
  keep _ nav h hcut := stackRouter_at_bottom h nav hcut

theorem stackRouter_keepsCount : KeepsCount stackRouter where
  same a nav h := by
    rcases h with h | h | h <;> simp [stackRouter, h]
  le a nav h := by
    rcases Nat.eq_zero_or_pos (nav.cutAt a) with h0 | hpos
    · rw [stackRouter_at_bottom h nav h0]
    · rw [(stackRouter_of_leaves h nav hpos).1]
      exact List.length_take_le' _ _

theorem stackRouter_mergesParams : MergesParams stackRouter where
  push a nav h := ⟨freshKey nav, freshKey_not_mem nav, by simp [stackRouter, h]⟩
  setParams a nav k q h hk hq := by simp [stackRouter, h, hk, hq]
  completeTransition a nav h := by simp [stackRouter, h]

theorem stackRouter_transitions : Transitions stackRouter where
  push a nav h := by simp [stackRouter, h]
  cut _ nav h hcut := (stackRouter_of_leaves h nav hcut).2.2
  setParams a nav k q h hk hq := by simp [stackRouter, h]
  completeTransition a nav h := by simp [stackRouter, h]

end RNFantuan.Nav
