import RNFantuan.Nav.Wrapper

/-!
# Native swiping and the number of routes

After any run from a single-route stack, if the last switch of `SwipBackModule`
was `enable()`, there is one route. The invariant is this very statement: with
one route every action that may change their number makes the wrapper call
`disable()`, and with more routes it never calls `enable()`.
-/

namespace RNFantuan.Nav

variable {router : Router}

def lastSwitch (calls : List Call) : Option Call := calls.find? (· ≠ .exit)

@[simp]
theorem lastSwitch_enable (calls : List Call) : lastSwitch (.enable :: calls) = some .enable := rfl

@[simp]
theorem lastSwitch_disable (calls : List Call) :
    lastSwitch (.disable :: calls) = some .disable := rfl

@[simp]
theorem lastSwitch_exit (calls : List Call) : lastSwitch (.exit :: calls) = lastSwitch calls := rfl

theorem lastSwitch_swipBackCalls (a : Action) (nav : NavState) (calls : List Call) :
    lastSwitch (swipBackCalls a nav ++ calls) =
      if a.stopBack then some .disable
      else if nav.routes.length = 1 then
        match a.type with
        | .pop => lastSwitch calls
        | .replace | .completeTransition | .setParams => some .enable
        | _ => some .disable
      else lastSwitch calls := by
  unfold swipBackCalls
  by_cases hs : a.stopBack = true
  · simp [hs]
  · by_cases h1 : nav.routes.length = 1
    · cases a.type <;> simp [hs, h1]
    · simp [hs, h1]

def EnabledOverSingle (s : Sys) : Prop :=
  lastSwitch s.calls = some .enable → s.nav.routes.length = 1

theorem dispatch_enabledOverSingle (hr : KeepsCount router) {s : Sys} (a : Action)
    (hs : EnabledOverSingle s) : EnabledOverSingle (s.dispatch router a) := by
  intro hlast
  rcases dispatch_cases router s a with ⟨hroutes, hcalls, -, -⟩ | ⟨hnav, hcalls⟩
  · rw [hroutes]
    rw [hcalls] at hlast
    exact hs hlast
  · rw [hnav]
    rw [hcalls, lastSwitch_swipBackCalls] at hlast
    have hpos := (router a (some s.nav)).length_pos
    split_ifs at hlast with hstop hone
    · simp at hlast
    · -- one route: the switch tells the type of the action, and the type the count
      cases ht : a.type with
      | pop =>
        have hle := hr.le a s.nav (by simp [Action.leaves, ht])
        omega
      | replace => exact (hr.same a s.nav (Or.inl ht)).trans hone
      | setParams => exact (hr.same a s.nav (Or.inr (Or.inl ht))).trans hone
      | completeTransition => exact (hr.same a s.nav (Or.inr (Or.inr ht))).trans hone
      | navigate => simp [ht] at hlast
      | push => simp [ht] at hlast
      | back => simp [ht] at hlast
      | reset => simp [ht] at hlast
    · exact absurd (hs hlast) hone

theorem step_enabledOverSingle (hr : KeepsCount router) {s s' : Sys} {e : Event}
    (hs : EnabledOverSingle s) (h : s.step router e = some s') : EnabledOverSingle s' := by
  cases e with
  | dispatch a =>
    obtain rfl := Option.some.inj h
    exact dispatch_enabledOverSingle hr a hs
  | settle i r =>
    obtain ⟨p, -, rfl⟩ := Option.map_eq_some_iff.mp h
    cases r with
    | goBack => exact dispatch_enabledOverSingle hr _ hs
    | undefined => exact hs

/-- In every run from a state in which no call has been made yet, in particular
from a single-route stack, `enable()` as the last switch means that exactly one
route is on the stack. -/
theorem enable_implies_single_route (hr : KeepsCount router) {nav : NavState} {es : List Event}
    {s : Sys} (hrun : Runs.exec (Sys.step router) (Sys.start nav) es = some s)
    (hlast : lastSwitch s.calls = some .enable) : s.nav.routes.length = 1 := by
  have hstart : EnabledOverSingle (Sys.start nav) := by
    intro h
    cases h
  exact Runs.exec_invariant (fun _ _ _ hs h => step_enabledOverSingle hr hs h) hstart hrun hlast

theorem enable_implies_single_route_after_pop :
    ∃ s, Runs.exec (Sys.step stackRouter) (Sys.start (single ⟨0, none⟩))
        [.dispatch { type := .push }, .dispatch { type := .completeTransition },
          .dispatch { type := .pop }, .dispatch { type := .completeTransition }] = some s ∧
      s.calls = [.enable, .disable] ∧ s.nav.routes.length = 1 :=
  ⟨_, rfl, by decide, @enable_implies_single_route stackRouter stackRouter_keepsCount
    (single ⟨0, none⟩) [.dispatch { type := .push }, .dispatch { type := .completeTransition },
      .dispatch { type := .pop }, .dispatch { type := .completeTransition }] _ rfl (by decide)⟩

end RNFantuan.Nav
