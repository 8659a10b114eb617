import RNFantuan.Nav.Wrapper
import Mathlib.Data.List.Nodup

/-!
# Leaving guarded screens

A guarded route may be left, by a POP or BACK that removes it or by `exit()`
while it is on top, only after a promise of its own `backFn` has resolved with
`goBack`. The wrapper does not ensure this. An action that leaves guarded routes
goes through unless the wrapper asks, and it does not ask on index 0 with
`oStateIndex` still `false` (`0 != false` is false), on the index an earlier
settled promise has left in `oStateIndex`, or with a `goBack` left over from a
promise whose BACK met another top route; nor does it look below the top.

`Minded` is the condition on a step under which no guard is passed over. It is
exact: a run keeps every guard exactly if all its steps meet it. `Calm` is a use of
the wrapper that meets it: one press at a time, and no guarded screen at the bottom.
-/

namespace RNFantuan.Nav

variable {router : Router}

/-- The routes that go when the action is let through: those it cuts off, or the
only one when POP calls `exit`. -/
def takes (a : Action) (nav : NavState) : List Route :=
  if a.leaves then
    if 0 < nav.cutAt a then nav.routes.drop (nav.cutAt a)
    else if Call.exit ∈ swipBackCalls a nav then [nav.top]
    else []
  else []

/-- Every guarded route left so far was left after its own guard had agreed. -/
def Consented (s : Sys) : Prop := ∀ k ∈ s.left, k ∈ s.allowed

instance (s : Sys) : Decidable (Consented s) :=
  inferInstanceAs (Decidable (∀ k ∈ s.left, k ∈ s.allowed))

/-- A POP or BACK is asked about, or takes no guarded route whose guard has not
agreed; and the BACK of a promise that resolves with `goBack` takes no such route
besides the promise's own. -/
def Minded (s : Sys) : Event → Prop
  | .dispatch a => Asks s.globals s.nav ∨
      ∀ r ∈ takes a s.nav, r.guarded = true → r.key ∈ s.allowed
  | .settle i .goBack => ∀ p ∈ s.pending[i]?,
      ∀ r ∈ takes { type := .back, key := some p.key } s.nav, r.guarded = true →
        r.key ∈ p.key :: s.allowed
  | .settle _ .undefined => True

instance (s : Sys) : ∀ e, Decidable (Minded s e)
  | .dispatch a => inferInstanceAs (Decidable (Asks s.globals s.nav ∨
      ∀ r ∈ takes a s.nav, r.guarded = true → r.key ∈ s.allowed))
  | .settle i .goBack => inferInstanceAs (Decidable (∀ p ∈ s.pending[i]?,
      ∀ r ∈ takes { type := .back, key := some p.key } s.nav, r.guarded = true →
        r.key ∈ p.key :: s.allowed))
  | .settle _ .undefined => isTrue trivial

theorem exit_mem_swipBackCalls {a : Action} {nav : NavState} :
    Call.exit ∈ swipBackCalls a nav ↔
      nav.routes.length = 1 ∧ a.stopBack = false ∧ a.type = .pop := by
  unfold swipBackCalls
  by_cases hs : a.stopBack = true
  · simp [hs]
  · by_cases h1 : nav.routes.length = 1
    · cases a.type <;> simp [hs, h1]
    · simp [hs, h1]

theorem mem_guardedKeys {nav : NavState} {k : Key} :
    k ∈ guardedKeys nav ↔ ∃ r ∈ nav.routes, r.guarded = true ∧ r.key = k := by
  simp [guardedKeys, and_assoc]

/-! ### The routes an action leaves are those it takes -/

theorem not_mem_take_keys {nav : NavState} (hnd : nav.keys.Nodup) {j : ℕ} {r : Route}
    (hr : r ∈ nav.routes.drop j) : r.key ∉ (nav.routes.take j).map Route.key := by
  have happ : ((nav.routes.take j).map Route.key ++ (nav.routes.drop j).map Route.key).Nodup := by
    rw [← List.map_append, List.take_append_drop]
    exact hnd
  have hdisj := List.disjoint_of_nodup_append happ
  intro hmem
  exact hdisj hmem (List.mem_map_of_mem hr)

section Passing

variable {a : Action} {nav : NavState} {h : Handled}

theorem mem_leftBy_of_cut (hr : LeavesTop router) (ha : a.leaves = true)
    (hcut : 0 < nav.cutAt a) (hnav : h.nav = router a (some nav))
    (hcalls : h.calls = swipBackCalls a nav) {k : Key} :
    k ∈ leftBy a nav h ↔
      k ∈ guardedKeys nav ∧ k ∉ (nav.routes.take (nav.cutAt a)).map Route.key := by
  have hlen := nav.cutAt_lt a
  have hexit : Call.exit ∉ h.calls := by
    rw [hcalls, exit_mem_swipBackCalls]
    omega
  have hkeys : h.nav.keys = (nav.routes.take (nav.cutAt a)).map Route.key := by
    rw [hnav, NavState.keys, (hr.cut a nav ha hcut).1]
  simp [leftBy, ha, hexit, hkeys]

theorem mem_leftBy_of_bottom (hr : LeavesTop router) (ha : a.leaves = true)
    (hcut : nav.cutAt a = 0) (hnav : h.nav = router a (some nav))
    (hcalls : h.calls = swipBackCalls a nav) {k : Key} :
    k ∈ leftBy a nav h ↔
      Call.exit ∈ swipBackCalls a nav ∧ nav.top.guarded = true ∧ k = nav.top.key := by
  have hkeys : h.nav.keys = nav.keys := by rw [hnav, hr.keep a nav ha hcut]
  have hnone : ∀ k ∈ guardedKeys nav, k ∈ nav.keys := by
    intro k hk
    obtain ⟨r, hmem, -, rfl⟩ := mem_guardedKeys.mp hk
    exact List.mem_map_of_mem hmem
  simp only [leftBy, ha, if_true, hkeys, hcalls, List.mem_append, List.mem_filter,
    decide_eq_true_eq]
  constructor
  · rintro (⟨hk, hnot⟩ | hk)
    · exact absurd (hnone k hk) hnot
    · split_ifs at hk with hcond
      · exact ⟨hcond.1, hcond.2, by simpa using hk⟩
      · simp at hk
  · rintro ⟨hexit, hguard, rfl⟩
    right
    simp [hexit, hguard]

theorem takes_of_mem_leftBy (hr : LeavesTop router) (hnav : h.nav = router a (some nav))
    (hcalls : h.calls = swipBackCalls a nav) {k : Key} (hk : k ∈ leftBy a nav h) :
    ∃ r ∈ takes a nav, r.guarded = true ∧ r.key = k := by
  by_cases ha : a.leaves = true
  · rcases Nat.eq_zero_or_pos (nav.cutAt a) with h0 | hpos
    · obtain ⟨hexit, hguard, rfl⟩ := (mem_leftBy_of_bottom hr ha h0 hnav hcalls).mp hk
      exact ⟨nav.top, by simp [takes, ha, h0, hexit], hguard, rfl⟩
    · obtain ⟨hmem, hnot⟩ := (mem_leftBy_of_cut hr ha hpos hnav hcalls).mp hk
      obtain ⟨r, hr', hguard, rfl⟩ := mem_guardedKeys.mp hmem
      refine ⟨r, ?_, hguard, rfl⟩
      rw [← List.take_append_drop (nav.cutAt a) nav.routes] at hr'
      rcases List.mem_append.mp hr' with htake | hdrop
      · exact absurd (List.mem_map_of_mem htake) hnot
      · simpa [takes, ha, hpos] using hdrop
  · simp [leftBy, ha] at hk

theorem mem_leftBy_of_takes (hr : LeavesTop router) (hnd : nav.keys.Nodup)
    (hnav : h.nav = router a (some nav)) (hcalls : h.calls = swipBackCalls a nav)
    {r : Route} (hmem : r ∈ takes a nav) (hguard : r.guarded = true) :
    r.key ∈ leftBy a nav h := by
  by_cases ha : a.leaves = true
  · rcases Nat.eq_zero_or_pos (nav.cutAt a) with h0 | hpos
    · simp only [takes, ha, h0, lt_self_iff_false, if_true, if_false] at hmem
      split_ifs at hmem with hexit
      · obtain rfl : r = nav.top := by simpa using hmem
        exact (mem_leftBy_of_bottom hr ha h0 hnav hcalls).mpr ⟨hexit, hguard, rfl⟩
      · simp at hmem
    · have hdrop : r ∈ nav.routes.drop (nav.cutAt a) := by simpa [takes, ha, hpos] using hmem
      refine (mem_leftBy_of_cut hr ha hpos hnav hcalls).mpr ⟨?_, not_mem_take_keys hnd hdrop⟩
      exact mem_guardedKeys.mpr ⟨r, List.mem_of_mem_drop hdrop, hguard, rfl⟩
  · simp [takes, ha] at hmem

end Passing

/-! ### One dispatched action -/

theorem leftBy_of_asks {s : Sys} {a : Action} (ha : a.leaves = true)
    (hasks : Asks s.globals s.nav) :
    leftBy a s.nav (getStateForAction router s.globals a (some s.nav)) = [] := by
  rw [getStateForAction_asks router ha hasks]
  simp only [leftBy, ha, if_true, intercepted_keys, List.not_mem_nil, false_and, if_false,
    List.append_nil]
  rw [List.filter_eq_nil_iff]
  intro k hk
  obtain ⟨r, hmem, -, rfl⟩ := mem_guardedKeys.mp hk
  have hkey : r.key ∈ s.nav.keys := List.mem_map_of_mem hmem
  simp [hkey]

theorem dispatch_consented (hr : LeavesTop router) {s : Sys} {a : Action} (hs : Consented s)
    (hok : Asks s.globals s.nav ∨ ∀ r ∈ takes a s.nav, r.guarded = true → r.key ∈ s.allowed) :
    Consented (s.dispatch router a) := by
  intro k hk
  rcases List.mem_append.mp hk with hnew | hold
  · by_cases hasks : a.leaves = true ∧ Asks s.globals s.nav
    · rw [leftBy_of_asks hasks.1 hasks.2] at hnew
      cases hnew
    · obtain ⟨hnav, hcalls⟩ := getStateForAction_passes router hasks
      obtain ⟨r, hmem, hguard, rfl⟩ := takes_of_mem_leftBy hr hnav hcalls hnew
      rcases hok with hok | hok
      · by_cases ha : a.leaves = true
        · exact absurd ⟨ha, hok⟩ hasks
        · simp [takes, ha] at hmem
      · exact hok r hmem hguard
  · exact hs k hold

theorem minded_of_dispatch_consented (hr : LeavesTop router) {s : Sys} {a : Action}
    (hnd : s.nav.keys.Nodup) (hs : Consented (s.dispatch router a)) :
    Asks s.globals s.nav ∨ ∀ r ∈ takes a s.nav, r.guarded = true → r.key ∈ s.allowed := by
  by_cases hasks : a.leaves = true ∧ Asks s.globals s.nav
  · exact Or.inl hasks.2
  · right
    intro r hmem hguard
    obtain ⟨hnav, hcalls⟩ := getStateForAction_passes router hasks
    exact hs r.key (List.mem_append_left _ (mem_leftBy_of_takes hr hnd hnav hcalls hmem hguard))

/-! ### Whole runs -/

theorem not_asks_grant (s : Sys) (p : Pending) :
    ¬ Asks (s.grant p).globals (s.grant p).nav := by
  rintro ⟨-, hgo, -⟩
  cases hgo

theorem step_consented (hr : LeavesTop router) {s s' : Sys} {e : Event} (hs : Consented s)
    (hok : Minded s e) (h : s.step router e = some s') : Consented s' := by
  cases e with
  | dispatch a =>
    obtain rfl := Option.some.inj h
    exact dispatch_consented hr hs hok
  | settle i r =>
    obtain ⟨p, hp, rfl⟩ := Option.map_eq_some_iff.mp h
    cases r with
    | undefined => exact hs
    | goBack =>
      refine dispatch_consented hr ?_ (Or.inr fun r hmem hguard => hok p hp r hmem hguard)
      exact fun k hk => List.mem_cons_of_mem _ (hs k hk)

theorem minded_of_step_consented (hr : LeavesTop router) {s s' : Sys} {e : Event}
    (hnd : s.nav.keys.Nodup) (h : s.step router e = some s') (hs' : Consented s') :
    Minded s e := by
  cases e with
  | dispatch a =>
    obtain rfl := Option.some.inj h
    exact minded_of_dispatch_consented hr hnd hs'
  | settle i r =>
    obtain ⟨p, hp, rfl⟩ := Option.map_eq_some_iff.mp h
    cases r with
    | undefined => trivial
    | goBack =>
      rintro q hq r hmem hguard
      obtain rfl : p = q := Option.some.inj (hp.symm.trans hq)
      have hgrant := minded_of_dispatch_consented
        (s := Sys.grant { s with pending := s.pending.eraseIdx i } p) hr hnd hs'
      rcases hgrant with hasks | hall
      · exact absurd hasks (not_asks_grant _ p)
      · exact hall r hmem hguard

def KeepsKeys (router : Router) : Prop :=
  ∀ a nav, nav.keys.Nodup → (router a (some nav)).keys.Nodup

theorem dispatch_keys (hk : KeepsKeys router) {s : Sys} (a : Action) (hnd : s.nav.keys.Nodup) :
    (s.dispatch router a).nav.keys.Nodup := by
  rcases dispatch_cases router s a with ⟨hroutes, -, -, -⟩ | ⟨hnav, -⟩
  · rw [NavState.keys, hroutes]
    exact hnd
  · rw [hnav]
    exact hk a _ hnd

theorem step_keys (hk : KeepsKeys router) {s s' : Sys} {e : Event} (hnd : s.nav.keys.Nodup)
    (h : s.step router e = some s') : s'.nav.keys.Nodup := by
  cases e with
  | dispatch a =>
    obtain rfl := Option.some.inj h
    exact dispatch_keys hk a hnd
  | settle i r =>
    obtain ⟨p, -, rfl⟩ := Option.map_eq_some_iff.mp h
    cases r with
    | goBack => exact dispatch_keys hk _ hnd
    | undefined => exact hnd

theorem consented_of_minded (hr : LeavesTop router) {nav : NavState} {es : List Event}
    (hok : Runs.Along (Sys.step router) Minded (Sys.start nav) es) :
    Runs.Throughout (Sys.step router) Consented (Sys.start nav) es := by
  have hstart : Consented (Sys.start nav) := by
    intro k hk
    cases hk
  exact Runs.throughout_of_along (fun _ _ _ hs hok h => step_consented hr hs hok h)
    (fun _ hs => hs) hstart hok

theorem minded_of_consented (hr : LeavesTop router) (hk : KeepsKeys router) {nav : NavState}
    {es : List Event} (hnd : nav.keys.Nodup)
    (h : Runs.Throughout (Sys.step router) Consented (Sys.start nav) es) :
    Runs.Along (Sys.step router) Minded (Sys.start nav) es := by
  have hstart : Consented (Sys.start nav) := by
    intro k hk
    cases hk
  have hI : ∀ (s : Sys) (e : Event) (s' : Sys), s.nav.keys.Nodup → Consented s →
      s.step router e = some s' → Consented s' → s'.nav.keys.Nodup :=
    fun s e s' hnd _ h _ => step_keys hk hnd h
  refine (Runs.throughout_iff_along hI (fun s e s' hnd hs h => ?_) hnd hstart).mp h
  exact ⟨minded_of_step_consented hr hnd h, fun hok => step_consented hr hs hok h⟩

/-- Guards are kept in every state of a run whose steps are all minded; with
distinct keys only then. -/
theorem guards_kept_iff_minded (hr : LeavesTop router) (nav : NavState) (es : List Event) :
    (Runs.Along (Sys.step router) Minded (Sys.start nav) es →
      Runs.Throughout (Sys.step router) Consented (Sys.start nav) es) ∧
    (KeepsKeys router → nav.keys.Nodup →
      Runs.Throughout (Sys.step router) Consented (Sys.start nav) es →
        Runs.Along (Sys.step router) Minded (Sys.start nav) es) :=
  ⟨consented_of_minded hr, fun hk => minded_of_consented hr hk⟩

/-! ### One press at a time -/

/-- Nothing is dispatched while a promise is pending, promises resolve with `goBack`,
and an action leaves the top route alone, which is guarded above the bottom only. -/
def Calm (s : Sys) : Event → Prop
  | .dispatch a => s.pending = [] ∧ (a.leaves = true →
      s.nav.index + 1 = s.nav.routes.length ∧ s.nav.cutAt a = s.nav.index ∧
        (s.nav.top.guarded = true → 0 < s.nav.index))
  | .settle _ r => r = .goBack

structure AskedTop (nav : NavState) (p : Pending) : Prop where
  key : p.key = nav.top.key
  index : p.index = nav.index
  guarded : nav.top.guarded = true
  pos : 0 < nav.index
  last : nav.index + 1 = nav.routes.length

/-- No token is left over, and at most the top route has been asked. -/
structure CalmInv (s : Sys) : Prop where
  keys : s.nav.keys.Nodup
  goBack : s.globals.goBack.truthy = false
  oStateIndex : s.globals.oStateIndex = .bool false
  pending : s.pending = [] ∨ ∃ p, s.pending = [p] ∧ AskedTop s.nav p

theorem takes_of_cut_top {a : Action} {nav : NavState} (ha : a.leaves = true)
    (hcut : nav.cutAt a = nav.index) (hlast : nav.index + 1 = nav.routes.length) :
    ∀ r ∈ takes a nav, r = nav.top := by
  intro r hr
  have hdrop : nav.routes.drop nav.index = [nav.top] := by
    rw [List.drop_eq_getElem_cons nav.index_lt, List.drop_of_length_le (by omega)]
    rfl
  simp only [takes, ha, if_true, hcut] at hr
  split_ifs at hr
  · simpa [hdrop] using hr
  · simpa using hr
  · simp at hr

theorem cutAt_back_top {nav : NavState} (hnd : nav.keys.Nodup) :
    nav.cutAt { type := .back, key := some nav.top.key } = nav.index := by
  have hfind : nav.routes.findIdx? (fun r => decide (r.key = nav.top.key)) = some nav.index := by
    refine List.findIdx?_eq_some_iff_getElem.mpr ⟨nav.index_lt, by simp [NavState.top], ?_⟩
    intro j hj heq
    have hjlt : j < nav.routes.length := hj.trans nav.index_lt
    have hsame : nav.routes[j].key = nav.top.key := of_decide_eq_true heq
    have hkeys : nav.keys[j]? = nav.keys[nav.index]? := by
      simp only [NavState.keys, List.getElem?_map, List.getElem?_eq_getElem hjlt,
        List.getElem?_eq_getElem nav.index_lt, Option.map_some]
      exact congrArg some hsame
    have hji : j = nav.index :=
      (List.getElem?_inj (by simpa [NavState.keys] using hjlt) hnd).mp hkeys
    omega
  simp [NavState.cutAt, hfind]

theorem asks_of_calm {s : Sys} (hI : CalmInv s) (hguard : s.nav.top.guarded = true)
    (hpos : 0 < s.nav.index) : Asks s.globals s.nav := by
  refine ⟨hguard, hI.goBack, ?_⟩
  rw [hI.oStateIndex, JS.Value.looseEq_nat_false]
  exact decide_eq_false (by omega)

variable (router) in
theorem minded_of_calm {s s' : Sys} {e : Event} (hI : CalmInv s) (hok : Calm s e)
    (h : s.step router e = some s') : Minded s e := by
  cases e with
  | dispatch a =>
    by_cases ha : a.leaves = true
    · obtain ⟨hlast, hcut, hpos⟩ := hok.2 ha
      by_cases hguard : s.nav.top.guarded = true
      · exact Or.inl (asks_of_calm hI hguard (hpos hguard))
      · right
        intro r hr hr'
        rw [takes_of_cut_top ha hcut hlast r hr] at hr'
        exact absurd hr' hguard
    · right
      intro r hr
      simp [takes, ha] at hr
  | settle i r =>
    obtain rfl : r = .goBack := hok
    intro p hp r hr _
    rcases hI.pending with hnone | ⟨q, hq, hasked⟩
    · simp [hnone] at hp
    · obtain rfl : q = p := by
        rw [hq] at hp
        have hmem : p ∈ [q] := List.mem_of_getElem? hp
        exact (List.mem_singleton.mp hmem).symm
      have htop : r = s.nav.top := by
        refine takes_of_cut_top rfl ?_ hasked.last r hr
        rw [hasked.key]
        exact cutAt_back_top hI.keys
      rw [htop, hasked.key]
      exact List.mem_cons_self

theorem intercepted_of_last {nav : NavState} (hlast : nav.index + 1 = nav.routes.length) :
    nav.intercepted = nav := by
  obtain ⟨routes, index, isTransitioning, hlt⟩ := nav
  have hindex : routes.length - 1 = index := by
    simp only at hlast
    omega
  simp [NavState.intercepted, hindex]

section Globals

variable (router)

theorem dispatch_unguarded {s : Sys} {a : Action}
    (h : ¬ (a.leaves = true ∧ s.nav.top.guarded = true)) :
    (s.dispatch router a).globals = { s.globals with stateIndex := JS.nat s.nav.index } ∧
      (s.dispatch router a).pending = s.pending := by
  simp [Sys.dispatch, getStateForAction, h]

theorem dispatch_token {s : Sys} {a : Action} (ha : a.leaves = true)
    (hguard : s.nav.top.guarded = true) (hgo : s.globals.goBack.truthy = true) :
    (s.dispatch router a).globals.goBack = .no ∧
      (s.dispatch router a).globals.oStateIndex = .bool false ∧
      (s.dispatch router a).pending = s.pending := by
  have heq : (JS.nat s.nav.index).looseEq (JS.nat s.nav.index) = true := by simp
  simp [Sys.dispatch, getStateForAction, ha, hguard, backFnStart, hgo, heq]

theorem dispatch_asks {s : Sys} {a : Action} (ha : a.leaves = true)
    (hasks : Asks s.globals s.nav) :
    (s.dispatch router a).globals = { s.globals with stateIndex := JS.nat s.nav.index } ∧
      (s.dispatch router a).pending = s.pending ++ [⟨s.nav.top.key, s.nav.index⟩] ∧
      (s.dispatch router a).nav = s.nav.intercepted := by
  simp [Sys.dispatch, getStateForAction_asks router ha hasks]

end Globals

theorem step_calmInv (hk : KeepsKeys router) {s s' : Sys} {e : Event} (hI : CalmInv s)
    (hok : Calm s e) (h : s.step router e = some s') : CalmInv s' := by
  have hkeys := step_keys hk hI.keys h
  cases e with
  | dispatch a =>
    obtain ⟨hnone, hleaves⟩ := hok
    obtain rfl := Option.some.inj h
    by_cases hguarded : a.leaves = true ∧ s.nav.top.guarded = true
    · obtain ⟨hlast, -, hpos⟩ := hleaves hguarded.1
      have hpos := hpos hguarded.2
      obtain ⟨hglobals, hpending, hnav⟩ :=
        dispatch_asks router hguarded.1 (asks_of_calm hI hguarded.2 hpos)
      rw [intercepted_of_last hlast] at hnav
      refine ⟨hkeys, by rw [hglobals]; exact hI.goBack, by rw [hglobals]; exact hI.oStateIndex,
        Or.inr ⟨⟨s.nav.top.key, s.nav.index⟩, by rw [hpending, hnone]; rfl, ?_⟩⟩
      rw [hnav]
      exact ⟨rfl, rfl, hguarded.2, hpos, hlast⟩
    · obtain ⟨hglobals, hpending⟩ := dispatch_unguarded router hguarded
      exact ⟨hkeys, by rw [hglobals]; exact hI.goBack, by rw [hglobals]; exact hI.oStateIndex,
        Or.inl (hpending.trans hnone)⟩
  | settle i r =>
    obtain rfl : r = .goBack := hok
    obtain ⟨p, hp, rfl⟩ := Option.map_eq_some_iff.mp h
    rcases hI.pending with hnone | ⟨q, hq, hasked⟩
    · simp [hnone] at hp
    · have hrest : s.pending.eraseIdx i = [] := by
        rw [hq] at hp ⊢
        obtain rfl : i = 0 := by
          have hlt := (List.getElem?_eq_some_iff.mp hp).1
          simpa using hlt
        rfl
      obtain ⟨hgo, ho, hpending⟩ := dispatch_token router
        (s := Sys.grant { s with pending := s.pending.eraseIdx i } p)
        (a := { type := .back, key := some p.key }) rfl hasked.guarded rfl
      refine ⟨hkeys, ?_, ho, Or.inl (hpending.trans hrest)⟩
      exact (congrArg GoBack.truthy hgo).trans rfl

def guardedRoute (k : Key) : Route := ⟨k, some { backFn := true }⟩

theorem guards_kept_on_agreement :
    Runs.Throughout (Sys.step stackRouter) Consented
      (Sys.start ⟨[⟨0, none⟩, guardedRoute 1], 1, false, by decide⟩)
      [.dispatch { type := .pop }, .settle 0 .goBack] :=
  (guards_kept_iff_minded stackRouter_leavesTop _ _).1 (by decide)

theorem guard_passed_over_on_only_route :
    LeavesTop stackRouter ∧ ∃ s,
      Runs.exec (Sys.step stackRouter) (Sys.start (single (guardedRoute 0)))
      [.dispatch { type := .pop }] = some s ∧
        s.calls = [.exit] ∧ s.pending = [⟨0, 0⟩] ∧ s.allowed = [] ∧ ¬ Consented s :=
  ⟨stackRouter_leavesTop, _, rfl, by decide⟩

/-- Deeper down, an inner error of the guard leaves its index in `oStateIndex`, and
the next press goes through. -/
example : ∃ s, Runs.exec (Sys.step stackRouter)
    (Sys.start ⟨[⟨0, none⟩, guardedRoute 1], 1, false, by decide⟩)
    [.dispatch { type := .pop }, .settle 0 .undefined, .dispatch { type := .pop }] = some s ∧
      s.left = [1] ∧ s.allowed = [] :=
  ⟨_, rfl, by decide⟩

end RNFantuan.Nav
