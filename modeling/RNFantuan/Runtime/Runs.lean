import Mathlib.Logic.Basic
import Mathlib.Data.Nat.Notation
import Mathlib.Data.Option.Basic

/-!
# Finite runs of a partial step function

`step s e` is the state after event `e`, or `none` when `e` cannot happen in
`s`. A run is a list of events. `Along` asks something of every step the run
takes, `Throughout` of every state it visits. The rules below turn facts about
one step into facts about whole runs.
-/

namespace Runs

variable {σ τ ε : Type*}

def exec (step : σ → ε → Option σ) : σ → List ε → Option σ
  | s, [] => some s
  | s, e :: es => (step s e).bind fun s' => exec step s' es

def Along (step : σ → ε → Option σ) (ok : σ → ε → Prop) : σ → List ε → Prop
  | _, [] => True
  | s, e :: es => ∀ s', step s e = some s' → ok s e ∧ Along step ok s' es

def Throughout (step : σ → ε → Option σ) (P : σ → Prop) : σ → List ε → Prop
  | s, [] => P s
  | s, e :: es => P s ∧ ∀ s', step s e = some s' → Throughout step P s' es

variable {step : σ → ε → Option σ}

theorem exec_cons_eq_some {s s' : σ} {e : ε} {es : List ε} :
    exec step s (e :: es) = some s' ↔ ∃ t, step s e = some t ∧ exec step t es = some s' := by
  simp [exec, Option.bind_eq_some_iff]

theorem exec_append (s : σ) (es fs : List ε) :
    exec step s (es ++ fs) = (exec step s es).bind fun t => exec step t fs := by
  induction es generalizing s with
  | nil => rfl
  | cons e es ih =>
    simp only [List.cons_append, exec]
    cases step s e with
    | none => rfl
    | some t => exact ih t

theorem exec_snoc_eq_some {s s' : σ} {e : ε} {es : List ε} :
    exec step s (es ++ [e]) = some s' ↔ ∃ t, exec step s es = some t ∧ step t e = some s' := by
  simp [exec_append, exec, Option.bind_eq_some_iff]

instance decidableAlong {ok : σ → ε → Prop} [∀ s e, Decidable (ok s e)] :
    ∀ (s : σ) (es : List ε), Decidable (Along step ok s es)
  | _, [] => isTrue trivial
  | s, e :: es =>
    match h : step s e with
    | none => isTrue fun _ ht => absurd (h.symm.trans ht) (Option.some_ne_none _).symm
    | some t =>
      have : Decidable (Along step ok t es) := decidableAlong t es
      decidable_of_iff (ok s e ∧ Along step ok t es)
        ⟨fun hok _ ht => Option.some.inj (h.symm.trans ht) ▸ hok, fun hall => hall t h⟩

theorem exec_invariant {I : σ → Prop}
    (hstep : ∀ s e s', I s → step s e = some s' → I s')
    {s s' : σ} {es : List ε} (hs : I s) (hrun : exec step s es = some s') : I s' := by
  induction es generalizing s with
  | nil => exact Option.some.inj hrun ▸ hs
  | cons e es ih =>
    obtain ⟨t, ht, hrest⟩ := exec_cons_eq_some.mp hrun
    exact ih (hstep s e t hs ht) hrest

theorem mul_countP_cons (k : ℕ) (p : ε → Bool) (e : ε) (es : List ε) :
    k * (e :: es).countP p = k * es.countP p + if p e then k else 0 := by
  rw [List.countP_cons, Nat.mul_add]
  split <;> simp

/-- An account that balances: when a step earns `m` with an event of one kind and costs
`n` with one of another, the events of the two kinds pay for each other. -/
theorem exec_balance {V : σ → ℕ} {earns pays : ε → Bool} {m n : ℕ}
    (hstep : ∀ s e s', step s e = some s' →
      V s' + (if earns e then m else 0) = V s + if pays e then n else 0)
    {s s' : σ} {es : List ε} (hrun : exec step s es = some s') :
    V s' + m * es.countP earns = V s + n * es.countP pays := by
  induction es generalizing s with
  | nil =>
    obtain rfl := Option.some.inj hrun
    simp
  | cons e es ih =>
    obtain ⟨t, ht, hrest⟩ := exec_cons_eq_some.mp hrun
    have hfirst := hstep s e t ht
    have hlater := ih hrest
    rw [mul_countP_cons, mul_countP_cons]
    omega

/-- A quantity that rises by one with the events of one kind, and with no others, counts
them. -/
theorem exec_count {V : σ → ℕ} {p : ε → Bool}
    (hstep : ∀ s e s', step s e = some s' → V s' = V s + if p e then 1 else 0)
    {s s' : σ} {es : List ε} (hrun : exec step s es = some s') :
    V s' = V s + es.countP p := by
  have hbalance : V s' + 0 * es.countP (fun _ => false) = V s + 1 * es.countP p :=
    exec_balance (fun s e t h => by simpa using hstep s e t h) hrun
  simpa using hbalance

theorem Along.mono {ok ok' : σ → ε → Prop} {I : σ → Prop}
    (hI : ∀ s e s', I s → ok s e → step s e = some s' → I s')
    (h : ∀ s e, I s → ok s e → ok' s e)
    {s : σ} {es : List ε} (hs : I s) (hok : Along step ok s es) : Along step ok' s es := by
  induction es generalizing s with
  | nil => trivial
  | cons e es ih =>
    intro t ht
    obtain ⟨he, hes⟩ := hok t ht
    exact ⟨h s e hs he, ih (hI s e t hs he ht) hes⟩

theorem Along.of_invariant {I : σ → Prop} {ok : σ → ε → Prop}
    (hI : ∀ s e s', I s → step s e = some s' → I s') (h : ∀ s e, I s → ok s e)
    {s : σ} (hs : I s) (es : List ε) : Along step ok s es := by
  induction es generalizing s with
  | nil => trivial
  | cons e es ih => exact fun t ht => ⟨h s e hs, ih (hI s e t hs ht)⟩

/-- The potential rule: when a step earns at least `m` with an event of one kind and
costs at most `n` with one of another, the events of the first kind are paid for by
those of the second and by what the start had. -/
theorem exec_potential {V : σ → ℕ} {earns pays : ε → Bool} {m n : ℕ} {ok : σ → ε → Prop}
    (hstep : ∀ s e s', ok s e → step s e = some s' →
      V s' + (if earns e then m else 0) ≤ V s + if pays e then n else 0)
    {s s' : σ} {es : List ε} (hok : Along step ok s es) (hrun : exec step s es = some s') :
    V s' + m * es.countP earns ≤ V s + n * es.countP pays := by
  induction es generalizing s with
  | nil =>
    obtain rfl := Option.some.inj hrun
    simp
  | cons e es ih =>
    obtain ⟨t, ht, hrest⟩ := exec_cons_eq_some.mp hrun
    obtain ⟨he, hes⟩ := hok t ht
    have hfirst := hstep s e t he ht
    have hlater := ih hes hrest
    rw [mul_countP_cons, mul_countP_cons]
    omega

theorem exec_count_le {V : σ → ℕ} {p : ε → Bool}
    (hstep : ∀ s e s', step s e = some s' → V s' ≤ V s + if p e then 1 else 0)
    {s s' : σ} {es : List ε} (hrun : exec step s es = some s') :
    V s' ≤ V s + es.countP p := by
  have hok : Along step (fun _ _ => True) s es :=
    Along.of_invariant (I := fun _ => True) (fun _ _ _ _ _ => trivial) (fun _ _ _ => trivial)
      trivial es
  have hpaid : V s' + 0 * es.countP (fun _ => false) ≤ V s + 1 * es.countP p :=
    exec_potential (fun s e t _ h => by simpa using hstep s e t h) hok hrun
  simpa using hpaid

theorem Throughout.start {P : σ → Prop} {s : σ} {es : List ε}
    (h : Throughout step P s es) : P s := by
  cases es with
  | nil => exact h
  | cons e es => exact h.1

theorem throughout_of_along {I P : σ → Prop} {ok : σ → ε → Prop}
    (hstep : ∀ s e s', I s → ok s e → step s e = some s' → I s') (hP : ∀ s, I s → P s)
    {s : σ} {es : List ε} (hs : I s) (hok : Along step ok s es) :
    Throughout step P s es := by
  induction es generalizing s with
  | nil => exact hP s hs
  | cons e es ih =>
    refine ⟨hP s hs, fun t ht => ?_⟩
    obtain ⟨he, hes⟩ := hok t ht
    exact ih (hstep s e t hs he ht) hes

theorem Throughout.of_invariant {I P : σ → Prop}
    (hI : ∀ s e s', I s → step s e = some s' → I s') (hP : ∀ s, I s → P s)
    {s : σ} (hs : I s) (es : List ε) : Throughout step P s es :=
  throughout_of_along (fun s e s' hs (_ : True) h => hI s e s' hs h) hP hs
    (Along.of_invariant hI (fun _ _ _ => trivial) hs es)

/-- What a part of a run keeps, and what is still asked of the rest. -/
theorem Along.exec_append {ok : σ → ε → Prop} {I : σ → Prop}
    (hstep : ∀ s e s', I s → ok s e → step s e = some s' → I s')
    {s t : σ} {es fs : List ε} (hs : I s) (hok : Along step ok s (es ++ fs))
    (hrun : exec step s es = some t) : I t ∧ Along step ok t fs := by
  induction es generalizing s with
  | nil =>
    obtain rfl := Option.some.inj hrun
    exact ⟨hs, hok⟩
  | cons e es ih =>
    obtain ⟨u, hu, hrest⟩ := exec_cons_eq_some.mp hrun
    obtain ⟨he, hes⟩ := hok u hu
    exact ih (hstep s e u hs he hu) hes hrest

/-- When, under an invariant, a step keeps `P` exactly if it meets `ok`, a run
visits only states with `P` exactly if all its steps meet `ok`. -/
theorem throughout_iff_along {I P : σ → Prop} {ok : σ → ε → Prop}
    (hI : ∀ s e s', I s → P s → step s e = some s' → P s' → I s')
    (hstep : ∀ s e s', I s → P s → step s e = some s' → (P s' ↔ ok s e))
    {s : σ} {es : List ε} (hs : I s) (hP : P s) :
    Throughout step P s es ↔ Along step ok s es := by
  induction es generalizing s with
  | nil => exact ⟨fun _ => trivial, fun _ => hP⟩
  | cons e es ih =>
    constructor
    · intro h t ht
      have hPt := (h.2 t ht).start
      have hok := (hstep s e t hs hP ht).mp hPt
      exact ⟨hok, (ih (hI s e t hs hP ht hPt) hPt).mp (h.2 t ht)⟩
    · intro h
      refine ⟨hP, fun t ht => ?_⟩
      obtain ⟨he, hes⟩ := h t ht
      have hPt := (hstep s e t hs hP ht).mpr he
      exact (ih (hI s e t hs hP ht hPt) hPt).mpr hes

/-- Two step conditions that agree under an invariant agree along runs. -/
theorem along_congr {I : σ → Prop} {ok ok' : σ → ε → Prop}
    (hI : ∀ s e s', I s → step s e = some s' → I s')
    (h : ∀ s e s', I s → step s e = some s' → (ok s e ↔ ok' s e))
    {s : σ} {es : List ε} (hs : I s) : Along step ok s es ↔ Along step ok' s es := by
  induction es generalizing s with
  | nil => exact Iff.rfl
  | cons e es ih =>
    refine forall_congr' fun t => forall_congr' fun ht => ?_
    exact and_congr (h s e t hs ht) (ih (hI s e t hs ht))

/-- What a run amounts to on another machine, when a step amounts to the events `p s e`
there, one, several or none. -/
def seen {φ : Type*} (step : σ → ε → Option σ) (p : σ → ε → List φ) : σ → List ε → List φ
  | _, [] => []
  | s, e :: es =>
    match step s e with
    | some s' => p s e ++ seen step p s' es
    | none => []

/-- Every run of the concrete machine is matched by the run of the abstract one that it
amounts to. -/
def Refines {φ : Type*} (step : σ → ε → Option σ) (astep : τ → φ → Option τ)
    (p : σ → ε → List φ) (R : σ → τ → Prop) (s : σ) (a : τ) : Prop :=
  ∀ es s', exec step s es = some s' →
    ∃ a', exec astep a (seen step p s es) = some a' ∧ R s' a'

/-- Forward simulation. -/
theorem refines_of_step {φ : Type*} {astep : τ → φ → Option τ} {R : σ → τ → Prop}
    {p : σ → ε → List φ}
    (hstep : ∀ s a e s', R s a → step s e = some s' →
      ∃ a', exec astep a (p s e) = some a' ∧ R s' a')
    {s : σ} {a : τ} (hR : R s a) : Refines step astep p R s a := by
  intro es s' hrun
  induction es generalizing s a with
  | nil => exact ⟨a, rfl, Option.some.inj hrun ▸ hR⟩
  | cons e es ih =>
    obtain ⟨t, ht, hrest⟩ := exec_cons_eq_some.mp hrun
    obtain ⟨b, hb, hRt⟩ := hstep s a e t hR ht
    obtain ⟨a', ha', hR'⟩ := ih hRt hrest
    have hseen : seen step p s (e :: es) = p s e ++ seen step p t es := by simp only [seen, ht]
    refine ⟨a', ?_, hR'⟩
    rw [hseen, exec_append, hb]
    exact ha'

/-- Forward simulation over the same events. -/
theorem exec_simulates {astep : τ → ε → Option τ} {R : σ → τ → Prop}
    (hstep : ∀ s a e s', R s a → step s e = some s' → ∃ a', astep a e = some a' ∧ R s' a')
    {s s' : σ} {a : τ} {es : List ε} (hR : R s a) (hrun : exec step s es = some s') :
    ∃ a', exec astep a es = some a' ∧ R s' a' := by
  have hsame : seen step (fun _ e => [e]) s es = es := by
    clear hR
    induction es generalizing s with
    | nil => rfl
    | cons e es ih =>
      obtain ⟨t, ht, hrest⟩ := exec_cons_eq_some.mp hrun
      simp only [seen, ht, List.singleton_append, ih hrest]
  have hmatched : Refines step astep (fun _ e => [e]) R s a :=
    refines_of_step (fun s a e s' hR h => by simpa [exec] using hstep s a e s' hR h) hR
  rw [← hsame]
  exact hmatched es s' hrun

/-- Forward simulation under an abstraction function. -/
theorem exec_seen {φ : Type*} {astep : τ → φ → Option τ} {f : σ → τ} {p : σ → ε → List φ}
    (hstep : ∀ s e s', step s e = some s' → exec astep (f s) (p s e) = some (f s'))
    {s s' : σ} {es : List ε} (hrun : exec step s es = some s') :
    exec astep (f s) (seen step p s es) = some (f s') := by
  have hmatched : Refines step astep p (fun s a => a = f s) s (f s) :=
    refines_of_step (R := fun s a => a = f s)
      (fun s _ e s' hR h => ⟨f s', hR ▸ hstep s e s' h, rfl⟩) rfl
  obtain ⟨_, hexec, rfl⟩ := hmatched es s' hrun
  exact hexec

end Runs
