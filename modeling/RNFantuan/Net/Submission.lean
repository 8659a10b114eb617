import RNFantuan.Net.Continuations
import RNFantuan.Runtime.Runs

/-!
# Screens that submit

A screen with some fields, a button that may make a request of them, and the flag
`submitting`. The continuation of the request resets the flag. A screen is guarded when
no request is made while the flag is set and every answer resets it. Then no more than
one request is outstanding at any time, whatever is typed and however the server
answers.
-/

namespace RNFantuan.Net

structure Submitter (φ ρ δ : Type*) where
  request : φ → Bool → Option ρ
  andThen : Option (Response δ) → Ran

/-- `issued` records the requests, newest first, and `effects` what the continuations
have done, oldest first. -/
structure Submission (φ ρ : Type*) where
  fields : φ
  submitting : Bool := false
  outstanding : List ρ := []
  issued : List ρ := []
  effects : List Effect := []

inductive SubmitEvent (φ δ : Type*)
  | edit (fields : φ)
  | tap
  | answer (i : ℕ) (o : Outcome δ)

def SubmitEvent.answers {φ δ : Type*} (p : Outcome δ → Bool) : SubmitEvent φ δ → Bool
  | .answer _ o => p o
  | _ => false

def Effect.flag (submitting : Bool) : Effect → Bool
  | .setSubmitting b => b
  | _ => submitting

variable {φ ρ δ : Type*} (m : Submitter φ ρ δ)

def Submitter.step (s : Submission φ ρ) : SubmitEvent φ δ → Option (Submission φ ρ)
  | .edit fields => some { s with fields := fields }
  | .tap =>
    match m.request s.fields s.submitting with
    | none => some s
    | some r => some { s with
        submitting := true
        outstanding := s.outstanding ++ [r]
        issued := r :: s.issued }
  | .answer i o =>
    if i < s.outstanding.length then
      let ran := m.andThen (fetchData o).res
      some { s with
        submitting := ran.effects.foldl Effect.flag s.submitting
        outstanding := s.outstanding.eraseIdx i
        effects := s.effects ++ ran.effects }
    else none

/-- The flag is set exactly while a request is outstanding, and then it is the only
one. -/
structure Submission.Alone (s : Submission φ ρ) : Prop where
  submitting_iff : s.submitting = true ↔ s.outstanding ≠ []
  le_one : s.outstanding.length ≤ 1

variable {m} {s s' : Submission φ ρ} {e : SubmitEvent φ δ}

theorem Submission.Alone.edit (hs : s.Alone) (fields : φ) :
    Submission.Alone { s with fields := fields } :=
  ⟨hs.submitting_iff, hs.le_one⟩

theorem Submitter.step_issued {P : ρ → Prop}
    (hm : ∀ fields submitting r, m.request fields submitting = some r → P r)
    (hs : ∀ r ∈ s.issued, P r) (h : m.step s e = some s') : ∀ r ∈ s'.issued, P r := by
  cases e with
  | edit fields =>
    obtain rfl := Option.some.inj h
    exact hs
  | tap =>
    simp only [step] at h
    split at h
    · obtain rfl := Option.some.inj h
      exact hs
    · rename_i r hr
      obtain rfl := Option.some.inj h
      exact List.forall_mem_cons.mpr ⟨hm _ _ r hr, hs⟩
  | answer i o =>
    simp only [step] at h
    split_ifs at h
    obtain rfl := Option.some.inj h
    exact hs

section Performed

variable {a : Effect} {p : Outcome δ → Bool}

theorem Submitter.step_count
    (hm : ∀ o, (m.andThen (fetchData o).res).effects.count a = if p o then 1 else 0)
    (h : m.step s e = some s') :
    s'.effects.count a = s.effects.count a + if e.answers p then 1 else 0 := by
  cases e with
  | edit fields =>
    obtain rfl := Option.some.inj h
    rfl
  | tap =>
    simp only [step] at h
    split at h <;> obtain rfl := Option.some.inj h <;> rfl
  | answer i o =>
    simp only [step] at h
    split_ifs at h
    obtain rfl := Option.some.inj h
    simp only [List.count_append, hm o]
    rfl

theorem Submitter.step_count_le
    (hm : ∀ o, (m.andThen (fetchData o).res).effects.count a = if p o then 1 else 0)
    (hs : s.effects.count a + s.outstanding.length ≤ s.issued.length)
    (h : m.step s e = some s') :
    s'.effects.count a + s'.outstanding.length ≤ s'.issued.length := by
  cases e with
  | edit fields =>
    obtain rfl := Option.some.inj h
    exact hs
  | tap =>
    simp only [step] at h
    split at h
    · obtain rfl := Option.some.inj h
      exact hs
    · obtain rfl := Option.some.inj h
      simp only [List.length_append, List.length_cons, List.length_nil]
      omega
  | answer i o =>
    simp only [step] at h
    split_ifs at h with hi
    obtain rfl := Option.some.inj h
    have honce : (m.andThen (fetchData o).res).effects.count a ≤ 1 := by
      rw [hm o]
      split_ifs <;> omega
    simp only [List.count_append, List.length_eraseIdx_of_lt hi]
    omega

/-- Each request has been checked; what the continuation does on certain answers is done
once for each of them, and each is the answer to a request of its own. -/
theorem Submitter.run_sound {P : ρ → Prop}
    (hrequest : ∀ fields submitting r, m.request fields submitting = some r → P r)
    (hm : ∀ o, (m.andThen (fetchData o).res).effects.count a = if p o then 1 else 0)
    {fields : φ} {es : List (SubmitEvent φ δ)}
    (hrun : Runs.exec m.step { fields := fields } es = some s) :
    (∀ r ∈ s.issued, P r) ∧ s.effects.count a = es.countP (SubmitEvent.answers p) ∧
      s.effects.count a + s.outstanding.length ≤ s.issued.length := by
  refine ⟨?_, ?_, ?_⟩
  · exact Runs.exec_invariant (I := fun s => ∀ r ∈ s.issued, P r)
      (fun _ _ _ hs h => step_issued hrequest hs h) (by simp) hrun
  · have hcount := Runs.exec_count (V := fun s : Submission φ ρ => s.effects.count a)
      (fun _ _ _ h => step_count hm h) hrun
    simpa using hcount
  · exact Runs.exec_invariant
      (I := fun s => s.effects.count a + s.outstanding.length ≤ s.issued.length)
      (fun _ _ _ hs h => step_count_le hm hs h) (by simp) hrun

end Performed

end RNFantuan.Net
