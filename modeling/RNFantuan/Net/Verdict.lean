import RNFantuan.Net.Continuations

/-!
# Success actions against the server's verdict

A reply is a failed request or a JSON object whose `error` is a number or a
numeric text. The verdict is favourable when `Number(error)` is zero. Each of
the five callers is compared with it: four of them judge a text by
`Boolean(error)`, under which `"0"` is an error, and `goNext` reads
`res.error` of `undefined` and lets a nonzero error without message through.
-/

namespace RNFantuan.Net
open JS

/-- A JSON number or a numeric text; `NaN` is neither. -/
inductive ErrorField
  | number (n : Number) (numeric : n ≠ .nan)
  | text (s : String) (numeric : Number.ofText s ≠ .nan)

def ErrorField.value : ErrorField → Value
  | .number n _ => .num n
  | .text s _ => .str s

def ErrorField.isZero (e : ErrorField) : Bool := e.value.toNumber.isZero

/-- A text that is zero as a number but, being nonempty, true as a condition. -/
def ErrorField.truthyZero : ErrorField → Bool
  | .number _ _ => false
  | .text s _ => s ≠ "" ∧ (Number.ofText s).isZero

inductive Reply (δ : Type*)
  | rejected
  | badBody
  | body (error : ErrorField) (msg : Option String) (data : Option δ)

variable {δ : Type*}

namespace Reply

def msgValue : Option String → Value
  | none => .undefined
  | some s => .str s

def outcome : Reply δ → Outcome δ
  | .rejected => .rejected
  | .badBody => .badBody
  | .body error msg data => .json (some ⟨error.value, msgValue msg, data⟩)

def accepted : Reply δ → Bool
  | .body error _ _ => error.isZero
  | _ => false

def truthyZero : Reply δ → Bool
  | .body error _ _ => error.truthyZero
  | _ => false

end Reply

inductive Caller
  | goNext
  | setPassword
  | resetPassword
  | bindPhone
  | sendCode
  deriving DecidableEq

namespace Caller

def continuation (c : Caller) (os : Platform) (res : Option (Response δ)) : Ran :=
  match c with
  | .goNext => HeadlineForm.goNextThen res
  | .setPassword => SetPassword.confirmThen os res
  | .resetPassword => ResetPassword.confirmThen os res
  | .bindPhone => BindPhone.bindPhoneThen os res
  | .sendCode => CodeInput.sendCodeThen res

def success : Caller → Platform → List Effect
  | .goNext, _ => [.navigate "HeadlineSubmitted"]
  | .setPassword, os => SetPassword.confirmComplete os
  | .resetPassword, os => ResetPassword.confirmComplete os
  | .bindPhone, os => BindPhone.leave os
  | .sendCode, _ => CodeInput.sent

end Caller

def Effect.isSuccess : Effect → Bool
  | .setSubmitting _ | .setDisabledBtn _ | .toast _ => false
  | _ => true

def Ran.quiet (r : Ran) : Prop := ∀ e ∈ r.effects, e.isSuccess = false

/-- The callback throws nothing, ends in its success action on a favourable
verdict, and has no part of it otherwise. -/
def Ran.Follows (r : Ran) (accepted : Bool) (success : List Effect) : Prop :=
  r.thrown = none ∧ if accepted then success <:+ r.effects else r.quiet

instance (r : Ran) : Decidable r.quiet :=
  inferInstanceAs (Decidable (∀ e ∈ r.effects, e.isSuccess = false))

instance (r : Ran) (accepted : Bool) (success : List Effect) :
    Decidable (r.Follows accepted success) :=
  inferInstanceAs (Decidable (r.thrown = none ∧
    if accepted then success <:+ r.effects else r.quiet))

def FollowsVerdict (c : Caller) (os : Platform) (reply : Reply δ) : Prop :=
  (c.continuation os (fetchData reply.outcome).res).Follows reply.accepted (c.success os)

instance (c : Caller) (os : Platform) (reply : Reply δ) : Decidable (FollowsVerdict c os reply) :=
  inferInstanceAs (Decidable (Ran.Follows _ _ _))

/-! ### How a reply reaches the continuation -/

theorem ErrorField.looseEq_zero (e : ErrorField) : e.value.looseEq (nat 0) = e.isZero := by
  cases e with
  | number n h => exact Value.looseEq_num_zero n
  | text s h => exact Value.looseEq_str_zero s

theorem ErrorField.truthy_eq (e : ErrorField) :
    e.value.truthy = (e.truthyZero || !e.isZero) := by
  cases e with
  | number n h => simp [value, Value.truthy, truthyZero, isZero, Value.toNumber, h]
  | text s h =>
    by_cases hs : s = ""
    · subst hs
      have hz : (Number.ofText "").isZero = true := by decide
      simp [value, Value.truthy, truthyZero, isZero, Value.toNumber, hz]
    · by_cases hz : (Number.ofText s).isZero <;>
        simp [value, Value.truthy, truthyZero, isZero, Value.toNumber, hs, hz]

theorem ErrorField.isZero_of_truthyZero {e : ErrorField} (h : e.truthyZero = true) :
    e.isZero = true := by
  cases e with
  | number n hn => cases h
  | text s hs =>
    have hz : s ≠ "" ∧ (Number.ofText s).isZero = true := by simpa [truthyZero] using h
    exact hz.2

theorem fetchData_of_isZero {e : ErrorField} (h : e.isZero = true) (msg : Option String)
    (data : Option δ) :
    (fetchData (Reply.body e msg data).outcome).res =
      some ⟨e.value, Reply.msgValue msg, data⟩ := by
  rw [Reply.outcome, fetchData_json, if_neg]
  simp [ErrorField.looseEq_zero, h]

theorem fetchData_of_not_isZero {e : ErrorField} (h : e.isZero = false) (msg : Option String)
    (data : Option δ) :
    (fetchData (Reply.body e msg data).outcome).res =
      if (Reply.msgValue msg).truthy then none else some ⟨e.value, Reply.msgValue msg, data⟩ := by
  rw [Reply.outcome, fetchData_json]
  simp [ErrorField.looseEq_zero, h]

/-! ### The four callers that branch on `Boolean(error)` -/

section Branching

variable {refused : Value → List Effect} {success : List Effect}

theorem branch_of_truthyZero (refused : Value → List Effect) (success : List Effect)
    {reply : Reply δ} (h : reply.truthyZero = true) :
    ∃ v, branch refused success (fetchData reply.outcome).res = refused v ∨
      branch refused success (fetchData reply.outcome).res = [] := by
  rcases reply with _ | _ | ⟨error, msg, data⟩
  · cases h
  · cases h
  · have hz := ErrorField.isZero_of_truthyZero h
    have htr : error.value.truthy = true := by
      rw [ErrorField.truthy_eq, show error.truthyZero = true from h]
      rfl
    rw [fetchData_of_isZero hz, branch_of_truthy _ _ htr]
    refine ⟨Reply.msgValue msg, ?_⟩
    split_ifs
    · exact Or.inl rfl
    · exact Or.inr rfl

theorem branch_of_accepted (refused : Value → List Effect) (success : List Effect)
    {reply : Reply δ} (h : reply.accepted = true) (ht : reply.truthyZero = false) :
    branch refused success (fetchData reply.outcome).res = success := by
  rcases reply with _ | _ | ⟨error, msg, data⟩
  · cases h
  · cases h
  · have hz : error.isZero = true := h
    have htr : error.value.truthy = false := by
      rw [ErrorField.truthy_eq, hz, show error.truthyZero = false from ht]
      rfl
    rw [fetchData_of_isZero hz, branch_of_falsy _ _ htr]

theorem branch_of_not_accepted (refused : Value → List Effect) (success : List Effect)
    {reply : Reply δ} (h : reply.accepted = false) :
    branch refused success (fetchData reply.outcome).res = [] := by
  rcases reply with _ | _ | ⟨error, msg, data⟩
  · rfl
  · rfl
  · have hz : error.isZero = false := h
    have htr : error.value.truthy = true := by
      rw [ErrorField.truthy_eq, hz]
      simp
    rw [fetchData_of_not_isZero hz]
    split_ifs with hm
    · rfl
    · rw [branch_of_truthy _ _ htr, if_neg hm]

theorem accepted_of_truthyZero {reply : Reply δ} (h : reply.truthyZero = true) :
    reply.accepted = true := by
  rcases reply with _ | _ | ⟨error, msg, data⟩
  · cases h
  · cases h
  · exact ErrorField.isZero_of_truthyZero h

theorem branching_follows_iff {before : List Effect} {reply : Reply δ}
    (hbefore : ∀ e ∈ before, e.isSuccess = false)
    (hrefused : ∀ v, ∀ e ∈ refused v, e.isSuccess = false)
    (hsuccess : ∃ e ∈ success, e.isSuccess = true) :
    (Ran.done (before ++ branch refused success (fetchData reply.outcome).res)).Follows
      reply.accepted success ↔ reply.truthyZero = false := by
  have hnot : ∀ es : List Effect, (∀ e ∈ es, e.isSuccess = false) → ¬ success <:+ es := by
    intro es hes hsuf
    obtain ⟨e, he, hs⟩ := hsuccess
    simpa [hs] using hes e (hsuf.subset he)
  cases ht : reply.truthyZero with
  | true =>
    simp only [Ran.Follows, accepted_of_truthyZero ht, if_true, Ran.done, true_and,
      Bool.true_eq_false, iff_false]
    apply hnot
    intro e he
    obtain ⟨v, hv | hv⟩ := branch_of_truthyZero refused success ht
    · rw [hv] at he
      exact (List.mem_append.mp he).elim (hbefore e) (hrefused v e)
    · rw [hv, List.append_nil] at he
      exact hbefore e he
  | false =>
    cases ha : reply.accepted with
    | true =>
      simp [Ran.Follows, Ran.done, branch_of_accepted refused success ha ht]
    | false =>
      simpa [Ran.Follows, Ran.done, Ran.quiet, branch_of_not_accepted refused success ha]
        using hbefore

end Branching

/-! ### `goNext` -/

theorem goNextThen_follows_iff (os : Platform) (reply : Reply δ) :
    FollowsVerdict .goNext os reply ↔ reply.accepted = true := by
  rcases reply with _ | _ | ⟨error, msg, data⟩
  · simp [FollowsVerdict, Ran.Follows, Caller.continuation, Reply.outcome, HeadlineForm.goNextThen,
      Reply.accepted]
  · simp [FollowsVerdict, Ran.Follows, Caller.continuation, Reply.outcome, HeadlineForm.goNextThen,
      Reply.accepted]
  · cases hz : error.isZero with
    | true =>
      have hn : (Value.num error.value.toNumber).truthy = false := by
        have h : error.value.toNumber.isZero = true := hz
        simp [Value.truthy, h]
      simp [FollowsVerdict, Ran.Follows, Caller.continuation, fetchData_of_isZero hz,
        HeadlineForm.goNextThen, Reply.accepted, hz, hn, Caller.success, Ran.done]
    | false =>
      simp only [FollowsVerdict, Ran.Follows, Caller.continuation, fetchData_of_not_isZero hz,
        Reply.accepted, hz, reduceCtorEq, if_false, iff_false]
      split_ifs with hm
      · simp [HeadlineForm.goNextThen]
      · simp [HeadlineForm.goNextThen, hm, Ran.quiet, Ran.done, Effect.isSuccess]

/-- Where a caller judges a reply as the server meant it: `goNext` on favourable
replies only, the others on everything but nonempty texts that are zero. -/
def Caller.judgesRight (c : Caller) (reply : Reply δ) : Bool :=
  match c with
  | .goNext => reply.accepted
  | _ => !reply.truthyZero

theorem Caller.judgesRight_iff {c : Caller} (hc : c ≠ .goNext) {reply : Reply δ} :
    c.judgesRight reply = true ↔ reply.truthyZero = false := by
  cases c <;> simp_all [judgesRight]

theorem success_action_follows_iff (c : Caller) (os : Platform) (reply : Reply δ) :
    FollowsVerdict c os reply ↔ c.judgesRight reply = true := by
  have hset : ∀ e ∈ [Effect.setSubmitting false], e.isSuccess = false := by simp [Effect.isSuccess]
  have htoast : ∀ v, ∀ e ∈ [Effect.toast v], e.isSuccess = false := by simp [Effect.isSuccess]
  cases c with
  | goNext => exact goNextThen_follows_iff os reply
  | setPassword =>
    have hs : ∃ e ∈ SetPassword.confirmComplete os, e.isSuccess = true := by
      cases os <;> exact ⟨.goReLogin, by decide, rfl⟩
    rw [Caller.judgesRight_iff (by decide)]
    exact branching_follows_iff hset htoast hs
  | resetPassword =>
    have hs : ∃ e ∈ ResetPassword.confirmComplete os, e.isSuccess = true := by
      cases os <;> exact ⟨.goReLogin, by decide, rfl⟩
    rw [Caller.judgesRight_iff (by decide)]
    exact branching_follows_iff hset htoast hs
  | bindPhone =>
    have hs : ∃ e ∈ BindPhone.leave os, e.isSuccess = true := by
      cases os with
      | ios => exact ⟨.exit, by decide, rfl⟩
      | android => exact ⟨.goAfterWXBindPhone, by decide, rfl⟩
    have hr : ∀ v : Value, ∀ e ∈ (if v.truthy then [Effect.toast v] else []),
        e.isSuccess = false := by
      intro v
      split_ifs
      · exact htoast v
      · simp
    rw [Caller.judgesRight_iff (by decide)]
    exact branching_follows_iff hset hr hs
  | sendCode =>
    have hs : ∃ e ∈ CodeInput.sent, e.isSuccess = true := ⟨.startCounting, by decide, rfl⟩
    have hr : ∀ v, ∀ e ∈ [Effect.toast v, .setDisabledBtn false], e.isSuccess = false := by
      simp [Effect.isSuccess]
    rw [Caller.judgesRight_iff (by decide)]
    exact branching_follows_iff (List.forall_mem_nil _) hr hs

theorem success_action_strays :
    ¬ FollowsVerdict .setPassword .ios
        (.body (.text "0" (by decide +kernel)) none none : Reply Unit) ∧
      ¬ FollowsVerdict .goNext .ios (.rejected : Reply Unit) := by
  decide +kernel

end RNFantuan.Net
