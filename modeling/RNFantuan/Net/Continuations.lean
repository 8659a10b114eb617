import RNFantuan.Net.FetchData

/-!
# What the callers of `_FetchData` do with its result

The continuations of `HeadlineForm.goNext`, `SetPassword.confirm`,
`ResetPassword.confirm`, `BindPhone.bindPhone` and `CodeInput.sendCode`, as the
effects they perform in order and the exception that escapes them, if any. The
native modules are taken to be present.
-/

namespace RNFantuan.Net
open JS

inductive Platform
  | ios
  | android
  deriving DecidableEq

inductive Effect
  | setSubmitting (b : Bool)
  | setDisabledBtn (b : Bool)
  | toast (msg : Value)
  | navigate (routeName : String)
  | goReLogin
  | goRootTabBar
  | goAfterWXBindPhone
  | exit
  | startCounting
  deriving DecidableEq

structure Ran where
  effects : List Effect
  thrown : Option Thrown

def Ran.done (effects : List Effect) : Ran := ⟨effects, none⟩

/-- `.then(f).catch(g)`: `g` runs after what `f` did before it threw. -/
def Ran.orElse (r : Ran) (g : List Effect) : Ran :=
  match r.thrown with
  | none => r
  | some _ => .done (r.effects ++ g)

@[simp]
theorem Ran.orElse_done (es g : List Effect) : (Ran.done es).orElse g = .done es := rfl

variable {δ : Type*}

/-- `res && Boolean(res.error) && res.msg`, else `res && !Boolean(res.error)`. -/
def branch (refused : Value → List Effect) (success : List Effect) :
    Option (Response δ) → List Effect
  | none => []
  | some res =>
    if res.error.truthy ∧ res.msg.truthy then refused res.msg
    else if ¬ res.error.truthy then success
    else []

namespace SetPassword

def confirmComplete : Platform → List Effect
  | .ios => [.goReLogin, .exit]
  | .android => [.goReLogin]

def confirmThen (os : Platform) (res : Option (Response δ)) : Ran :=
  (Ran.done (.setSubmitting false ::
    branch (fun msg => [.toast msg]) (confirmComplete os) res)).orElse [.setSubmitting false]

end SetPassword

namespace ResetPassword

def confirmComplete : Platform → List Effect
  | .ios => [.goReLogin, .exit]
  | .android => [.goReLogin]

def confirmThen (os : Platform) (res : Option (Response δ)) : Ran :=
  (Ran.done (.setSubmitting false ::
    branch (fun msg => [.toast msg]) (confirmComplete os) res)).orElse [.setSubmitting false]

end ResetPassword

namespace BindPhone

def leave : Platform → List Effect
  | .android => [.goAfterWXBindPhone]
  | .ios => [.goRootTabBar, .exit]

def bindPhoneThen (os : Platform) (res : Option (Response δ)) : Ran :=
  (Ran.done (.setSubmitting false ::
    branch (fun msg => if msg.truthy then [.toast msg] else []) (leave os) res)).orElse
      [.setSubmitting false]

end BindPhone

namespace CodeInput

def sent : List Effect := [.toast (.str "验证码已发送，请注意查收"), .startCounting]

def sendCodeThen (res : Option (Response δ)) : Ran :=
  (Ran.done (branch (fun msg => [.toast msg, .setDisabledBtn false]) sent res)).orElse
    [.setDisabledBtn false]

end CodeInput

namespace HeadlineForm

/-- The only continuation that reads `res.error` without asking for `res` first,
and whose error callback does not cover its success callback. -/
def goNextThen : Option (Response δ) → Ran
  | none => ⟨[.setSubmitting false], some .error⟩
  | some res =>
    if res.error.truthy ∧ (Value.num res.error.toNumber).truthy ∧ res.msg.truthy then
      .done [.setSubmitting false, .toast res.msg]
    else .done [.setSubmitting false, .navigate "HeadlineSubmitted"]

end HeadlineForm

/-! ### The branches in terms of `error` -/

theorem branch_of_falsy (refused : Value → List Effect) (success : List Effect)
    {res : Response δ} (h : res.error.truthy = false) :
    branch refused success (some res) = success := by
  simp [branch, h]

theorem branch_of_truthy (refused : Value → List Effect) (success : List Effect)
    {res : Response δ} (h : res.error.truthy = true) :
    branch refused success (some res) = if res.msg.truthy then refused res.msg else [] := by
  simp [branch, h]

/-- The responses on which the success branch runs. -/
def Response.favourable (res : Response δ) : Bool := !res.error.truthy

theorem count_branch {a : Effect} {refused : Value → List Effect}
    (hrefused : ∀ msg, (refused msg).count a = 0) (success : List Effect)
    (res : Option (Response δ)) :
    (branch refused success res).count a =
      if res.any Response.favourable then success.count a else 0 := by
  cases res with
  | none => rfl
  | some res =>
    cases he : res.error.truthy with
    | false =>
      rw [branch_of_falsy _ _ he]
      simp [Response.favourable, he]
    | true =>
      rw [branch_of_truthy _ _ he]
      cases res.msg.truthy <;> simp [Response.favourable, he, hrefused]

end RNFantuan.Net
