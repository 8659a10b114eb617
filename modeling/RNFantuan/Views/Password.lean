import RNFantuan.Net.Submission

/-!
# Setting and changing a password

`views/SetPassword.js` and `views/ResetPassword.js`. A tap on the button checks the
texts in order and shows a toast at the first that fails; the check of `submitting`
comes last. The answer is judged as by the other screens, and a favourable one sends
the user to log in again.
-/

namespace RNFantuan.Views
open JS Net

/-- `!password || password.length < 6 || password.length > 24`. -/
def badLength (password : String) : Bool :=
  password = "" ∨ textLength password < 6 ∨ 24 < textLength password

inductive ConfirmTap (ρ : Type*)
  | toast (msg : String)
  | issued (rData : ρ)
  deriving DecidableEq

def ConfirmTap.request {ρ : Type*} : ConfirmTap ρ → Option ρ
  | .toast _ => none
  | .issued rData => some rData

theorem ConfirmTap.request_eq_some {ρ : Type*} {t : ConfirmTap ρ} {r : ρ} :
    t.request = some r ↔ t = .issued r := by
  cases t <;> simp [request]

variable {δ : Type*}

namespace SetPassword

structure Request where
  address : String := "/jv/user/password/create"
  password : String
  deriving DecidableEq

def confirm (password : String) (submitting : Bool) : ConfirmTap Request :=
  if badLength password then .toast "请输入6-24个字符"
  else if submitting then .toast "正在提交，请稍后..."
  else .issued { password := password }

def submitter (os : Platform) : Submitter String Request δ where
  request password submitting := (confirm password submitting).request
  andThen := Net.SetPassword.confirmThen os

end SetPassword

namespace ResetPassword

/-- `oldPassword` is not in the initial state. -/
structure Fields where
  oldPassword : Option String := none
  password : String := ""
  deriving DecidableEq

structure Request where
  address : String := "/jv/user/password/change"
  oldPassword : String
  password : String
  deriving DecidableEq

def confirm (fields : Fields) (submitting : Bool) : ConfirmTap Request :=
  let oldPassword := fields.oldPassword.getD ""
  if badLength oldPassword then .toast "请输入6-24个字符的原密码"
  else if badLength fields.password then .toast "请输入6-24个字符的新密码"
  else if oldPassword ≠ "" ∧ fields.password ≠ "" ∧ oldPassword = fields.password then
    .toast "原密码与新密码不能一致"
  else if submitting then .toast "正在提交，请稍后..."
  else .issued { oldPassword := oldPassword, password := fields.password }

def submitter (os : Platform) : Submitter Fields Request δ where
  request fields submitting := (confirm fields submitting).request
  andThen := Net.ResetPassword.confirmThen os

end ResetPassword

/-! ### What is accepted -/

structure Acceptable (password : String) : Prop where
  least : 6 ≤ textLength password
  most : textLength password ≤ 24

theorem badLength_iff {password : String} : badLength password = false ↔ Acceptable password := by
  have hempty : ∀ s : String, 6 ≤ textLength s → s ≠ "" := by
    rintro s h rfl
    exact absurd h (by decide)
  simp only [badLength, decide_eq_false_iff_not, not_or, not_lt]
  exact ⟨fun h => ⟨h.2.1, h.2.2⟩, fun h => ⟨hempty _ h.least, h.least, h.most⟩⟩

theorem SetPassword.confirm_issued {password : String} {submitting : Bool} {r : Request} :
    confirm password submitting = .issued r ↔
      Acceptable password ∧ submitting = false ∧ r = { password := password } := by
  rw [← badLength_iff]
  unfold confirm
  cases badLength password <;> cases submitting <;> simp [eq_comm]

theorem ResetPassword.confirm_issued {fields : Fields} {submitting : Bool} {r : Request} :
    confirm fields submitting = .issued r ↔
      Acceptable (fields.oldPassword.getD "") ∧ Acceptable fields.password ∧
        fields.oldPassword.getD "" ≠ fields.password ∧ submitting = false ∧
        r = { oldPassword := fields.oldPassword.getD "", password := fields.password } := by
  simp only [← badLength_iff, confirm]
  generalize fields.oldPassword.getD "" = old
  cases hold : badLength old with
  | true => simp
  | false =>
    cases hnew : badLength fields.password with
    | true => simp
    | false =>
      have hne : old ≠ "" := by
        rintro rfl
        simp [badLength] at hold
      have hne' : fields.password ≠ "" := by
        intro h
        simp [badLength, h] at hnew
      by_cases heq : old = fields.password
      · simp [heq, hne']
      · cases submitting with
        | true => simp [heq]
        | false => simpa [heq] using eq_comm

/-! ### Runs of the two screens -/

/-- The answers on which `confirmComplete` is called. -/
def favourable (o : Outcome δ) : Bool := (fetchData o).res.any Response.favourable

/-- The continuation of both screens, whose `confirmComplete` sends the user to log in
once. -/
theorem count_confirmThen {complete : List Effect} (hcomplete : complete.count .goReLogin = 1)
    (o : Outcome δ) :
    (Effect.setSubmitting false ::
        branch (fun msg => [.toast msg]) complete (fetchData o).res).count .goReLogin =
      if favourable o then 1 else 0 := by
  rw [List.count_cons_of_ne (by simp), count_branch (by simp), hcomplete, favourable]

theorem SetPassword.count_goReLogin (os : Platform) (o : Outcome δ) :
    (Net.SetPassword.confirmThen os (fetchData o).res).effects.count .goReLogin =
      if favourable o then 1 else 0 :=
  count_confirmThen (by cases os <;> rfl) o

theorem ResetPassword.count_goReLogin (os : Platform) (o : Outcome δ) :
    (Net.ResetPassword.confirmThen os (fetchData o).res).effects.count .goReLogin =
      if favourable o then 1 else 0 :=
  count_confirmThen (by cases os <;> rfl) o

/-- In every run the passwords sent have 6 to 24 characters and the new one differs from
the old one, and the user is sent to log in once for each favourable answer, to a request
of its own. -/
theorem passwords_checked (os : Platform) :
    (∀ (es : List (SubmitEvent String δ)) s,
      Runs.exec (SetPassword.submitter os).step { fields := "" } es = some s →
        (∀ r ∈ s.issued, Acceptable r.password) ∧
          s.effects.count .goReLogin = es.countP (SubmitEvent.answers favourable) ∧
          s.effects.count .goReLogin + s.outstanding.length ≤ s.issued.length) ∧
    (∀ (es : List (SubmitEvent ResetPassword.Fields δ)) s,
      Runs.exec (ResetPassword.submitter os).step { fields := {} } es = some s →
        (∀ r ∈ s.issued, Acceptable r.oldPassword ∧ Acceptable r.password ∧
          r.oldPassword ≠ r.password) ∧
          s.effects.count .goReLogin = es.countP (SubmitEvent.answers favourable) ∧
          s.effects.count .goReLogin + s.outstanding.length ≤ s.issued.length) := by
  refine ⟨fun es s hrun => ?_, fun es s hrun => ?_⟩
  · refine Submitter.run_sound (fun password submitting r hr => ?_)
      (SetPassword.count_goReLogin os) hrun
    obtain ⟨hpassword, -, rfl⟩ := SetPassword.confirm_issued.mp (ConfirmTap.request_eq_some.mp hr)
    exact hpassword
  · refine Submitter.run_sound (fun fields submitting r hr => ?_)
      (ResetPassword.count_goReLogin os) hrun
    obtain ⟨hold, hnew, hne, -, rfl⟩ :=
      ResetPassword.confirm_issued.mp (ConfirmTap.request_eq_some.mp hr)
    exact ⟨hold, hnew, hne⟩

theorem passwords_checked_on_retry :
    (∃ s, Runs.exec (SetPassword.submitter .ios : Submitter _ _ Unit).step { fields := "" }
        [.tap, .edit "abcdef", .tap, .tap, .answer 0 .rejected, .tap,
          .answer 0 (.json (some ⟨.num (.ofNat 0), .undefined, none⟩))] = some s ∧
      s.issued.length = 2 ∧ s.effects.count .goReLogin = 1 ∧
      ∀ r ∈ s.issued, Acceptable r.password) ∧
    ∃ s, Runs.exec (ResetPassword.submitter .ios : Submitter _ _ Unit).step { fields := {} }
        [.edit ⟨some "abcdef", "abcdef"⟩, .tap, .edit ⟨some "abcdef", "abcdefg"⟩, .tap] =
        some s ∧ s.issued.length = 1 ∧ ∀ r ∈ s.issued, r.oldPassword ≠ r.password := by
  have h := @passwords_checked Unit .ios
  obtain ⟨hset, hcount, -⟩ := h.1 [.tap, .edit "abcdef", .tap, .tap, .answer 0 .rejected, .tap,
    .answer 0 (.json (some ⟨.num (.ofNat 0), .undefined, none⟩))] _ rfl
  obtain ⟨hreset, -⟩ := h.2 [.edit ⟨some "abcdef", "abcdef"⟩, .tap,
    .edit ⟨some "abcdef", "abcdefg"⟩, .tap] _ rfl
  exact ⟨⟨_, rfl, by decide, hcount.trans (by decide), hset⟩, _, rfl, by decide,
    fun r hr => (hreset r hr).2.2⟩

end RNFantuan.Views
