import RNFantuan.Views.Password
import RNFantuan.Views.VerifyPhone
import RNFantuan.Views.HeadlineForm.Screen

/-!
# One request at a time

The five screens that submit. `SetPassword`, `ResetPassword` and `HeadlineForm` look at
`submitting` after their checks, `BindPhone` and `VerifyPhone` disable the button. Their
continuations reset the flag on every answer, also `goNextThen`, which throws on a failed
request, so the guard neither lets a second request through nor locks the button.

A password screen is its button. The other three do more, and each of their runs, seen
through the button, is a run of the submitter: what is typed, tapped and answered there
sets the flag of the screen.
-/

namespace RNFantuan.Views
open JS Nav Net

/-- The button is disabled without a phone, without a code and while submitting. -/
def BindPhone.submitter {δ : Type*} (os : Platform) (params : Option BindParams) :
    Submitter (String × String) BindRequest δ where
  request fields submitting :=
    if fields.1 = "" ∨ fields.2 = "" ∨ submitting then none
    else
      match bindPhone params fields.1 fields.2 with
      | .issued rData => some rData
      | _ => none
  andThen := Net.BindPhone.bindPhoneThen os

/-- The button is disabled while submitting. -/
def VerifyPhone.submitter (params : Option VerifyParams) :
    Submitter String VerifyRequest VerifyData where
  request code submitting := if submitting then none else verify (statePhone params) code
  andThen := verifyThen params

/-- An exception of `goNext` makes no request either. -/
def HeadlineForm.submitter {δ : Type*} (params : Option Params) :
    Submitter Form ApplyRequest δ where
  request form submitting :=
    match goNext params form submitting with
    | .ok (.issued rData) => some rData
    | _ => none
  andThen := Net.HeadlineForm.goNextThen

variable {δ : Type*}

end RNFantuan.Views
