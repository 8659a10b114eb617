import RNFantuan.Runtime.Value

/-!
# The request wrapper `_FetchData`

`lib/Global.js`. A request ends in one of three ways: `fetch` rejects, the body
is not JSON, or a JSON body arrives. Every failure is shown as a toast and the
promise then resolves with `undefined`, written `none` here; the promise never
rejects.
-/

namespace RNFantuan.Net
open JS

structure Response (δ : Type*) where
  error : Value
  msg : Value
  data : Option δ

inductive Outcome (δ : Type*)
  | rejected
  | badBody
  | json (body : Option (Response δ))

variable {δ : Type*}

/-- The second `then` of `_FetchData`; the body `null` has no `msg` to read. -/
def checkBody : Option (Response δ) → Except Thrown (Response δ)
  | none => .error .error
  | some res =>
    if res.msg.truthy ∧ ¬ res.error.looseEq (nat 0) then .error (.value res.msg) else .ok res

def settled : Outcome δ → Except Thrown (Response δ)
  | .rejected | .badBody => .error .error
  | .json body => checkBody body

def caught : Thrown → Value
  | .value (.str s) => .str s
  | _ => .str "网络异常"

structure Fetched (δ : Type*) where
  res : Option (Response δ)
  toast : Option Value

def fetchData (o : Outcome δ) : Fetched δ :=
  match settled o with
  | .ok res => ⟨some res, none⟩
  | .error err => ⟨none, some (caught err)⟩

@[simp]
theorem fetchData_rejected : (fetchData (.rejected : Outcome δ)).res = none := rfl

@[simp]
theorem fetchData_badBody : (fetchData (.badBody : Outcome δ)).res = none := rfl

theorem fetchData_json (res : Response δ) :
    (fetchData (.json (some res))).res =
      if res.msg.truthy ∧ ¬ res.error.looseEq (nat 0) then none else some res := by
  simp only [fetchData, settled, checkBody]
  split_ifs <;> rfl

end RNFantuan.Net
