import RNFantuan.Components.CodeInput
import RNFantuan.Net.Submission
import RNFantuan.Views.HeadlineForm.Form

/-!
# Binding a phone

`views/BindPhone.js`, with the `CodeInput` it feeds its phone to. Three patterns say
what a phone number is, those of `sendCode`, of `bindPhone` and of the application
form. The one of `bindPhone` lets the last eight digits be as few as four, so a number
can be bound that no code is sent to.
-/

namespace RNFantuan.Views.BindPhone
open JS Net Components.CodeInput

structure BindParams where
  rebind : Value := .undefined
  jwtToken : Value := .undefined
  deriving DecidableEq

structure BindRequest where
  address : String
  jwtToken : Option Value
  phone : String
  code : String
  deriving DecidableEq

inductive Tapped
  | badPhone
  | noCode
  | issued (rData : BindRequest)
  deriving DecidableEq

def Tapped.toast : Tapped → Option String
  | .badPhone => "请填写正确手机号"
  | .noCode => "请输入短信验证码"
  | .issued _ => none

/-- The pattern is `/^1[34578][0-9]\d{4,8}$/`. -/
def bindPhone (params : Option BindParams) (phone code : String) : Tapped :=
  if phonePattern 4 8 phone = false then .badPhone
  else if code = "" then .noCode
  else
    match params.filter fun p => p.rebind.truthy with
    | some p => .issued ⟨"/jv/user/phone/change", some p.jwtToken, phone, code⟩
    | none => .issued ⟨"/jv/user/phone/bind", none, phone, code⟩

structure Screen where
  phone : String := ""
  code : String := ""
  submitting : Bool := false
  codeInput : State := mounted ""
  submitted : List BindRequest := []
  deriving DecidableEq

def perform (s : Screen) : Effect → Screen
  | .setSubmitting b => { s with submitting := b }
  | _ => s

variable {δ : Type*}

inductive ScreenEvent (δ : Type*)
  | inputPhone (value : String)
  | inputCode (value : String)
  | sendCode
  | codeAnswered (o : Outcome δ)
  | tick (timer : ℕ)
  | bind
  | bound (os : Platform) (o : Outcome δ)

def Screen.codeStep (s : Screen) (e : Event δ) : Option Screen :=
  (step s.codeInput e).map fun codeInput => { s with codeInput := codeInput }

/-- The button is disabled without a phone, without a code and while submitting. -/
def Screen.step (params : Option BindParams) (s : Screen) : ScreenEvent δ → Option Screen
  | .inputPhone value => some { s with
      phone := value
      codeInput := { s.codeInput with phone := value } }
  | .inputCode value => some { s with code := value }
  | .sendCode => s.codeStep (.press : Event δ)
  | .codeAnswered o => s.codeStep (.answer o)
  | .tick t => s.codeStep (.tick t : Event δ)
  | .bind =>
    if s.phone = "" ∨ s.code = "" ∨ s.submitting then none
    else
      match bindPhone params s.phone s.code with
      | .issued rData => some { s with
          submitting := true
          submitted := rData :: s.submitted }
      | _ => some s
  | .bound os o =>
    if s.submitting then
      some ((Net.BindPhone.bindPhoneThen os (fetchData o).res).effects.foldl perform s)
    else none

/-! ### What a phone number is -/

/-- `n` digits, the first of them `1` and the second `3`, `4`, `5`, `7` or `8`. -/
structure MobileNumber (n : ℕ) (s : String) : Prop where
  length : s.toList.length = n
  digits : ∀ c ∈ s.toList, c.isDigit = true
  first : s.toList[0]? = some '1'
  second : ∃ c ∈ ['3', '4', '5', '7', '8'], s.toList[1]? = some c

theorem phonePattern_iff {lo hi : ℕ} {s : String} :
    phonePattern lo hi s = true ↔ ∃ n, lo ≤ n ∧ n ≤ hi ∧ MobileNumber (n + 3) s := by
  unfold phonePattern
  constructor
  · intro h
    split at h
    · rename_i c d rest hs
      obtain ⟨hc, hd, hrest, hlo, hhi⟩ : c ∈ ['3', '4', '5', '7', '8'] ∧ d.isDigit = true ∧
          rest.all Char.isDigit = true ∧ lo ≤ rest.length ∧ rest.length ≤ hi := by
        simpa using h
      refine ⟨rest.length, hlo, hhi, by simp [hs], ?_, by simp [hs], c, hc, by simp [hs]⟩
      have hcdigit : c.isDigit = true := by
        simp only [List.mem_cons, List.not_mem_nil, or_false] at hc
        rcases hc with rfl | rfl | rfl | rfl | rfl <;> rfl
      rw [hs]
      simpa [hd, hcdigit] using hrest
    · cases h
  · rintro ⟨n, hlo, hhi, hlength, hdigits, hfirst, c, hc, hsecond⟩
    match hs : s.toList with
    | [] => simp [hs] at hlength
    | [_] => simp [hs] at hlength
    | [_, _] => simp [hs] at hlength
    | a :: b :: d :: rest =>
      rw [hs] at hlength hdigits hfirst hsecond
      obtain rfl : a = '1' := by simpa using hfirst
      obtain rfl : b = c := by simpa using hsecond
      have hn : rest.length = n := by simpa using hlength
      have hd : d.isDigit = true := hdigits d (by simp)
      have hrest : rest.all Char.isDigit = true :=
        List.all_eq_true.mpr fun x hx => hdigits x (by simp [hx])
      simp only [decide_eq_true_eq]
      exact ⟨hc, hd, hrest, by omega, by omega⟩

theorem phonePattern_eight {s : String} : phonePattern 8 8 s = true ↔ MobileNumber 11 s := by
  rw [phonePattern_iff]
  constructor
  · rintro ⟨n, hlo, hhi, h⟩
    obtain rfl : n = 8 := by omega
    exact h
  · exact fun h => ⟨8, le_rfl, le_rfl, h⟩

theorem phonePattern_four {s : String} :
    phonePattern 4 8 s = true ↔ phonePattern 4 7 s = true ∨ MobileNumber 11 s := by
  rw [phonePattern_iff, phonePattern_iff]
  constructor
  · rintro ⟨n, hlo, hhi, h⟩
    rcases Nat.lt_or_ge n 8 with hlt | hge
    · exact Or.inl ⟨n, hlo, by omega, h⟩
    · obtain rfl : n = 8 := by omega
      exact Or.inr h
  · rintro (⟨n, hlo, hhi, h⟩ | h)
    · exact ⟨n, hlo, by omega, h⟩
    · exact ⟨8, by omega, le_rfl, h⟩

theorem MobileNumber.not_short {s : String} (h : MobileNumber 11 s) :
    phonePattern 4 7 s = false := by
  rw [← Bool.not_eq_true, phonePattern_iff]
  rintro ⟨n, -, hhi, hshort⟩
  have hlength := hshort.length.symm.trans h.length
  omega

def RequestsCode (phone : String) : Prop :=
  ∀ s : State, s.phone = phone → (sendCode s).outstanding = s.outstanding + 1

def Binds (params : Option BindParams) (phone code : String) : Prop :=
  ∃ rData, bindPhone params phone code = .issued rData

def ValidPhone (phone : String) : Prop :=
  ∀ form : HeadlineForm.Form, form.phone = phone →
    HeadlineForm.validates form .phone = .ok true

theorem requestsCode_iff {phone : String} : RequestsCode phone ↔ MobileNumber 11 phone := by
  rw [← phonePattern_eight]
  constructor
  · intro h
    by_contra hphone
    have hsent := h (mounted phone) rfl
    have hfalse : isPhone (mounted phone).phone = false := by simpa [isPhone, mounted] using hphone
    simp [sendCode, hfalse] at hsent
  · rintro h s rfl
    have hphone : isPhone s.phone = true := h
    simp [sendCode, hphone]

theorem binds_iff {params : Option BindParams} {phone code : String} (hcode : code ≠ "") :
    Binds params phone code ↔ phonePattern 4 8 phone = true := by
  unfold Binds bindPhone
  cases hphone : phonePattern 4 8 phone with
  | false => simp
  | true =>
    refine iff_of_true ?_ rfl
    rw [if_neg (by simp), if_neg hcode]
    split <;> exact ⟨_, rfl⟩

theorem validPhone_iff {phone : String} : ValidPhone phone ↔ MobileNumber 11 phone := by
  rw [← phonePattern_eight]
  constructor
  · intro h
    simpa [HeadlineForm.validates] using h { phone := phone } rfl
  · rintro h form rfl
    simp [HeadlineForm.validates, h]

structure OneNotion (params : Option BindParams) (phone : String) : Prop where
  code_bind : ∀ code, code ≠ "" → (RequestsCode phone ↔ Binds params phone code)
  bind_form : ∀ code, code ≠ "" → (Binds params phone code ↔ ValidPhone phone)
  language : ValidPhone phone ↔ MobileNumber 11 phone

theorem oneNotion_iff {params : Option BindParams} {phone : String} :
    OneNotion params phone ↔ phonePattern 4 7 phone = false := by
  constructor
  · intro h
    by_contra hshort
    have hcode := h.code_bind "0" (by decide)
    rw [requestsCode_iff, binds_iff (by decide), phonePattern_four] at hcode
    have hnumber := hcode.mpr (Or.inl (by simpa using hshort))
    exact hshort hnumber.not_short
  · intro hshort
    have hbinds : ∀ code, code ≠ "" → (Binds params phone code ↔ MobileNumber 11 phone) := by
      intro code hcode
      rw [binds_iff hcode, phonePattern_four]
      simp [hshort]
    refine ⟨fun code hcode => ?_, fun code hcode => ?_, validPhone_iff⟩
    · rw [requestsCode_iff, hbinds code hcode]
    · rw [hbinds code hcode, validPhone_iff]

/-! ### Runs of the screen -/

def SubmitsNumbers (s : Screen) : Prop := ∀ rData ∈ s.submitted, RequestsCode rData.phone

def NoShortNumber (s : Screen) : ScreenEvent δ → Prop
  | .bind => phonePattern 4 7 s.phone = false
  | _ => True

theorem bindPhone_phone {params : Option BindParams} {phone code : String} {rData : BindRequest}
    (h : bindPhone params phone code = .issued rData) :
    rData.phone = phone := by
  unfold bindPhone at h
  split_ifs at h
  split at h <;> exact Tapped.issued.inj h ▸ rfl

theorem foldl_perform (effects : List Effect) (s : Screen) :
    effects.foldl perform s =
      { s with submitting := effects.foldl Effect.flag s.submitting } := by
  induction effects generalizing s with
  | nil => rfl
  | cons effect effects ih =>
    rw [List.foldl_cons, ih]
    cases effect <;> rfl

theorem codeStep_submitted {s s' : Screen} {e : Event δ} (h : s.codeStep e = some s') :
    s'.submitted = s.submitted := by
  obtain ⟨codeInput, -, rfl⟩ := Option.map_eq_some_iff.mp h
  rfl

variable {params : Option BindParams} {s s' : Screen} {e : ScreenEvent δ}

theorem step_submitted (hbind : e ≠ .bind) (h : s.step params e = some s') :
    s'.submitted = s.submitted := by
  cases e with
  | inputPhone value =>
    obtain rfl := Option.some.inj h
    rfl
  | inputCode value =>
    obtain rfl := Option.some.inj h
    rfl
  | sendCode => exact codeStep_submitted h
  | codeAnswered o => exact codeStep_submitted h
  | tick t => exact codeStep_submitted h
  | bind => exact absurd rfl hbind
  | bound os o =>
    simp only [Screen.step] at h
    split_ifs at h
    obtain rfl := Option.some.inj h
    rw [foldl_perform]

theorem bind_submits_iff (hs : SubmitsNumbers s)
    (h : s.step params (.bind : ScreenEvent δ) = some s') :
    SubmitsNumbers s' ↔ phonePattern 4 7 s.phone = false := by
  simp only [Screen.step] at h
  split_ifs at h with hdisabled
  have hcode : s.code ≠ "" := fun hcode => hdisabled (Or.inr (Or.inl hcode))
  have hbinds : Binds params s.phone s.code ↔ phonePattern 4 8 s.phone = true := binds_iff hcode
  split at h
  · rename_i rData hissued
    obtain rfl := Option.some.inj h
    have hphone := bindPhone_phone hissued
    have hpattern := phonePattern_four.mp (hbinds.mp ⟨rData, hissued⟩)
    constructor
    · intro hall
      have hnumber := hall rData List.mem_cons_self
      rw [hphone, requestsCode_iff] at hnumber
      exact hnumber.not_short
    · intro hshort
      refine List.forall_mem_cons.mpr ⟨?_, hs⟩
      rw [hphone, requestsCode_iff]
      exact hpattern.resolve_left (by simp [hshort])
  · rename_i hrefused
    obtain rfl := Option.some.inj h
    refine iff_of_true hs ?_
    by_contra hshort
    obtain ⟨rData, hissued⟩ := hbinds.mpr (phonePattern_four.mpr (Or.inl (by simpa using hshort)))
    exact hrefused rData hissued

theorem step_submits_iff (hs : SubmitsNumbers s) (h : s.step params e = some s') :
    SubmitsNumbers s' ↔ NoShortNumber s e := by
  by_cases hbind : e = .bind
  · subst hbind
    exact bind_submits_iff hs h
  · have hsame := step_submitted hbind h
    refine iff_of_true ?_ ?_
    · unfold SubmitsNumbers
      rw [hsame]
      exact hs
    · cases e with
      | bind => exact absurd rfl hbind
      | _ => trivial

/-- The three checks agree on a phone exactly when it is not a short number, and the
screen submits phone numbers only, in a run, exactly when no tap is on a short one. -/
theorem one_notion_iff (params : Option BindParams) :
    (∀ phone, OneNotion params phone ↔ phonePattern 4 7 phone = false) ∧
      ∀ es : List (ScreenEvent δ),
        Runs.Throughout (Screen.step params) SubmitsNumbers {} es ↔
          Runs.Along (Screen.step params) NoShortNumber {} es := by
  refine ⟨fun _ => oneNotion_iff, fun es => ?_⟩
  exact Runs.throughout_iff_along (I := fun _ => True) (fun _ _ _ _ _ _ _ => trivial)
    (fun _ _ _ _ hs h => step_submits_iff hs h) trivial (fun _ h => by cases h)

theorem short_number_bound :
    ¬ ((∀ phone, OneNotion none phone) ∧ ∀ es : List (ScreenEvent Unit),
      Runs.Throughout (Screen.step none) SubmitsNumbers {} es) := by
  rintro ⟨hnotion, -⟩
  have hshort := (hnotion "1380000").code_bind "0" (by decide)
  have hbinds : Binds none "1380000" "0" := ⟨_, rfl⟩
  have hcode := hshort.mpr hbinds (mounted "1380000") rfl
  revert hcode
  decide

end RNFantuan.Views.BindPhone
