import RNFantuan.Net.Submission
import RNFantuan.Views.BindPhone

/-!
# Verifying the old phone, then binding

`views/VerifyPhone.js` and the `BindPhone` screens it opens. A code sent to the phone of
the params is verified, and what comes next depends on their `type`: `BindPhone` without
params, or as a rebinding with the token of the answer.

`Flow` has the screen and all `BindPhone` screens it has opened, any of which may still
be typed in or wait for an answer. A phone is changed only with a token that a favourable
verification has brought.
-/

namespace RNFantuan.Views.VerifyPhone
open JS Net BindPhone

structure VerifyParams where
  phone : Value := .undefined
  type : Value := .undefined
  deriving DecidableEq

structure VerifyData where
  jwtToken : Value := .undefined
  deriving DecidableEq

structure VerifyRequest where
  address : String := "/jv/sms/verify"
  purpose : String := "changePhone"
  phone : Value
  code : String
  deriving DecidableEq

/-- `state.phone` after `componentWillMount`. -/
def statePhone (params : Option VerifyParams) : Value :=
  match params.filter fun p => p.phone.truthy with
  | none => .undefined
  | some p => p.phone

def verify (phone : Value) (code : String) : Option VerifyRequest :=
  if code = "" then none else some { phone := phone, code := code }

/-- The params of the `BindPhone` that a favourable answer opens, if it opens one. -/
def opens (params : Option VerifyParams) (data : Option VerifyData) : Option (Option BindParams) :=
  match params.filter fun p => p.type.truthy with
  | none => none
  | some p =>
    if p.type.strictEq (.str "bindPhone") then some none
    else if p.type.strictEq (.str "rebindPhone") then
      (data.filter fun d => d.jwtToken.truthy).map fun d => some ⟨.bool true, d.jwtToken⟩
    else none

def verifyThen (params : Option VerifyParams) (res : Option (Response VerifyData)) : Ran :=
  (Ran.done (.setSubmitting false :: branch (fun msg => [.toast msg])
    (if (opens params (res.bind (·.data))).isSome then [.navigate "BindPhone"] else [])
    res)).orElse [.setSubmitting false]

/-- The data of the answers after which the screen goes on. -/
def verifiedData (o : Outcome VerifyData) : Option (Option VerifyData) :=
  ((fetchData o).res.filter Response.favourable).map (·.data)

structure Verification where
  request : VerifyRequest
  data : Option VerifyData
  deriving DecidableEq

structure Flow where
  code : String := ""
  submitting : Bool := false
  outstanding : List VerifyRequest := []
  verified : List Verification := []
  opened : List (Option BindParams × Screen) := []
  deriving DecidableEq

inductive FlowEvent (δ : Type*)
  | inputCode (value : String)
  | verify
  | answer (i : ℕ) (o : Outcome VerifyData)
  | bindPhone (i : ℕ) (e : BindPhone.ScreenEvent δ)

variable {δ : Type*}

/-- The button is disabled while submitting. -/
def Flow.step (params : Option VerifyParams) (s : Flow) : FlowEvent δ → Option Flow
  | .inputCode value => some { s with code := value }
  | .verify =>
    if s.submitting then none
    else match verify (statePhone params) s.code with
      | none => some s
      | some r => some { s with submitting := true, outstanding := s.outstanding ++ [r] }
  | .answer i o => s.outstanding[i]?.map fun r =>
      let s := { s with
        submitting := (verifyThen params (fetchData o).res).effects.foldl Effect.flag s.submitting
        outstanding := s.outstanding.eraseIdx i }
      match verifiedData o with
      | none => s
      | some data => { s with
          verified := ⟨r, data⟩ :: s.verified
          opened := s.opened ++ ((opens params data).map fun p => (p, {})).toList }
  | .bindPhone i e => s.opened[i]?.bind fun b =>
      (b.2.step b.1 e).map fun screen => { s with opened := s.opened.set i (b.1, screen) }

/-- A verification of a code entered for the phone of the params. -/
structure Verified (params : Option VerifyParams) (v : Verification) : Prop where
  phone : v.request.phone = statePhone params
  code : v.request.code ≠ ""

def HasType (params : Option VerifyParams) (type : String) : Prop :=
  ∃ p, params = some p ∧ p.type = .str type

inductive OpenedBy (params : Option VerifyParams) (vs : List Verification) :
    Option BindParams → Prop
  | bind (v : Verification) : v ∈ vs → HasType params "bindPhone" → OpenedBy params vs none
  | rebind (v : Verification) (d : VerifyData) : v ∈ vs → v.data = some d →
      d.jwtToken.truthy = true → HasType params "rebindPhone" →
      OpenedBy params vs (some ⟨.bool true, d.jwtToken⟩)

theorem openedBy_of_opens {params : Option VerifyParams} {vs : List Verification}
    {v : Verification} {p : Option BindParams} (hv : v ∈ vs) (h : opens params v.data = some p) :
    OpenedBy params vs p := by
  unfold opens at h
  split at h
  · cases h
  · rename_i q hq
    have hparams : params = some q := (Option.filter_eq_some_iff.mp hq).1
    split_ifs at h with hbind hrebind
    · obtain rfl := Option.some.inj h
      exact .bind v hv ⟨q, hparams, Value.strictEq_str.mp hbind⟩
    · obtain ⟨d, hd, rfl⟩ := Option.map_eq_some_iff.mp h
      obtain ⟨hdata, htoken⟩ := Option.filter_eq_some_iff.mp hd
      exact .rebind v d hv hdata htoken ⟨q, hparams, Value.strictEq_str.mp hrebind⟩

theorem OpenedBy.mono {params : Option VerifyParams} {vs vs' : List Verification}
    {p : Option BindParams} (h : OpenedBy params vs p) (hsub : ∀ v ∈ vs, v ∈ vs') :
    OpenedBy params vs' p := by
  cases h with
  | bind v hv htype => exact .bind v (hsub v hv) htype
  | rebind v d hv hdata htoken htype => exact .rebind v d (hsub v hv) hdata htoken htype

/-! ### What is bound with them -/

/-- A tap on some phone and code makes this request. -/
def IsBind (p : Option BindParams) (r : BindRequest) : Prop :=
  ∃ phone code, BindPhone.bindPhone p phone code = .issued r

theorem step_isBind {p : Option BindParams} {screen screen' : Screen} {e : BindPhone.ScreenEvent δ}
    (hs : ∀ r ∈ screen.submitted, IsBind p r) (h : screen.step p e = some screen') :
    ∀ r ∈ screen'.submitted, IsBind p r := by
  by_cases hbind : e = .bind
  · subst hbind
    simp only [Screen.step] at h
    split_ifs at h
    split at h
    · rename_i r hr
      obtain rfl := Option.some.inj h
      exact List.forall_mem_cons.mpr ⟨⟨screen.phone, screen.code, hr⟩, hs⟩
    · obtain rfl := Option.some.inj h
      exact hs
  · rw [step_submitted hbind h]
    exact hs

theorem isBind_bind {r : BindRequest} (h : IsBind none r) :
    r.address = "/jv/user/phone/bind" ∧ r.jwtToken = none := by
  obtain ⟨phone, code, h⟩ := h
  unfold BindPhone.bindPhone at h
  split_ifs at h
  obtain rfl := Tapped.issued.inj h
  exact ⟨rfl, rfl⟩

theorem isBind_rebind {token : Value} {r : BindRequest}
    (h : IsBind (some ⟨.bool true, token⟩) r) :
    r.address = "/jv/user/phone/change" ∧ r.jwtToken = some token := by
  obtain ⟨phone, code, h⟩ := h
  unfold BindPhone.bindPhone at h
  split_ifs at h
  obtain rfl := Tapped.issued.inj h
  exact ⟨rfl, rfl⟩

/-! ### Runs -/

structure FlowInv (params : Option VerifyParams) (s : Flow) : Prop where
  outstanding : ∀ r ∈ s.outstanding, r.phone = statePhone params ∧ r.code ≠ ""
  verified : ∀ v ∈ s.verified, Verified params v
  opened : ∀ b ∈ s.opened, OpenedBy params s.verified b.1 ∧ ∀ r ∈ b.2.submitted, IsBind b.1 r

variable {params : Option VerifyParams} {s s' : Flow}

theorem verify_flowInv (hs : FlowInv params s)
    (h : s.step params (.verify : FlowEvent δ) = some s') : FlowInv params s' := by
  simp only [Flow.step, verify] at h
  split_ifs at h with hbusy hcode
  · obtain rfl := Option.some.inj h
    exact hs
  · obtain rfl := Option.some.inj h
    refine ⟨fun r hr => ?_, hs.verified, hs.opened⟩
    rcases List.mem_append.mp hr with hold | hnew
    · exact hs.outstanding r hold
    · obtain rfl := List.mem_singleton.mp hnew
      exact ⟨rfl, hcode⟩

theorem answer_flowInv {i : ℕ} {o : Outcome VerifyData} (hs : FlowInv params s)
    (h : s.step params (.answer i o : FlowEvent δ) = some s') : FlowInv params s' := by
  obtain ⟨r, hr, rfl⟩ := Option.map_eq_some_iff.mp h
  have hrest : ∀ r ∈ s.outstanding.eraseIdx i, r.phone = statePhone params ∧ r.code ≠ "" :=
    fun r hr => hs.outstanding r (List.mem_of_mem_eraseIdx hr)
  cases verifiedData o with
  | none => exact ⟨hrest, hs.verified, hs.opened⟩
  | some data =>
    obtain ⟨hphone, hcode⟩ := hs.outstanding r (List.mem_of_getElem? hr)
    refine ⟨hrest, List.forall_mem_cons.mpr ⟨⟨hphone, hcode⟩, hs.verified⟩, fun b hb => ?_⟩
    rcases List.mem_append.mp hb with hold | hnew
    · obtain ⟨hopened, hsubmitted⟩ := hs.opened b hold
      exact ⟨hopened.mono fun v hv => List.mem_cons_of_mem _ hv, hsubmitted⟩
    · obtain ⟨p, hp, rfl⟩ := Option.map_eq_some_iff.mp (Option.mem_toList.mp hnew)
      refine ⟨openedBy_of_opens (v := ⟨r, data⟩) List.mem_cons_self hp, fun r hr => ?_⟩
      cases hr

theorem bindPhone_flowInv {i : ℕ} {e : BindPhone.ScreenEvent δ} (hs : FlowInv params s)
    (h : s.step params (.bindPhone i e) = some s') : FlowInv params s' := by
  obtain ⟨b, hb, h⟩ := Option.bind_eq_some_iff.mp h
  obtain ⟨screen, hscreen, rfl⟩ := Option.map_eq_some_iff.mp h
  obtain ⟨hopened, hsubmitted⟩ := hs.opened b (List.mem_of_getElem? hb)
  refine ⟨hs.outstanding, hs.verified, fun b' hb' => ?_⟩
  rcases List.mem_or_eq_of_mem_set hb' with hold | rfl
  · exact hs.opened b' hold
  · exact ⟨hopened, step_isBind hsubmitted hscreen⟩

theorem step_flowInv {e : FlowEvent δ} (hs : FlowInv params s)
    (h : s.step params e = some s') : FlowInv params s' := by
  cases e with
  | inputCode value =>
    obtain rfl := Option.some.inj h
    exact ⟨hs.outstanding, hs.verified, hs.opened⟩
  | verify => exact verify_flowInv hs h
  | answer i o => exact answer_flowInv hs h
  | bindPhone i e => exact bindPhone_flowInv hs h

/-- What stands behind a request of a `BindPhone` that the screen has opened. -/
inductive Authorized (params : Option VerifyParams) (vs : List Verification) (r : BindRequest) :
    Prop
  | bind (v : Verification) : v ∈ vs → Verified params v → HasType params "bindPhone" →
      r.address = "/jv/user/phone/bind" → r.jwtToken = none → Authorized params vs r
  | change (v : Verification) (d : VerifyData) : v ∈ vs → Verified params v → v.data = some d →
      d.jwtToken.truthy = true → HasType params "rebindPhone" →
      r.address = "/jv/user/phone/change" → r.jwtToken = some d.jwtToken → Authorized params vs r

theorem FlowInv.authorized (hs : FlowInv params s) {b : Option BindParams × Screen}
    (hb : b ∈ s.opened) {r : BindRequest} (hr : r ∈ b.2.submitted) :
    Authorized params s.verified r := by
  obtain ⟨p, screen⟩ := b
  obtain ⟨hopened, hsubmitted⟩ := hs.opened _ hb
  have hbind : IsBind p r := hsubmitted r hr
  cases hopened with
  | bind v hv htype =>
    obtain ⟨haddress, htoken⟩ := isBind_bind hbind
    exact .bind v hv (hs.verified v hv) htype haddress htoken
  | rebind v d hv hdata htruthy htype =>
    obtain ⟨haddress, htoken⟩ := isBind_rebind hbind
    exact .change v d hv (hs.verified v hv) hdata htruthy htype haddress htoken

/-- In every run, whatever is typed on the screens and in whichever order they are
answered, a phone is bound only after a favourable verification of a code for the phone
of the params, and changed only with the token of one. -/
theorem bindings_authorized {es : List (FlowEvent δ)}
    (hrun : Runs.exec (Flow.step params) {} es = some s) :
    ∀ b ∈ s.opened, ∀ r ∈ b.2.submitted, Authorized params s.verified r := by
  have hI : FlowInv params s := Runs.exec_invariant (fun _ _ _ hs h => step_flowInv hs h)
    (by constructor <;> simp) hrun
  exact fun b hb r hr => hI.authorized hb hr

def rebinding : Option VerifyParams := some ⟨.str "13800000000", .str "rebindPhone"⟩

theorem binding_authorized_by_token :
    ∃ s, Runs.exec (@Flow.step Unit rebinding) {} [.inputCode "1", .verify,
        .answer 0 (.json (some ⟨nat 0, .undefined, some ⟨.str "t"⟩⟩)),
        .bindPhone 0 (.inputPhone "13900000000"), .bindPhone 0 (.inputCode "2"),
        .bindPhone 0 .bind] = some s ∧
      (s.opened.map fun b => b.2.submitted) =
        [[⟨"/jv/user/phone/change", some (.str "t"), "13900000000", "2"⟩]] ∧
      ∀ b ∈ s.opened, ∀ r ∈ b.2.submitted, Authorized rebinding s.verified r :=
  ⟨_, rfl, by decide, @bindings_authorized Unit rebinding _ [.inputCode "1", .verify,
    .answer 0 (.json (some ⟨nat 0, .undefined, some ⟨.str "t"⟩⟩)),
    .bindPhone 0 (.inputPhone "13900000000"), .bindPhone 0 (.inputCode "2"),
    .bindPhone 0 .bind] rfl⟩

end RNFantuan.Views.VerifyPhone
