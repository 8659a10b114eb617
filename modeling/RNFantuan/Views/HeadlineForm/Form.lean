import RNFantuan.Components.CodeInput
import RNFantuan.Nav.Router

/-!
# The application form

`views/HeadlineForm.js`: the form with its initial values, the validators and
their texts, what `render` shows, and `goNext` up to the request. The account type
is read from `navigation.state.params` at every place anew, each time with the
guards the source has there.
-/

namespace RNFantuan.Views.HeadlineForm
open JS Nav

inductive ImageKey
  | avatar
  | idCardImage
  deriving DecidableEq

/-- `url` is the `uri` of the picked image, `none` standing for `''`. -/
structure ImageItem where
  value : Value := .str ""
  url : Option String := none
  uploading : Bool := false
  uploadText : String := ""
  deriving DecidableEq

structure Area where
  value : Value := .undefined
  label : Value := .undefined
  deriving DecidableEq

/-- `area` is `undefined` when the picker has found no item with the chosen label. -/
structure Form where
  avatar : ImageItem := {}
  name : String := ""
  phone : String := ""
  area : Option Area := some {}
  intro : String := ""
  idCardImage : ImageItem := {}
  realName : String := ""
  idCardNumber : String := ""
  organizationName : String := ""
  organizationAddress : String := ""
  organizationWebsite : String := ""
  agreement : Bool := true
  deriving DecidableEq

def Form.image (form : Form) : ImageKey → ImageItem
  | .avatar => form.avatar
  | .idCardImage => form.idCardImage

def Form.setImage (form : Form) (key : ImageKey) (item : ImageItem) : Form :=
  match key with
  | .avatar => { form with avatar := item }
  | .idCardImage => { form with idCardImage := item }

@[simp]
theorem Form.image_setImage (form : Form) (key : ImageKey) (item : ImageItem) :
    (form.setImage key item).image key = item := by
  cases key <;> rfl

theorem Form.image_setImage_of_ne (form : Form) {key key' : ImageKey} (item : ImageItem)
    (h : key' ≠ key) : (form.setImage key item).image key' = form.image key' := by
  cases key <;> cases key' <;> simp_all [Form.setImage, Form.image]

inductive TextKey
  | name
  | phone
  | intro
  | realName
  | idCardNumber
  | organizationName
  | organizationAddress
  | organizationWebsite
  deriving DecidableEq

def inputChange (form : Form) (key : TextKey) (value : String) : Form :=
  match key with
  | .name => { form with name := value }
  | .phone => { form with phone := value }
  | .intro => { form with intro := value }
  | .realName => { form with realName := value }
  | .idCardNumber => { form with idCardNumber := value }
  | .organizationName => { form with organizationName := value }
  | .organizationAddress => { form with organizationAddress := value }
  | .organizationWebsite => { form with organizationWebsite := value }

def changeAgreement (form : Form) : Form := { form with agreement := !form.agreement }

inductive Edit
  | input (key : TextKey) (value : String)
  | agreement
  | area (selected : Option Area)
  deriving DecidableEq

def Form.edit (form : Form) : Edit → Form
  | .input key value => inputChange form key value
  | .agreement => changeAgreement form
  | .area selected => { form with area := selected }

@[simp]
theorem Form.image_edit (form : Form) (e : Edit) (key : ImageKey) :
    (form.edit e).image key = form.image key := by
  cases e with
  | input textKey value => cases textKey <;> cases key <;> rfl
  | agreement => cases key <;> rfl
  | area selected => cases key <;> rfl

/-- `Object.assign({}, form, storage_form)`; `loadStorage` takes neither images nor the
area from the stored form. -/
def Form.assignStored (form res : Form) : Form :=
  { res with
    avatar := form.avatar
    idCardImage := form.idCardImage
    area := form.area }

@[simp]
theorem Form.image_assignStored (form res : Form) (key : ImageKey) :
    (form.assignStored res).image key = form.image key := by
  cases key <;> rfl

inductive FieldKey
  | avatar
  | name
  | phone
  | area
  | intro
  | idCardImage
  | realName
  | idCardNumber
  | organizationName
  | organizationAddress
  | organizationWebsite
  | agreement
  deriving DecidableEq

def formKeys : List FieldKey :=
  [.avatar, .name, .phone, .area, .intro, .idCardImage, .realName, .idCardNumber,
    .organizationName, .organizationAddress, .organizationWebsite, .agreement]

theorem mem_formKeys (key : FieldKey) : key ∈ formKeys := by
  cases key <;> decide

/-! ### Validators -/

/-- `v.value || (v.value && !v.value && ...)`. -/
def areaChosen (v : Value) : Bool :=
  v.truthy ||
    (v.truthy && !v.truthy && v ≠ .str "" && v ≠ .undefined && v.toString.toOption = some "0")

@[simp]
theorem areaChosen_eq (v : Value) : areaChosen v = v.truthy := by
  cases h : v.truthy <;> simp [areaChosen, h]

/-- Only the validator of `area` can throw, on `undefined`. -/
def validates (form : Form) : FieldKey → Except Thrown Bool
  | .avatar => .ok form.avatar.value.truthy
  | .name => .ok (form.name ≠ "" ∧ textLength form.name ≤ 10)
  | .phone => .ok (Components.CodeInput.phonePattern 8 8 form.phone)
  | .area =>
    match form.area with
    | none => .error .error
    | some area => .ok (areaChosen area.value)
  | .intro => .ok (form.intro ≠ "" ∧ 10 ≤ textLength form.intro ∧ textLength form.intro ≤ 30)
  | .idCardImage => .ok form.idCardImage.value.truthy
  | .realName => .ok (form.realName ≠ "")
  | .idCardNumber => .ok (form.idCardNumber ≠ "")
  | .organizationName => .ok (form.organizationName ≠ "")
  | .organizationAddress => .ok (form.organizationAddress ≠ "")
  | .organizationWebsite => .ok true
  | .agreement => .ok form.agreement

def errorTip : FieldKey → Option String
  | .avatar => "请上传头像"
  | .name => "请输入1~10字，不含特殊符号的头条号名称"
  | .phone => "请输入正确的联系电话"
  | .area => "请选择专注的领域"
  | .intro => "请输入10~30个字的简介"
  | .idCardImage => "请上传身份证正面照"
  | .realName => "请输入真实姓名"
  | .idCardNumber => "请输入身份证号"
  | .organizationName => "请输入组织名称"
  | .organizationAddress => "请输入组织地址"
  | .organizationWebsite => none
  | .agreement => "需阅读并同意范团用户协议"

/-! ### The account type -/

def paramsType (p : Params) : Value := p.type.getD .undefined

/-- `params && params.type.toString() === text`. -/
def typeIs (params : Option Params) (text : String) : Except Thrown Bool :=
  match params with
  | none => .ok false
  | some p => (paramsType p).toString.map fun s => s = text

/-- `params && params.type && params.type.toString() === '2'`. -/
def rendersOrganization (params : Option Params) : Except Thrown Bool :=
  match params with
  | none => .ok false
  | some p => if (paramsType p).truthy then typeIs (some p) "2" else .ok false

/-- `goNext` replaces two validators for the type `'1'` and keeps them otherwise. -/
def requiresOrganization (params : Option Params) : Except Thrown Bool :=
  (typeIs params "1").map not

/-- `(params && params.type) || 1`. -/
def accountType (params : Option Params) : Value :=
  match params with
  | none => nat 1
  | some p => (paramsType p).or (nat 1)

inductive DraftKey
  | applyFormPerson
  | applyFormOrganization
  deriving DecidableEq

def draftKey (params : Option Params) : Except Thrown DraftKey :=
  (typeIs params "2").map fun b => if b then .applyFormOrganization else .applyFormPerson

/-! ### `render` -/

def sectionKeys (organization : Bool) : List FieldKey :=
  [.avatar, .name, .phone, .area, .intro, .idCardImage, .realName, .idCardNumber] ++
    (if organization then [.organizationName, .organizationAddress, .organizationWebsite]
      else []) ++
    [.agreement]

def renderedKeys (params : Option Params) : Except Thrown (List FieldKey) :=
  (rendersOrganization params).map sectionKeys

/-- A rendered field with the error text shown at it; `renderAreaItem` also reads
`form.area.label`. -/
def renderItem (form : Form) (buttonClicked : Bool) (key : FieldKey) :
    Except Thrown (FieldKey × Option String) := do
  if key = .area ∧ form.area = none then throw .error
  if buttonClicked then
    let valid ← validates form key
    return (key, if valid then none else errorTip key)
  else return (key, none)

def render (params : Option Params) (form : Form) (buttonClicked : Bool) :
    Except Thrown (List (FieldKey × Option String)) := do
  let keys ← renderedKeys params
  keys.mapM (renderItem form buttonClicked)

/-! ### `goNext` -/

structure ApplyRequest where
  accountType : Value
  name : String
  avatar : Value
  intro : String
  cid : Value
  phone : String
  realName : String
  idcard : String
  idImg : Value
  company : String
  address : String
  link : String
  deriving DecidableEq

inductive Tapped
  | invalid
  | busy
  | issued (rData : ApplyRequest)
  deriving DecidableEq

def Tapped.toast : Tapped → Option String
  | .invalid => "请更正未正确填写的内容"
  | .busy => "正在提交，请稍后..."
  | .issued _ => none

def goNextValidates (person : Bool) (form : Form) (key : FieldKey) : Except Thrown Bool :=
  if person ∧ (key = .organizationName ∨ key = .organizationAddress) then .ok true
  else validates form key

def hasError (check : FieldKey → Except Thrown Bool) : List FieldKey → Except Thrown Bool
  | [] => .ok false
  | key :: keys =>
    match check key with
    | .ok true => hasError check keys
    | .ok false => .ok true
    | .error err => .error err

def rData (params : Option Params) (form : Form) (area : Area) : ApplyRequest where
  accountType := accountType params
  name := form.name
  avatar := form.avatar.value
  intro := form.intro
  cid := area.value
  phone := form.phone
  realName := form.realName
  idcard := form.idCardNumber
  idImg := form.idCardImage.value
  company := form.organizationName
  address := form.organizationAddress
  link := form.organizationWebsite

def goNext (params : Option Params) (form : Form) (submitting : Bool) :
    Except Thrown Tapped := do
  let person ← typeIs params "1"
  if ← hasError (goNextValidates person form) formKeys then return .invalid
  if submitting then return .busy
  match form.area with
  | none => throw .error
  | some area => return .issued (rData params form area)

/-! ### What passes -/

theorem typeIs_of_toString {p : Params} {s : String} (h : (paramsType p).toString = .ok s)
    (text : String) : typeIs (some p) text = .ok (decide (s = text)) := by
  simp [typeIs, h, Except.map]

theorem hasError_eq_false {check : FieldKey → Except Thrown Bool} {keys : List FieldKey} :
    hasError check keys = .ok false ↔ ∀ key ∈ keys, check key = .ok true := by
  induction keys with
  | nil => simp [hasError]
  | cons key keys ih =>
    rw [List.forall_mem_cons, ← ih]
    cases hkey : check key with
    | error err => simp [hasError, hkey]
    | ok valid => cases valid <;> simp [hasError, hkey]

def AllValid (person : Bool) (form : Form) : Prop :=
  ∀ key, goNextValidates person form key = .ok true

theorem hasError_formKeys {person : Bool} {form : Form} :
    hasError (goNextValidates person form) formKeys = .ok false ↔ AllValid person form := by
  rw [hasError_eq_false]
  exact ⟨fun h key => h key (mem_formKeys key), fun h key _ => h key⟩

theorem AllValid.area {person : Bool} {form : Form} (h : AllValid person form) :
    ∃ area, form.area = some area := by
  have harea : validates form .area = .ok true := by simpa [goNextValidates] using h .area
  cases ha : form.area with
  | none => simp [validates, ha] at harea
  | some area => exact ⟨area, rfl⟩

theorem AllValid.image {person : Bool} {form : Form} (h : AllValid person form)
    (key : ImageKey) : (form.image key).value.truthy = true := by
  cases key with
  | avatar => simpa [goNextValidates, validates, Form.image] using h .avatar
  | idCardImage => simpa [goNextValidates, validates, Form.image] using h .idCardImage

section GoNext

variable {params : Option Params} {form : Form} {submitting person : Bool}

theorem goNext_of_valid {area : Area} (htype : typeIs params "1" = .ok person)
    (hvalid : AllValid person form) (harea : form.area = some area) :
    goNext params form submitting =
      .ok (if submitting then .busy else .issued (rData params form area)) := by
  have hno := hasError_formKeys.mpr hvalid
  cases submitting <;> simp [goNext, htype, hno, harea, bind, Except.bind, pure, Except.pure]

theorem goNext_of_not_valid {t : Tapped} (htype : typeIs params "1" = .ok person)
    (hvalid : ¬ AllValid person form) (h : goNext params form submitting = .ok t) :
    t = .invalid := by
  have herr : hasError (goNextValidates person form) formKeys ≠ .ok false :=
    fun hno => hvalid (hasError_formKeys.mp hno)
  cases hcheck : hasError (goNextValidates person form) formKeys with
  | error err => simp [goNext, htype, hcheck, bind, Except.bind] at h
  | ok b =>
    cases b with
    | false => exact absurd hcheck herr
    | true =>
      have hinvalid : Tapped.invalid = t := by
        simpa [goNext, htype, hcheck, bind, Except.bind, pure, Except.pure] using h
      exact hinvalid.symm

theorem typeIs_of_goNext {t : Tapped} (h : goNext params form submitting = .ok t) :
    ∃ person, typeIs params "1" = .ok person := by
  cases htype : typeIs params "1" with
  | error err => simp [goNext, htype, bind, Except.bind] at h
  | ok person => exact ⟨person, rfl⟩

theorem goNext_past_iff :
    (∃ t, goNext params form submitting = .ok t ∧ t ≠ .invalid) ↔
      ∃ person, typeIs params "1" = .ok person ∧ AllValid person form := by
  constructor
  · rintro ⟨t, h, hne⟩
    obtain ⟨person, htype⟩ := typeIs_of_goNext h
    exact ⟨person, htype, by_contra fun hvalid => hne (goNext_of_not_valid htype hvalid h)⟩
  · rintro ⟨person, htype, hvalid⟩
    obtain ⟨area, harea⟩ := hvalid.area
    refine ⟨_, goNext_of_valid htype hvalid harea, ?_⟩
    cases submitting <;> simp

theorem goNext_eq_issued {r : ApplyRequest} (h : goNext params form submitting = .ok (.issued r)) :
    ∃ person area, typeIs params "1" = .ok person ∧ AllValid person form ∧
      submitting = false ∧ r = rData params form area := by
  obtain ⟨person, htype, hvalid⟩ := goNext_past_iff.mp ⟨_, h, by simp⟩
  obtain ⟨area, harea⟩ := hvalid.area
  rw [goNext_of_valid htype hvalid harea] at h
  cases submitting with
  | true => simp at h
  | false =>
    have hr : Tapped.issued (rData params form area) = .issued r := by simpa using h
    exact ⟨person, area, htype, hvalid, rfl, (Tapped.issued.inj hr).symm⟩

end GoNext

end RNFantuan.Views.HeadlineForm
