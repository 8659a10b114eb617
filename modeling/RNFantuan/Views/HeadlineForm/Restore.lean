import RNFantuan.Views.HeadlineForm.Draft

/-!
# A draft that arrives late

`componentDidMount` starts `loadStorage`, and the form can be edited before the draft
is there. The `then` merges the draft over the form as it is at that moment: what was
typed before is lost, unless the draft says the same.
-/

namespace RNFantuan.Views.HeadlineForm
open JS Nav

inductive KeptKey
  | text (key : TextKey)
  | agreement
  deriving DecidableEq

def Form.text (form : Form) : TextKey → String
  | .name => form.name
  | .phone => form.phone
  | .intro => form.intro
  | .realName => form.realName
  | .idCardNumber => form.idCardNumber
  | .organizationName => form.organizationName
  | .organizationAddress => form.organizationAddress
  | .organizationWebsite => form.organizationWebsite

def Form.keptValue (form : Form) : KeptKey → Value
  | .text key => .str (form.text key)
  | .agreement => .bool form.agreement

theorem text_inputChange (form : Form) (key key' : TextKey) (value : String) :
    (inputChange form key value).text key' = if key' = key then value else form.text key' := by
  cases key <;> cases key' <;> rfl

theorem keptValue_inputChange (form : Form) (key : TextKey) (value : String) (key' : KeptKey) :
    (inputChange form key value).keptValue key' =
      if key' = .text key then .str value else form.keptValue key' := by
  cases key' with
  | text key' =>
    simp only [Form.keptValue, text_inputChange, KeptKey.text.injEq]
    split <;> rfl
  | agreement => cases key <;> rfl

theorem keptValue_changeAgreement (form : Form) (key : KeptKey) :
    (changeAgreement form).keptValue key =
      if key = .agreement then .bool (!form.agreement) else form.keptValue key := by
  cases key with
  | text key => cases key <;> rfl
  | agreement => rfl

theorem keptValue_assignStored (form res : Form) (key : KeptKey) :
    (form.assignStored res).keptValue key = res.keptValue key := by
  cases key with
  | text key => cases key <;> rfl
  | agreement => rfl

/-! ### The form while its draft is loading -/

/-- `typed` records the value that the user has last given to each field. -/
structure LoadingForm where
  form : Form := {}
  loading : Bool := true
  typed : KeptKey → Option Value := fun _ => none

inductive LoadingEvent
  | inputChange (key : TextKey) (value : String)
  | changeAgreement
  | loaded

def LoadingForm.step (draft : Option Form) (f : LoadingForm) : LoadingEvent → Option LoadingForm
  | .inputChange key value => some { f with
      form := inputChange f.form key value
      typed := Function.update f.typed (.text key) (some (.str value)) }
  | .changeAgreement => some { f with
      form := changeAgreement f.form
      typed := Function.update f.typed .agreement (some (.bool (!f.form.agreement))) }
  | .loaded => if f.loading then
      some { f with
        form := loadStorageThen draft f.form
        loading := false }
    else none

def KeepsTyped (f : LoadingForm) : Prop :=
  ∀ key v, f.typed key = some v → f.form.keptValue key = v

def HoldsDraft (draft : Option Form) (f : LoadingForm) : Prop :=
  ∀ res, draft = some res → ∀ key, f.typed key = none → f.form.keptValue key = res.keptValue key

def Restored (draft : Option Form) (f : LoadingForm) : Prop :=
  f.loading = false → KeepsTyped f ∧ HoldsDraft draft f

/-- A draft that arrives holds, in every field edited so far, what was typed there. -/
def DraftAgrees (draft : Option Form) (f : LoadingForm) : LoadingEvent → Prop
  | .loaded => ∀ res, draft = some res → ∀ key v, f.typed key = some v → res.keptValue key = v
  | _ => True

section Edit

variable {f f' : LoadingForm} {key : KeptKey} {v : Value}

structure Edits (f f' : LoadingForm) (key : KeptKey) (v : Value) : Prop where
  typed : f'.typed = Function.update f.typed key (some v)
  loading : f'.loading = f.loading
  form : ∀ key', f'.form.keptValue key' = if key' = key then v else f.form.keptValue key'

theorem Edits.keepsTyped (h : Edits f f' key v) (hf : KeepsTyped f) : KeepsTyped f' := by
  intro key' w hw
  rw [h.typed] at hw
  rw [h.form]
  by_cases hkey : key' = key
  · subst hkey
    rw [Function.update_self] at hw
    rw [if_pos rfl]
    exact Option.some.inj hw
  · rw [Function.update_of_ne hkey] at hw
    rw [if_neg hkey]
    exact hf key' w hw

theorem Edits.holdsDraft (h : Edits f f' key v) {draft : Option Form} (hf : HoldsDraft draft f) :
    HoldsDraft draft f' := by
  intro res hres key' hw
  rw [h.typed] at hw
  have hkey : key' ≠ key := by
    rintro rfl
    rw [Function.update_self] at hw
    cases hw
  rw [Function.update_of_ne hkey] at hw
  rw [h.form, if_neg hkey]
  exact hf res hres key' hw

end Edit

variable {draft : Option Form} {f f' : LoadingForm} {e : LoadingEvent}

theorem LoadingForm.step_cases (h : f.step draft e = some f') :
    (∃ key v, Edits f f' key v) ∧ e ≠ .loaded ∨
      e = .loaded ∧ f.loading = true ∧
        f' = { f with form := loadStorageThen draft f.form, loading := false } := by
  cases e with
  | inputChange key value =>
    obtain rfl := Option.some.inj h
    exact Or.inl ⟨⟨.text key, .str value, rfl, rfl, keptValue_inputChange f.form key value⟩,
      by simp⟩
  | changeAgreement =>
    obtain rfl := Option.some.inj h
    exact Or.inl ⟨⟨.agreement, _, rfl, rfl, keptValue_changeAgreement f.form⟩, by simp⟩
  | loaded =>
    simp only [LoadingForm.step] at h
    split_ifs at h with hloading
    exact Or.inr ⟨rfl, hloading, (Option.some.inj h).symm⟩

theorem loaded_restored_iff (hkeeps : KeepsTyped f) :
    Restored draft { f with form := loadStorageThen draft f.form, loading := false } ↔
      DraftAgrees draft f .loaded := by
  cases draft with
  | none =>
    refine iff_of_true (fun _ => ⟨hkeeps, fun res hres => ?_⟩) fun res hres => ?_
    · cases hres
    · cases hres
  | some res =>
    constructor
    · intro h res' hres key v hv
      obtain rfl := Option.some.inj hres
      rw [← keptValue_assignStored f.form]
      exact (h rfl).1 key v hv
    · intro h _
      refine ⟨fun key v hv => ?_, fun res' hres key _ => ?_⟩
      · exact (keptValue_assignStored f.form res key).trans (h res rfl key v hv)
      · obtain rfl := Option.some.inj hres
        exact keptValue_assignStored f.form res key

theorem step_keepsTyped (hkeeps : f.loading = true → KeepsTyped f)
    (h : f.step draft e = some f') : f'.loading = true → KeepsTyped f' := by
  intro hloading
  rcases LoadingForm.step_cases h with ⟨⟨key, v, hedit⟩, -⟩ | ⟨-, -, rfl⟩
  · exact hedit.keepsTyped (hkeeps (hedit.loading ▸ hloading))
  · cases hloading

theorem step_restored_iff (hkeeps : f.loading = true → KeepsTyped f) (hf : Restored draft f)
    (h : f.step draft e = some f') : Restored draft f' ↔ DraftAgrees draft f e := by
  rcases LoadingForm.step_cases h with ⟨⟨key, v, hedit⟩, hne⟩ | ⟨rfl, hloading, rfl⟩
  · refine iff_of_true (fun hloading => ?_) ?_
    · obtain ⟨hkept, hdraft⟩ := hf (hedit.loading ▸ hloading)
      exact ⟨hedit.keepsTyped hkept, hedit.holdsDraft hdraft⟩
    · cases e with
      | loaded => exact absurd rfl hne
      | _ => trivial
  · exact loaded_restored_iff (hkeeps hloading)

/-- In every run from mounting, the loaded form holds what was typed and the draft
elsewhere exactly when the draft agrees with what had been typed when it arrived. -/
theorem restored_iff_draft_agrees (draft : Option Form) (es : List LoadingEvent) :
    Runs.Throughout (LoadingForm.step draft) (Restored draft) {} es ↔
      Runs.Along (LoadingForm.step draft) (DraftAgrees draft) {} es := by
  have hkeeps : KeepsTyped {} := by
    intro key v hv
    cases hv
  exact Runs.throughout_iff_along (I := fun f => f.loading = true → KeepsTyped f)
    (fun _ _ _ hI _ h _ => step_keepsTyped hI h) (fun _ _ _ hI hf h => step_restored_iff hI hf h)
    (fun _ => hkeeps) (fun h => by cases h)

theorem typed_name_lost :
    ¬ Runs.Throughout (LoadingForm.step (some { name := "a" })) (Restored (some { name := "a" }))
      {} [.inputChange .name "b", .loaded] := by
  intro h
  have hname := (((h.2 _ rfl).2 _ rfl) rfl).1 (.text .name) (.str "b") rfl
  revert hname
  decide

end RNFantuan.Views.HeadlineForm
