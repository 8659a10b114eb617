import RNFantuan.Views.HeadlineForm.Form

/-!
# What blocks a submission is what is shown

The form can be mounted without params, with params that have no type, or with a
number or text as the type; `componentDidMount` adds its `backFn` to whatever there
was. Then the params are there, and their type is read through `toString` with no
look at whether it is. The places that read it agree on the texts `'1'` and `'2'`
and on no other.
-/

namespace RNFantuan.Views.HeadlineForm
open JS Nav

inductive MountParams
  | absent
  | untyped
  | number (n : Number)
  | text (s : String)
  deriving DecidableEq

namespace MountParams

def params : MountParams → Option Params
  | .absent => none
  | .untyped => some {}
  | .number n => some { type := some (.num n) }
  | .text s => some { type := some (.str s) }

/-- After `setParams({backFn})`. -/
def extended (m : MountParams) : Params := (m.params.getD {}).merge { backFn := true }

def typeText : MountParams → Option String
  | .absent | .untyped => none
  | .number n => some n.toText
  | .text s => some s

theorem params_of_typeText {m : MountParams} {s : String} (h : m.typeText = some s) :
    ∃ p, m.params = some p ∧ (paramsType p).toString = .ok s := by
  cases m with
  | absent => cases h
  | untyped => cases h
  | number n => exact ⟨_, rfl, by rw [← Option.some.inj h]; rfl⟩
  | text t => exact ⟨_, rfl, by rw [← Option.some.inj h]; rfl⟩

theorem extended_of_typeText {m : MountParams} {s : String} (h : m.typeText = some s) :
    (paramsType m.extended).toString = .ok s := by
  cases m with
  | absent => cases h
  | untyped => cases h
  | number n => rw [← Option.some.inj h]; rfl
  | text t => rw [← Option.some.inj h]; rfl

theorem typeIs_extended_of_untyped {m : MountParams} (h : m.typeText = none) (text : String) :
    typeIs (some m.extended) text = .error .error := by
  cases m with
  | absent => rfl
  | untyped => rfl
  | number n => cases h
  | text s => cases h

end MountParams

def DraftKey.of (organization : Bool) : DraftKey :=
  if organization then .applyFormOrganization else .applyFormPerson

structure Classifies (m : MountParams) (organization : Bool) : Prop where
  renders : rendersOrganization (some m.extended) = .ok organization
  requires : requiresOrganization (some m.extended) = .ok organization
  loads : draftKey m.params = .ok (.of organization)
  saves : draftKey (some m.extended) = .ok (.of organization)
  submits : (accountType (some m.extended)).toString = .ok (if organization then "2" else "1")

/-- Nothing throws but for an undefined area, the account is classified in one way,
and `goNext` gets past validation exactly when the rendered fields are valid. -/
structure ShownBlocks (m : MountParams) (form : Form) : Prop where
  loads : ∃ key, draftKey m.params = .ok key
  saves : ∃ key, draftKey (some m.extended) = .ok key
  taps : form.area ≠ none → ∀ submitting, ∃ t, goNext (some m.extended) form submitting = .ok t
  renders : form.area ≠ none → ∀ params ∈ [m.params, some m.extended], ∀ buttonClicked,
    ∃ items, render params form buttonClicked = .ok items
  account : ∃ organization, Classifies m organization
  blocks : ∀ submitting,
    (∃ t, goNext (some m.extended) form submitting = .ok t ∧ t ≠ .invalid) ↔
      ∃ keys, renderedKeys (some m.extended) = .ok keys ∧
        ∀ key ∈ keys, validates form key = .ok true

/-! ### The account -/

theorem rendersOrganization_of_toString {p : Params} {s : String}
    (h : (paramsType p).toString = .ok s) (hs : s = "1" ∨ s = "2") :
    rendersOrganization (some p) = .ok (decide (s = "2")) := by
  have htruthy : (paramsType p).truthy = true := by
    refine Value.truthy_of_toString h ?_
    rcases hs with rfl | rfl <;> decide
  simp [rendersOrganization, htruthy, typeIs_of_toString h]

theorem draftKey_of_toString {p : Params} {s : String} (h : (paramsType p).toString = .ok s) :
    draftKey (some p) = .ok (.of (decide (s = "2"))) := by
  rw [draftKey, typeIs_of_toString h]
  rfl

theorem classifies_of_typeText {m : MountParams} {s : String} (h : m.typeText = some s)
    (hs : s = "1" ∨ s = "2") : Classifies m (decide (s = "2")) := by
  obtain ⟨p, hp, hmount⟩ := MountParams.params_of_typeText h
  have hext := MountParams.extended_of_typeText h
  refine ⟨rendersOrganization_of_toString hext hs, ?_, ?_, draftKey_of_toString hext, ?_⟩
  · rw [requiresOrganization, typeIs_of_toString hext]
    rcases hs with rfl | rfl <;> rfl
  · rw [hp]
    exact draftKey_of_toString hmount
  · have htruthy : (paramsType m.extended).truthy = true := by
      refine Value.truthy_of_toString hext ?_
      rcases hs with rfl | rfl <;> decide
    have hor : accountType (some m.extended) = paramsType m.extended := by
      simp [accountType, Value.or, htruthy]
    rw [hor, hext]
    rcases hs with rfl | rfl <;> rfl

/-- No other type is classified in one way: a type that is not `'1'` requires the
organisation's fields, and only `'2'` renders them. -/
theorem typeText_of_classifies {m : MountParams} {organization : Bool}
    (h : Classifies m organization) : m.typeText = some "1" ∨ m.typeText = some "2" := by
  cases htext : m.typeText with
  | none =>
    have hrequires := h.requires
    rw [requiresOrganization, MountParams.typeIs_extended_of_untyped htext] at hrequires
    cases hrequires
  | some s =>
    have hext := MountParams.extended_of_typeText htext
    by_cases h1 : s = "1"
    · exact Or.inl (by rw [h1])
    · right
      have hrequires := h.requires
      rw [requiresOrganization, typeIs_of_toString hext] at hrequires
      obtain rfl : true = organization := by simpa [Except.map, h1] using hrequires
      have hrenders := h.renders
      rw [rendersOrganization, typeIs_of_toString hext] at hrenders
      split at hrenders
      · have h2 : s = "2" := by simpa using hrenders
        rw [h2]
      · cases hrenders

/-! ### Throwing -/

theorem validates_ok {form : Form} (harea : form.area ≠ none) (key : FieldKey) :
    ∃ valid, validates form key = .ok valid := by
  cases key with
  | area =>
    obtain ⟨area, ha⟩ := Option.ne_none_iff_exists'.mp harea
    exact ⟨areaChosen area.value, by simp only [validates, ha]⟩
  | _ => exact ⟨_, rfl⟩

theorem hasError_ok {check : FieldKey → Except Thrown Bool} (keys : List FieldKey)
    (h : ∀ key, ∃ valid, check key = .ok valid) : ∃ b, hasError check keys = .ok b := by
  induction keys with
  | nil => exact ⟨false, rfl⟩
  | cons key keys ih =>
    obtain ⟨valid, hkey⟩ := h key
    cases valid with
    | true => simpa [hasError, hkey] using ih
    | false => exact ⟨true, by simp [hasError, hkey]⟩

theorem goNext_ok {params : Option Params} {form : Form} {person : Bool}
    (htype : typeIs params "1" = .ok person) (harea : form.area ≠ none) (submitting : Bool) :
    ∃ t, goNext params form submitting = .ok t := by
  have hok : ∀ key, ∃ valid, goNextValidates person form key = .ok valid := by
    intro key
    unfold goNextValidates
    split
    · exact ⟨true, rfl⟩
    · exact validates_ok harea key
  obtain ⟨b, hcheck⟩ := hasError_ok formKeys hok
  obtain ⟨area, ha⟩ := Option.ne_none_iff_exists'.mp harea
  cases b <;> cases submitting <;>
    simp [goNext, htype, hcheck, ha, bind, Except.bind, pure, Except.pure]

theorem renderItem_ok {form : Form} (harea : form.area ≠ none) (buttonClicked : Bool)
    (key : FieldKey) : ∃ item, renderItem form buttonClicked key = .ok item := by
  obtain ⟨valid, hvalid⟩ := validates_ok harea key
  cases buttonClicked <;> simp [renderItem, harea, hvalid, bind, Except.bind, pure, Except.pure]

theorem mapM_ok {α β : Type} {f : α → Except Thrown β} {l : List α}
    (h : ∀ a ∈ l, ∃ b, f a = .ok b) : ∃ bs, l.mapM f = .ok bs := by
  induction l with
  | nil => exact ⟨[], rfl⟩
  | cons a l ih =>
    obtain ⟨b, hb⟩ := h a List.mem_cons_self
    obtain ⟨bs, hbs⟩ := ih fun a' ha' => h a' (List.mem_cons_of_mem a ha')
    exact ⟨b :: bs, by simp [List.mapM_cons, hb, hbs, bind, Except.bind, pure, Except.pure]⟩

theorem render_ok {params : Option Params} {form : Form} {organization : Bool}
    (hrenders : rendersOrganization params = .ok organization) (harea : form.area ≠ none)
    (buttonClicked : Bool) : ∃ items, render params form buttonClicked = .ok items := by
  have hitems : ∃ items, (sectionKeys organization).mapM (renderItem form buttonClicked) =
      .ok items := mapM_ok fun key _ => renderItem_ok harea buttonClicked key
  simpa [render, renderedKeys, hrenders, Except.map, bind, Except.bind] using hitems

/-! ### Validation -/

theorem mem_sectionKeys (organization : Bool) (key : FieldKey) :
    key ∈ sectionKeys organization ∨
      organization = false ∧ (key = .organizationName ∨ key = .organizationAddress ∨
        key = .organizationWebsite) := by
  cases organization <;> cases key <;> decide

theorem not_mem_sectionKeys : FieldKey.organizationName ∉ sectionKeys false ∧
    FieldKey.organizationAddress ∉ sectionKeys false := by
  decide

/-- A field is checked by `goNext` and not rendered only where its check always passes. -/
theorem allValid_iff (organization : Bool) (form : Form) :
    AllValid (!organization) form ↔
      ∀ key ∈ sectionKeys organization, validates form key = .ok true := by
  constructor
  · intro h key hkey
    have hvalid := h key
    unfold goNextValidates at hvalid
    split at hvalid
    · -- a relaxed field is one of the organisation's, and those are not rendered
      rename_i hrelaxed
      obtain ⟨hperson, hfield⟩ := hrelaxed
      obtain rfl : organization = false := by simpa using hperson
      rcases hfield with rfl | rfl
      · exact absurd hkey not_mem_sectionKeys.1
      · exact absurd hkey not_mem_sectionKeys.2
    · exact hvalid
  · intro h key
    unfold goNextValidates
    split
    · rfl
    · rename_i hchecked
      rcases mem_sectionKeys organization key with hkey | ⟨rfl, rfl | rfl | rfl⟩
      · exact h key hkey
      · exact absurd ⟨rfl, Or.inl rfl⟩ hchecked
      · exact absurd ⟨rfl, Or.inr rfl⟩ hchecked
      · rfl

/-- What blocks a submission is what is shown exactly for the types `'1'` and `'2'`. -/
theorem shown_blocks_iff (m : MountParams) (form : Form) :
    ShownBlocks m form ↔ m.typeText = some "1" ∨ m.typeText = some "2" := by
  constructor
  · intro h
    obtain ⟨organization, hclass⟩ := h.account
    exact typeText_of_classifies hclass
  · intro h
    obtain ⟨s, htext, hs⟩ : ∃ s, m.typeText = some s ∧ (s = "1" ∨ s = "2") := by
      rcases h with h | h
      · exact ⟨"1", h, Or.inl rfl⟩
      · exact ⟨"2", h, Or.inr rfl⟩
    have hclass := classifies_of_typeText htext hs
    obtain ⟨p, hp, hmount⟩ := MountParams.params_of_typeText htext
    have hperson : typeIs (some m.extended) "1" = .ok (!decide (s = "2")) := by
      rw [typeIs_of_toString (MountParams.extended_of_typeText htext)]
      rcases hs with rfl | rfl <;> rfl
    refine ⟨⟨_, hclass.loads⟩, ⟨_, hclass.saves⟩, fun harea => goNext_ok hperson harea,
      fun harea params hparams => ?_, ⟨_, hclass⟩, fun submitting => ?_⟩
    · rcases List.mem_pair.mp hparams with rfl | rfl
      · rw [hp]
        exact render_ok (rendersOrganization_of_toString hmount hs) harea
      · exact render_ok hclass.renders harea
    · rw [goNext_past_iff, renderedKeys, hclass.renders]
      constructor
      · rintro ⟨person, htype, hvalid⟩
        obtain rfl : (!decide (s = "2")) = person := by
          rw [hperson] at htype
          exact Except.ok.inj htype
        exact ⟨_, rfl, (allValid_iff _ form).mp hvalid⟩
      · rintro ⟨keys, hkeys, hvalid⟩
        obtain rfl : sectionKeys (decide (s = "2")) = keys := Except.ok.inj hkeys
        exact ⟨_, hperson, (allValid_iff _ form).mpr hvalid⟩

theorem untyped_params_throw : ¬ ShownBlocks .absent {} ∧ ¬ ShownBlocks .untyped {} := by
  constructor
  · intro h
    obtain ⟨key, hkey⟩ := h.saves
    cases hkey
  · intro h
    obtain ⟨key, hkey⟩ := h.saves
    cases hkey

end RNFantuan.Views.HeadlineForm
