import RNFantuan.Runtime.ExpiringStore
import RNFantuan.Runtime.Runs
import RNFantuan.Views.HeadlineForm.AccountType

/-!
# Drafts

`loadStorage`, `saveStorage` and the `backFn` of `HeadlineForm`, over a store that
stands for `AppStorage`. A run is a sequence of sessions, each of one account type:
the draft is loaded when the form opens, the form is edited, and going back saves
it, after a question when there are data and no draft was loaded. The record of the
saves says what the next session of that type is to find.
-/

namespace RNFantuan.Views.HeadlineForm
open JS Nav

/-- A type with the text `'1'` (a person) or `'2'` (an organisation). -/
structure Account where
  type : Value
  organization : Bool
  toString_eq : type.toString = .ok (if organization then "2" else "1")

def Account.mountParams (a : Account) : Params := { type := some a.type }

def Account.params (a : Account) : Params := a.mountParams.merge { backFn := true }

/-- The part of the form that `loadStorage` takes over. -/
structure Kept where
  name : String
  phone : String
  intro : String
  realName : String
  idCardNumber : String
  organizationName : String
  organizationAddress : String
  organizationWebsite : String
  agreement : Bool
  deriving DecidableEq

def Form.kept (form : Form) : Kept where
  name := form.name
  phone := form.phone
  intro := form.intro
  realName := form.realName
  idCardNumber := form.idCardNumber
  organizationName := form.organizationName
  organizationAddress := form.organizationAddress
  organizationWebsite := form.organizationWebsite
  agreement := form.agreement

def expires : ℕ := 1000 * 3600 * 24

structure Session where
  account : Account
  form : Form := {}
  loadStorageSuccess : Bool := false

variable {σ : Type} (storage : ExpiringStore σ DraftKey Form)

/-- The `then` and the `catch` of `loadStorage`, which has rejected when there is no
draft. -/
def loadStorageThen (draft : Option Form) (form : Form) : Form :=
  match draft with
  | some res => form.assignStored res
  | none => form

/-- `loadStorage`, settled; it runs before `setParams`, and a rejection is ignored. -/
def loadStorage (store : σ) (now : ℕ) (s : Session) : Except Thrown Session := do
  let key ← draftKey (some s.account.mountParams)
  match storage.load store now key with
  | some res => return { s with form := s.form.assignStored res, loadStorageSuccess := true }
  | none => return s

def saveStorage (store : σ) (now : ℕ) (s : Session) : Except Thrown σ := do
  let key ← draftKey (some s.account.params)
  return storage.save store now key s.form expires

def hasData (form : Form) : Bool :=
  form.name ≠ "" ∨ form.phone ≠ "" ∨ form.intro ≠ "" ∨ form.realName ≠ "" ∨
    form.idCardNumber ≠ "" ∨ form.organizationName ≠ "" ∨ form.organizationAddress ≠ "" ∨
    form.organizationWebsite ≠ ""

/-- The buttons of the alert, `'继续填写'` and `'暂时离开'`. -/
inductive Choice
  | stay
  | leave
  deriving DecidableEq

/-- The store when the promise resolves; `none` while it does not. -/
def backFn (store : σ) (now : ℕ) (s : Session) (choice : Choice) : Except Thrown (Option σ) :=
  if hasData s.form ∧ ¬ s.loadStorageSuccess then
    match choice with
    | .stay => .ok none
    | .leave => (saveStorage storage store now s).map some
  else (saveStorage storage store now s).map some

/-! ### Runs of sessions -/

structure Save where
  organization : Bool
  form : Form
  time : ℕ

structure World (σ : Type) where
  store : σ
  now : ℕ := 0
  session : Option Session := none
  saves : List Save := []

inductive SessionEvent
  | openForm (a : Account)
  | edit (e : Edit)
  | picture (key : ImageKey) (item : ImageItem)
  | back (choice : Choice)
  | wait (ms : ℕ)

def World.step (w : World σ) : SessionEvent → Option (World σ)
  | .openForm a =>
    match w.session, loadStorage storage w.store w.now { account := a } with
    | none, .ok s => some { w with session := some s }
    | _, _ => none
  | .edit e => w.session.map fun s => { w with session := some { s with form := s.form.edit e } }
  | .picture key item => w.session.map fun s =>
      { w with session := some { s with form := s.form.setImage key item } }
  | .back choice => w.session.map fun s =>
      match backFn storage w.store w.now s choice with
      | .ok (some store) =>
        { w with
          store := store
          session := none
          saves := ⟨s.account.organization, s.form, w.now⟩ :: w.saves }
      | _ => w
  | .wait ms => some { w with now := w.now + ms }

def World.start : World σ := { store := storage.fresh }

/-! ### The record of the saves -/

def Save.entry (s : Save) : ExpiringStore.Entry DraftKey Form :=
  ⟨.of s.organization, s.form, s.time, expires⟩

def HoldsSaves (w : World σ) : Prop :=
  storage.Reflects w.store (w.saves.map Save.entry) w.now

def lastSave (saves : List Save) (organization : Bool) : Option Save :=
  saves.find? fun s => s.organization = organization

def lastDraft (saves : List Save) (now : ℕ) (organization : Bool) : Option Form :=
  ((lastSave saves organization).filter fun s => now ≤ s.time + expires).map Save.form

theorem DraftKey.of_inj {a b : Bool} : DraftKey.of a = DraftKey.of b ↔ a = b := by
  cases a <;> cases b <;> decide

theorem current_entries (saves : List Save) (now : ℕ) (organization : Bool) :
    ExpiringStore.current (saves.map Save.entry) now (.of organization) =
      lastDraft saves now organization := by
  have hfind : (saves.map Save.entry).find? (fun e => e.key = .of organization) =
      (lastSave saves organization).map Save.entry := by
    have hkey : (fun e : ExpiringStore.Entry DraftKey Form => decide (e.key = .of organization)) ∘
        Save.entry = fun s => decide (s.organization = organization) := by
      funext s
      exact decide_eq_decide.mpr DraftKey.of_inj
    rw [List.find?_map, hkey]
    rfl
  rw [ExpiringStore.current, hfind, lastDraft]
  cases lastSave saves organization with
  | none => rfl
  | some s =>
    by_cases h : now ≤ s.time + expires <;>
      simp [Option.filter_some, ExpiringStore.Entry.valid, Save.entry, h]

variable {storage}

theorem Account.draftKey_eq (a : Account) :
    draftKey (some a.mountParams) = .ok (.of a.organization) ∧
      draftKey (some a.params) = .ok (.of a.organization) := by
  have hmount := draftKey_of_toString (p := a.mountParams) a.toString_eq
  have hparams := draftKey_of_toString (p := a.params) a.toString_eq
  cases ho : a.organization with
  | true => simpa [ho] using And.intro hmount hparams
  | false => simpa [ho] using And.intro hmount hparams

variable (storage) in
theorem saveStorage_eq (store : σ) (now : ℕ) (s : Session) :
    saveStorage storage store now s =
      .ok (storage.write store (Save.entry ⟨s.account.organization, s.form, now⟩)) := by
  simp [saveStorage, s.account.draftKey_eq.2, bind, Except.bind, pure, Except.pure,
    ExpiringStore.write, Save.entry]

def restored (w : World σ) (a : Account) : Form :=
  ((lastDraft w.saves w.now a.organization).map fun res => ({} : Form).assignStored res).getD {}

variable (storage) in
theorem loadStorage_eq_then (store : σ) (now : ℕ) (s : Session) :
    ∃ s', loadStorage storage store now s = .ok s' ∧ s'.account = s.account ∧
      s'.form = loadStorageThen (storage.load store now (.of s.account.organization)) s.form := by
  cases hload : storage.load store now (.of s.account.organization) with
  | none =>
    exact ⟨s, by simp [loadStorage, s.account.draftKey_eq.1, hload, bind, Except.bind, pure,
      Except.pure], rfl, rfl⟩
  | some res =>
    exact ⟨{ s with form := s.form.assignStored res, loadStorageSuccess := true },
      by simp [loadStorage, s.account.draftKey_eq.1, hload, bind, Except.bind, pure, Except.pure],
      rfl, rfl⟩

theorem loadStorage_form {w : World σ} (hw : HoldsSaves storage w) (a : Account) :
    ∃ s, loadStorage storage w.store w.now { account := a } = .ok s ∧ s.account = a ∧
      s.form = restored w a := by
  have hload := hw w.now le_rfl (.of a.organization)
  rw [current_entries] at hload
  obtain ⟨s, hs, haccount, hform⟩ := loadStorage_eq_then storage w.store w.now { account := a }
  refine ⟨s, hs, haccount, hform.trans ?_⟩
  rw [hload, restored]
  cases lastDraft w.saves w.now a.organization <;> rfl

variable (storage) in
theorem backFn_cases (store : σ) (now : ℕ) (s : Session) (choice : Choice) :
    backFn storage store now s choice = .ok none ∨
      backFn storage store now s choice =
        .ok (some (storage.write store (Save.entry ⟨s.account.organization, s.form, now⟩))) := by
  have hsave := saveStorage_eq storage store now s
  unfold backFn
  split
  · cases choice with
    | stay => exact Or.inl rfl
    | leave =>
      right
      rw [hsave]
      rfl
  · right
    rw [hsave]
    rfl

theorem step_holdsSaves {w w' : World σ} {e : SessionEvent} (hw : HoldsSaves storage w)
    (h : w.step storage e = some w') : HoldsSaves storage w' := by
  cases e with
  | openForm a =>
    simp only [World.step] at h
    split at h
    · obtain rfl := Option.some.inj h
      exact hw
    · cases h
  | edit e =>
    obtain ⟨s, -, rfl⟩ := Option.map_eq_some_iff.mp h
    exact hw
  | picture key item =>
    obtain ⟨s, -, rfl⟩ := Option.map_eq_some_iff.mp h
    exact hw
  | back choice =>
    obtain ⟨s, -, rfl⟩ := Option.map_eq_some_iff.mp h
    rcases backFn_cases storage w.store w.now s choice with hback | hback
    · rw [hback]
      exact hw
    · rw [hback]
      exact hw.write (Save.entry ⟨s.account.organization, s.form, w.now⟩) rfl
  | wait ms =>
    obtain rfl := Option.some.inj h
    exact hw.mono (Nat.le_add_right _ _)

/-- A session starts with the draft of its type, if there is one that has not expired,
and with initial images and area. -/
theorem draft_restored {es : List SessionEvent} {a : Account} {w : World σ}
    (hrun : Runs.exec (World.step storage) (World.start storage) (es ++ [.openForm a]) = some w) :
    ∃ s, w.session = some s ∧
      s.form.kept = ((lastDraft w.saves w.now a.organization).map Form.kept).getD
        ({} : Form).kept ∧
      s.form.avatar = {} ∧ s.form.idCardImage = {} ∧ s.form.area = some {} := by
  obtain ⟨t, ht, hopen⟩ := Runs.exec_snoc_eq_some.mp hrun
  have hstart : HoldsSaves storage (World.start storage) := storage.reflects_fresh 0
  have hw := Runs.exec_invariant (fun _ _ _ hI h => step_holdsSaves hI h) hstart ht
  obtain ⟨s, hs, -, hform⟩ := loadStorage_form hw a
  simp only [World.step, hs] at hopen
  split at hopen
  · rename_i hload
    obtain rfl := Except.ok.inj hload
    obtain rfl := Option.some.inj hopen
    refine ⟨s, rfl, ?_⟩
    rw [hform, restored]
    cases lastDraft t.saves t.now a.organization with
    | none => exact ⟨rfl, rfl, rfl, rfl⟩
    | some res => exact ⟨rfl, rfl, rfl, rfl⟩
  · cases hopen

abbrev mapStorage : ExpiringStore (DraftKey → Option (Form × ℕ)) DraftKey Form :=
  ExpiringStore.ofMap DraftKey Form

def person : Account := ⟨nat 1, false, by decide⟩

def organization : Account := ⟨nat 2, true, by decide⟩

theorem draft_restored_after_other_type :
    ∃ w s, Runs.exec (World.step mapStorage) (World.start mapStorage)
        ([.openForm person, .edit (.input .name "a"), .back .leave, .openForm organization,
          .edit (.input .name "b"), .back .leave] ++ [.openForm person]) = some w ∧
      w.session = some s ∧ s.form.kept = { ({} : Form).kept with name := "a" } := by
  obtain ⟨s, hs, hkept, -⟩ := @draft_restored _ mapStorage
    [.openForm person, .edit (.input .name "a"), .back .leave, .openForm organization,
      .edit (.input .name "b"), .back .leave] person _ rfl
  exact ⟨_, s, rfl, hs, hkept.trans (by decide)⟩

theorem expired_draft_not_restored :
    ¬ ∀ (es : List SessionEvent) (a : Account) (w : World _),
      Runs.exec (World.step mapStorage) (World.start mapStorage)
          (es ++ [.openForm a]) = some w →
        ∃ s, w.session = some s ∧
          s.form.kept = ((lastSave w.saves a.organization).map fun save => save.form.kept).getD
            ({} : Form).kept := by
  intro h
  obtain ⟨s, hs, hkept⟩ := h [.openForm person, .edit (.input .name "a"), .back .leave,
    .wait (expires + 1)] person _ rfl
  obtain rfl := Option.some.inj hs
  exact absurd hkept (by decide)

end RNFantuan.Views.HeadlineForm
