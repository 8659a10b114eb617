import RNFantuan.Net.Continuations
import RNFantuan.Runtime.Runs
import Mathlib.Tactic.Linarith

/-!
# The SMS-code button

`components/CodeInput.js`: `sendCode`, its continuation, and the countdown of
`startCounting`. The state has the fields of the component together with the
intervals the runtime has scheduled and the requests it has not yet answered.
An interval callback runs only while its interval is scheduled, and the button
reacts only while `disabledBtn` is false.
-/

namespace RNFantuan.Components.CodeInput
open JS Net

/-- `/^1[34578][0-9]\d{lo,hi}$/`. -/
def phonePattern (lo hi : ℕ) (s : String) : Bool :=
  match s.toList with
  | '1' :: c :: d :: rest =>
    c ∈ ['3', '4', '5', '7', '8'] ∧ d.isDigit ∧ rest.all Char.isDigit ∧
      lo ≤ rest.length ∧ rest.length ≤ hi
  | _ => false

def isPhone (s : String) : Bool := phonePattern 8 8 s

structure State where
  phone : String
  disabledBtn : Bool
  btnText : String
  countNum : ℤ
  timer : Option ℕ
  scheduled : List ℕ
  nextTimer : ℕ
  outstanding : ℕ
  deriving DecidableEq

def mounted (phone : String) : State :=
  { phone := phone, disabledBtn := false, btnText := "获取验证码", countNum := -1, timer := none,
    scheduled := [], nextTimer := 0, outstanding := 0 }

def clearTimer (s : State) : State :=
  match s.timer with
  | none => s
  | some t => { s with scheduled := s.scheduled.filter (· ≠ t) }

def startCounting (s : State) : State :=
  if 0 ≤ s.countNum then s
  else
    let s := clearTimer { s with countNum := 59 }
    { s with
      timer := some s.nextTimer
      scheduled := s.nextTimer :: s.scheduled
      nextTimer := s.nextTimer + 1 }

def countText (n : ℤ) : String :=
  "重新获取(" ++ (if 9 < n then toString n else "0" ++ toString n) ++ ")"

/-- The interval callback. The callback given to `startCounting` enables the button. -/
def tick (s : State) : State :=
  let s := { s with btnText := countText s.countNum, countNum := s.countNum - 1 }
  if s.countNum < 0 then { clearTimer s with btnText := "获取验证码", disabledBtn := false }
  else s

def sendCode (s : State) : State :=
  if isPhone s.phone then { s with disabledBtn := true, outstanding := s.outstanding + 1 }
  else s

def perform (s : State) : Effect → State
  | .setDisabledBtn b => { s with disabledBtn := b }
  | .startCounting => startCounting s
  | _ => s

variable {δ : Type*}

def answered (s : State) (o : Outcome δ) : State :=
  (Net.CodeInput.sendCodeThen (fetchData o).res).effects.foldl perform
    { s with outstanding := s.outstanding - 1 }

inductive Event (δ : Type*)
  | press
  | changePhone (phone : String)
  | answer (o : Outcome δ)
  | tick (timer : ℕ)

def step (s : State) : Event δ → Option State
  | .press => some (if s.disabledBtn then s else sendCode s)
  | .changePhone phone => some { s with phone := phone }
  | .answer o => if 0 < s.outstanding then some (answered s o) else none
  | .tick t => if t ∈ s.scheduled then some (tick s) else none

/-! ### What the button should be -/

/-- The button is disabled exactly while a request is outstanding or the
countdown runs, the counter stays in range and at most one interval is live. -/
structure Sound (s : State) : Prop where
  disabled_iff : s.disabledBtn = true ↔ 0 < s.outstanding ∨ 0 ≤ s.countNum
  neg_one_le : -1 ≤ s.countNum
  le_59 : s.countNum ≤ 59
  one_timer : s.scheduled.length ≤ 1

/-! ### The button as four phases -/

inductive Phase
  | idle
  | sending
  | counting (n : Fin 60)
  | stuck
  deriving DecidableEq

structure Button where
  phone : String
  phase : Phase

inductive Reaction
  | sent
  | refused
  | silent
  deriving DecidableEq

/-- The three ways through the continuation of `sendCode`: no branch of it is
taken for `undefined`, nor for an error without message. -/
def reaction (o : Outcome δ) : Reaction :=
  match (fetchData o).res with
  | none => .silent
  | some res =>
    if ¬ res.error.truthy then .sent
    else if res.msg.truthy then .refused
    else .silent

def Button.step (b : Button) : Event δ → Option Button
  | .press =>
    match b.phase with
    | .idle => some { b with phase := if isPhone b.phone then .sending else .idle }
    | _ => some b
  | .changePhone phone => some { b with phone := phone }
  | .answer o =>
    match b.phase with
    | .sending => some { b with phase := match reaction o with
        | .sent => .counting ⟨59, by decide⟩
        | .refused => .idle
        | .silent => .stuck }
    | _ => none
  | .tick _ =>
    match b.phase with
    | .counting n => some { b with phase :=
        if n.val = 0 then .idle else .counting ⟨n.val - 1, by omega⟩ }
    | _ => none

def Phase.Describes (s : State) : Phase → Prop
  | .idle => s.disabledBtn = false ∧ s.outstanding = 0 ∧ s.countNum = -1 ∧ s.scheduled = []
  | .sending => s.disabledBtn = true ∧ s.outstanding = 1 ∧ s.countNum = -1 ∧ s.scheduled = []
  | .counting n => s.disabledBtn = true ∧ s.outstanding = 0 ∧ s.countNum = n.val ∧
      ∃ t, s.timer = some t ∧ s.scheduled = [t]
  | .stuck => s.disabledBtn = true ∧ s.outstanding = 0 ∧ s.countNum = -1 ∧ s.scheduled = []

def Refines (s : State) (b : Button) : Prop := s.phone = b.phone ∧ b.phase.Describes s

theorem mounted_refines (phone : String) : Refines (mounted phone) ⟨phone, .idle⟩ :=
  ⟨rfl, rfl, rfl, rfl, rfl⟩

theorem sound_iff {s : State} {b : Button} (h : Refines s b) : Sound s ↔ b.phase ≠ .stuck := by
  obtain ⟨phone, phase⟩ := b
  obtain ⟨-, hd⟩ := h
  cases phase with
  | idle =>
    obtain ⟨hb, ho, hc, ht⟩ := hd
    exact ⟨fun _ => by simp, fun _ => ⟨by simp [hb, ho, hc], by omega, by omega, by simp [ht]⟩⟩
  | sending =>
    obtain ⟨hb, ho, hc, ht⟩ := hd
    exact ⟨fun _ => by simp, fun _ => ⟨by simp [hb, ho], by omega, by omega, by simp [ht]⟩⟩
  | counting n =>
    obtain ⟨hb, ho, hc, t, -, ht⟩ := hd
    have hn := n.isLt
    exact ⟨fun _ => by simp, fun _ => ⟨by simp [hb, hc], by omega, by omega, by simp [ht]⟩⟩
  | stuck =>
    obtain ⟨hb, ho, hc, ht⟩ := hd
    refine ⟨fun hs => ?_, fun hn => absurd rfl hn⟩
    have hor := hs.disabled_iff.mp hb
    omega

theorem foldl_perform_sent (s : State) :
    Net.CodeInput.sent.foldl perform s = startCounting s := rfl

theorem answered_eq (s : State) (o : Outcome δ) :
    answered s o = match reaction o with
      | .sent => startCounting { s with outstanding := s.outstanding - 1 }
      | .refused => { s with outstanding := s.outstanding - 1, disabledBtn := false }
      | .silent => { s with outstanding := s.outstanding - 1 } := by
  simp only [answered, reaction, Net.CodeInput.sendCodeThen, Ran.orElse_done]
  cases (fetchData o).res with
  | none => rfl
  | some res =>
    cases he : res.error.truthy with
    | false =>
      rw [branch_of_falsy _ _ he]
      simp [Ran.done, foldl_perform_sent, he]
    | true =>
      rw [branch_of_truthy _ _ he]
      cases hm : res.msg.truthy <;> simp [Ran.done, perform, he, hm]

theorem startCounting_describes {s : State} (hd : s.disabledBtn = true) (ho : s.outstanding = 0)
    (hc : s.countNum = -1) (ht : s.scheduled = []) :
    (Phase.counting ⟨59, by decide⟩).Describes (startCounting s) ∧
      (startCounting s).phone = s.phone := by
  have hneg : ¬ 0 ≤ s.countNum := by omega
  cases htimer : s.timer <;>
    simp [startCounting, hneg, clearTimer, htimer, Phase.Describes, hd, ho, ht]

theorem tick_describes {s : State} {n : Fin 60} (h : (Phase.counting n).Describes s) :
    (if n.val = 0 then Phase.idle else .counting ⟨n.val - 1, by omega⟩).Describes (tick s) ∧
      (tick s).phone = s.phone := by
  obtain ⟨hd, ho, hc, t, htimer, ht⟩ := h
  by_cases hn : n.val = 0
  · have hend : s.countNum - 1 = -1 := by omega
    simp [tick, hend, clearTimer, htimer, Phase.Describes, ho, ht, hn]
  · have hneg : ¬ s.countNum - 1 < 0 := by omega
    have hnext : s.countNum - 1 = ((n.val - 1 : ℕ) : ℤ) := by omega
    refine ⟨?_, by simp [tick, hneg]⟩
    rw [if_neg hn]
    exact ⟨by simp [tick, hneg, hd], by simp [tick, hneg, ho], by simpa [tick, hneg] using hnext,
      t, by simp [tick, hneg, htimer], by simp [tick, hneg, ht]⟩

theorem step_refines {s s' : State} {b : Button} {e : Event δ} (hR : Refines s b)
    (hs : step s e = some s') : ∃ b', b.step e = some b' ∧ Refines s' b' := by
  obtain ⟨phone, phase⟩ := b
  obtain ⟨rfl, hd⟩ := hR
  cases e with
  | press =>
    obtain rfl := Option.some.inj hs
    cases phase with
    | idle =>
      obtain ⟨hb, ho, hc, ht⟩ := hd
      refine ⟨_, rfl, ?_⟩
      by_cases hp : isPhone s.phone
      · simp [Refines, Phase.Describes, hb, sendCode, hp, ho, hc, ht]
      · simp [Refines, Phase.Describes, hb, sendCode, hp, ho, hc, ht]
    | sending => exact ⟨_, rfl, by rw [if_pos hd.1]; exact ⟨rfl, hd⟩⟩
    | counting n => exact ⟨_, rfl, by rw [if_pos hd.1]; exact ⟨rfl, hd⟩⟩
    | stuck => exact ⟨_, rfl, by rw [if_pos hd.1]; exact ⟨rfl, hd⟩⟩
  | changePhone phone =>
    obtain rfl := Option.some.inj hs
    refine ⟨_, rfl, rfl, ?_⟩
    cases phase <;> exact hd
  | answer o =>
    simp only [step] at hs
    split_ifs at hs with hpos
    obtain rfl := Option.some.inj hs
    cases phase with
    | sending =>
      obtain ⟨hb, ho, hc, ht⟩ := hd
      refine ⟨_, rfl, ?_⟩
      rw [answered_eq]
      cases reaction o with
      | sent =>
        obtain ⟨hdesc, hphone⟩ := startCounting_describes
          (s := { s with outstanding := s.outstanding - 1 }) hb (by simp [ho]) hc ht
        exact ⟨hphone, hdesc⟩
      | refused => exact ⟨rfl, rfl, by simp [ho], hc, ht⟩
      | silent => exact ⟨rfl, hb, by simp [ho], hc, ht⟩
    | idle => exact absurd hd.2.1 (by omega)
    | counting n => exact absurd hd.2.1 (by omega)
    | stuck => exact absurd hd.2.1 (by omega)
  | tick t =>
    simp only [step] at hs
    split_ifs at hs with hmem
    obtain rfl := Option.some.inj hs
    cases phase with
    | counting n =>
      obtain ⟨hdesc, hphone⟩ := tick_describes hd
      exact ⟨_, rfl, hphone, hdesc⟩
    | idle => simp [hd.2.2.2] at hmem
    | sending => simp [hd.2.2.2] at hmem
    | stuck => simp [hd.2.2.2] at hmem

/-- Every run of the component is a run of the four-phase button. -/
theorem run_refines {phone : String} {es : List (Event δ)} {s : State}
    (hrun : Runs.exec step (mounted phone) es = some s) :
    ∃ b, Runs.exec Button.step ⟨phone, .idle⟩ es = some b ∧ Refines s b :=
  Runs.exec_simulates (fun _ _ _ _ => step_refines) (mounted_refines phone) hrun

/-- The condition on an event: an answer takes one of the two branches of the
continuation. -/
def Answered (_ : State) : Event δ → Prop
  | .answer o => reaction o ≠ .silent
  | _ => True

theorem step_sound_iff {s s' : State} {b : Button} {e : Event δ} (hR : Refines s b)
    (hgood : b.phase ≠ .stuck) (hs : step s e = some s') : Sound s' ↔ Answered s e := by
  obtain ⟨b', hb', hR'⟩ := step_refines hR hs
  rw [sound_iff hR']
  obtain ⟨phone, phase⟩ := b
  cases e with
  | press =>
    cases phase with
    | idle =>
      obtain rfl := Option.some.inj hb'
      by_cases hp : isPhone phone <;> simp [Answered, hp]
    | sending => obtain rfl := Option.some.inj hb'; simp [Answered]
    | counting n => obtain rfl := Option.some.inj hb'; simp [Answered]
    | stuck => exact absurd rfl hgood
  | changePhone phone =>
    obtain rfl := Option.some.inj hb'
    exact ⟨fun _ => trivial, fun _ => hgood⟩
  | answer o =>
    cases phase with
    | sending =>
      obtain rfl := Option.some.inj hb'
      cases ho : reaction o <;> simp [Answered, ho]
    | idle => cases hb'
    | counting n => cases hb'
    | stuck => cases hb'
  | tick t =>
    cases phase with
    | counting n =>
      obtain rfl := Option.some.inj hb'
      by_cases hn : n.val = 0 <;> simp [Answered, hn]
    | idle => cases hb'
    | sending => cases hb'
    | stuck => cases hb'

/-- The button is sound in every state of a run exactly when every answer the
run delivers takes a branch of the continuation. -/
theorem sound_throughout_iff (phone : String) (es : List (Event δ)) :
    Runs.Throughout step Sound (mounted phone) es ↔
      Runs.Along step Answered (mounted phone) es := by
  have hI : ∀ (s : State) (e : Event δ) (s' : State), (∃ b, Refines s b) → Sound s →
      step s e = some s' → Sound s' → ∃ b, Refines s' b := by
    rintro s e s' ⟨b, hR⟩ - hs -
    obtain ⟨b', -, hR'⟩ := step_refines hR hs
    exact ⟨b', hR'⟩
  have hstep : ∀ (s : State) (e : Event δ) (s' : State), (∃ b, Refines s b) → Sound s →
      step s e = some s' → (Sound s' ↔ Answered s e) := by
    rintro s e s' ⟨b, hR⟩ hgood hs
    exact step_sound_iff hR ((sound_iff hR).mp hgood) hs
  have hR := mounted_refines phone
  exact Runs.throughout_iff_along hI hstep ⟨_, hR⟩ ((sound_iff hR).mpr (by simp))

theorem failed_send_blocks :
    ∃ s, Runs.exec step (mounted "13800000000") [.press, .answer (.rejected : Outcome Unit)] =
        some s ∧ s.disabledBtn = true ∧ s.outstanding = 0 ∧ s.countNum = -1 ∧ ¬ Sound s := by
  refine ⟨_, rfl, by decide, by decide, by decide, fun h => ?_⟩
  have hor := h.disabled_iff.mp (by decide)
  revert hor
  decide

end RNFantuan.Components.CodeInput
