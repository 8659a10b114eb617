import RNFantuan.Components.CodeInput

/-!
# The countdown

`startCounting` of `components/CodeInput.js` over whole runs. The callback writes the
label before it lowers the counter, and the last one writes the first label again. Each
accepted request for a code is followed by sixty callbacks, no more and no fewer, before
the button can be used for the next.
-/

namespace RNFantuan.Components.CodeInput
open JS Net

variable {δ : Type*}

def Event.isTick : Event δ → Bool
  | .tick _ => true
  | _ => false

/-- An answer on which the countdown is started. -/
def Event.isSent : Event δ → Bool
  | .answer o => reaction o = .sent
  | _ => false

/-- The callbacks still to come. -/
def Phase.remaining : Phase → ℕ
  | .counting n => n.val + 1
  | _ => 0

def label (countNum : ℤ) : String :=
  if countNum < 0 ∨ countNum = 59 then "获取验证码" else countText (countNum + 1)

theorem Button.step_remaining {b b' : Button} {e : Event δ} (h : b.step e = some b') :
    b'.phase.remaining + (if e.isTick then 1 else 0) =
      b.phase.remaining + if e.isSent then 60 else 0 := by
  obtain ⟨phone, phase⟩ := b
  cases e with
  | press =>
    cases phase with
    | idle =>
      obtain rfl := Option.some.inj h
      cases isPhone phone <;> simp [Phase.remaining, Event.isTick, Event.isSent]
    | _ =>
      obtain rfl := Option.some.inj h
      rfl
  | changePhone phone' =>
    obtain rfl := Option.some.inj h
    rfl
  | answer o =>
    cases phase with
    | sending =>
      obtain rfl := Option.some.inj h
      cases ho : reaction o <;> simp [ho, Phase.remaining, Event.isTick, Event.isSent]
    | _ => cases h
  | tick t =>
    cases phase with
    | counting n =>
      obtain rfl := Option.some.inj h
      by_cases hn : n.val = 0
      · simp [hn, Phase.remaining, Event.isTick, Event.isSent]
      · simp only [hn, if_false, Phase.remaining, Event.isTick, Event.isSent, if_true,
          Bool.false_eq_true]
        omega
    | _ => cases h

theorem remaining_eq {s : State} {b : Button} (hR : Refines s b) :
    s.countNum + 1 = b.phase.remaining ∧
      (0 < b.phase.remaining → s.disabledBtn = true ∧ s.outstanding = 0) := by
  obtain ⟨phone, phase⟩ := b
  obtain ⟨-, hd⟩ := hR
  cases phase with
  | counting n =>
    obtain ⟨hb, ho, hc, -⟩ := hd
    exact ⟨by simp [hc, Phase.remaining], fun _ => ⟨hb, ho⟩⟩
  | _ =>
    obtain ⟨-, -, hc, -⟩ := hd
    exact ⟨by simp [hc, Phase.remaining], fun hpos => absurd hpos (lt_irrefl 0)⟩

def Labelled (s : State) : Prop := s.btnText = label s.countNum

theorem startCounting_labelled {s : State} (hc : s.countNum = -1) (hs : Labelled s) :
    Labelled (startCounting s) := by
  have hbtn : s.btnText = "获取验证码" := by
    rw [hs, hc]
    rfl
  have hneg : ¬ 0 ≤ s.countNum := by omega
  cases htimer : s.timer <;> simp [Labelled, startCounting, hneg, clearTimer, htimer, hbtn, label]

theorem tick_labelled {s : State} {n : Fin 60} (h : (Phase.counting n).Describes s) :
    Labelled (tick s) := by
  obtain ⟨-, -, hc, t, htimer, -⟩ := h
  by_cases hn : n.val = 0
  · have hend : s.countNum - 1 = -1 := by omega
    simp [Labelled, tick, hend, clearTimer, htimer, label]
  · have hneg : ¬ s.countNum - 1 < 0 := by omega
    have hne : s.countNum - 1 ≠ 59 := by omega
    simp [Labelled, tick, hneg, label, hne]

theorem step_labelled {s s' : State} {b : Button} {e : Event δ} (hR : Refines s b)
    (hs : Labelled s) (h : step s e = some s') : Labelled s' := by
  obtain ⟨phone, phase⟩ := b
  obtain ⟨-, hd⟩ := hR
  cases e with
  | press =>
    obtain rfl := Option.some.inj h
    unfold sendCode
    split_ifs <;> exact hs
  | changePhone phone' =>
    obtain rfl := Option.some.inj h
    exact hs
  | answer o =>
    simp only [step] at h
    split_ifs at h with hpos
    obtain rfl := Option.some.inj h
    rw [answered_eq]
    cases phase with
    | sending =>
      cases reaction o with
      | sent => exact startCounting_labelled hd.2.2.1 hs
      | refused => exact hs
      | silent => exact hs
    | _ => exact absurd hd.2.1 (by omega)
  | tick t =>
    simp only [step] at h
    split_ifs at h with hmem
    obtain rfl := Option.some.inj h
    cases phase with
    | counting n => exact tick_labelled hd
    | _ => simp [hd.2.2.2] at hmem

/-- In every run the callbacks that have run and those to come are sixty for each accepted
request, the label shows how many are to come, and the button is disabled until none is. -/
theorem sixty_ticks {phone : String} {es : List (Event δ)} {s : State}
    (hrun : Runs.exec step (mounted phone) es = some s) :
    s.countNum + 1 + es.countP Event.isTick = 60 * es.countP Event.isSent ∧
      s.btnText = label s.countNum ∧
      (0 ≤ s.countNum → s.disabledBtn = true ∧ s.outstanding = 0) := by
  obtain ⟨b, hb, hR⟩ := run_refines hrun
  have hbalance := Runs.exec_balance (V := fun b : Button => b.phase.remaining)
    (fun _ _ _ h => Button.step_remaining h) hb
  obtain ⟨hremaining, hdisabled⟩ := remaining_eq hR
  refine ⟨?_, ?_, fun hpos => hdisabled (by omega)⟩
  · rw [hremaining]
    have hcount : b.phase.remaining + 1 * es.countP Event.isTick =
        0 + 60 * es.countP Event.isSent := hbalance
    omega
  · refine (Runs.exec_invariant (I := fun s => (∃ b, Refines s b) ∧ Labelled s) ?_
      ⟨⟨_, mounted_refines phone⟩, rfl⟩ hrun).2
    rintro s e s' ⟨⟨b, hR⟩, hs⟩ h
    obtain ⟨b', -, hR'⟩ := step_refines hR h
    exact ⟨⟨b', hR'⟩, step_labelled hR hs h⟩

theorem sixty_ticks_after_two :
    ∃ s, Runs.exec step (mounted "13800000000") [.press,
        .answer (.json (some ⟨nat 0, .undefined, (none : Option Unit)⟩)), .tick 0, .tick 0] =
        some s ∧
      s.countNum = 57 ∧ s.btnText = "重新获取(58)" ∧ s.disabledBtn = true := by
  obtain ⟨hcount, hlabel, hdisabled⟩ := @sixty_ticks Unit "13800000000" [.press,
    .answer (.json (some ⟨nat 0, .undefined, (none : Option Unit)⟩)), .tick 0, .tick 0] _ rfl
  exact ⟨_, rfl, by decide, hlabel.trans (by decide), (hdisabled (by decide)).1⟩

end RNFantuan.Components.CodeInput
