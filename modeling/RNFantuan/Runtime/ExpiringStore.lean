import Mathlib.Data.Nat.Notation
import Mathlib.Data.List.Basic

/-!
# Key-value stores with expiry

A store whose `load` returns the value last saved under the key while it has not
expired, and rejects otherwise. What a store answers after any saves is read off
the record of these saves, newest first.
-/

/-- `load` is `none` when it rejects. -/
structure ExpiringStore (σ κ ν : Type*) where
  fresh : σ
  save : σ → ℕ → κ → ν → ℕ → σ
  load : σ → ℕ → κ → Option ν
  load_fresh : ∀ now k, load fresh now k = none
  load_save : ∀ s time k v lifetime now, time ≤ now →
    load (save s time k v lifetime) now k = if now ≤ time + lifetime then some v else none
  load_save_of_ne : ∀ s time k v lifetime now k', k' ≠ k →
    load (save s time k v lifetime) now k' = load s now k'

namespace ExpiringStore

variable {σ κ ν : Type*} [DecidableEq κ]

structure Entry (κ ν : Type*) where
  key : κ
  value : ν
  time : ℕ
  lifetime : ℕ

def Entry.valid (e : Entry κ ν) (now : ℕ) : Bool := now ≤ e.time + e.lifetime

def write (store : ExpiringStore σ κ ν) (s : σ) (e : Entry κ ν) : σ :=
  store.save s e.time e.key e.value e.lifetime

/-- The newest entry under a key, unless it has expired. -/
def current (log : List (Entry κ ν)) (now : ℕ) (k : κ) : Option ν :=
  ((log.find? fun e => e.key = k).filter fun e => e.valid now).map Entry.value

/-- From `now` on the store answers as the log says. -/
def Reflects (store : ExpiringStore σ κ ν) (s : σ) (log : List (Entry κ ν)) (now : ℕ) : Prop :=
  ∀ now', now ≤ now' → ∀ k, store.load s now' k = current log now' k

variable {store : ExpiringStore σ κ ν} {s : σ} {log : List (Entry κ ν)} {now : ℕ}

theorem reflects_fresh (store : ExpiringStore σ κ ν) (now : ℕ) :
    store.Reflects store.fresh [] now :=
  fun now' _ k => store.load_fresh now' k

theorem Reflects.mono (h : store.Reflects s log now) {now' : ℕ} (hle : now ≤ now') :
    store.Reflects s log now' :=
  fun now'' hle' k => h now'' (Nat.le_trans hle hle') k

theorem Reflects.write (h : store.Reflects s log now) (e : Entry κ ν) (htime : e.time = now) :
    store.Reflects (store.write s e) (e :: log) now := by
  intro now' hle k
  by_cases hk : e.key = k
  · subst hk
    have hload := store.load_save s e.time e.key e.value e.lifetime now' (htime ▸ hle)
    rw [ExpiringStore.write, hload]
    by_cases hvalid : now' ≤ e.time + e.lifetime <;>
      simp [current, Entry.valid, Option.filter_some, hvalid]
  · have hload := store.load_save_of_ne s e.time e.key e.value e.lifetime now' k
      (fun heq => hk heq.symm)
    rw [ExpiringStore.write, hload, h now' hle k]
    simp [current, hk]

def ofMap (κ ν : Type*) [DecidableEq κ] : ExpiringStore (κ → Option (ν × ℕ)) κ ν where
  fresh _ := none
  save s time k v lifetime := fun k' => if k' = k then some (v, time + lifetime) else s k'
  load s now k := ((s k).filter fun e => now ≤ e.2).map Prod.fst
  load_fresh _ _ := rfl
  load_save s time k v lifetime now _ := by
    by_cases h : now ≤ time + lifetime <;> simp [Option.filter_some, h]
  load_save_of_ne s time k v lifetime now k' h := by simp [h]

end ExpiringStore
