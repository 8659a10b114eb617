import RNFantuan.Runtime.Number

/-!
# Values, truthiness and coercions

The primitive values, `Boolean(v)`, `Number(v)`, loose equality and the
`toString` method, with exceptions as a datatype of their own.
-/

namespace JS

inductive Value
  | undefined
  | null
  | bool (b : Bool)
  | num (n : Number)
  | str (s : String)
  deriving DecidableEq

/-- What `throw` can throw: a native error object, or any value. -/
inductive Thrown
  | error
  | value (v : Value)
  deriving DecidableEq

def nat (n : ℕ) : Value := .num (.ofNat n)

namespace Value

def truthy : Value → Bool
  | .undefined | .null | .bool false => false
  | .bool true => true
  | .num n => n ≠ .nan ∧ ¬ n.isZero
  | .str s => s ≠ ""

def or (v w : Value) : Value := if v.truthy then v else w

def toNumber : Value → Number
  | .undefined => .nan
  | .null => .ofNat 0
  | .bool b => .ofNat b.toNat
  | .num n => n
  | .str s => .ofText s

def looseEq : Value → Value → Bool
  | .undefined, w | .null, w => w = .undefined ∨ w = .null
  | v, .undefined | v, .null => v = .undefined ∨ v = .null
  | .str s, .str t => s = t
  | v, w => v.toNumber.eq w.toNumber

def strictEq : Value → Value → Bool
  | .num m, .num n => m.eq n
  | v, w => v = w

/-- `v.toString()`; there is no property to read on `undefined` and `null`. -/
def toString : Value → Except Thrown String
  | .undefined | .null => .error .error
  | .bool b => .ok (if b then "true" else "false")
  | .num n => .ok n.toText
  | .str s => .ok s

@[simp]
theorem truthy_nat (n : ℕ) : (nat n).truthy = decide (n ≠ 0) := by
  simp [nat, truthy, Number.ofNat, Number.isZero, Dec.digits_of_eq_zero_iff]

@[simp]
theorem looseEq_nat (m n : ℕ) : looseEq (nat m) (nat n) = decide (m = n) := by
  simp [nat, looseEq, toNumber]

@[simp]
theorem looseEq_nat_false (n : ℕ) : looseEq (nat n) (.bool false) = decide (n = 0) := by
  simp [nat, looseEq, toNumber]

theorem strictEq_str {v : Value} {s : String} : v.strictEq (.str s) = true ↔ v = .str s := by
  cases v <;> simp [strictEq]

theorem looseEq_num_zero (n : Number) : looseEq (.num n) (nat 0) = n.isZero :=
  Number.eq_zero n

theorem looseEq_str_zero (s : String) : looseEq (.str s) (nat 0) = (Number.ofText s).isZero :=
  Number.eq_zero _

theorem truthy_of_toString {v : Value} {s : String} (h : v.toString = .ok s)
    (hs : s ∉ ["", "0", "NaN", "false"]) : v.truthy = true := by
  cases v with
  | undefined => cases h
  | null => cases h
  | bool b =>
    cases b with
    | false => simp_all [toString]
    | true => rfl
  | num n =>
    obtain rfl : n.toText = s := by simpa [toString] using h
    cases n with
    | nan => simp [Number.toText] at hs
    | infinity neg => rfl
    | finite neg d =>
      by_cases hd : d.digits = 0
      · simp [Number.toText, hd] at hs
      · simp [truthy, Number.isZero, hd]
  | str t =>
    obtain rfl : t = s := by simpa [toString] using h
    simpa [truthy] using fun ht : t = "" => hs (by simp [ht])

end Value

/-- The length of a text in UTF-16 code units. -/
def textLength (s : String) : ℕ :=
  (s.toList.map fun c => if c.val < 0x10000 then 1 else 2).sum

end JS
