import Mathlib.Algebra.Order.Ring.Nat
import Mathlib.Data.Int.Basic
import Mathlib.Data.List.Basic
import Mathlib.Tactic.Ring

/-!
# Numbers of the scripting language

A finite number is kept as the decimal its text shows: a sign and canonical
digits times a power of ten. Equality, zero tests, number-to-text and
text-to-number conversion are what the programs use; arithmetic is not needed.
Text is converted exactly, except that it underflows to zero and overflows to
infinity where a double does.
-/

namespace JS

/-- `digits * 10 ^ exp` with no trailing zero in `digits`, and zero written `0 * 10 ^ 0`. -/
structure Dec where
  digits : ℕ
  exp : ℤ
  canonical : digits % 10 ≠ 0 ∨ (digits = 0 ∧ exp = 0)
  deriving DecidableEq

def strip : ℕ → ℕ → ℤ → ℕ × ℤ
  | 0, _, _ => (0, 0)
  | fuel + 1, s, e =>
    if s = 0 then (0, 0) else if s % 10 = 0 then strip fuel (s / 10) (e + 1) else (s, e)

theorem strip_canonical (fuel s : ℕ) (e : ℤ) :
    (strip fuel s e).1 % 10 ≠ 0 ∨ ((strip fuel s e).1 = 0 ∧ (strip fuel s e).2 = 0) := by
  induction fuel generalizing s e with
  | zero => exact Or.inr ⟨rfl, rfl⟩
  | succ fuel ih =>
    simp only [strip]
    split_ifs with h0 h10
    · exact Or.inr ⟨rfl, rfl⟩
    · exact ih _ _
    · exact Or.inl h10

/-- The fuel `s + 1` is enough: stripping keeps the value of a whole number. -/
theorem strip_value (fuel s k : ℕ) (hs : s < fuel) :
    (strip fuel s k).1 * 10 ^ (strip fuel s k).2.toNat = s * 10 ^ k := by
  induction fuel generalizing s k with
  | zero => omega
  | succ fuel ih =>
    simp only [strip]
    split_ifs with h0 h10
    · simp [h0]
    · have hdiv : s / 10 * 10 = s := Nat.div_mul_cancel (Nat.dvd_of_mod_eq_zero h10)
      have hrec := ih (s / 10) (k + 1) (by omega)
      push_cast at hrec
      rw [hrec, pow_succ]
      calc s / 10 * (10 ^ k * 10) = s / 10 * 10 * 10 ^ k := by ring
        _ = s * 10 ^ k := by rw [hdiv]
    · simp

namespace Dec

def of (s : ℕ) (e : ℤ) : Dec :=
  ⟨(strip (s + 1) s e).1, (strip (s + 1) s e).2, strip_canonical _ _ _⟩

def toNat (d : Dec) : ℕ := d.digits * 10 ^ d.exp.toNat

theorem toNat_of (n : ℕ) : (of n 0).toNat = n := by
  simpa [of, toNat] using strip_value (n + 1) n 0 (Nat.lt_succ_self n)

theorem digits_of_eq_zero_iff (n : ℕ) : (of n 0).digits = 0 ↔ n = 0 := by
  constructor
  · intro h
    rw [← toNat_of n, toNat, h, Nat.zero_mul]
  · rintro rfl
    rfl

theorem of_injective {m n : ℕ} (h : of m 0 = of n 0) : m = n := by
  rw [← toNat_of m, h, toNat_of]

end Dec

inductive Number
  | nan
  | infinity (neg : Bool)
  | finite (neg : Bool) (d : Dec)
  deriving DecidableEq

namespace Number

def ofNat (n : ℕ) : Number := .finite false (.of n 0)

def isZero : Number → Bool
  | .finite _ d => d.digits = 0
  | _ => false

/-- Number equality: `NaN` differs from everything, `-0` equals `+0`. -/
def eq : Number → Number → Bool
  | .infinity a, .infinity b => a = b
  | .finite a x, .finite b y => x = y ∧ (x.digits = 0 ∨ a = b)
  | _, _ => false

@[simp]
theorem eq_ofNat (m n : ℕ) : eq (ofNat m) (ofNat n) = decide (m = n) := by
  by_cases h : m = n
  · simp [eq, ofNat, h]
  · have hd : Dec.of m 0 ≠ Dec.of n 0 := fun he => h (Dec.of_injective he)
    simp [eq, ofNat, h, hd]

theorem eq_zero (n : Number) : eq n (ofNat 0) = n.isZero := by
  cases n with
  | nan => rfl
  | infinity neg => rfl
  | finite neg d =>
    obtain ⟨s, e, hc⟩ := d
    by_cases hs : s = 0
    · subst hs
      obtain rfl : e = 0 := by simpa using hc
      simp [eq, ofNat, isZero, Dec.of, strip]
    · simp [eq, ofNat, isZero, Dec.of, strip, hs]

/-! ### Number to text -/

def zeros (n : ℕ) : List Char := List.replicate n '0'

/-- The text of nonzero digits `s` times `10 ^ e`: plain up to 21 places before
and 6 zeros after the point, with an exponent beyond. -/
def decimalText (s : ℕ) (e : ℤ) : List Char :=
  let ds := Nat.toDigits 10 s
  let k : ℤ := ds.length
  let n := k + e
  if k ≤ n ∧ n ≤ 21 then ds ++ zeros (n - k).toNat
  else if 0 < n ∧ n ≤ 21 then ds.take n.toNat ++ '.' :: ds.drop n.toNat
  else if -6 < n ∧ n ≤ 0 then '0' :: '.' :: zeros (-n).toNat ++ ds
  else
    let mantissa := if ds.length = 1 then ds else ds.take 1 ++ '.' :: ds.drop 1
    let sign := if 0 < n then '+' else '-'
    mantissa ++ 'e' :: sign :: Nat.toDigits 10 (n - 1).natAbs

def toText : Number → String
  | .nan => "NaN"
  | .infinity neg => if neg then "-Infinity" else "Infinity"
  | .finite neg d =>
    if d.digits = 0 then "0"
    else String.ofList ((if neg then ['-'] else []) ++ decimalText d.digits d.exp)

/-! ### Text to number -/

/-- The double nearest to `± s * 10 ^ e` is zero up to half the least positive
double, and infinite from half a step above the greatest. -/
def round (neg : Bool) (s : ℕ) (e : ℤ) : Number :=
  if s * 10 ^ e.toNat * 2 ^ 1075 ≤ 10 ^ (-e).toNat then .finite neg (.of 0 0)
  else if (2 ^ 1024 - 2 ^ 970) * 10 ^ (-e).toNat ≤ s * 10 ^ e.toNat then .infinity neg
  else .finite neg (.of s e)

def isSpace (c : Char) : Bool :=
  c.val ∈ [0x9, 0xA, 0xB, 0xC, 0xD, 0x20, 0xA0, 0x1680, 0x2028, 0x2029, 0x202F, 0x205F, 0x3000,
    0xFEFF] ∨ (0x2000 ≤ c.val ∧ c.val ≤ 0x200A)

def trim (cs : List Char) : List Char :=
  ((cs.dropWhile isSpace).reverse.dropWhile isSpace).reverse

def digitValue (c : Char) : ℕ :=
  if c.isDigit then c.toNat - '0'.toNat
  else if c.isLower then c.toNat - 'a'.toNat + 10
  else if c.isUpper then c.toNat - 'A'.toNat + 10
  else 36

def ofDigits (base : ℕ) (cs : List Char) : ℕ :=
  cs.foldl (fun n c => base * n + digitValue c) 0

def exponent : List Char → Option ℤ
  | [] => some 0
  | c :: cs =>
    if c = 'e' ∨ c = 'E' then
      let (neg, ds) : Bool × List Char := match cs with
        | '-' :: ds => (true, ds)
        | '+' :: ds => (false, ds)
        | ds => (false, ds)
      if ds ≠ [] ∧ ds.all Char.isDigit then
        some (if neg then -(ofDigits 10 ds : ℤ) else ofDigits 10 ds)
      else none
    else none

def unsignedDecimal (neg : Bool) (cs : List Char) : Number :=
  if cs = "Infinity".toList then .infinity neg
  else
    let whole := cs.takeWhile Char.isDigit
    let rest := cs.dropWhile Char.isDigit
    let (frac, rest) : List Char × List Char := match rest with
      | '.' :: r => (r.takeWhile Char.isDigit, r.dropWhile Char.isDigit)
      | r => ([], r)
    if whole = [] ∧ frac = [] then .nan
    else match exponent rest with
      | none => .nan
      | some e => round neg (ofDigits 10 (whole ++ frac)) (e - frac.length)

def radix (base : ℕ) (cs : List Char) : Number :=
  if cs ≠ [] ∧ cs.all (fun c => digitValue c < base) then round false (ofDigits base cs) 0
  else .nan

def ofText (s : String) : Number :=
  match trim s.toList with
  | [] => ofNat 0
  | '0' :: 'x' :: cs | '0' :: 'X' :: cs => radix 16 cs
  | '0' :: 'o' :: cs | '0' :: 'O' :: cs => radix 8 cs
  | '0' :: 'b' :: cs | '0' :: 'B' :: cs => radix 2 cs
  | '-' :: cs => unsignedDecimal true cs
  | '+' :: cs => unsignedDecimal false cs
  | cs => unsignedDecimal false cs

end Number

end JS
