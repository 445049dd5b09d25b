/-! # Binary64

    The numbers of the binary interchange format with 53 digits, as exact
    values: a count of units and the power of two that the unit is. All
    arithmetic is exact on natural numbers, then rounded once, to the
    nearest number and on a tie to the one with an even count.

    Only magnitudes are needed here. The sign of a number is kept by those
    who have one.
-/

namespace Bundleless

/-- The magnitude of a binary64 number. `finite m e` is `m * 2 ^ e`; the
    canonical form has `m < 2 ^ 53`, and `e` as small as that and
    `-1074 ≤ e` allow. -/
inductive Binary64 where
  | finite (units : Nat) (exponent : Int)
  | infinite
  | undefined
deriving DecidableEq, Repr, Inhabited

namespace Binary64

/-! ## Rounding -/

/-- The least exponent of a unit. -/
def minExponent : Int := -1074

/-- The greatest exponent of a unit. -/
def maxExponent : Int := 971

/-- `num / den` rounded to the nearest integer, on a tie to the even one. -/
def divNearestEven (num den : Nat) : Nat :=
  let q := num / den
  let r := 2 * (num % den)
  if den < r ∨ (r = den ∧ q % 2 = 1) then q + 1 else q

/-- The count of units `2 ^ e` in `num / den`, rounded to the nearest. -/
def unitsAt (num den : Nat) (e : Int) : Nat :=
  if 0 ≤ e then divNearestEven num (den <<< e.toNat)
  else divNearestEven (num <<< (-e).toNat) den

/-- The exponent of the unit for which `num / den` has 53 digits before rounding, or the
    least exponent. -/
def exponentOf (num den : Nat) : Int :=
  let guess : Int := (num.log2 : Int) - (den.log2 : Int) - 52
  -- `2 ^ (guess + 51) < num / den < 2 ^ (guess + 53)`
  let full : Bool :=
    if 0 ≤ guess + 52 then den <<< (guess + 52).toNat ≤ num
    else den ≤ num <<< (-(guess + 52)).toNat
  max minExponent (if full then guess else guess - 1)

/-- The number nearest to `num / den`. -/
def ofRatio (num den : Nat) : Binary64 :=
  if num = 0 then .finite 0 minExponent
  else
    let e := exponentOf num den
    let m := unitsAt num den e
    let (m, e) := if m = 1 <<< 53 then (1 <<< 52, e + 1) else (m, e)
    if maxExponent < e then .infinite else .finite m e

/-- The number nearest to `n`. -/
def ofNat (n : Nat) : Binary64 := ofRatio n 1

/-- `m * 2 ^ e` as a ratio. -/
def ratio (m : Nat) (e : Int) : Nat × Nat :=
  if 0 ≤ e then (m <<< e.toNat, 1) else (m, 1 <<< (-e).toNat)

/-! ## Arithmetic -/

/-- Zero is a finite magnitude without units. -/
def isZero : Binary64 → Bool
  | .finite 0 _ => true
  | _ => false

/-- The rounded product. -/
def mul : Binary64 → Binary64 → Binary64
  | .undefined, _ | _, .undefined => .undefined
  | .infinite, b => if b.isZero then .undefined else .infinite
  | a, .infinite => if a.isZero then .undefined else .infinite
  | .finite m e, .finite n f =>
    let (num, den) := ratio (m * n) (e + f)
    ofRatio num den

/-- The rounded quotient. -/
def div : Binary64 → Binary64 → Binary64
  | .undefined, _ | _, .undefined => .undefined
  | .infinite, .infinite => .undefined
  | .infinite, _ => .infinite
  | .finite .., .infinite => .finite 0 minExponent
  | .finite 0 _, .finite 0 _ => .undefined
  | .finite _ _, .finite 0 _ => .infinite
  | .finite m e, .finite n f =>
    let (a, b) := ratio m e
    let (c, d) := ratio n f
    ofRatio (a * d) (b * c)

/-- `acc` times the powers `base ^ (2 ^ i)` for the binary digits `i < digits` of `n`, each power
    the square of the one before, rounded at every step. -/
def powBits : (digits n : Nat) → (base acc : Binary64) → Binary64
  | 0, _, _, acc => acc
  | digits + 1, n, base, acc =>
    powBits digits (n / 2) (base.mul base) (if n % 2 = 1 then acc.mul base else acc)

/-- `base ^ n` by repeated squaring; a negative power is the reciprocal. -/
def pow (base : Binary64) (n : Int) : Binary64 :=
  let power := powBits (n.natAbs.log2 + 1) n.natAbs base (ofNat 1)
  if n < 0 then (ofNat 1).div power else power

/-- The integer part, at most `limit`; nothing for an undefined number. -/
def truncate (limit : Nat) : Binary64 → Nat
  | .undefined => 0
  | .infinite => limit
  | .finite m e => min limit (if 0 ≤ e then m <<< e.toNat else m >>> (-e).toNat)

end Binary64

end Bundleless
