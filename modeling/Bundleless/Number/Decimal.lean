import Bundleless.Number.Binary64

/-! # Shortest decimals

    The shortest decimal that reads back as a given binary64 magnitude, and
    its written form. A decimal reads back when it lies between the midpoints
    to the two neighbouring magnitudes, the midpoints themselves included
    when the count of units is even. Of two decimals of the same length the
    nearer one is taken.
-/

namespace Bundleless

/-- The decimal `digits * 10 ^ exponent`. -/
structure Decimal where
  digits : Nat
  exponent : Int
deriving DecidableEq, Repr

namespace Decimal

/-! ## Comparison with binary values -/

/-- Both sides of the comparison of `d * 10 ^ k` with `m * 2 ^ e`, as natural numbers. -/
def scaled (d : Nat) (k : Int) (m : Nat) (e : Int) : Nat × Nat :=
  ((d * Nat.pow 10 k.toNat) <<< (-e).toNat, (m <<< e.toNat) * Nat.pow 10 (-k).toNat)

/-- `d * 10 ^ k` reads back as `m * 2 ^ e`. The neighbour below a power of two is half as far away
    as the one above. -/
def readsBack (m : Nat) (e : Int) (d : Nat) (k : Int) : Bool :=
  let below := if m = 1 <<< 52 ∧ Binary64.minExponent < e then 4 * m - 1 else 4 * m - 2
  let (x, lo) := scaled d k below (e - 2)
  let (y, hi) := scaled d k (4 * m + 2) (e - 2)
  if m % 2 = 0 then lo ≤ x && y ≤ hi else lo < x && y < hi

/-! ## The shortest decimal -/

/-- The greatest multiple of `10 ^ k` that is at most `m * 2 ^ e`, as a count. -/
def floorAt (m : Nat) (e : Int) (k : Int) : Nat :=
  let (unit, value) := scaled 1 k m e
  value / unit

/-- The neighbour of `m * 2 ^ e` among the multiples of `10 ^ k` that reads back: the nearer one,
    on a tie the even one. -/
def atScale? (m : Nat) (e : Int) (k : Int) : Option Nat :=
  let d := floorAt m e k
  match readsBack m e d k, readsBack m e (d + 1) k with
  | true, true =>
    -- the value against the middle between `d` and `d + 1`
    let (middle, value) := scaled (2 * d + 1) k (2 * m) e
    some (if value < middle ∨ (value = middle ∧ d % 2 = 0) then d else d + 1)
  | true, false => some d
  | false, true => some (d + 1)
  | false, false => none

/-- The first scale from `10 ^ k` downwards on which a neighbour reads back. -/
def searchFrom (m : Nat) (e : Int) : (steps : Nat) → (k : Int) → Decimal
  | 0, k => ⟨floorAt m e k, k⟩
  | steps + 1, k =>
    match atScale? m e k with
    | some d => ⟨d, k⟩
    | none => searchFrom m e steps (k - 1)

/-- The shortest decimal that reads back as `m * 2 ^ e`. The search starts above the value, so the
    first digit count is one; seventeen always suffice. -/
def shortest (m : Nat) (e : Int) : Decimal :=
  let log10 : Int := ((m.log2 : Int) + e) * 30103 / 100000
  searchFrom m e 24 (log10 + 2)

/-! ## Written form -/

/-- Drop the zeros at the end of the digits. -/
def normalize : (digitCount : Nat) → Decimal → Decimal
  | 0, d => d
  | n + 1, d =>
    if d.digits ≠ 0 ∧ d.digits % 10 = 0 then normalize n ⟨d.digits / 10, d.exponent + 1⟩ else d

/-- The decimal digits of `n`. -/
def digitsOf (n : Nat) : List Char := (Nat.repr n).toList

/-- Written with a point when the point stands among the digits, up to sixteen digits before it or
    four zeros after it, and with an exponent otherwise. -/
def toChars (d : Decimal) : List Char :=
  let d := normalize (digitsOf d.digits).length d
  let ds := digitsOf d.digits
  let n : Int := ds.length
  let point := n + d.exponent
  if 0 ≤ d.exponent ∧ point ≤ 16 then
    ds ++ List.replicate d.exponent.toNat '0' ++ ['.', '0']
  else if 0 < point ∧ point ≤ 16 then
    ds.take point.toNat ++ ['.'] ++ ds.drop point.toNat
  else if -5 < point ∧ point ≤ 0 then
    ['0', '.'] ++ List.replicate (-point).toNat '0' ++ ds
  else
    let sign := if point - 1 < 0 then ['-'] else []
    let expo := ['e'] ++ sign ++ digitsOf (point - 1).natAbs
    match ds with
    | [c] => c :: expo
    | c :: cs => c :: '.' :: cs ++ expo
    | [] => expo

end Decimal

end Bundleless
