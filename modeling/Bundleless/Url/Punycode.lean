/-! # Punycode

    Labels of a domain with characters outside ASCII, written in ASCII: the
    plain characters first, then, as numbers of variable length, how often to
    step the pair of code point and position before the next character goes
    in. The numbers are in base 36 with thresholds that adapt to the label.
-/

namespace Bundleless.Url.Punycode

/-! ## Digits and thresholds -/

/-- The digit of a value below 36. -/
def digit (n : Nat) : Char := if n < 26 then Char.ofNat (97 + n) else Char.ofNat (22 + n)

/-- The value of a digit. -/
def value? (c : Char) : Option Nat :=
  if 'a' ≤ c ∧ c ≤ 'z' then some (c.toNat - 97)
  else if 'A' ≤ c ∧ c ≤ 'Z' then some (c.toNat - 65)
  else if '0' ≤ c ∧ c ≤ '9' then some (c.toNat - 22)
  else none

/-- The threshold of the place `k` under a bias. -/
def threshold (k bias : Nat) : Nat := if k ≤ bias then 1 else min 26 (k - bias)

theorem threshold_pos (k bias : Nat) : 0 < threshold k bias := by
  unfold threshold
  split <;> omega

/-- How often a step count is divided by 35 until it is at most 455, and what remains. -/
def damp (delta : Nat) : Nat × Nat :=
  -- 455 is half of 35 * 26.
  if 455 < delta then
    let (times, rest) := damp (delta / 35)
    (times + 1, rest)
  else (0, delta)
termination_by delta

/-- The bias after a step count, the `count`-th one. -/
def adapt (delta count : Nat) (first : Bool) : Nat :=
  -- The first step leads away from ASCII and is long; it says little about the next one.
  let delta := if first then delta / 700 else delta / 2
  let (times, rest) := damp (delta + delta / count)
  36 * times + 36 * rest / (rest + 38)

/-- The digits of a step count from the place `k` on. -/
def digits (q k bias : Nat) : List Char :=
  let t := threshold k bias
  if q < t then [digit q]
  else digit (t + (q - t) % (36 - t)) :: digits ((q - t) / (36 - t)) (k + 36) bias
termination_by q
decreasing_by
  have ht := threshold_pos k bias
  have hle : (q - threshold k bias) / (36 - threshold k bias) ≤ q - threshold k bias :=
    Nat.div_le_self _ _
  omega

/-! ## Encoding -/

/-- The state of the encoder. -/
structure Encoder where
  delta : Nat
  bias : Nat
  /-- The characters that have been written. -/
  handled : Nat
  first : Bool
  /-- The digits, the last one first. -/
  out : List Char

/-- Pass over one character of the label while the code point `n` is written. -/
def Encoder.pass (n : Nat) (e : Encoder) (c : Nat) : Encoder :=
  if c < n then { e with delta := e.delta + 1 }
  else if c = n then
    ⟨0, adapt e.delta (e.handled + 1) e.first, e.handled + 1, false,
      (digits e.delta 36 e.bias).reverse ++ e.out⟩
  else e

/-- Write the code points `ns`, in rising order, of the label `label`; `before` is the code point
    that was the last one passed. -/
def Encoder.write (label : List Nat) : (before : Nat) → (ns : List Nat) → Encoder → Encoder
  | _, [], e => e
  | before, n :: ns, e =>
    let e := { e with delta := e.delta + (n - before) * (e.handled + 1) }
    let e := label.foldl (Encoder.pass n) e
    Encoder.write label (n + 1) ns { e with delta := e.delta + 1 }

/-- The code points of the label outside ASCII, in rising order, each once. -/
def strangers (label : List Nat) : List Nat :=
  ((label.filter (0x80 ≤ ·)).eraseDups).mergeSort

/-- The label in ASCII. -/
def encode (label : List Char) : List Char :=
  let plain := label.filter fun c => c.toNat < 0x80
  let codes := label.map Char.toNat
  let start : Encoder := ⟨0, 72, plain.length, true, []⟩
  let e := Encoder.write codes 0x80 (strangers codes) start
  (if plain.isEmpty then [] else plain ++ ['-']) ++ e.out.reverse

/-! ## Decoding -/

/-- The state of the decoder. -/
structure Decoder where
  n : Nat
  i : Nat
  bias : Nat
  /-- The number that is being read, the weight of its next digit and that digit's place. -/
  start : Nat
  weight : Nat
  place : Nat
  /-- A number is being read. -/
  reading : Bool
  out : List Nat

/-- Read one digit. -/
def Decoder.read? (d : Decoder) (c : Char) : Option Decoder := do
  let v ← value? c
  let i := d.i + v * d.weight
  let t := threshold d.place d.bias
  if v < t then
    let count := d.out.length + 1
    let bias := adapt (i - d.start) count (d.start == 0)
    let n := d.n + i / count
    let position := i % count
    if 0x10FFFF < n ∨ (0xD800 ≤ n ∧ n ≤ 0xDFFF) then none
    else
      some ⟨n, position + 1, bias, position + 1, 1, 36, false,
        d.out.take position ++ n :: d.out.drop position⟩
  else some { d with i := i, weight := d.weight * (36 - t), place := d.place + 36, reading := true }

/-- The label that the text stands for. -/
def decode? (cs : List Char) : Option (List Char) := do
  let (plain, rest) :=
    match cs.reverse.span (· != '-') with
    | (tail, _ :: front) => (front.reverse, tail.reverse)
    | (tail, []) => ([], tail.reverse)
  let start : Decoder := ⟨0x80, 0, 72, 0, 1, 36, false, plain.map Char.toNat⟩
  let d ← rest.foldlM Decoder.read? start
  if d.reading then none else some (d.out.map Char.ofNat)

end Bundleless.Url.Punycode
