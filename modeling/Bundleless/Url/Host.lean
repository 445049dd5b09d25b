import Bundleless.Number.Decimal
import Bundleless.Text.Quoted
import Bundleless.Url.Domain
import Bundleless.Url.Fault

/-! # Hosts

    The host of a URL: a domain, or an address of four bytes or of eight
    pieces. A domain whose last label is a number has to be an address.
-/

namespace Bundleless.Url

/-- A host. -/
inductive Host where
  | domain (name : List Char)
  | ipv4 (address : Nat)
  | ipv6 (pieces : List Nat)
deriving DecidableEq, Repr, Inhabited

/-! ## Addresses of four bytes -/

namespace Ipv4

/-- The value of digits in a base. -/
def value? (base : Nat) (cs : List Char) : Option Nat :=
  cs.foldlM (fun n c => do
    let d ← hexValue? c
    if d < base then some (base * n + d) else none) 0

/-- Read a number: hexadecimal after `0x`, octal after `0`, else decimal. -/
def number? : List Char → Option Nat
  | [] => none
  | '0' :: 'x' :: cs | '0' :: 'X' :: cs => value? 16 cs
  | '0' :: c :: cs => value? 8 (c :: cs)
  | cs => value? 10 cs

/-- The parts of a name between dots, without an empty one at the end. -/
def parts (name : List Char) : List (List Char) :=
  let ps := Chars.splitAt (· == '.') name
  if ps.length > 1 ∧ ps.getLast? = some [] then ps.dropLast else ps

/-- The last part of the name is a number. -/
def endsInNumber (name : List Char) : Bool :=
  match (parts name).getLast? with
  | none => false
  | some last =>
    (!last.isEmpty && last.all fun c => '0' ≤ c ∧ c ≤ '9') || (number? last).isSome

/-- The address of one to four numbers, of which the last fills the remaining bytes. -/
def ofNumbers? (ns : List Nat) : Option Nat :=
  match ns.reverse with
  | [] => none
  | last :: front =>
    let bytes := front.reverse
    if 4 < ns.length ∨ bytes.any (255 < ·) ∨ 1 <<< (8 * (4 - bytes.length)) ≤ last then none
    else some (bytes.foldl (fun n b => 256 * n + b) 0 <<< (8 * (4 - bytes.length)) + last)

/-- Read an address. -/
def read? (name : List Char) : Option Nat := do ofNumbers? (← (parts name).mapM number?)

/-- The four bytes between dots. -/
def chars (address : Nat) : List Char :=
  List.intercalate ['.'] ([3, 2, 1, 0].map fun i => Decimal.digitsOf (address >>> (8 * i) % 256))

end Ipv4

/-! ## Addresses of eight pieces -/

namespace Ipv6

/-- Read a piece of one to four hexadecimal digits. -/
def piece? (cs : List Char) : Option Nat :=
  if cs.isEmpty ∨ 4 < cs.length then none else Ipv4.value? 16 cs

/-- Read one byte in decimal digits, without zeros before it. -/
def byte? : List Char → Option Nat
  | [] => none
  | ['0'] => some 0
  | '0' :: _ :: _ => none
  | cs => (Ipv4.value? 10 cs).filter (· ≤ 255)

/-- Read four bytes between dots as two pieces. -/
def tail? (cs : List Char) : Option (List Nat) := do
  match ← (Chars.splitAt (· == '.') cs).mapM byte? with
  | [a, b, c, d] => return [256 * a + b, 256 * c + d]
  | _ => none

/-- Read pieces between colons; the last may be four bytes between dots if `mixed`. -/
def pieces? (mixed : Bool) : List (List Char) → Option (List Nat)
  | [] => some []
  | [cs] => if mixed ∧ cs.contains '.' then tail? cs else (piece? cs).map ([·])
  | cs :: rest => do return (← piece? cs) :: (← pieces? mixed rest)

/-- Read a run of pieces, which may be empty. -/
def run? (mixed : Bool) (cs : List Char) : Option (List Nat) :=
  if cs.isEmpty then some [] else pieces? mixed (Chars.splitAt (· == ':') cs)

/-- What stands before and after the first two colons in a row. -/
def cut? : List Char → Option (List Char × List Char)
  | ':' :: ':' :: cs => some ([], cs)
  | c :: cs => (cut? cs).map fun (a, b) => (c :: a, b)
  | [] => none

/-- Read an address. Two colons in a row stand for as many zeros as are missing, at least one. -/
def read? (cs : List Char) : Option (List Nat) :=
  match cut? cs with
  | none => (run? true cs).filter (·.length = 8)
  | some (front, back) => do
    let front ← run? false front
    let back ← run? true back
    if 7 < front.length + back.length then none
    else
      return front ++ List.replicate (8 - (front.length + back.length)) 0 ++ back

/-- The length of the run of zeros at the start. -/
def zeros : List Nat → Nat
  | 0 :: ps => zeros ps + 1
  | _ => 0

/-- The position and the length of the first longest run of zeros. -/
def longest : List Nat → Nat × Nat
  | [] => (0, 0)
  | p :: ps =>
    let (i, n) := longest ps
    let here := zeros (p :: ps)
    if n ≤ here then (0, here) else (i + 1, n)

/-- A piece in hexadecimal digits. -/
def pieceChars (ps : List Nat) : List Char := List.intercalate [':'] (ps.map Text.hexDigits)

/-- The pieces between colons, the first longest run of two zeros or more left out. -/
def chars (ps : List Nat) : List Char :=
  let (i, n) := longest ps
  if n < 2 then pieceChars ps
  else pieceChars (ps.take i) ++ [':', ':'] ++ pieceChars (ps.drop (i + n))

end Ipv6

/-! ## Hosts -/

namespace Host

/-- The written form. -/
def chars : Host → List Char
  | domain name => name
  | ipv4 a => Ipv4.chars a
  | ipv6 ps => ['['] ++ Ipv6.chars ps ++ [']']

/-- Read an address in brackets. -/
def bracketed (cs : List Char) : Except Fault Host :=
  match Chars.stripSuffix? [']'] cs with
  | none => .error .invalidIpv6
  | some inner =>
    match Ipv6.read? inner with
    | some ps => .ok (.ipv6 ps)
    | none => .error .invalidIpv6

/-- Read the host of a special URL. -/
def read (cs : List Char) : Except Fault Host :=
  match cs with
  | '[' :: cs => bracketed cs
  | _ =>
    match (textOfBytes? (percentDecode cs)).bind Domain.toAscii? with
    | none => .error .invalidDomain
    | some [] => .error .emptyHost
    | some name =>
      if Ipv4.endsInNumber name then
        match Ipv4.read? name with
        | some a => .ok (.ipv4 a)
        | none => .error .invalidIpv4
      else .ok (.domain name)

/-- A character that cannot stand in an opaque host. -/
def isForbidden (c : Char) : Bool :=
  ['\x00', '\t', '\n', '\r', ' ', '#', '/', ':', '<', '>', '?', '@', '[', '\\', ']', '^',
    '|'].contains c

/-- Read the host of a URL that is not special. -/
def readOpaque (cs : List Char) : Except Fault Host :=
  match cs with
  | '[' :: cs => bracketed cs
  | _ =>
    if cs.any isForbidden then .error .invalidDomainCharacter
    else .ok (.domain (percentEncode controlSet cs))

end Host

end Bundleless.Url
