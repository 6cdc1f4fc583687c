/-!
Floating-point numbers of a JSON text. A literal with a fraction or an exponent is rounded to the
nearest 64-bit binary number and is written back with the fewest digits that read as the same
number. Everything here is exact arithmetic on natural numbers.

    literal  ──ofDecimal──▶  mantissa · 2 ^ exponent  ──shortest──▶  digits · 10 ^ place
-/

namespace LanguageClient

/-- A 64-bit binary floating-point number. A finite one is `± mantissa · 2 ^ exponent` with
    `mantissa < 2 ^ 53` and `-1074 ≤ exponent ≤ 971`. -/
inductive Binary64 where
  | nan
  | infinite (negative : Bool)
  | finite (negative : Bool) (mantissa : Nat) (exponent : Int)
  deriving DecidableEq, Repr

namespace Binary64

/-- `a / b` rounded to the nearest integer, a half to the even neighbour. -/
def roundDiv (a b : Nat) : Nat :=
  let q := a / b
  let r := a % b
  if 2 * r < b then q else if b < 2 * r then q + 1 else if q % 2 = 0 then q else q + 1

/-- The fraction `n / d` divided by `2 ^ e`, as a fraction. -/
def scale (n d : Nat) (e : Int) : Nat × Nat :=
  if e < 0 then (n * Nat.pow 2 e.natAbs, d) else (n, d * Nat.pow 2 e.natAbs)

/-- The binary exponent that gives the quotient `n / d` 53 binary digits, or the least one there
    is when the quotient is that small. -/
def exponentFor (n d : Nat) : Int :=
  let guess : Int := (n.log2 : Int) - (d.log2 : Int) - 52
  let fits (e : Int) : Bool := let (a, b) := scale n d e; a < b * Nat.pow 2 53
  let e := if fits (guess - 1) then guess - 1 else if fits guess then guess else guess + 1
  max e (-1074)

/-- The nearest binary number to the positive fraction `n / d`. -/
def ofFraction (negative : Bool) (n d : Nat) : Binary64 :=
  let e := exponentFor n d
  let (a, b) := scale n d e
  let m := roundDiv a b
  let (m, e) := if m = Nat.pow 2 53 then (Nat.pow 2 52, e + 1) else (m, e)
  if 971 < e then .infinite negative else .finite negative m e

/-- Number of decimal digits of a natural number (none for zero). -/
def digitCount (n : Nat) : Nat := if n = 0 then 0 else (Nat.toDigits 10 n).length

/-- The nearest binary number to `± digits · 10 ^ place`. Far outside the range of the format the
    answer is known without computing the power. -/
def ofDecimal (negative : Bool) (digits : Nat) (place : Int) : Binary64 :=
  let top : Int := digitCount digits + place
  if digits = 0 ∨ top < -400 then .finite negative 0 (-1074)
  else if 400 < top then .infinite negative
  else if place < 0 then ofFraction negative digits (Nat.pow 10 place.natAbs)
  else ofFraction negative (digits * Nat.pow 10 place.natAbs) 1

/-- Is the number zero, of either sign? -/
def isZero : Binary64 → Bool
  | .finite _ m _ => m = 0
  | _ => false

/-! ### Comparing and adding -/

/-- The whole number as it is, however many digits it has. -/
def ofInt (n : Int) : Binary64 := .finite (n < 0) n.natAbs 0

/-- A finite number as a fraction. -/
def fraction (negative : Bool) (mantissa : Nat) (exponent : Int) : Int × Nat :=
  let n : Int := if negative then -mantissa else mantissa
  if exponent < 0 then (n, Nat.pow 2 exponent.natAbs) else (n * (Nat.pow 2 exponent.natAbs : Nat), 1)

/-- Is the first number less than the second? Nothing is less or greater than what is no number. -/
def less : Binary64 → Binary64 → Bool
  | .nan, _ | _, .nan => false
  | .infinite a, .infinite b => a && !b
  | .infinite a, .finite .. => a
  | .finite .., .infinite b => !b
  | .finite a m d, .finite b n e =>
    let (x, y) := (fraction a m d, fraction b n e)
    x.1 * y.2 < y.1 * x.2

/-- Are the numbers equal? What is no number does not equal itself. -/
def equal : Binary64 → Binary64 → Bool
  | .infinite a, .infinite b => a == b
  | .finite a m d, .finite b n e =>
    let (x, y) := (fraction a m d, fraction b n e)
    x.1 * y.2 == y.1 * x.2
  | _, _ => false

/-- The nearest binary number to a fraction. -/
def ofRatio (n : Int) (d : Nat) : Binary64 :=
  if n = 0 then .finite false 0 (-1074) else ofFraction (n < 0) n.natAbs d

def neg : Binary64 → Binary64
  | .nan => .nan
  | .infinite negative => .infinite !negative
  | .finite negative m e => .finite (!negative) m e

/-- The sum, rounded. -/
def add : Binary64 → Binary64 → Binary64
  | .nan, _ | _, .nan => .nan
  | .infinite a, .infinite b => if a = b then .infinite a else .nan
  | .infinite a, .finite .. | .finite .., .infinite a => .infinite a
  | .finite a m d, .finite b n e =>
    if a && b && m = 0 && n = 0 then .finite true 0 (-1074)
    else
      let (x, y) := (fraction a m d, fraction b n e)
      ofRatio (x.1 * y.2 + y.1 * x.2) (x.2 * y.2)

/-! ### Writing -/

/-- The interval of reals that round to `mantissa · 2 ^ exponent`, as numerators over one
    denominator: lower end, value, upper end, denominator. -/
def rounding (mantissa : Nat) (exponent : Int) : Nat × Nat × Nat × Nat :=
  let below : Nat := if mantissa = Nat.pow 2 52 ∧ -1074 < exponent then 1 else 2
  let unit := Nat.pow 2 exponent.natAbs
  if exponent < 0 then (4 * mantissa - below, 4 * mantissa, 4 * mantissa + 2, 4 * unit)
  else ((4 * mantissa - below) * unit, 4 * mantissa * unit, (4 * mantissa + 2) * unit, 4)

/-- The decimal place at which `n / d` has `count` digits before the point. -/
def placeFor (n d : Nat) (count : Nat) : Int :=
  let guess : Int := ((n / d).log2 : Int) * 30103 / 100000
  let guess : Int := if n < d then -(((d / n).log2 : Int) * 30103 / 100000) - 1 else guess
  let reaches (p : Int) : Bool :=
    if p < 0 then d ≤ n * Nat.pow 10 p.natAbs else d * Nat.pow 10 p.natAbs ≤ n
  let p := if reaches (guess + 1) then guess + 1 else if reaches guess then guess else guess - 1
  p + 1 - count

/-- The nearest of the two `count`-digit neighbours of the value that rounds to the same number,
    with its decimal place. -/
def candidate (mantissa : Nat) (exponent : Int) (count : Nat) : Option (Nat × Int) :=
  let (lo, v, hi, d) := rounding mantissa exponent
  let place := placeFor v d count
  let up := if place < 0 then 1 else Nat.pow 10 place.natAbs
  let down := if place < 0 then Nat.pow 10 place.natAbs else 1
  let inside (x : Nat) : Bool :=
    let (l, y, h) := (lo * down, x * up * d, hi * down)
    if mantissa % 2 = 0 then l ≤ y && y ≤ h else l < y && y < h
  let x := v * down / (up * d)
  match inside x, inside (x + 1) with
  | true, false => some (x, place)
  | false, true => some (x + 1, place)
  | false, false => none
  | true, true =>
    let low := v * down - x * up * d
    let high := (x + 1) * up * d - v * down
    some (if low < high ∨ (low = high ∧ x % 2 = 0) then x else x + 1, place)

/-- The fewest decimal digits that read back as `mantissa · 2 ^ exponent`, with their place. -/
def shortest (mantissa : Nat) (exponent : Int) : Nat × Int :=
  ((List.range 17).findSome? (fun k => candidate mantissa exponent (k + 1))).getD (0, 0)

/-- Digits of a natural number in base ten. -/
def decimal (n : Nat) : List Char := Nat.toDigits 10 n

/-- Positional notation of `digits · 10 ^ place`, always with a fraction. -/
def positional (digits : List Char) (place : Int) : List Char :=
  let point : Int := digits.length + place
  if 0 ≤ place then digits ++ List.replicate place.natAbs '0' ++ ['.', '0']
  else if 0 < point then digits.take point.natAbs ++ '.' :: digits.drop point.natAbs
  else '0' :: '.' :: (List.replicate point.natAbs '0' ++ digits)

/-- Scientific notation: one digit before the point, at least two in the exponent. -/
def scientific (digits : List Char) (place : Int) : List Char :=
  let e : Int := digits.length - 1 + place
  let tail := match digits.drop 1 with
    | [] => []
    | more => '.' :: more
  let width := decimal e.natAbs
  digits.take 1 ++ tail ++ 'e' :: (if e < 0 then '-' else '+') ::
    (if width.length < 2 then '0' :: width else width)

/-- Digits without the zeros at the end, and the place they then start from. -/
def dropZeros (digits : List Char) (place : Int) : List Char × Int :=
  let kept := (digits.reverse.dropWhile (· == '0')).reverse
  (kept, place + (digits.length - kept.length : Nat))

/-- The written form. Numbers from `10 ^ -4` up to `10 ^ 16` are positional, all others are in
    scientific notation. -/
def render : Binary64 → List Char
  | .nan => "NaN".toList
  | .infinite negative => (if negative then ['-'] else []) ++ "Infinity".toList
  | .finite negative m e =>
    let sign := if negative then ['-'] else []
    if m = 0 then sign ++ "0.0".toList
    else
      let (digits, place) := shortest m e
      let (digits, place) := dropZeros (decimal digits) place
      let point : Int := digits.length + place
      sign ++ if -4 < point ∧ point ≤ 16 then positional digits place else scientific digits place

end Binary64

end LanguageClient
