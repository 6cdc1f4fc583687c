/-!
Names of hosts in ASCII. A label with other characters is written as its ASCII characters, a hyphen,
and a list of insertions: each is the distance to the next place and code point, a number whose
digits have bounds that follow the numbers before.
-/

namespace LanguageClient.Markdown.Punycode

/-- The bound of the digit at a place. -/
def threshold (place bias : Nat) : Nat := max 1 (min 26 (36 * (place + 1) - bias))

theorem one_le_threshold (place bias : Nat) : 1 ≤ threshold place bias := by
  unfold threshold; omega

/-- A digit: letters first, then figures. -/
def digit (d : Nat) : Char := if d < 26 then Char.ofNat (0x61 + d) else Char.ofNat (0x30 + d - 26)

/-- The value of a digit. -/
def value? (c : Char) : Option Nat :=
  if c.isLower then some (c.toNat - 0x61)
  else if c.isUpper then some (c.toNat - 0x41)
  else if c.isDigit then some (c.toNat - 0x30 + 26)
  else none

/-- Divides until the number is small, and counts 36 for each division. -/
def shrink (n count : Nat) : Nat × Nat :=
  if 455 < n then shrink (n / 35) (count + 36) else (n, count)
termination_by n

/-- The bias after a number. -/
def adapt (delta : Nat) (first : Bool) (length : Nat) : Nat :=
  let delta := if first then delta / 700 else delta / 2
  let (rest, count) := shrink (delta + delta / length) 0
  count + 36 * rest / (rest + 38)

/-- The digits of a number. -/
def number (bias place q : Nat) : List Char :=
  let t := threshold place bias
  if q < t then [digit q]
  else digit (t + (q - t) % (36 - t)) :: number bias (place + 1) ((q - t) / (36 - t))
termination_by q
decreasing_by
  have h := one_le_threshold place bias
  have := Nat.div_le_self (q - threshold place bias) (36 - threshold place bias)
  omega

/-- What has been written, how far the next place is, and how many characters are placed. -/
structure Writing where
  out : List Char := []
  delta : Nat := 0
  bias : Nat := 72
  placed : Nat

/-- Passes one character of the label while those with a code point are written. -/
def pass (basic code : Nat) (w : Writing) (c : Char) : Writing :=
  if c.toNat < code then { w with delta := w.delta + 1 }
  else if c.toNat = code then
    { out := w.out ++ number w.bias 0 w.delta
      delta := 0
      bias := adapt w.delta (w.placed = basic) (w.placed + 1)
      placed := w.placed + 1 }
  else w

/-- Writes the characters of a label by ascending code points, from `code` on. -/
def writeCodes (label : List Char) (basic : Nat) : List Nat → Nat → Writing → Writing
  | [], _, w => w
  | next :: more, code, w =>
    let w := { w with delta := w.delta + (next - code) * (w.placed + 1) }
    let w := label.foldl (pass basic next) w
    writeCodes label basic more (next + 1) { w with delta := w.delta + 1 }

/-- Puts a number into an ascending list, once. -/
def insertOnce (n : Nat) : List Nat → List Nat
  | [] => [n]
  | m :: rest => if n < m then n :: m :: rest else if n = m then m :: rest else m :: insertOnce n rest

/-- A label in ASCII. -/
def encode (label : List Char) : List Char :=
  let basic := label.filter (·.toNat < 128)
  let codes := (label.filter (128 ≤ ·.toNat)).foldr (fun c cs => insertOnce c.toNat cs) []
  let written := writeCodes label basic.length codes 128 { placed := basic.length }
  if basic.isEmpty then written.out else basic ++ '-' :: written.out

/-- Reads a number, and gives the digits after it. -/
def readNumber (bias : Nat) : Nat → Nat → Nat → List Char → Option (Nat × List Char)
  | _, _, _, [] => none
  | place, weight, sum, c :: rest => do
    let d ← value? c
    let t := threshold place bias
    let sum := sum + d * weight
    if d < t then some (sum, rest) else readNumber bias (place + 1) (weight * (36 - t)) sum rest

/-- Carries out insertions. The bound is the number of digits left. -/
def readCodes (first : Bool) (bias code place : Nat) (sofar : List Char) :
    Nat → List Char → Option (List Char)
  | _, [] => some sofar
  | 0, _ => none
  | bound + 1, digits => do
    let (delta, rest) ← readNumber bias 0 1 0 digits
    let place := place + delta
    let length := sofar.length + 1
    let code := code + place / length
    if 0x10FFFF < code then none
    else
      let place := place % length
      let sofar := sofar.take place ++ Char.ofNat code :: sofar.drop place
      readCodes false (adapt delta first length) code (place + 1) sofar bound rest

/-- A label read from ASCII. -/
def decode? (s : List Char) : Option (List Char) :=
  let tail := (s.reverse.takeWhile (· ≠ '-')).reverse
  let basic := (s.take (s.length - tail.length)).dropLast
  if s.all (·.toNat < 128) then readCodes true 72 128 0 basic tail.length tail else none

end LanguageClient.Markdown.Punycode
