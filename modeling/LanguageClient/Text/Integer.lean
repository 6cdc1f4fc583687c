import LanguageClient.Text.DecimalDigit
import LanguageClient.Text.Blank
import LanguageClient.Text.Quoted

/-!
Whole numbers written by people and by header lines: blanks around them, a sign, leading zeros,
single underscores between digits, and the decimal digits of any script.
-/

namespace LanguageClient.Text

/-- White space that may stand around a number. The information separators may not. -/
def isNumberGap (c : Char) : Bool := isBlank c && !(0x1c ≤ c.toNat && c.toNat ≤ 0x1f)

/-- The value of digits that follow at least one digit of value `acc`; an underscore must be
    followed by a digit. -/
def readDigits (acc : Nat) : List Char → Option Nat
  | [] => some acc
  | '_' :: c :: rest =>
    match digitValue? c with
    | some d => readDigits (acc * 10 + d) rest
    | none => none
  | c :: rest =>
    match digitValue? c with
    | some d => readDigits (acc * 10 + d) rest
    | none => none

/-- The value of an unsigned number. -/
def readUnsigned? : List Char → Option Nat
  | [] => none
  | c :: rest =>
    match digitValue? c with
    | some d => readDigits d rest
    | none => none

/-- The value of a number with an optional sign. -/
def readSigned? : List Char → Option Int
  | '-' :: rest => (readUnsigned? rest).map fun n => -(n : Int)
  | '+' :: rest => (readUnsigned? rest).map fun n => (n : Int)
  | s => (readUnsigned? s).map fun n => (n : Int)

/-- The value of a written whole number. -/
def integer? (s : List Char) : Option Int :=
  readSigned? ((s.dropWhile isNumberGap).reverse.dropWhile isNumberGap).reverse

/-- What is said of a text that is no whole number. -/
def notInteger (s : List Char) : String :=
  "invalid literal for int() with base 10: " ++ String.ofList ((quoted s).take 200)

/-- How many digits a whole number may be written with. -/
def digitLimit : Nat := 4300

/-- What is said of a whole number with more digits than that. -/
def tooManyDigits (count : Nat) : String :=
  "Exceeds the limit (" ++ toString digitLimit ++ " digits) for integer string conversion: value has "
    ++ toString count ++ " digits; use sys.set_int_max_str_digits() to increase the limit"

/-- The number of digits of the number at the front of a text, which something else may follow. It
    is none if underscores do not stand between digits. -/
def leadingDigits (s : List Char) : Nat :=
  let s := (s.dropWhile isNumberGap)
  let s := if s.head? = some '-' || s.head? = some '+' then s.drop 1 else s
  let run := s.takeWhile fun c => (digitValue? c).isSome || c == '_'
  if (readUnsigned? run).isSome then (run.filter (· ≠ '_')).length else 0

/-- The value of a written whole number, or what is wrong with it. -/
def readInteger (s : List Char) : Except String Int :=
  let count := leadingDigits s
  if digitLimit < count then .error (tooManyDigits count)
  else
    match integer? s with
    | some n => .ok n
    | none => .error (notInteger s)

end LanguageClient.Text
