import LanguageClient.Json.Basic

/-!
Reading a JSON text. Each reader takes the characters that are left and returns what it read with
the rest, or nothing if the text breaks the grammar. Besides the standard grammar the words `NaN`,
`Infinity` and `-Infinity` are numbers. A repeated key keeps its first place and its last value.

The recursion is on a bound. The number of characters is always enough, since every nested value
takes at least one. Apart from that a reader may set limits to the nesting and to the digits of
whole numbers; a text that goes beyond them is not wrong, but it is not read.
-/

namespace LanguageClient.Json

/-- The rest of a text after a word, if the text starts with it. -/
def expect? (word s : List Char) : Option (List Char) :=
  if word.isPrefixOf s then some (s.drop word.length) else none

/-- Blanks of the grammar. -/
def isGap (c : Char) : Bool := c == ' ' || c == '\t' || c == '\n' || c == '\r'

def skipGap (s : List Char) : List Char := s.dropWhile isGap

/-- The value of a hexadecimal digit. -/
def hexValue? (c : Char) : Option Nat :=
  if '0' ≤ c ∧ c ≤ '9' then some (c.toNat - '0'.toNat)
  else if 'a' ≤ c ∧ c ≤ 'f' then some (c.toNat - 'a'.toNat + 10)
  else if 'A' ≤ c ∧ c ≤ 'F' then some (c.toNat - 'A'.toNat + 10)
  else none

/-- The number written by four hexadecimal digits. -/
def hexUnit? (a b c d : Char) : Option Nat := do
  let a ← hexValue? a
  let b ← hexValue? b
  let c ← hexValue? c
  let d ← hexValue? d
  return ((a * 16 + b) * 16 + c) * 16 + d

/-- The character that a one-letter escape stands for. -/
def unescape? (c : Char) : Option Char :=
  match c with
  | '"' => some '"'
  | '\\' => some '\\'
  | '/' => some '/'
  | 'b' => some '\x08'
  | 'f' => some '\x0c'
  | 'n' => some '\n'
  | 'r' => some '\r'
  | 't' => some '\t'
  | _ => none

/-- The character of two halves of a surrogate pair. -/
def joinPair (high low : Nat) : Char :=
  Char.ofNat (0x10000 + (high - 0xD800) * 0x400 + (low - 0xDC00))

/-- The character of a sixteen-bit unit on its own; half a pair becomes the replacement mark. -/
def ofUnit (u : Nat) : Char :=
  if 0xD800 ≤ u ∧ u < 0xE000 then Char.ofNat 0xFFFD else Char.ofNat u

/-- Reads a string after its opening quote. A pair of escapes that are the two halves of a
    surrogate pair is one character. -/
def readString : List Char → Option (List Char × List Char)
  | [] => none
  | '"' :: rest => some ([], rest)
  | '\\' :: 'u' :: a :: b :: c :: d :: '\\' :: 'u' :: e :: f :: g :: h :: rest =>
    match hexUnit? a b c d, hexUnit? e f g h with
    | some u, some v =>
      if 0xD800 ≤ u ∧ u < 0xDC00 ∧ 0xDC00 ≤ v ∧ v < 0xE000 then
        (readString rest).map fun (s, r) => (joinPair u v :: s, r)
      else
        (readString ('\\' :: 'u' :: e :: f :: g :: h :: rest)).map fun (s, r) => (ofUnit u :: s, r)
    | _, _ => none
  | '\\' :: 'u' :: a :: b :: c :: d :: rest =>
    match hexUnit? a b c d with
    | some u => (readString rest).map fun (s, r) => (ofUnit u :: s, r)
    | none => none
  | '\\' :: c :: rest =>
    match unescape? c with
    | some e => (readString rest).map fun (s, r) => (e :: s, r)
    | none => none
  | c :: rest =>
    if c.toNat < 0x20 then none
    else (readString rest).map fun (s, r) => (c :: s, r)

/-- The number written by decimal digits. -/
def ofDigits (ds : List Char) : Nat := ds.foldl (fun n c => n * 10 + (c.toNat - '0'.toNat)) 0

/-- A run of decimal digits at the front, and the rest. -/
def digits (s : List Char) : List Char × List Char :=
  (s.takeWhile Char.isDigit, s.dropWhile Char.isDigit)

/-- The digits after a point, if a point with at least one digit comes next. -/
def readFraction (s : List Char) : List Char × List Char :=
  match s with
  | '.' :: rest =>
    match digits rest with
    | ([], _) => ([], s)
    | (ds, rest) => (ds, rest)
  | _ => ([], s)

/-- The exponent after its mark, if at least one digit comes next. -/
def readExponentDigits (negative : Bool) (s : List Char) : Option (Int × List Char) :=
  match digits s with
  | ([], _) => none
  | (ds, rest) => some (if negative then -(ofDigits ds : Int) else ofDigits ds, rest)

/-- The exponent, if one comes next. -/
def readExponent (s : List Char) : Option (Int × List Char) :=
  match s with
  | 'e' :: '-' :: rest | 'E' :: '-' :: rest => readExponentDigits true rest
  | 'e' :: '+' :: rest | 'E' :: '+' :: rest => readExponentDigits false rest
  | 'e' :: rest | 'E' :: rest => readExponentDigits false rest
  | _ => none

/-- The digits before the point: a single zero, or a run that does not start with one. -/
def readWhole (s : List Char) : Option (List Char × List Char) :=
  match s with
  | '0' :: rest => some (['0'], rest)
  | _ =>
    match digits s with
    | ([], _) => none
    | (ds, rest) => some (ds, rest)

/-- Why a text is not read. -/
inductive ReadFault where
  /-- It breaks the grammar. -/
  | grammar
  /-- Arrays or objects are nested too deep; the last one is of the given kind. -/
  | depth (kind : Kind)
  /-- A whole number has too many digits. -/
  | digits (count : Nat)
  deriving DecidableEq, Repr

/-- How much is read. -/
structure ReadLimits where
  /-- How deep arrays and objects may be nested. -/
  nesting : Nat
  /-- How many digits a whole number may have. -/
  digits : Nat

/-- What was read and the rest of the text. -/
abbrev ReadResult (α : Type) := Except ReadFault (α × List Char)

/-- What was read, unless the text breaks the grammar. -/
def ofGrammar {α : Type} : Option (α × List Char) → ReadResult α
  | some found => .ok found
  | none => .error .grammar

/-- Reads a number after its sign. Without fraction and exponent it is a whole number. -/
def readUnsigned (limit : Nat) (negative : Bool) (s : List Char) : ReadResult Json :=
  match readWhole s with
  | none => .error .grammar
  | some (whole, rest) =>
    match readFraction rest with
    | (fraction, rest) =>
      match fraction, readExponent rest with
      | [], none =>
        if limit < whole.length then .error (.digits whole.length)
        else .ok (.int (if negative then -(ofDigits whole : Int) else ofDigits whole), rest)
      | _, some (e, rest) =>
        .ok (.float (.ofDecimal negative (ofDigits (whole ++ fraction)) (e - fraction.length)), rest)
      | _, none =>
        .ok (.float (.ofDecimal negative (ofDigits (whole ++ fraction)) (-fraction.length)), rest)

/-- Reads a number. -/
def readNumber (limit : Nat) (s : List Char) : ReadResult Json :=
  match s with
  | '-' :: rest =>
    match expect? "Infinity".toList rest with
    | some rest => .ok (.float (.infinite true), rest)
    | none => readUnsigned limit true rest
  | _ => readUnsigned limit false s

mutual

/-- Reads one value. The text starts with its first character. -/
def readValue : Nat → ReadLimits → List Char → ReadResult Json
  | 0, _, _ => .error .grammar
  | bound + 1, limits, s =>
    match s with
    | '"' :: rest => (ofGrammar (readString rest)).map fun (t, r) => (.str (String.ofList t), r)
    | '[' :: rest =>
      match limits.nesting with
      | 0 => .error (.depth .arr)
      | nesting + 1 =>
        match skipGap rest with
        | ']' :: rest => .ok (.arr [], rest)
        | rest => (readItems bound { limits with nesting } rest).map fun (xs, r) => (.arr xs, r)
    | '{' :: rest =>
      match limits.nesting with
      | 0 => .error (.depth .obj)
      | nesting + 1 =>
        match skipGap rest with
        | '}' :: rest => .ok (.obj [], rest)
        | rest =>
          (readMembers bound { limits with nesting } rest).map fun (ms, r) =>
            (.obj (Members.ofList ms), r)
    | 'n' :: 'u' :: 'l' :: 'l' :: rest => .ok (.null, rest)
    | 't' :: 'r' :: 'u' :: 'e' :: rest => .ok (.bool true, rest)
    | 'f' :: 'a' :: 'l' :: 's' :: 'e' :: rest => .ok (.bool false, rest)
    | 'N' :: 'a' :: 'N' :: rest => .ok (.float .nan, rest)
    | 'I' :: rest =>
      ofGrammar ((expect? "nfinity".toList rest).map fun r => (.float (.infinite false), r))
    | _ => readNumber limits.digits s

/-- Reads the items of an array up to its closing bracket. -/
def readItems : Nat → ReadLimits → List Char → ReadResult (List Json)
  | 0, _, _ => .error .grammar
  | bound + 1, limits, s =>
    match readValue bound limits s with
    | .error fault => .error fault
    | .ok (v, rest) =>
      match skipGap rest with
      | ']' :: rest => .ok ([v], rest)
      | ',' :: rest => (readItems bound limits (skipGap rest)).map fun (vs, r) => (v :: vs, r)
      | _ => .error .grammar

/-- Reads the members of an object up to its closing brace. -/
def readMembers : Nat → ReadLimits → List Char → ReadResult Members
  | 0, _, _ => .error .grammar
  | bound + 1, limits, s =>
    match s with
    | '"' :: rest =>
      match readString rest with
      | none => .error .grammar
      | some (key, rest) =>
        match skipGap rest with
        | ':' :: rest =>
          match readValue bound limits (skipGap rest) with
          | .error fault => .error fault
          | .ok (v, rest) =>
            match skipGap rest with
            | '}' :: rest => .ok ([(String.ofList key, v)], rest)
            | ',' :: rest =>
              (readMembers bound limits (skipGap rest)).map fun (ms, r) =>
                ((String.ofList key, v) :: ms, r)
            | _ => .error .grammar
        | _ => .error .grammar
    | _ => .error .grammar

end

/-- Reads a text that holds one value and nothing else but blanks. -/
def read (limits : ReadLimits) (s : List Char) : Except ReadFault Json :=
  match readValue (2 * s.length + 2) limits (skipGap s) with
  | .error fault => .error fault
  | .ok (v, rest) =>
    match skipGap rest with
    | [] => .ok v
    | _ => .error .grammar

/-- Reads a text of any depth that holds one value and nothing else but blanks. -/
def parse? (s : String) : Option Json := (read ⟨s.length, s.length⟩ s.toList).toOption

end LanguageClient.Json
