import LanguageClient.Markdown.Line
import LanguageClient.Markdown.Url
import LanguageClient.Text.Upper

/-!
What a link leads to: an address, which may stand in angle brackets, and a title in quotes or
parentheses. It stands after the text of a link, or in a definition under a label.
-/

namespace LanguageClient.Markdown

/-- Where a link leads. -/
structure Target where
  address : List Char
  title : List Char := []
  deriving DecidableEq, Repr

/-- The text of an escaped character is passed over as a whole. -/
def escapedPair : List Char → Option (Char × List Char)
  | '\\' :: c :: rest => some (c, rest)
  | _ => none

/-- The address in angle brackets whose first one has been passed. -/
def bracketedEnd? : Nat → List Char → Option (List Char)
  | 0, _ | _, [] => none
  | bound + 1, c :: rest =>
    match escapedPair (c :: rest) with
    | some (_, rest) => bracketedEnd? bound rest
    | none =>
      if c = '>' then some (c :: rest)
      else if c = '\n' || c = '<' then none
      else bracketedEnd? bound rest

/-- How deep parentheses may be nested in an address. -/
def parenthesisLimit : Nat := 32

/-- What follows an address without brackets. Its parentheses have to match. -/
def bareEnd? : Nat → Nat → List Char → Option (List Char)
  | 0, depth, s => if depth = 0 then some s else none
  | _, depth, [] => if depth = 0 then some [] else none
  | bound + 1, depth, c :: rest =>
    let stop : Option (List Char) := if depth = 0 then some (c :: rest) else none
    if c.toNat ≤ 0x20 || c.toNat = 0x7F then stop
    else
      match escapedPair (c :: rest) with
      | some (d, more) => if d = ' ' then stop else bareEnd? bound depth more
      | none =>
        if c = '(' then
          if depth < parenthesisLimit then bareEnd? bound (depth + 1) rest else none
        else if c = ')' then
          match depth with
          | 0 => some (c :: rest)
          | depth + 1 => bareEnd? bound depth rest
        else bareEnd? bound depth rest

/-- Takes an address off the front, with its escapes replaced. -/
def takeAddress? : List Char → Option (List Char × List Char)
  | '<' :: s =>
    match bracketedEnd? s.length s with
    | some rest => some (unescape (s.take (s.length - rest.length)), rest.drop 1)
    | none => none
  | s =>
    match bareEnd? s.length 0 s with
    | some rest =>
      if rest.length < s.length then some (unescape (s.take (s.length - rest.length)), rest)
      else none
    | none => none

/-- How a title ends that a mark closes. -/
inductive TitleEnd where
  /-- What follows, the mark included. -/
  | closed (rest : List Char)
  | unclosed
  /-- A parenthesis opens inside parentheses. -/
  | refused

/-- The end of a title that is closed by a mark. -/
def titleEnd (mark : Char) : Nat → List Char → TitleEnd
  | 0, _ | _, [] => .unclosed
  | bound + 1, c :: rest =>
    if c = mark then .closed (c :: rest)
    else if c = '(' && mark = ')' then .refused
    else
      match escapedPair (c :: rest) with
      | some (_, rest) => titleEnd mark bound rest
      | none => titleEnd mark bound rest

/-- The mark that closes a title, by the one that opens it. -/
def titleMark? (c : Char) : Option Char :=
  if c = '"' || c = '\'' then some c else if c = '(' then some ')' else none

/-- Takes a title off the front, with its escapes replaced. -/
def takeTitle? : List Char → Option (List Char × List Char)
  | [] => none
  | c :: s => do
    match titleEnd (← titleMark? c) s.length s with
    | .closed rest => some (unescape (s.take (s.length - rest.length)), rest.drop 1)
    | _ => none

/-- A blank, a tab or a line feed. -/
def isGap (c : Char) : Bool := isSpace c || c == '\n'

def skipGaps (s : List Char) : List Char := s.dropWhile isGap

/-- A label as it is compared: white space counts as one blank, and case does not matter. -/
def normalizeLabel (s : List Char) : List Char :=
  let words := (trim s).splitBy fun a b => isWhite a == isWhite b
  let text := words.flatMap fun w => if w.head?.any isWhite then [' '] else w
  Text.upper (Text.lower text)

end LanguageClient.Markdown
