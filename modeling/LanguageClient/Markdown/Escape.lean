import LanguageClient.Markdown.Entity
import LanguageClient.Text.Punctuation

/-!
Characters that stand for others: escapes in the source, which a backslash or a name introduces, and
the escapes that HTML needs.
-/

namespace LanguageClient.Markdown

/-- A character as HTML text. -/
def escapeChar : Char → List Char
  | '&' => "&amp;".toList
  | '<' => "&lt;".toList
  | '>' => "&gt;".toList
  | '"' => "&quot;".toList
  | c => [c]

/-- A text as HTML. -/
def escape (s : List Char) : List Char := s.flatMap escapeChar

/-- A letter or a digit of ASCII. -/
def isAlnum (c : Char) : Bool := c.isAlpha || c.isDigit

/-- The name of a character reference whose `&` has been passed, and the text after its semicolon.
    A number sign may take the place of the first letter. -/
def referenceName? : List Char → Option (List Char × List Char)
  | [] => none
  | c :: s =>
    let more := s.takeWhile isAlnum
    match s.drop more.length with
    | ';' :: rest =>
      if (c.isAlpha || c == '#') && 1 ≤ more.length && more.length ≤ 31 then some (c :: more, rest)
      else none
    | _ => none

/-- The characters that a reference in running text stands for. A number that no character has
    stands for the replacement mark. -/
def referenceText? : List Char → Option (List Char)
  | '#' :: number =>
    (codeNumber? 7 6 number).map fun code =>
      [if isEntityCode code then Char.ofNat code else Char.ofNat 0xFFFD]
  | name => entity? name

/-- The characters that a reference in a destination, a title or an info line stands for. -/
def referenceInside? : List Char → Option (List Char)
  | '#' :: number =>
    match codeNumber? 8 8 number with
    | some code => if isEntityCode code then some [Char.ofNat code] else none
    | none => none
  | name => entity? name

/-- Replaces the escapes of a text; `skip` characters of one are still to be passed over. -/
def unescapeFrom (skip : Nat) : List Char → List Char
  | [] => []
  | c :: rest =>
    match skip with
    | n + 1 => unescapeFrom n rest
    | 0 =>
      match c, rest with
      | '\\', d :: _ =>
        if Text.isAsciiPunctuation d then d :: unescapeFrom 1 rest else c :: unescapeFrom 0 rest
      | '&', _ =>
        match referenceName? rest with
        | none => c :: unescapeFrom 0 rest
        | some (name, _) =>
          match referenceInside? name with
          | some text => text ++ unescapeFrom (name.length + 1) rest
          | none => c :: (name ++ ';' :: unescapeFrom (name.length + 1) rest)
      | _, _ => c :: unescapeFrom 0 rest

/-- Replaces the escapes of a text. -/
def unescape (s : List Char) : List Char := unescapeFrom 0 s

end LanguageClient.Markdown
