import LanguageClient.Json.Order

/-!
The line index of a document. A line ends at CR LF, at CR or at LF; a document has at least one
line, which may be empty. Offsets count characters from the start of the document.

    text    a b ␍ ␊ c ␊
    lines   [0,2)  [4,5)  [6,6)
-/

namespace LanguageClient

/-- A place in a document: both counts start at zero. -/
structure Position where
  line : Int
  character : Int
  deriving DecidableEq, Repr

/-- Where a line starts and where it ends, its line break not included. -/
structure LineSpan where
  start : Nat
  stop : Nat
  deriving DecidableEq, Repr

/-- The lines of the rest of a text: the rest starts at offset `at'`, inside a line that started at
    `start`. -/
def lineSpans (start at' : Nat) : List Char → List LineSpan
  | [] => [⟨start, at'⟩]
  | '\r' :: '\n' :: rest => ⟨start, at'⟩ :: lineSpans (at' + 2) (at' + 2) rest
  | c :: rest =>
    if c = '\r' ∨ c = '\n' then ⟨start, at'⟩ :: lineSpans (at' + 1) (at' + 1) rest
    else lineSpans start (at' + 1) rest

/-- A document's text, seen line by line. -/
structure Buffer where
  text : List Char
  deriving DecidableEq, Repr

namespace Buffer

def length (b : Buffer) : Nat := b.text.length

/-- The lines of the document, in order. -/
def lines (b : Buffer) : List LineSpan := lineSpans 0 0 b.text

def lineCount (b : Buffer) : Nat := b.lines.length

/-- A line by its number; a negative number counts from the last line. -/
def line (b : Buffer) (n : Int) : Except Failure LineSpan :=
  match Text.item? b.lines n with
  | some span => .ok span
  | none => .error (.outOfRange "list index out of range")

/-- Offset of the first character of a line. -/
def lineStart (b : Buffer) (n : Int) : Except Failure Nat := (b.line n).map (·.start)

/-- Offset just past the last character of a line, before its line break. -/
def lineEnd (b : Buffer) (n : Int) : Except Failure Nat := (b.line n).map (·.stop)

/-- The characters of a span. -/
def spanText (b : Buffer) (span : LineSpan) : List Char :=
  (b.text.drop span.start).take (span.stop - span.start)

/-- The characters of a line, without its line break. -/
def lineText (b : Buffer) (n : Int) : Except Failure (List Char) := (b.line n).map b.spanText

/-- The number of the line that holds an offset, and that line's start. Before the document lies
    line -1, which is the last line counted from the end. -/
def lineAt (b : Buffer) (offset : Int) : Int × Nat :=
  let started := b.lines.filter (fun span => (span.start : Int) ≤ offset)
  ((started.length : Int) - 1,
    match started.getLast?, b.lines.getLast? with
    | some span, _ => span.start
    | none, some span => span.start
    | none, none => 0)

/-- The part of the document between two offsets. -/
def slice (b : Buffer) (start stop : Int) : List Char := Text.slice b.text start stop

/-- The offset of a position, or none if it lies outside the document. Past the last line only
    character zero is a position, and it stands for the end of the document. -/
def offset? (b : Buffer) (p : Position) : Option Nat :=
  if p.line < 0 ∨ p.character < 0 then none
  else
    match b.lines[p.line.toNat]? with
    | none => if p.character = 0 then some b.length else none
    | some span =>
      if (span.stop : Int) < span.start + p.character then none
      else some (span.start + p.character.toNat)

/-- The offset of a position, zero if it lies outside the document. -/
def offsetOrZero (b : Buffer) (p : Position) : Nat := (b.offset? p).getD 0

/-- The position of an offset inside the document. -/
def position (b : Buffer) (offset : Int) : Except Failure Position :=
  if offset < 0 ∨ (b.length : Int) < offset then
    .error (.invalid ("offset " ++ toString offset ++ " outside document of length "
      ++ toString b.length))
  else
    let (line, start) := b.lineAt offset
    .ok ⟨line, offset - start⟩

end Buffer

namespace Position

/-- Negative, zero or positive as the first position comes before, with or after the second. -/
def compare (a b : Position) : Int :=
  if a.line ≠ b.line then a.line - b.line else a.character - b.character

def toJson (p : Position) : Json :=
  .obj [("line", .int p.line), ("character", .int p.character)]

/-- Compares two positions as they were sent. -/
def compareSent (a b : Json) : Except Failure Json := do
  let la ← a.require "line"
  let lb ← b.require "line"
  if la.same lb then (← a.require "character").minus (← b.require "character")
  else la.minus lb

end Position

namespace Buffer

/-- The offset of a position that is not given by whole numbers. Only past the end does it matter
    what the line is; the character is added as it is. -/
def resolveNumbers? (b : Buffer) (line character : Json) : Except Failure (Option Json) := do
  if ← line.less (.int 0) then return none
  if ← character.less (.int 0) then return none
  if ← (Json.nat b.lineCount).atMost line then
    return if character.same (.int 0) then some (.nat b.length) else none
  match line.number? with
  | none =>
    throw (.wrongKind ("list indices must be integers or slices, not " ++ line.kind.label))
  | some n =>
    let span ← b.line n
    let offset ← (Json.nat span.start).plus character
    return if ← (Json.nat span.stop).less offset then none else some offset

/-- The offset of a position as it was sent, or none if it lies outside the document. -/
def resolve? (b : Buffer) (pos : Json) : Except Failure (Option Json) := do
  let line ← pos.require "line"
  let character ← pos.require "character"
  match line.number?, character.number? with
  | some line, some character => return (b.offset? ⟨line, character⟩).map .nat
  | _, _ => b.resolveNumbers? line character

/-- The offset of a position as it was sent, zero if it lies outside the document. -/
def resolveOrZero (b : Buffer) (pos : Json) : Except Failure Json := do
  return (← b.resolve? pos).getD (.int 0)

end Buffer

end LanguageClient
