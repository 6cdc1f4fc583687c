import LanguageClient.Text.Ranges
import LanguageClient.Text.Split

/-!
Lines of a document. Quotes and lists take their marks off the front of a line, so a line knows how
many of its characters come before its content, and at which column the content begins; a tab
reaches to the next column that is a multiple of four.

    "> - a"       text
     └──┘         shift   the marks that have been taken off
         a        content
-/

namespace LanguageClient.Markdown

/-- A blank or a tab. -/
def isSpace (c : Char) : Bool := c == ' ' || c == '\t'

/-- White space that does not count at the ends of a text. The control characters that separate
    records do count. -/
def whiteRanges : Text.Ranges :=
  [(9, 13), (32, 32), (160, 160), (5760, 5760), (8192, 8202), (8232, 8233), (8239, 8239),
   (8287, 8287), (12288, 12288)]

def isWhite (c : Char) : Bool := whiteRanges.has c

/-- Drops white space at both ends. -/
def trim (s : List Char) : List Char :=
  ((s.dropWhile isWhite).reverse.dropWhile isWhite).reverse

/-- The column after a blank or a tab. -/
def nextColumn (base column : Int) (c : Char) : Int :=
  if c = '\t' then column + (4 - (column + base) % 4) else column + 1

/-- The column after blanks and tabs. -/
def columnAfter (base column : Int) (spaces : List Char) : Int :=
  spaces.foldl (nextColumn base) column

/-- A line of a document or of a part of it. -/
structure Line where
  text : List Char
  /-- How many characters come before the content. -/
  shift : Nat
  /-- The column of the content, counted from the start of the part. A line that continues a
      paragraph of a quote without being marked has the column -1. -/
  column : Int
  /-- The column of the document at which the line's own columns begin. -/
  base : Int := 0
  /-- Is the line ended by a line feed? -/
  ended : Bool := true
  deriving DecidableEq, Repr

namespace Line

/-- The line of a text. -/
def ofText (text : List Char) (ended : Bool) : Line :=
  let spaces := text.takeWhile isSpace
  { text, shift := spaces.length, column := columnAfter 0 0 spaces, ended }

def content (l : Line) : List Char := l.text.drop l.shift

def isBlank (l : Line) : Bool := l.content.isEmpty

/-- The content and the end of the line. -/
def ending (l : Line) : List Char := l.content ++ if l.ended then ['\n'] else []

/-- Takes off columns from the front. Marks that were taken off count one column each, and a tab that
    reaches too far leaves blanks. -/
def dropColumns (base indent : Int) : Nat → Int → List Char → List Char
  | _, column, [] => List.replicate (column - indent).toNat ' '
  | shift, column, c :: rest =>
    if indent ≤ column then List.replicate (column - indent).toNat ' ' ++ c :: rest
    else if isSpace c then dropColumns base indent (shift - 1) (nextColumn base column c) rest
    else if 0 < shift then dropColumns base indent (shift - 1) (column + 1) rest
    else c :: rest

/-- The line without its first columns. -/
def cut (indent : Int) (l : Line) : List Char := dropColumns l.base indent l.shift 0 l.text

end Line

/-- Lines without their first columns, each with its end. -/
def cutLines (indent : Int) (lines : List Line) : List Char :=
  lines.flatMap fun l => l.cut indent ++ if l.ended then ['\n'] else []

/-- Lines without their first columns, with line feeds between them. -/
def joinLines (indent : Int) (lines : List Line) : List Char :=
  ['\n'].intercalate (lines.map (·.cut indent))

/-- Line ends of all kinds become line feeds, and a zero character the replacement mark. -/
def normalizeText : List Char → List Char
  | '\r' :: '\n' :: rest => '\n' :: normalizeText rest
  | c :: rest =>
    (if c = '\r' then '\n' else if c.toNat = 0 then Char.ofNat 0xFFFD else c) :: normalizeText rest
  | [] => []

/-- The lines of parts that line feeds divide. What follows the last line feed is a line only if it
    is not blank. -/
def linesOfParts : List (List Char) → List Line
  | [] => []
  | [last] => if last.all isSpace then [] else [.ofText last false]
  | text :: rest => .ofText text true :: linesOfParts rest

/-- The lines of a document. -/
def documentLines (s : List Char) : List Line := linesOfParts (Text.split '\n' (normalizeText s))

end LanguageClient.Markdown
