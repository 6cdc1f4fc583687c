import LanguageClient.Markdown.Definition
import LanguageClient.Markdown.Tag

/-!
The blocks of a document. Lines are read from the top; the first kind of block that a line can begin
is taken with as many lines as belong to it. Quotes and lists hold blocks of their own, which are
read from their lines without the marks.

    code · fence · quote · rule · list · definition · html · heading · paragraph
-/

namespace LanguageClient.Markdown

/-- How a list counts its items. -/
inductive Numbering where
  | bullets
  | numbers (first : Nat)
  deriving DecidableEq, Repr

/-- A part of a document. Texts are not yet read for their own markup. -/
inductive Block where
  | paragraph (text : List Char)
  | heading (level : Nat) (text : List Char)
  | code (text : List Char)
  | fence (info text : List Char)
  | html (text : List Char)
  | rule
  | quote (blocks : List Block)
  /-- The items of a tight list show their paragraphs without tags. -/
  | list (numbering : Numbering) (tight : Bool) (items : List (List Block))
  | definition (label : List Char) (target : Target)

/-- Where blocks are read: the column at which they begin, the column of the list around them, and
    how deep they are nested. -/
structure Place where
  indent : Int := 0
  listIndent : Int := -1
  level : Nat := 0

/-- How deep blocks may be nested. -/
def nestingLimit : Nat := 20

/-! ### What a line can begin -/

namespace Line

/-- Is the line indented so far that it is code? -/
def isCode (p : Place) (l : Line) : Bool := 4 ≤ l.column - p.indent

/-- The opening line of a fence: its mark, the length of the mark and the text after it. -/
def fence? (p : Place) (l : Line) : Option (Char × Nat × List Char) :=
  match l.content with
  | c :: rest =>
    let run := (c :: rest).takeWhile (· == c)
    let info := (c :: rest).drop run.length
    if l.isCode p || !(c == '\x60' || c == '~') || run.length < 3 || (c == '\x60' && info.contains c)
    then none else some (c, run.length, info)
  | [] => none

/-- Does the line close a fence? -/
def closesFence (p : Place) (mark : Char) (length : Nat) (l : Line) : Bool :=
  let run := l.content.takeWhile (· == mark)
  !l.isCode p && length ≤ run.length && (l.content.drop run.length).all isSpace

/-- Is the line part of a quote? -/
def isQuoted (l : Line) : Bool := l.content.head? = some '>'

/-- Is the line a rule: three or more of the same mark, with blanks between them? -/
def isRule (p : Place) (l : Line) : Bool :=
  match l.content with
  | c :: rest =>
    !l.isCode p && (c == '*' || c == '-' || c == '_') && rest.all (fun d => d == c || isSpace d)
      && 3 ≤ (c :: rest).count c
  | [] => false

/-- A mark has to be followed by a blank or by the end of the line. -/
def endsMark (rest : List Char) : Bool := rest.isEmpty || rest.head?.any isSpace

/-- The mark of an item: how it counts, its last character and its length. -/
def mark? (l : Line) : Option (Numbering × Char × Nat) :=
  let digits := l.content.takeWhile Char.isDigit
  match digits, l.content.drop digits.length with
  | [], c :: rest =>
    if (c == '*' || c == '-' || c == '+') && endsMark rest then some (.bullets, c, 1) else none
  | _, c :: rest =>
    if digits.length ≤ 9 && (c == ')' || c == '.') && endsMark rest then
      some (.numbers ((numeral? 10 9 digits).getD 0), c, digits.length + 1)
    else none
  | _, [] => none

/-- Does the line begin a list? Inside a paragraph only a list that begins with 1, and whose first
    item is not empty, does. -/
def startsList (p : Place) (inParagraph : Bool) (l : Line) : Bool :=
  if l.isCode p
    || (0 ≤ p.listIndent && 4 ≤ l.column - p.listIndent && l.column < p.indent) then false
  else
    match l.mark? with
    | none => false
    | some (numbering, _, length) =>
      if inParagraph && p.indent ≤ l.column then
        (match numbering with
          | .bullets => true
          | .numbers first => first == 1)
          && !(l.content.drop length).all isSpace
      else true

/-- The block of HTML that the line begins. -/
def html? (p : Place) (l : Line) : Option Tag.BlockKind :=
  if l.isCode p || l.content.head? ≠ some '<' then none else Tag.block? l.content

/-- The level and the text of a heading. Number signs at its end do not count. -/
def heading? (p : Place) (l : Line) : Option (Nat × List Char) :=
  let level := (l.content.takeWhile (· == '#')).length
  let rest := l.content.drop level
  if l.isCode p || level = 0 || 6 < level || !(rest.isEmpty || rest.head?.any isSpace) then none
  else
    let text := (rest.reverse.dropWhile isSpace).reverse
    let before := (text.reverse.dropWhile (· == '#')).reverse
    let text := if before.getLast?.any isSpace then before else text
    some (level, trim text)

/-- The level of the heading that the line underlines. -/
def underline? (p : Place) (l : Line) : Option Nat :=
  match l.content with
  | c :: rest =>
    if p.indent ≤ l.column && (c == '-' || c == '=') && (rest.dropWhile (· == c)).all isSpace then
      some (if c == '=' then 1 else 2)
    else none
  | [] => none

/-- Does the line end a list? -/
def endsList (p : Place) (l : Line) : Bool :=
  (l.fence? p).isSome || (!l.isCode p && l.isQuoted) || l.isRule p

/-- Does the line end what comes before it: a paragraph, a definition or a quote? -/
def interrupts (p : Place) (inParagraph : Bool) (l : Line) : Bool :=
  l.endsList p || l.startsList p inParagraph || (l.html? p).any (·.interrupts)
    || (l.heading? p).isSome

end Line

/-! ### Lines that belong together -/

/-- Does the line continue the paragraph before it? Lines that are indented too far, and those that
    a quote has taken in, do so whatever they hold. -/
def continues (p : Place) (inParagraph : Bool) (l : Line) : Bool :=
  !l.isBlank && (3 < l.column - p.indent || l.column < 0 || !l.interrupts p inParagraph)

/-- How many lines of the rest belong to indented code. Blank lines belong to it only between
    others. -/
def codeLength (p : Place) : List Line → Nat
  | [] => 0
  | l :: rest =>
    let more := codeLength p rest
    if l.isBlank then (if more = 0 then 0 else more + 1)
    else if l.isCode p then more + 1
    else 0

/-- The lines inside a fence, and those after it. A line with less indentation than the block ends
    it too, and so does the empty end of the document inside a quote. -/
def fenceLines (p : Place) (mark : Char) (length : Nat) : List Line → List Line × List Line
  | [] => ([], [])
  | l :: rest =>
    if !l.isBlank && l.column < p.indent || l.isBlank && !l.ended then ([], l :: rest)
    else if l.closesFence p mark length then ([], rest)
    else
      let (inside, after) := fenceLines p mark length rest
      (l :: inside, after)

/-- The lines of a block of HTML after its first one, and those after it. -/
def htmlLines (p : Place) (stop : Tag.BlockEnd) : List Line → List Line × List Line
  | [] => ([], [])
  | l :: rest =>
    if !l.isBlank && l.column < p.indent then ([], l :: rest)
    else if stop.holds l.content then
      if l.isBlank then ([], l :: rest) else ([l], rest)
    else
      let (inside, after) := htmlLines p stop rest
      (l :: inside, after)

/-- The lines of a heading before its underline, the level, and the lines after it. -/
def underlined? (p : Place) : List Line → Option (List Line × Nat × List Line)
  | [] => none
  | l :: rest =>
    if l.isBlank then none
    else
      let more := (underlined? p rest).map fun (ls, level, after) => (l :: ls, level, after)
      if 3 < l.column - p.indent then more
      else
        match l.underline? p with
        | some level => some ([], level, rest)
        | none => if 0 ≤ l.column && l.interrupts p true then none else more

/-! ### Quotes -/

/-- A line of a quote without its mark. -/
def unquote (l : Line) : Line :=
  let text := l.content.drop 1
  let column := l.column + 1
  let (text, column, tabbed) : List Char × Int × Int :=
    match text with
    | ' ' :: rest => (rest, column + 1, 0)
    | '\t' :: rest =>
      if (l.base + column) % 4 = 3 then (rest, column + 1, 0) else (text, column, 1)
    | _ => (text, column, 0)
  let spaces := text.takeWhile isSpace
  let spaced := (l.content.drop 1).head?.any isSpace
  { l with
    text
    shift := spaces.length
    column := columnAfter (l.base + tabbed) column spaces - column
    base := l.column + 1 + if spaced then 1 else 0 }

/-- The lines of a quote after its first one. A line without a mark belongs to the quote if it may
    continue a paragraph; `open'` says that the line before it is not empty. -/
def quoteLines (p : Place) (open' : Bool) : List Line → List Line
  | [] => []
  | l :: rest =>
    if l.isBlank then []
    else if l.isQuoted && p.indent ≤ l.column then
      let l := unquote l
      l :: quoteLines p (!l.isBlank) rest
    else if !open' || l.interrupts p false then []
    else { l with column := -1 } :: quoteLines p open' rest

/-! ### Lists -/

/-- The first line of an item without its mark, and the column of the item's blocks. -/
def unmark (length : Nat) (l : Line) : Line × Int :=
  let start := l.column + length
  let rest := l.content.drop length
  let spaces := rest.takeWhile isSpace
  let column := columnAfter l.base start spaces
  let gap := if spaces.length = rest.length then 1 else column - start
  let gap := if 4 < gap then 1 else gap
  ({ l with shift := l.shift + length + spaces.length, column }, start + gap)

/-- Are two marks of one list? -/
def sameMark : Numbering × Char × Nat → Numbering × Char × Nat → Bool
  | (.bullets, c, _), (.bullets, d, _) => c == d
  | (.numbers _, c, _), (.numbers _, d, _) => c == d
  | _, _ => false

/-! ### Reading -/

/-- What reading lines gives: the blocks, the lines that are left, and whether the last block has no
    empty line before it. -/
structure Reading where
  blocks : List Block
  rest : List Line
  tight : Bool

/-- The items of a list and the lines that are left. -/
structure ItemReading where
  items : List (List Block)
  rest : List Line
  tight : Bool

/-- Is the last of the lines that were read blank? -/
def endsBlank (before after : List Line) : Bool :=
  (before.take (before.length - after.length)).getLast?.any Line.isBlank

/-- A definition at the front of some lines, and the lines after it. -/
def definition? (p : Place) (first : Line) (lines : List Line) : Option (Block × List Line) := do
  if first.isCode p || first.content.head? ≠ some '[' then none
  let (label, target, rest) ← Gathered.definition? (continues p false) ⟨first.ending.drop 1, lines⟩
  return (.definition label target, rest)

/-- A paragraph and the lines after it. -/
def takeParagraph (p : Place) (first : Line) (lines : List Line) : Block × List Line :=
  let more := lines.takeWhile (continues p true)
  (.paragraph (trim (joinLines p.indent (first :: more))), lines.drop more.length)

/-- A block that holds no others, if the line begins one, and the lines after it. Quotes and lists
    come between the parts of this order. -/
def leaf? (p : Place) (first : Line) (lines : List Line) : Option (Block × List Line) :=
  if first.isCode p then
    let n := codeLength p lines
    some (.code (joinLines (4 + p.indent) (first :: lines.take n) ++ ['\n']), lines.drop n)
  else
    match first.fence? p with
    | none => none
    | some (mark, length, info) =>
      let (inside, after) := fenceLines p mark length lines
      some (.fence info (cutLines first.column inside), after)

/-- A block that holds no others and that is neither a list nor a quote, and the lines after it. -/
def laterLeaf (p : Place) (first : Line) (lines : List Line) : Block × List Line :=
  match definition? p first lines with
  | some found => found
  | none =>
    match first.html? p, first.heading? p, underlined? p lines with
    | some kind, _, _ =>
      let (inside, after) :=
        if kind.stop.holds first.content then ([], lines) else htmlLines p kind.stop lines
      (.html (cutLines p.indent (first :: inside)), after)
    | none, some (level, text), _ => (.heading level text, lines)
    | none, none, some (inside, level, after) =>
      (.heading level (trim (joinLines p.indent (first :: inside))), after)
    | none, none, none => takeParagraph p first lines

mutual

/-- Reads blocks. `gap` says that an empty line came before, `tight` that the last block had none
    before it. -/
def readBlocks (p : Place) (gap tight : Bool) : Nat → List Line → Reading
  | 0, lines => ⟨[], lines, tight⟩
  | bound + 1, lines =>
    match lines.dropWhile Line.isBlank with
    | [] => ⟨[], [], tight⟩
    | first :: rest =>
      if first.column < p.indent then ⟨[], first :: rest, tight⟩
      else if nestingLimit ≤ p.level then ⟨[], [], tight⟩
      else
        let (block, after) := readBlock p bound first rest
        let gap' := gap || endsBlank (first :: rest) after
        let (gap', after) :=
          match after with
          | l :: more => if l.isBlank then (true, more) else (gap', after)
          | [] => (gap', after)
        let reading := readBlocks p gap' (!gap) bound after
        { reading with blocks := block :: reading.blocks }

/-- Reads one block. Lines of a quote that its blocks do not take are left to what follows it. -/
def readBlock (p : Place) : Nat → Line → List Line → Block × List Line
  | 0, first, rest => takeParagraph p first rest
  | bound + 1, first, rest =>
    match leaf? p first rest with
    | some found => found
    | none =>
      if first.isQuoted then
        let head := unquote first
        let inside := quoteLines p (!head.isBlank) rest
        let inner : Place := { p with indent := 0, level := p.level + 1 }
        let reading := readBlocks inner false true bound (head :: inside)
        (.quote reading.blocks, rest.drop (inside.length - reading.rest.length))
      else if first.isRule p then (.rule, rest)
      else
        match if first.startsList p false then first.mark? else none with
        | some mark =>
          let reading := readItems p mark false bound mark first rest
          (.list mark.1 reading.tight reading.items, reading.rest)
        | none => laterLeaf p first rest

/-- Reads the items of a list, beginning with the one whose mark is given. `gap` says that an empty
    line came before it. -/
def readItems (p : Place) (kind : Numbering × Char × Nat) (gap : Bool) :
    Nat → Numbering × Char × Nat → Line → List Line → ItemReading
  | 0, _, first, rest => ⟨[], first :: rest, true⟩
  | bound + 1, (_, _, length), first, rest =>
    let (head, indent) := unmark length first
    let inner : Place := { indent, listIndent := p.indent, level := p.level + 2 }
    let item : Reading :=
      if head.isBlank && (rest.head?.all Line.isBlank) then ⟨[], rest.drop 1, true⟩
      else readBlocks inner false true bound (head :: rest)
    let tight := item.tight && !gap
    let gap := decide (item.rest.length < rest.length) && endsBlank (first :: rest) item.rest
    let ended : ItemReading := ⟨[item.blocks], item.rest, tight⟩
    match item.rest with
    | [] => ended
    | next :: more =>
      if next.column < p.indent || next.isCode p || next.endsList p then ended
      else
        match next.mark? with
        | none => ended
        | some mark =>
          if sameMark kind mark then
            let reading := readItems p kind gap bound mark next more
            ⟨item.blocks :: reading.items, reading.rest, tight && reading.tight⟩
          else ended

end

/-- The blocks of a document. -/
def readDocument (s : List Char) : List Block :=
  let lines := documentLines s
  (readBlocks {} false true (4 * (s.length + 1)) lines).blocks

end LanguageClient.Markdown
