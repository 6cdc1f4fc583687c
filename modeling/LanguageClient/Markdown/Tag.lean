import LanguageClient.Markdown.Escape
import LanguageClient.Markdown.Line
import LanguageClient.Text.Blank
import LanguageClient.Text.Slice

/-!
HTML in a document: the tags, comments and other marks that may stand in a line, and the beginnings
of whole blocks of HTML. Each function takes what it reads off the front of a text and gives the
rest.
-/

namespace LanguageClient.Markdown.Tag

/-- Drops white space. -/
def skipBlanks (s : List Char) : List Char := s.dropWhile Text.isBlank

/-- Takes off a word. -/
def expect? (word : String) (s : List Char) : Option (List Char) :=
  if word.toList.isPrefixOf s then some (s.drop word.length) else none

/-- What follows the first occurrence of a word. -/
def after? (word : String) (s : List Char) : Option (List Char) :=
  (Text.find? word.toList s).map fun n => s.drop (n + word.length)

/-- The name of a tag. -/
def name? : List Char → Option (List Char)
  | c :: rest => if c.isAlpha then some (rest.dropWhile fun c => isAlnum c || c == '-') else none
  | [] => none

/-- The name of an attribute. -/
def attributeName? : List Char → Option (List Char)
  | c :: rest =>
    if c.isAlpha || c == '_' || c == ':' then
      some (rest.dropWhile fun c => isAlnum c || c == ':' || c == '.' || c == '_' || c == '-')
    else none
  | [] => none

/-- Can be in a value without quotes. -/
def isBare (c : Char) : Bool := !("\"'=<>\x60".toList.contains c) && 0x20 < c.toNat

/-- The value of an attribute. -/
def attributeValue? : List Char → Option (List Char)
  | '"' :: rest => after? "\"" rest
  | '\'' :: rest => after? "'" rest
  | s => if s.head?.any isBare then some (s.dropWhile isBare) else none

/-- An attribute with its value, if it has one. -/
def attribute? (s : List Char) : Option (List Char) := do
  let rest ← attributeName? s
  match skipBlanks rest with
  | '=' :: value => attributeValue? (skipBlanks value)
  | _ => some rest

/-- Attributes, each with white space before it, then the end of the tag. -/
def attributes? : Nat → List Char → Option (List Char)
  | 0, _ => none
  | bound + 1, s =>
    match skipBlanks s with
    | '>' :: rest | '/' :: '>' :: rest => some rest
    | t =>
      if t.length < s.length then (attribute? t).bind (attributes? bound) else none

/-- A tag that opens an element. -/
def open? : List Char → Option (List Char)
  | '<' :: s => do
    let rest ← name? s
    attributes? (rest.length + 1) rest
  | _ => none

/-- A tag that closes an element. -/
def close? (s : List Char) : Option (List Char) := do
  let rest ← name? (← expect? "</" s)
  expect? ">" (skipBlanks rest)

/-- The rest of a comment. Two hyphens and what follows them are passed together. -/
def commentEnd? : List Char → Option (List Char)
  | '-' :: '-' :: c :: rest => if c = '>' then some rest else commentEnd? rest
  | '-' :: c :: rest => if c = '-' then none else commentEnd? rest
  | ['-'] => none
  | _ :: rest => commentEnd? rest
  | [] => none

/-- A comment. -/
def comment? (s : List Char) : Option (List Char) :=
  (expect? "<!-->" s).orElse fun _ => (expect? "<!--->" s).orElse fun _ =>
    (expect? "<!--" s).bind commentEnd?

/-- An instruction to a program. -/
def instruction? (s : List Char) : Option (List Char) := (expect? "<?" s).bind (after? "?>")

/-- A declaration. -/
def declaration? (s : List Char) : Option (List Char) := do
  let rest ← expect? "<!" s
  if rest.head?.any Char.isAlpha then after? ">" rest else none

/-- Characters that are no markup. -/
def rawText? (s : List Char) : Option (List Char) := (expect? "<![CDATA[" s).bind (after? "]]>")

/-- HTML at the front of a text, with what follows it. -/
def inline? (s : List Char) : Option (List Char × List Char) := do
  let rest ← [open?, close?, comment?, instruction?, declaration?, rawText?].findSome? (· s)
  return (s.take (s.length - rest.length), rest)

/-! ### Blocks -/

/-- What ends a block of HTML: a line that holds one of some words, or an empty line. -/
inductive BlockEnd where
  | words (ws : List String)
  | emptyLine
  deriving DecidableEq, Repr

/-- A block of HTML: what ends it, and whether it can follow a paragraph without an empty line. -/
structure BlockKind where
  stop : BlockEnd
  interrupts : Bool := true
  deriving DecidableEq, Repr

/-- Elements whose text is no markup. -/
def verbatimNames : List String := ["script", "pre", "style", "textarea"]

/-- Elements that begin a block. -/
def blockNames : List String :=
  ["address", "article", "aside", "base", "basefont", "blockquote", "body", "caption", "center",
   "col", "colgroup", "dd", "details", "dialog", "dir", "div", "dl", "dt", "fieldset",
   "figcaption", "figure", "footer", "form", "frame", "frameset", "h1", "h2", "h3", "h4", "h5",
   "h6", "head", "header", "hr", "html", "iframe", "legend", "li", "link", "main", "menu",
   "menuitem", "nav", "noframes", "ol", "optgroup", "option", "p", "param", "search", "section",
   "summary", "table", "tbody", "td", "tfoot", "th", "thead", "title", "tr", "track", "ul"]

/-- Takes one of some names off the front, in any case of letters. The rest has to pass a test. -/
def namedRest? (names : List String) (test : List Char → Bool) (s : List Char) : Bool :=
  names.any fun name =>
    name.toList.isPrefixOf (s.map Char.toLower) && test (s.drop name.length)

/-- The end of a text, white space, or the end of a tag. -/
def endsName : List Char → Bool
  | [] => true
  | c :: _ => c == '>' || Text.isBlank c

/-- As above, or the end of an empty element. -/
def endsBlockName (s : List Char) : Bool := endsName s || "/>".toList.isPrefixOf s

/-- A line that is one tag. -/
def isLoneTag (s : List Char) : Bool :=
  match (open? s).orElse fun _ => close? s with
  | some rest => rest.all Text.isBlank
  | none => false

/-- The block of HTML that a line begins. -/
def block? (s : List Char) : Option BlockKind :=
  let starts (word : String) : Bool := word.toList.isPrefixOf s
  let name := (expect? "</" s).orElse fun _ => expect? "<" s
  if starts "<" && namedRest? verbatimNames endsName (s.drop 1) then
    some { stop := .words ["</script>", "</pre>", "</style>", "</textarea>"] }
  else if starts "<!--" then some { stop := .words ["-->"] }
  else if starts "<?" then some { stop := .words ["?>"] }
  else if starts "<!" && (s.drop 2).head?.any Char.isAlpha then some { stop := .words [">"] }
  else if starts "<![CDATA[" then some { stop := .words ["]]>"] }
  else if name.any (namedRest? blockNames endsBlockName) then some { stop := .emptyLine }
  else if isLoneTag s then some { stop := .emptyLine, interrupts := false }
  else none

/-- Does a line end a block? Names count in any case of letters. -/
def BlockEnd.holds (e : BlockEnd) (s : List Char) : Bool :=
  match e with
  | .words ws => ws.any fun w => Text.contains w.toList (s.map Char.toLower)
  | .emptyLine => s.isEmpty

end LanguageClient.Markdown.Tag
