import LanguageClient.Markdown.Block
import LanguageClient.Markdown.Inline

/-!
A document as HTML. Every block ends its line; the paragraphs of a tight list have no tags of their
own, and a block that follows one of them begins a new line.
-/

namespace LanguageClient.Markdown

/-- A text of the output. -/
def raw (s : String) : List Char := s.toList

/-- An attribute with its value. -/
def attr (name : String) (value : List Char) : List Char :=
  raw (" " ++ name ++ "=\"") ++ escape value ++ ['"']

/-- An attribute that is left out if it is empty. -/
def attr? (name : String) (value : List Char) : List Char :=
  if value.isEmpty then [] else attr name value

/-! ### Running text -/

mutual

/-- The text of a piece without its markup, as it stands in the place of an image. -/
def Inline.plain : Inline → List Char
  | .text s | .escaped s | .code s | .html s => s
  | .softBreak | .hardBreak => ['\n']
  | .image _ content | .link _ content => plainAll content
  | .opens _ | .closes _ => []

/-- The text of pieces without their markup. -/
def plainAll : List Inline → List Char
  | [] => []
  | x :: xs => x.plain ++ plainAll xs

end

/-- The name of the tag for emphasis. -/
def emphasisTag (strong : Bool) : String := if strong then "strong" else "em"

mutual

/-- A piece of running text as HTML. -/
def Inline.toHtml : Inline → List Char
  | .text s | .escaped s => escape s
  | .code s => raw "<code>" ++ escape s ++ raw "</code>"
  | .html s => s
  | .softBreak => ['\n']
  | .hardBreak => raw "<br />\n"
  | .opens strong => raw ("<" ++ emphasisTag strong ++ ">")
  | .closes strong => raw ("</" ++ emphasisTag strong ++ ">")
  | .link t content =>
    raw "<a" ++ attr "href" t.address ++ attr? "title" t.title ++ raw ">"
      ++ inlinesToHtml content ++ raw "</a>"
  | .image t content =>
    raw "<img" ++ attr "src" t.address ++ attr "alt" (plainAll content)
      ++ attr? "title" t.title ++ raw " />"

/-- Running text as HTML. -/
def inlinesToHtml : List Inline → List Char
  | [] => []
  | x :: xs => x.toHtml ++ inlinesToHtml xs

end

/-! ### Blocks -/

/-- Code in a block of its own. -/
def codeToHtml (attributes text : List Char) : List Char :=
  raw "<pre><code" ++ attributes ++ raw ">" ++ escape text ++ raw "</code></pre>\n"

/-- The class of a fence: its language is the first word of its info text. -/
def languageClass (info : List Char) : List Char :=
  let info := trim (unescape info)
  attr? "class" (if info.isEmpty then []
    else raw "language-" ++ info.takeWhile (!isWhite ·))

/-- The tag of a list, and its attribute if it does not begin with one. -/
def listTag : Numbering → String × List Char
  | .bullets => ("ul", [])
  | .numbers first =>
    ("ol", if first = 1 then [] else attr "start" (raw (toString first)))

/-- Definitions are not shown. -/
def Block.isShown : Block → Bool
  | .definition .. => false
  | _ => true

/-- Does the content of a container begin on the line of its tag? It does if there is none, or if it
    is a paragraph without tags. -/
def beginsInside (bare : Bool) (blocks : List Block) : Bool :=
  match blocks.find? Block.isShown with
  | none => true
  | some (.paragraph _) => bare
  | some _ => false

mutual

/-- A block as HTML. In a tight list paragraphs are bare; `after` says that one comes before. -/
def blockToHtml (defs : Definitions) (bare after : Bool) : Block → List Char
  | .paragraph text =>
    let content := inlinesToHtml (inlines defs text)
    if bare then content else raw "<p>" ++ content ++ raw "</p>\n"
  | .heading level text =>
    let tag := "h" ++ toString level
    (if after then ['\n'] else []) ++ raw ("<" ++ tag ++ ">")
      ++ inlinesToHtml (inlines defs text) ++ raw ("</" ++ tag ++ ">\n")
  | .code text => codeToHtml [] text
  | .fence info text => codeToHtml (languageClass info) text
  | .html text => text
  | .rule => (if after then ['\n'] else []) ++ raw "<hr />\n"
  | .quote blocks =>
    (if after then ['\n'] else []) ++ raw "<blockquote>"
      ++ (if beginsInside false blocks then [] else ['\n'])
      ++ blocksToHtml defs false false blocks ++ raw "</blockquote>\n"
  | .list numbering tight items =>
    let (tag, attributes) := listTag numbering
    (if after then ['\n'] else []) ++ raw ("<" ++ tag) ++ attributes ++ raw ">\n"
      ++ itemsToHtml defs tight items ++ raw ("</" ++ tag ++ ">\n")
  | .definition .. => []

/-- Blocks as HTML. -/
def blocksToHtml (defs : Definitions) (bare after : Bool) : List Block → List Char
  | [] => []
  | .definition .. :: rest => blocksToHtml defs bare after rest
  | .paragraph text :: rest =>
    blockToHtml defs bare after (.paragraph text) ++ blocksToHtml defs bare bare rest
  | block :: rest => blockToHtml defs bare after block ++ blocksToHtml defs bare false rest

/-- The items of a list as HTML. -/
def itemsToHtml (defs : Definitions) (tight : Bool) : List (List Block) → List Char
  | [] => []
  | blocks :: rest =>
    raw "<li>" ++ (if beginsInside tight blocks then [] else ['\n'])
      ++ blocksToHtml defs tight false blocks ++ raw "</li>\n" ++ itemsToHtml defs tight rest

end

mutual

/-- The definitions of a block. -/
def Block.definitions : Block → List (List Char × Target)
  | .definition label target => [(label, target)]
  | .quote blocks => definitionsOf blocks
  | .list _ _ items => itemDefinitions items
  | _ => []

/-- The definitions of blocks, in order. -/
def definitionsOf : List Block → List (List Char × Target)
  | [] => []
  | block :: rest => block.definitions ++ definitionsOf rest

/-- The definitions of the items of a list, in order. -/
def itemDefinitions : List (List Block) → List (List Char × Target)
  | [] => []
  | blocks :: rest => definitionsOf blocks ++ itemDefinitions rest

end

/-- A document as HTML. Of two definitions of one label the first counts. -/
def documentToHtml (s : List Char) : List Char :=
  let blocks := readDocument s
  blocksToHtml (definitionsOf blocks) false false blocks

/-- A Markdown text as HTML. -/
def toHtml (s : String) : String := String.ofList (documentToHtml s.toList)

end LanguageClient.Markdown
