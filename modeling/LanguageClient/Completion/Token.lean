import LanguageClient.Json.Access
import LanguageClient.Order
import LanguageClient.Text.Alphanumeric

/-!
Which text before the cursor is the token being completed. The candidates themselves say what a
token looks like: it starts with a character that some candidate starts with and goes on with
characters seen further inside the candidates, so names with marks in them (`main.rs`, `$count`)
count as one token. The token is the longest such text that ends at the cursor, on the cursor's line.
-/

namespace LanguageClient

/-- A set of characters: the listed ones and, if `word` is set, all word characters. -/
structure CharSet where
  word : Bool
  others : List Char
  deriving DecidableEq, Repr

namespace CharSet

def mem (s : CharSet) (c : Char) : Bool := (s.word && Text.isWord c) || s.others.contains c

/-- Puts a text in its place in an ascending list without repetitions. -/
def insertSorted (s : List Char) : List (List Char) → List (List Char)
  | [] => [s]
  | t :: ts =>
    if textBefore s t then s :: t :: ts
    else if s = t then t :: ts
    else t :: insertSorted s ts

/-- The set of the characters of some texts, widened to all word characters if it has one. The others
    are listed text by text, in ascending order of the texts. -/
def ofTexts (texts : List (List Char)) : CharSet where
  word := texts.any (·.any Text.isWord)
  others := (texts.foldr insertSorted []).flatMap (·.filter fun c => !Text.isWord c)

/-- Characters with a meaning of their own in a search pattern. -/
def special : List Char := "\t\n\x0b\x0c\r #$&()*+-.?[\\]^\x7b|\x7d~".toList

/-- A character as it is written in a search pattern. -/
def escape (c : Char) : List Char := if special.contains c then ['\\', c] else [c]

/-- The set written as a class of a search pattern. -/
def source (s : CharSet) : List Char :=
  '[' :: ((if s.word then ['\\', 'w'] else []) ++ s.others.flatMap escape ++ [']'])

end CharSet

/-- What a token looks like. -/
inductive TokenPattern where
  /-- A word, a word followed by a dot, or a slash. -/
  | standard
  /-- A character of the first set, then any number of characters of the second. -/
  | candidates (first : CharSet) (rest : Option CharSet)
  deriving DecidableEq, Repr

namespace TokenPattern

/-- A word, a word followed by a dot, or a slash. -/
def isStandard (s : List Char) : Bool :=
  match s.reverse with
  | ['/'] => true
  | '.' :: c :: more => (c :: more).all Text.isWord
  | c :: more => (c :: more).all Text.isWord
  | [] => false

/-- Does the whole text look like a token? -/
def accepts : TokenPattern → List Char → Bool
  | .standard, s => isStandard s
  | .candidates _ _, [] => false
  | .candidates first none, [c] => first.mem c
  | .candidates _ none, _ => false
  | .candidates first (some rest), c :: more => first.mem c && more.all rest.mem

/-- The pattern in the notation of search patterns. -/
def source : TokenPattern → List Char
  | .standard => "(?:\\w+\\.|/|\\w+)$".toList
  | .candidates first rest =>
    first.source ++ (match rest with
      | some rest => rest.source ++ ['*']
      | none => []) ++ ['$']

end TokenPattern

/-- The text a candidate stands for: what it inserts, or else its label. -/
def candidateText (item : Json) : Except Failure Json := do
  let edit ← item.get "textEdit"
  let inserted ← (edit.orElse (.obj [])).get "newText"
  if inserted.truthy then return inserted
  return (← item.get "label").orElse (.str "")

/-- The texts that a candidate may begin with and go on with. A text is taken apart into its
    characters, a list into its items. -/
def candidateParts (item : Json) : Except Failure (List Json) := do
  let text ← candidateText item
  if !text.truthy then return []
  let first ← text.item (.int 0)
  return first :: (← text.items).drop 1

/-- A part of a candidate that is put into a pattern, which has to be a text. -/
def partText : Json → Except Failure (List Char)
  | .str s => .ok s.toList
  | v => .error (.wrongKind ("sequence item 0: expected str instance, " ++ v.kind.label ++ " found"))

/-- The pattern that the parts of the candidates give, or none if they have none. -/
def patternOf (parts : List (List Json)) : Except Failure (Option TokenPattern) := do
  let first := parts.flatMap (·.take 1)
  let rest := parts.flatMap (·.drop 1)
  if first.isEmpty then return none
  let first := CharSet.ofTexts (← first.mapM partText)
  let rest := CharSet.ofTexts (← rest.mapM partText)
  return some (.candidates first (if parts.any (1 < ·.length) then some rest else none))

/-- The token pattern of a list of candidates, or none if they have no text at all. -/
def tokenPattern? (items : List Json) : Except Failure (Option TokenPattern) := do
  patternOf (← items.mapM candidateParts)

/-- A token: where it starts, where the cursor is, and its text. -/
structure Token where
  start : Int
  stop : Int
  text : List Char
  deriving DecidableEq, Repr

/-- How far back a token is looked for, in characters. -/
def tokenReach : Int := 250

/-- Is the character one that ends a line? -/
def isLineBreak (c : Char) : Bool := c == '\n' || c == '\r'

/-- Offset just past the last line break before an offset. -/
def lineStartBefore (text : List Char) (offset : Int) : Nat :=
  let before := Text.sliceTo text offset
  before.length - (before.reverse.takeWhile (fun c => !isLineBreak c)).length

/-- The longest non-empty end of a text with a property, and the offset at which it starts. -/
def longestEnd? (accepts : List Char → Bool) : List Char → Option (Nat × List Char)
  | [] => none
  | c :: rest =>
    if accepts (c :: rest) then some (0, c :: rest)
    else (longestEnd? accepts rest).map fun (n, s) => (n + 1, s)

/-- The token that ends at an offset, looked for on the offset's line only. -/
def tokenBefore? (text : List Char) (offset : Int) (pattern : TokenPattern) : Option Token :=
  let start := max (lineStartBefore text offset : Int) (offset - tokenReach)
  (longestEnd? pattern.accepts (Text.slice text start offset)).map fun (n, s) =>
    ⟨start + n, offset, s⟩

/-- Why completion is requested. -/
inductive CompletionTrigger where
  /-- The user asked for it or is typing a token. -/
  | invoked
  /-- The user typed a character that the server wants to be told of. -/
  | character (c : Char)
  deriving DecidableEq, Repr

/-- The character just before an offset, if it is on the same line. -/
def charBefore? (text : List Char) (offset : Int) : Except Failure (Option Char) :=
  if (lineStartBefore text offset : Int) < offset then
    match text[(offset - 1).toNat]? with
    | some c => .ok (some c)
    | none => .error (.outOfRange "string index out of range")
  else .ok none

/-- Decides whether and why completion is requested at an offset. -/
def completionTrigger? (text : List Char) (offset : Int) (triggers : Json) (explicit : Bool)
    (pattern : TokenPattern := .standard) : Except Failure (Option CompletionTrigger) := do
  match ← charBefore? text offset with
  | some c =>
    if !explicit then
      if ← triggers.holds (String.ofList [c]) then return some (.character c)
  | none => pure ()
  return (tokenBefore? text offset pattern).map fun _ => .invoked

end LanguageClient
