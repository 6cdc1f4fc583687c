import LanguageClient.Markdown.Target

/-!
Definitions of link targets. A definition may reach over several lines, but a line is only looked at
if the one before it ended inside the definition: in its label, before its address, before its title
or in it.

    [label]:
      <address>
      "a title
      of two lines"
-/

namespace LanguageClient.Markdown

/-- The text of lines that has been gathered and not yet read, and the lines that are left. -/
structure Gathered where
  text : List Char
  lines : List Line

namespace Gathered

/-- Gathers the next line if it continues the text. -/
def next? (continues : Line → Bool) (g : Gathered) : Option Gathered :=
  match g.lines with
  | l :: rest => if continues l then some ⟨g.text ++ l.ending, rest⟩ else none
  | [] => none

/-- Passes over the end of a line: what follows it is the next line, if there is one. -/
def feed (continues : Line → Bool) (text : List Char) (lines : List Line) : Gathered :=
  (next? continues ⟨text, lines⟩).getD ⟨text, lines⟩

/-- How many characters there are in all. -/
def size (g : Gathered) : Nat :=
  g.lines.foldl (fun n line => n + line.ending.length) g.text.length

/-- Passes over blanks, tabs and line feeds. -/
def skipGaps (continues : Line → Bool) : Nat → Gathered → Gathered
  | 0, g => g
  | bound + 1, ⟨text, lines⟩ =>
    match text with
    | '\n' :: rest => skipGaps continues bound (feed continues rest lines)
    | c :: rest => if isSpace c then skipGaps continues bound ⟨rest, lines⟩ else ⟨text, lines⟩
    | [] => ⟨text, lines⟩

/-- Takes off a label whose opening bracket has been passed. -/
def label? (continues : Line → Bool) : Nat → Gathered → Option (List Char × Gathered)
  | 0, _ => none
  | bound + 1, ⟨text, lines⟩ =>
    let go (read : List Char) (g : Gathered) : Option (List Char × Gathered) :=
      (label? continues bound g).map fun (label, after) => (read ++ label, after)
    match text with
    | [] | ['\\'] | '[' :: _ => none
    | ']' :: rest => some ([], ⟨rest, lines⟩)
    | '\\' :: '\n' :: rest => go ['\\', '\n'] (feed continues rest lines)
    | '\\' :: c :: rest => go ['\\', c] ⟨rest, lines⟩
    | '\n' :: rest => go ['\n'] (feed continues rest lines)
    | c :: rest => go [c] ⟨rest, lines⟩

/-- Takes off the rest of a title that a mark closes. The escapes of each line are replaced on their
    own. -/
def titleRest? (continues : Line → Bool) (mark : Char) :
    List Line → List Char → Option (List Char × Gathered)
  | [], text =>
    match titleEnd mark text.length text with
    | .closed rest => some (unescape (text.take (text.length - rest.length)), ⟨rest.drop 1, []⟩)
    | _ => none
  | l :: more, text =>
    match titleEnd mark text.length text with
    | .closed rest =>
      some (unescape (text.take (text.length - rest.length)), ⟨rest.drop 1, l :: more⟩)
    | .refused => none
    | .unclosed =>
      if continues l then
        (titleRest? continues mark more l.ending).map fun (title, after) =>
          (unescape text ++ title, after)
      else none

/-- Takes off a title. -/
def title? (continues : Line → Bool) (g : Gathered) : Option (List Char × Gathered) :=
  match g.text with
  | [] => none
  | c :: rest => (titleMark? c).bind fun mark => titleRest? continues mark g.lines rest

/-- Is the rest of the line blank? -/
def endsLine (g : Gathered) : Bool :=
  match g.text.dropWhile isSpace with
  | [] | '\n' :: _ => true
  | _ => false

/-- The title of a definition after its address, and the lines after it. White space has to come
    before a title of one line. A title that is followed by more counts as none, unless it is empty:
    then there is no definition. -/
def definitionTitle? (continues : Line → Bool) (g : Gathered) : Option (List Char × List Line) :=
  let untitled : Option (List Char × List Line) := if g.endsLine then some ([], g.lines) else none
  let start := g.skipGaps continues g.size
  match start.title? continues with
  | none => untitled
  | some (title, after) =>
    if !(g.text.head?.any isGap) && after.lines.length = start.lines.length then untitled
    else if after.endsLine then some (title, after.lines)
    else if title.isEmpty then none
    else untitled

/-- A definition whose opening bracket has been passed: its label, its target and the lines after
    it. -/
def definition? (continues : Line → Bool) (g : Gathered) :
    Option (List Char × Target × List Line) := do
  let (label, g) ← g.label? continues (g.size + 1)
  match g.text with
  | ':' :: rest =>
    let g := skipGaps continues g.size ⟨rest, g.lines⟩
    let (address, rest) ← takeAddress? g.text
    let address := Url.normalize address
    if !Url.isAllowed address then none
    let (title, lines) ← definitionTitle? continues ⟨rest, g.lines⟩
    let label := normalizeLabel label
    if label.isEmpty then none
    return (label, ⟨address, title⟩, lines)
  | _ => none

end Gathered

end LanguageClient.Markdown
