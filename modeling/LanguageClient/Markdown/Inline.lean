import LanguageClient.Markdown.Emphasis
import LanguageClient.Markdown.Link

/-!
The markup of running text: code, links, images, line breaks, HTML, escapes and emphasis. The text is
read from the left; what begins no markup is text.
-/

namespace LanguageClient.Markdown

/-- A piece of running text. -/
inductive Inline where
  | text (s : List Char)
  /-- A character that was written by an escape. -/
  | escaped (s : List Char)
  | code (s : List Char)
  | html (s : List Char)
  | softBreak
  | hardBreak
  | opens (strong : Bool)
  | closes (strong : Bool)
  | link (target : Target) (content : List Inline)
  | image (target : Target) (content : List Inline)

/-! ### Reading -/

/-- How deep brackets are looked through. -/
def bracketLimit : Nat := 20

/-- The text read so far that belongs to no piece yet, the pieces (last one first), and the marks of
    emphasis among them. -/
structure Reader where
  pending : List Char := []
  pieces : List Inline := []
  count : Nat := 0
  marks : Array Delimiter := #[]

namespace Reader

/-- Ends the text read so far. -/
def flush (r : Reader) : Reader :=
  if r.pending.isEmpty then r
  else { r with
    pending := []
    pieces := .text r.pending.reverse :: r.pieces
    count := r.count + 1 }

/-- Adds a piece. -/
def push (x : Inline) (r : Reader) : Reader :=
  let r := r.flush
  { r with pieces := x :: r.pieces, count := r.count + 1 }

/-- Adds to the text. -/
def add (s : List Char) (r : Reader) : Reader := { r with pending := s.reverse ++ r.pending }

/-- Adds the marks of a run, each as a piece of its own. -/
def pushMarks (mark : Char) (run : Nat) (f : Flanks) : Nat → Reader → Reader
  | 0, r => r
  | n + 1, r =>
    let r := r.flush
    let m : Delimiter := { mark, run, at' := r.count, opens := f.opens, closes := f.closes }
    pushMarks mark run f n ({ r with marks := r.marks.push m }.push (.text [mark]))

/-- Ends a line. Two blanks before the end break the line for good. -/
def breakLine (r : Reader) : Reader :=
  match r.pending with
  | ' ' :: ' ' :: rest => { r with pending := rest.dropWhile (· == ' ') }.push .hardBreak
  | ' ' :: rest => { r with pending := rest }.push .softBreak
  | _ => r.push .softBreak

/-- The pieces with the marks of emphasis in their roles. -/
def finish (r : Reader) : List Inline :=
  let r := r.flush
  let roles := rolesByPlace r.marks
  r.pieces.reverse.zipIdx.filterMap fun (x, i) =>
    match roles.lookup i with
    | some (.opens strong) => some (.opens strong)
    | some (.closes strong) => some (.closes strong)
    | some .nothing => none
    | some .text | none => some x

end Reader

/-- Reads running text. `before` is the character before it, and `depth` how deep brackets are looked
    through. The text of a link is part of the text around it; that of an image is read on its own. -/
def readInline (defs : Definitions) :
    Nat → Nat → Char → Reader → Cursor → StateM Lengths (List Inline)
  | 0, _, _, r, _ | _, _, _, r, ⟨_, []⟩ => return r.finish
  | bound + 1, depth, before, r, ⟨i, c :: rest⟩ =>
    let go (r : Reader) (after : Cursor) : StateM Lengths (List Inline) :=
      let last := ((c :: rest).take (after.at' - i)).getLast?.getD c
      readInline defs bound depth last r after
    let goTo (r : Reader) (after : List Char) : StateM Lengths (List Inline) :=
      go r ⟨i + (rest.length + 1 - after.length), after⟩
    let plain : StateM Lengths (List Inline) := go (r.add [c]) ⟨i + 1, rest⟩
    match c with
    | '\n' => goTo r.breakLine (rest.dropWhile isSpace)
    | '\\' =>
      match rest with
      | '\n' :: more => goTo (r.push .hardBreak) (more.dropWhile isSpace)
      | d :: more =>
        goTo (r.push (.escaped (if Text.isAsciiPunctuation d then [d] else ['\\', d]))) more
      | [] => plain
    | '\x60' =>
      match takeCode (c :: rest) with
      | (_, some (code, after)) => goTo (r.push (.code (codeText code))) after
      | (run, none) => goTo (r.add run) ((c :: rest).drop run.length)
    | '*' | '_' =>
      let run := ((c :: rest).takeWhile (· == c)).length
      let after := (c :: rest).drop run
      goTo (r.pushMarks c run (flanks c before (after.head?.getD ' ')) run) after
    | '[' => do
      match ← linked? (sizeAt defs depth) defs false ⟨i + 1, rest⟩ with
      | some l =>
        let content ← readInline defs bound (depth - 1) '[' {} ⟨l.start, l.text⟩
        go (r.push (.link l.target content)) l.after
      | none => plain
    | '!' =>
      match rest with
      | '[' :: s => do
        match ← linked? (sizeAt defs depth) defs true ⟨i + 2, s⟩ with
        | some l =>
          let content := (readInline defs bound bracketLimit ' ' {} ⟨0, l.text⟩).run' {}
          go (r.push (.image l.target content)) l.after
        | none => plain
      | _ => plain
    | '<' =>
      match autolink? (c :: rest) with
      | some (t, text, after) => goTo (r.push (.link t [.text text])) after
      | none =>
        match inlineHtml? (c :: rest) with
        | some (html, after) => goTo (r.push (.html html)) after
        | none => plain
    | '&' =>
      match reference? (c :: rest) with
      | some (text, after) => goTo (r.push (.escaped text)) after
      | none => plain
    | _ => plain

/-- The pieces of a running text. -/
def inlines (defs : Definitions) (s : List Char) : List Inline :=
  ((readInline defs (s.length + 1) bracketLimit ' ' {} ⟨0, s⟩).run {}).1

end LanguageClient.Markdown
