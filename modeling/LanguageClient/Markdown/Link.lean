import LanguageClient.Markdown.Piece
import LanguageClient.Table
import Std.Data.HashMap

/-!
Links and images. Brackets are looked through ahead of time to find the end of a link's text, and for
that a piece of markup is passed over as a whole. How long the piece at a place is, is found out only
once: what the first look gave counts for the later ones too, even if the first look came from too
deep a nesting to see a piece there.

    [a `]` ![b](c)](d)
     └───────────┘      text, in which the code and the image are passed over
-/

namespace LanguageClient.Markdown

/-- Definitions of link targets by their labels. -/
abbrev Definitions := Table (List Char) Target

/-- A place in a text: how many characters come before it, and those after it. -/
structure Cursor where
  at' : Nat := 0
  chars : List Char

/-- Passes over characters. -/
def Cursor.drop (n : Nat) (c : Cursor) : Cursor := ⟨c.at' + n, c.chars.drop n⟩

/-- The lengths of the pieces at the places that have been looked at. -/
abbrev Lengths := Std.HashMap Nat Nat

/-- Looks a length up, or finds it out and keeps it. -/
def remember (place : Nat) (find : StateM Lengths Nat) : StateM Lengths Nat := do
  match (← get)[place]? with
  | some n => return n
  | none =>
    let n ← find
    modify (·.insert place n)
    return n

/-- The text of a link whose opening bracket has been passed, and what follows the closing one.
    `size` gives the length of a piece; `depth` counts brackets that are only text. Unless `nested`,
    the text may not hold another link. -/
def linkText? (size : Cursor → StateM Lengths Nat) (nested : Bool) :
    Nat → Nat → Cursor → StateM Lengths (Option (List Char × Cursor))
  | 0, _, _ | _, _, ⟨_, []⟩ => return none
  | bound + 1, depth, ⟨i, c :: rest⟩ => do
    if c = ']' && depth = 0 then return some ([], ⟨i + 1, rest⟩)
    let n ← size ⟨i, c :: rest⟩
    if c = '[' && n ≠ 1 && !nested then return none
    let depth := if c = ']' then depth - 1 else if c = '[' && n = 1 then depth + 1 else depth
    let found ← linkText? size nested bound depth ⟨i + n, (c :: rest).drop n⟩
    return found.map fun (text, after) => ((c :: rest).take n ++ text, after)

/-- What stands in parentheses after a link's text: the target if it is one, and what follows. A bad
    target still says where the reading stopped. -/
inductive Parenthesis where
  | target (t : Target) (rest : List Char)
  | bad (rest : List Char)
  /-- There is nothing after the opening one. -/
  | unfinished

/-- Reads a target in parentheses, the first of which has been passed. -/
def readParenthesis (s : List Char) : Parenthesis :=
  match skipGaps s with
  | [] => .unfinished
  | s =>
    let (address, s) : Option (List Char) × List Char :=
      match takeAddress? s with
      | some (address, rest) =>
        let address := Url.normalize address
        if Url.isAllowed address then (some address, rest) else (some [], s)
      | none => (none, s)
    let t := skipGaps s
    let (title, s) : List Char × List Char :=
      match if t.length < s.length then takeTitle? t else none with
      | some (title, rest) => (title, skipGaps rest)
      | none => ([], t)
    match s with
    | ')' :: rest => .target ⟨address.getD [], title⟩ rest
    | s => .bad (s.drop 1)

/-- A link or an image: where it leads, the text in its brackets and where that begins, and the place
    after it. -/
structure Linked where
  target : Target
  start : Nat
  text : List Char
  after : Cursor

/-- The target of a label after a link's text, or of the text itself, and what follows. -/
def labelled? (size : Cursor → StateM Lengths Nat) (defs : Definitions) (text : List Char)
    (afterText place : Cursor) : StateM Lengths (Option (Target × Cursor)) := do
  if defs.isEmpty then return none
  let found ← match place.chars with
    | '[' :: s => linkText? size true (s.length + 1) 0 ⟨place.at' + 1, s⟩
    | _ => pure none
  let (label, after) := found.getD ([], afterText)
  let label := if label.isEmpty then text else label
  return (defs.get? (normalizeLabel label)).map fun t => (t, after)

/-- A link or an image whose opening bracket has been passed. The text of an image may hold links.
    After a bad target in parentheses a link looks for a label, an image does not. -/
def linked? (size : Cursor → StateM Lengths Nat) (defs : Definitions) (image : Bool) (c : Cursor) :
    StateM Lengths (Option Linked) := do
  match ← linkText? size image (c.chars.length + 1) 0 c with
  | none => return none
  | some (text, after) =>
    let byLabel (place : Cursor) : StateM Lengths (Option Linked) := do
      return (← labelled? size defs text after place).map fun (t, rest) => ⟨t, c.at', text, rest⟩
    match after.chars with
    | '(' :: inside =>
      match readParenthesis inside with
      | .target t rest =>
        return some ⟨t, c.at', text, after.drop (after.chars.length - rest.length)⟩
      | .bad rest =>
        if image then return none else byLabel (after.drop (after.chars.length - rest.length))
      | .unfinished => return none
    | _ => byLabel after

/-- The length of the piece at a place, or 1 if none begins there. -/
def pieceLength (size : Cursor → StateM Lengths Nat) (defs : Definitions) (c : Cursor) :
    StateM Lengths Nat :=
  let upTo (rest : List Char) : Nat := c.chars.length - rest.length
  let orOne (rest : Option (List Char)) : Nat := (rest.map upTo).getD 1
  let linkedLength (image : Bool) (skip : Nat) : StateM Lengths Nat := do
    return ((← linked? size defs image (c.drop skip)).map (·.after.at' - c.at')).getD 1
  match c.chars with
  | '\n' :: rest => return upTo (rest.dropWhile isSpace)
  | '\\' :: '\n' :: rest => return upTo (rest.dropWhile isSpace)
  | '\\' :: _ :: _ => return 2
  | '\x60' :: _ =>
    match takeCode c.chars with
    | (_, some (_, after)) => return upTo after
    | (run, none) => return run.length
  | '[' :: _ => linkedLength false 1
  | '!' :: '[' :: _ => linkedLength true 2
  | '<' :: _ =>
    return orOne (((autolink? c.chars).map (·.2.2)).orElse fun _ => (inlineHtml? c.chars).map (·.2))
  | '&' :: _ => return orOne ((reference? c.chars).map (·.2))
  | _ => return 1

/-- The length of the piece at a place, seen from a depth of nested brackets. Too deep, everything up
    to the end is one piece. -/
def sizeAt (defs : Definitions) : Nat → Cursor → StateM Lengths Nat
  | 0, c => remember c.at' (return c.chars.length + 1)
  | depth + 1, c => remember c.at' (pieceLength (sizeAt defs depth) defs c)

end LanguageClient.Markdown
