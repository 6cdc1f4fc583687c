import LanguageClient.View
import LanguageClient.Text.Alphanumeric

/-!
Edits described by the server, carried out on the document shown. Every range is resolved against
the text before anything is changed, and the editor gets all of it as one batch, which it carries
out whole or not at all.
-/

namespace LanguageClient

/-- The offsets of a range as it was sent. An end outside the document counts as offset zero, and
    an end before its start is moved onto the start. -/
def resolveRange (b : Buffer) (range : Json) : Except Failure (Json × Json) := do
  let start ← b.resolveOrZero (← range.require "start")
  let stop ← b.resolveOrZero (← range.require "end")
  return (start, if ← start.less stop then stop else start)

/-- The change that one edit asks for. -/
def resolveEdit (b : Buffer) (edit : Json) : Except Failure SentChange := do
  let (start, stop) ← resolveRange b (← edit.require "range")
  return ⟨start, stop, ← edit.require "newText"⟩

/-- The changes that edits ask for, from the highest offset down. -/
def resolveEdits (b : Buffer) (edits : List Json) : Except Failure (List SentChange) := do
  return SentChange.descending (← edits.mapM (resolveEdit b))

namespace Editor

variable {σ : Type} (ed : Editor σ)

/-- Carries out edits of the document shown as one batch. A batch that the editor refuses is
    reported and counts as not applied. -/
def applyEdits (edits : List Json) (s : σ) : Except Failure Bool × σ :=
  match resolveEdits ⟨ed.text s⟩ edits with
  | .error e => (.error e, s)
  | .ok [] => (.ok false, s)
  | .ok changes =>
    match ed.applyChanges changes s with
    | (.ok (), s) => (.ok true, s)
    | (.error e, s) =>
      if e.isInvalid then
        (.ok false, ed.showMessage "error" ("Failed to apply edits: " ++ e.message)
          (ed.record .error ("edit batch rejected: " ++ e.message) s))
      else (.error e, s)

end Editor

/-- A message to the user. -/
structure Notice where
  level : String
  message : String
  deriving DecidableEq, Repr

namespace WorkspaceEdit

def noEdit : Notice := ⟨"error", "No edit returned from language server"⟩

def noChanges : Notice := ⟨"error", "No changes to apply"⟩

def resourceOperation : Notice :=
  ⟨"warning", "File creation, deletion, or renaming operations are not supported yet"⟩

def foreignDocument (uri : Json) : Notice :=
  ⟨"warning", "Multi-file edits are not supported yet: " ++ uri.shown⟩

/-- What a workspace edit asks of the document shown: the messages to show, in order, and then
    the edits to carry out, or the failure that stopped the reading. -/
structure Plan where
  notices : List Notice
  edits : Except Failure (List Json)

namespace Plan

/-- A plan that starts with the given edits. -/
def addEdits (edits : List Json) (p : Plan) : Plan := { p with edits := p.edits.map (edits ++ ·) }

/-- A plan that starts with a message. -/
def addNotice (n : Notice) (p : Plan) : Plan := { p with notices := n :: p.notices }

def fail (e : Failure) : Plan := ⟨[], .error e⟩

end Plan

/-- What one entry contributes: edits of the document shown, or a message about an entry that is
    passed over. -/
abbrev Entry := Except Failure (Notice ⊕ List Json)

/-- The edits under a key that may be missing or empty. -/
def listed (v : Json) : Except Failure (List Json) := if v.truthy then v.items else .ok []

/-- One entry of the list form. -/
def documentEntry (uri : String) (entry : Json) : Entry := do
  if !(← entry.holds "textDocument") then return .inl resourceOperation
  let target ← (← entry.require "textDocument").require "uri"
  if !target.same (.str uri) then return .inl (foreignDocument target)
  return .inr (← listed (← entry.get "edits"))

/-- One entry of the map form. -/
def mapEntry (uri : String) (entry : String × Json) : Entry := do
  if entry.1 ≠ uri then return .inl (foreignDocument (.str entry.1))
  return .inr (← listed entry.2)

/-- Collects the contributions of entries up to the first failure. -/
def collect : List Entry → Plan
  | [] => ⟨[], .ok []⟩
  | .error e :: _ => Plan.fail e
  | .ok (.inl notice) :: rest => (collect rest).addNotice notice
  | .ok (.inr edits) :: rest => (collect rest).addEdits edits

/-- The entries of the map form. -/
def mapEntries (uri : String) : Json → Except Failure (List Entry)
  | .obj ms => .ok (ms.map (mapEntry uri))
  | v => .error (.noSuchOperation v.kind "items")

/-- Reads a workspace edit. The list form wins over the map form when both are there. -/
def plan (uri : String) (edit : Json) : Plan :=
  if !edit.truthy then ⟨[noEdit], .ok []⟩
  else
    match edit.get "changes", edit.get "documentChanges" with
    | .error e, _ | _, .error e => Plan.fail e
    | .ok changes, .ok documentChanges =>
      if documentChanges.truthy then
        match documentChanges.items with
        | .error e => Plan.fail e
        | .ok entries => collect (entries.map (documentEntry uri))
      else if changes.truthy then
        match mapEntries uri changes with
        | .error e => Plan.fail e
        | .ok entries => collect entries
      else ⟨[noChanges], .ok []⟩

end WorkspaceEdit

namespace Editor

variable {σ : Type} (ed : Editor σ)

/-- Shows messages in order. -/
def showNotices (notices : List Notice) (s : σ) : σ :=
  notices.foldl (fun s n => ed.showMessage n.level n.message s) s

/-- Carries out the part of a workspace edit that is for the document shown. -/
def carryOut (uri : String) (edit : Json) (s : σ) : Except Failure Bool × σ :=
  let plan := WorkspaceEdit.plan uri edit
  let s := ed.showNotices plan.notices s
  match plan.edits with
  | .error e => (.error e, s)
  | .ok [] => (.ok false, s)
  | .ok edits => ed.applyEdits edits s

/-- Carries out the part of a workspace edit that is for the document shown, and records that it
    was begun and how it ended. -/
def applyWorkspaceEdit (uri : String) (edit : Json) (s : σ) : Except Failure Bool × σ :=
  let s := ed.record .debug
    "[start] apply_workspace_edit - apply workspace edit to the active document" s
  match ed.carryOut uri edit s with
  | (.error e, s) => (.error e, s)
  | (.ok applied, s) =>
    (.ok applied, ed.record .debug
      ("[end] apply_workspace_edit -> " ++ (Json.bool applied).shown) s)

end Editor

namespace Buffer

/-- The run of word characters around an index of a line. -/
def wordSpan (line : List Char) (character : Nat) : Nat × Nat :=
  let before := (line.take character).reverse.takeWhile Text.isWord
  let after := (line.drop character).takeWhile Text.isWord
  (character - before.length, character + after.length)

/-- The word that touches a position, as a line and the two ends in it. -/
def wordAt? (b : Buffer) (p : Position) : Option (Int × Nat × Nat) :=
  if p.line < 0 then none
  else
    match b.lines[p.line.toNat]? with
    | none => none
    | some span =>
      let line := b.spanText span
      if p.character < 0 ∨ (line.length : Int) < p.character then none
      else
        let (start, stop) := wordSpan line p.character.toNat
        if start = stop then none else some (p.line, start, stop)

/-- A range on one line, as it is sent. -/
def lineRange (line start stop : Json) : Json :=
  let place (character : Json) : Json := .obj [("line", line), ("character", character)]
  .obj [("start", place start), ("end", place stop)]

/-- The range of the word that touches a character of a line. An end at the character itself is
    named as the character was. -/
def wordRangeIn (b : Buffer) (line character : Json) (n : Int) : Except Failure Json := do
  let text ← b.lineText n
  if (← character.less (.int 0)) || (← (Json.nat text.length).less character) then return .null
  match character.number? with
  | some c =>
    match b.wordAt? ⟨n, c⟩ with
    | none => return .null
    | some (_, start, stop) =>
      let named (k : Nat) : Json := if (k : Int) = c then character else .nat k
      return lineRange line (named start) (named stop)
  | none =>
    if text.isEmpty then return .null
    throw (.wrongKind ("string indices must be integers, not '" ++ character.kind.label ++ "'"))

/-- The range of the word that touches a position as it was sent, or null. -/
def wordRange (b : Buffer) (pos : Json) : Except Failure Json := do
  let line ← pos.require "line"
  if (← line.less (.int 0)) || (← (Json.nat b.lineCount).atMost line) then return .null
  match line.number? with
  | none =>
    throw (.wrongKind ("list indices must be integers or slices, not " ++ line.kind.label))
  | some n => b.wordRangeIn line (← pos.require "character") n

/-- The text of a range as it was sent, or none if one of its ends lies outside the document. -/
def rangeText? (b : Buffer) (range : Json) : Except Failure (Option (List Char)) := do
  let start ← b.resolve? (← range.require "start")
  let stop ← b.resolve? (← range.require "end")
  match start, stop with
  | some start, some stop => return some (b.slice (← start.offset) (← stop.offset))
  | _, _ => return none

end Buffer

end LanguageClient
