import LanguageClient.Completion.Token
import LanguageClient.Completion.Ranking
import LanguageClient.Content
import LanguageClient.Edit

/-!
Candidates as they are handed to the editor: what is shown of each, what accepting one does to the
text, and the documentation shown beside it.
-/

namespace LanguageClient

/-- The names of the kinds of candidates, by number from one. -/
def completionKinds : List String :=
  ["text", "method", "function", "constructor", "field", "variable", "class", "interface", "module",
    "property", "unit", "value", "enum", "keyword", "snippet", "color", "file", "reference",
    "folder", "enummember", "constant", "struct", "event", "operator", "typeparameter"]

/-- The name of a kind of candidates, null if it has none. -/
def completionKind (kind : Json) : Except Failure Json :=
  if !kind.truthy then .ok .null
  else do
    match (← kind.asKey).equalNumber? with
    | some n => return if 0 < n then Json.ofOption (completionKinds[n.toNat - 1]?.map .str) else .null
    | none => return .null

/-- One candidate as it is handed to the editor. -/
structure Completion where
  item : Json
  label : Json
  detail : Json
  type : Json
  allowHtml : Bool

namespace Completion

/-- Prepares a candidate for the editor. -/
def ofItem (allowHtml : Bool) (item : Json) : Except Failure Completion := do
  let kind ← item.get "kind"
  let details := (← item.get "labelDetails").orElse (.obj [])
  let label ← item.require "label"
  let detail ← details.get "detail"
  let detail ← if detail.truthy then pure detail else item.get "detail"
  return { item, label, detail, type := ← completionKind kind, allowHtml }

/-- The label as it is shown inside a log line. -/
def quotedLabel (c : Completion) : String := String.ofList c.label.display

/-- A plain edit, as opposed to one with separate insert and replace ranges. -/
def isPlainEdit (edit : Json) : Bool := (edit.member? "range").isSome

/-- The change that inserts the candidate: its own edit, or else its text in place of the
    token. -/
def mainChange (c : Completion) (b : Buffer) (start stop : Json) :
    Except Failure SentChange := do
  let edit ← c.item.get "textEdit"
  if edit.truthy && isPlainEdit edit then resolveEdit b edit
  else return ⟨start, stop, (← c.item.get "insertText").orElse c.label⟩

/-- The changes that come with the candidate, such as imports. -/
def extraChanges (c : Completion) (b : Buffer) : Except Failure (List SentChange) := do
  let edits := (← c.item.get "additionalTextEdits").orElse (.arr [])
  resolveEdits b (← edits.items)

variable {σ : Type}

/-- Puts the cursor just after the inserted text. -/
def placeCursor (ed : Editor σ) (main : SentChange) (extra : List SentChange) (s : σ) :
    Except Failure Bool × σ :=
  match extra.mapM SentChange.typed, main.typed with
  | .error e, _ | _, .error e => (.error e, s)
  | .ok extra, .ok main =>
    let cursor : Json := .int (shiftOffset main.start extra + main.insert.length)
    (.ok true, ed.select cursor cursor s)

/-- Inserts the candidate in place of the text from `start` up to `stop`, unless it brings an edit
    of its own. Everything goes into one batch; a batch that the editor refuses is reported. -/
def apply (c : Completion) (ed : Editor σ) (start stop : Json) (s : σ) : Except Failure Bool × σ :=
  let b : Buffer := ⟨ed.text s⟩
  match c.mainChange b start stop with
  | .error e => (.error e, s)
  | .ok main =>
    match c.extraChanges b with
    | .error e => (.error e, s)
    | .ok extra =>
      match ed.applyChanges (SentChange.descending (main :: extra)) s with
      | (.ok (), s) => placeCursor ed main extra s
      | (.error e, s) =>
        if e.isInvalid then
          (.ok false, ed.showMessage "error" ("Failed to apply completion: " ++ e.message)
            (ed.record .error
              ("completion apply failed for " ++ c.quotedLabel ++ ": " ++ e.message) s))
        else (.error e, s)

/-- The documentation that comes with a candidate itself. -/
def documentation (c : Completion) : Except Failure Json := c.item.get "documentation"

/-- Documentation ready to be shown, null if there is nothing worth showing. -/
def present (c : Completion) (documentation : Json) : Except Failure Json :=
  if isEmptyDocumentation documentation then .ok .null
  else formatContents c.allowHtml documentation

/-- What is said of a candidate that could not be resolved. -/
def unresolved (c : Completion) (e : Failure) : String :=
  "failed to resolve completion item " ++ c.quotedLabel ++ ": " ++ e.message

/-- The documentation after the server's answer to a resolve request. A failed request leaves what
    came with the candidate and is worth a warning. -/
def resolvedDocumentation (c : Completion) (answer : Except Failure Json) :
    Except Failure Json × Option String :=
  match c.documentation with
  | .error e => (.error e, none)
  | .ok own =>
    match (do return ((← (← answer).orElse (.obj []) |>.get "documentation").orElse own) :
        Except Failure Json) with
    | .ok content => (.ok content, none)
    | .error e => (.ok own, some (c.unresolved e))

end Completion

/-- The candidates for a cursor: where the token starts, and the options in order. -/
structure CompletionResult where
  start : Json
  options : List Completion

namespace CompletionResult

/-- Finds the token, and filters, ranks and prepares the candidates. The offset has to be a whole
    number only where a token is looked for. -/
def build (items : List Json) (text : List Char) (offset : Json) (language : String)
    (allowHtml : Bool) : Except Failure CompletionResult := do
  let token ← match ← tokenPattern? items with
    | some pattern => pure (tokenBefore? text (← offset.offset) pattern)
    | none => pure none
  let start := (token.map (Json.int ·.start)).getD offset
  let ranked ← rankItems items ((token.map (·.text)).getD []) language
  return { start, options := ← ranked.mapM (Completion.ofItem allowHtml) }

end CompletionResult

end LanguageClient
