import LanguageClient.Buffer
import LanguageClient.Change

/-!
One document as the server is told of it. The document's newest text is always known; the server's
copy follows when changes are sent. A document in incremental mode also remembers the text that the
server will have (`shadow`) and the changes that lead there from what was sent last (`unsent`); when
these cannot be kept up, the next message carries the whole text.

    edit ──▶ text, shadow, unsent ──flush──▶ didChange (version + 1)
-/

namespace LanguageClient

/-- One change of a document's content as the server is told of it: of a range, or of all of it. -/
structure ContentChange where
  range : Option (Position × Position)
  text : List Char
  deriving DecidableEq, Repr

namespace ContentChange

def toJson (c : ContentChange) : Json :=
  match c.range with
  | none => .obj [("text", .text c.text)]
  | some (start, stop) =>
    .obj [("range", .obj [("start", start.toJson), ("end", stop.toJson)]), ("text", .text c.text)]

/-- The change as a range of the given text. -/
def ofChange (b : Buffer) (c : Change) : Except Failure ContentChange := do
  return ⟨some (← b.position c.start, ← b.position c.stop), c.insert⟩

end ContentChange

/-- A document and how far the server has been told of it. -/
structure Document where
  uri : String
  language : String
  incremental : Bool
  text : List Char
  version : Nat := 0
  opened : Bool := false
  closed : Bool := false
  shadow : Option Buffer := none
  unsent : Option (List ContentChange) := none

namespace Document

/-- Starts afresh from a text that the server is being sent. -/
def resync (sent : List Char) (d : Document) : Document :=
  if d.incremental then { d with shadow := some ⟨sent⟩, unsent := some [] }
  else { d with shadow := none, unsent := none }

/-- The next message will carry the whole text. -/
def forget (d : Document) : Document := { d with unsent := none }

/-- Notes a batch of changes that leads from the shadow to the new text. Answers false if it does
    not lead there. -/
def noteBatch (b : Buffer) (events : List ContentChange) (changes : List Change) (d : Document) :
    Bool × Document :=
  match applyChanges b.text changes with
  | .error _ => (false, d.forget)
  | .ok after =>
    if after ≠ d.text then (false, d.forget)
    else
      match (descending changes).mapM (ContentChange.ofChange b) with
      | .error _ => (false, d.forget)
      | .ok more => (true, { d with shadow := some ⟨after⟩, unsent := some (events ++ more) })

/-- Notes the newest text, and the batch that made it if it is known. Answers false if a batch was
    given and does not fit. -/
def edited (text : List Char) (changes : Option (List Change)) (d : Document) : Bool × Document :=
  let d := { d with text }
  match changes, d.incremental, d.shadow, d.unsent with
  | some changes, true, some b, some events => d.noteBatch b events changes
  | _, _, _, _ => (true, d.forget)

/-- Notes a text that was given without saying how it came about. -/
def replaced (text : List Char) (d : Document) : Document :=
  if text ≠ d.text then { d with text }.forget else d

/-- What the server is sent to bring its copy up to date. -/
def contentChanges (serverIncremental : Bool) (d : Document) : List ContentChange :=
  match d.unsent with
  | some (c :: cs) => if serverIncremental && d.incremental then c :: cs else [⟨none, d.text⟩]
  | _ => [⟨none, d.text⟩]

/-- Takes the changes to be sent out of the document, which then counts them as sent. -/
def beginFlush (serverIncremental : Bool) (d : Document) : List ContentChange × Document :=
  (d.contentChanges serverIncremental, { d with version := d.version + 1 }.resync d.text)

/-- The message that opens the document on the server. -/
def openParams (d : Document) : Json :=
  .obj [("textDocument", .obj [("uri", .str d.uri), ("languageId", .str d.language),
    ("version", .nat d.version), ("text", .text d.text)])]

/-- The message that tells the server of changes. -/
def changeParams (d : Document) (changes : List ContentChange) : Json :=
  .obj [("textDocument", .obj [("uri", .str d.uri), ("version", .nat d.version)]),
    ("contentChanges", .arr (changes.map ContentChange.toJson))]

/-- A position in this document, as requests name it. -/
def positionParams (d : Document) (pos : Json) : Members :=
  [("textDocument", .obj [("uri", .str d.uri)]), ("position", pos)]

end Document

end LanguageClient
