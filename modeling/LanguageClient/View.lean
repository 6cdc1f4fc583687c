import LanguageClient.Buffer
import LanguageClient.SentChange
import LanguageClient.Log

/-!
The editor's side of the engine. The engine reads the text through an editor and hands back
batches of changes, selections, diagnostics and messages; it draws nothing itself.

`Editor σ` lists what the engine asks of an editor whose state is `σ`. `View` is an editor that
keeps everything in memory, and `Desk` is a view with a journal beside it.
-/

namespace LanguageClient

/-- A code action offered with a diagnostic: the name shown and the action as it was sent. -/
structure OfferedAction where
  name : Json
  action : Json

/-- A diagnostic placed in the text, ready to be drawn. -/
structure PresentedDiagnostic where
  start : Json
  stop : Json
  severity : String
  message : Json
  source : Json
  code : Json
  actions : List OfferedAction

/-- What the engine asks of an editor. A batch of changes is carried out whole or refused with the
    text untouched; what it inserts may turn out to be no text at all. -/
structure Editor (σ : Type) where
  text : σ → List Char
  applyChanges : List SentChange → σ → Except Failure Unit × σ
  select : Json → Json → σ → σ
  showMessage : String → String → σ → σ
  record : Level → String → σ → σ

/-- An editor in memory. While `rejection` is set, every batch is refused with that message. -/
structure View where
  text : List Char := []
  selection : Json × Json := (.int 0, .int 0)
  diagnostics : List PresentedDiagnostic := []
  messages : List (String × String) := []
  rejection : Option String := none

namespace View

/-- The changes that a batch carries out on this view and the text after them. -/
def prepare (v : View) (changes : List SentChange) : Except Failure (List Change × List Char) := do
  match v.rejection with
  | some message => throw (.invalid message)
  | none => pure ()
  let typed ← SentChange.checked v.text.length changes
  return (typed, ← LanguageClient.applyChanges v.text typed)

/-- The batch that replaces the whole text. -/
def replacement (v : View) (text : Json) : List SentChange := [⟨.int 0, .nat v.text.length, text⟩]

def select (anchor head : Json) (v : View) : View := { v with selection := (anchor, head) }

def setDiagnostics (ds : List PresentedDiagnostic) (v : View) : View := { v with diagnostics := ds }

def addMessage (level message : String) (v : View) : View :=
  { v with messages := v.messages ++ [(level, message)] }

end View

/-- The weight under which a message to the user is recorded. -/
def messageLevel (level : String) : Level := if level = "error" then .error else .warning

/-- A view on its own, with the batches that were carried out on it and a journal. -/
structure Desk where
  view : View := {}
  batches : List (List Char × List Change) := []
  journal : Journal := []

namespace Desk

/-- Carries out a batch, or leaves the desk as it is. -/
def applyChanges (changes : List SentChange) (d : Desk) : Except Failure Unit × Desk :=
  match d.view.prepare changes with
  | .error e => (.error e, d)
  | .ok (typed, text) =>
    (.ok (), { d with view := { d.view with text }, batches := d.batches ++ [(text, typed)] })

/-- Replaces the whole text in one batch. -/
def replaceText (text : Json) (d : Desk) : Except Failure Unit × Desk :=
  d.applyChanges (d.view.replacement text)

def showMessage (level message : String) (d : Desk) : Desk :=
  { d with
    view := d.view.addMessage level message
    journal := d.journal.write (messageLevel level) message }

def record (level : Level) (message : String) (d : Desk) : Desk :=
  { d with journal := d.journal.write level message }

/-- A desk seen as an editor. -/
def editor : Editor Desk where
  text d := d.view.text
  applyChanges := applyChanges
  select anchor head d := { d with view := d.view.select anchor head }
  showMessage := showMessage
  record := record

end Desk

end LanguageClient
