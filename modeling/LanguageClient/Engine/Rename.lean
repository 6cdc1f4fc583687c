import LanguageClient.Engine.Queries

/-!
Renaming: the server is first asked what it would rename, then for the edits. The user asked for it,
so whatever stands in the way is shown.
-/

namespace LanguageClient.Engine

def notReady : String := "Language server not ready"

def renameUnsupported : String := "Rename not supported by language server"

def cannotRename : String := "Cannot rename this symbol"

def emptyName : String := "New name cannot be empty"

/-- Can the user rename? If not, the reason is shown. -/
def renameAvailable (doc : Nat) (s : Session) (e : Engine) : Except Failure Bool × Engine :=
  if !s.features.on .rename then (.ok false, e)
  else if !e.client.ready then (.ok false, e.showMessage doc "error" notReady)
  else
    match e.client.capability "renameProvider" with
    | .error f => (.error f, e)
    | .ok provider =>
      if provider.truthy then (.ok true, e)
      else (.ok false, e.showMessage doc "error" renameUnsupported)

/-- Does something if the user can rename, else gives the answer for that case. -/
def ifRenamable (doc : Nat) (otherwise : Value) (e : Engine) (f : Session → Run) : Run :=
  e.withSession doc fun s =>
    match e.renameAvailable doc s with
    | (.error x, e) => e.fail x
    | (.ok false, e) => e.answer otherwise
    | (.ok true, _) => f s

/-- What the server would rename: its own answer, or the word at the cursor if it leaves the choice
    to the client. -/
def renameRange (b : Buffer) (pos result : Json) : Except Failure Json := do
  if result.truthy then
    if (← result.get "defaultBehavior").truthy then b.wordRange pos else return result
  else return result

/-- The target of a renaming: an answer is a range, or holds one. None if it lies outside the
    text. -/
def renameTarget? (b : Buffer) (result : Json) : Except Failure (Option RenameTarget) := do
  let range ← if ← result.holds "range" then result.require "range" else pure result
  let start ← b.resolve? (← range.require "start")
  let stop ← b.resolve? (← range.require "end")
  match start, stop with
  | some start, some stop =>
    if ← stop.less start then return none
    let own ← result.get "placeholder"
    let placeholder ←
      if own.truthy then pure own else pure (Json.ofOption ((← b.rangeText? range).map .text))
    return some ⟨start, stop, placeholder, range⟩
  | _, _ => return none

/-- Ends the preparation of a renaming. -/
def concludeRename (doc : Nat) (b : Buffer) (pos result : Json) (e : Engine) : Run :=
  match renameRange b pos result with
  | .error f => e.fail f
  | .ok result =>
    if !result.truthy then (e.showMessage doc "error" cannotRename).answer .nothing
    else
      match renameTarget? b result with
      | .error f => e.fail f
      | .ok none => (e.showMessage doc "error" cannotRename).answer .nothing
      | .ok (some target) => e.answer (.target target)

/-- The server has said what it would rename. If it refused, the word at the cursor is taken. -/
def renamePrepared (doc : Nat) (pos : Json) (b : Buffer) (o : Outcome) (e : Engine) : Run :=
  match o with
  | .value v => e.concludeRename doc b pos v.json
  | .failure f =>
    if f.isExchange then
      (e.log .debug
        ("prepareRename failed, using the word at the cursor: " ++ f.message)).concludeRename doc b
        pos (.obj [("defaultBehavior", .bool true)])
    else e.fail f
  | .cancelled => e.finish .cancelled

/-- Asks whether the symbol at a position can be renamed. -/
def prepareRename (doc : Nat) (pos : Json) (e : Engine) : Run :=
  e.ifRenamable doc .nothing fun s =>
    let b : Buffer := ⟨s.view.text⟩
    andThen (e.request (.str "textDocument/prepareRename") (.obj (s.document.positionParams pos)) 0)
      (.renamePrepared doc pos b) (renamePrepared doc pos b)

/-- Why a renaming failed, as the user is told. -/
def renameReason : Failure → String
  | .refused _ _ message _ => message.shown
  | f => f.message

/-- The server has sent the edits of a renaming, or has failed to. -/
def renameAnswered (doc : Nat) (o : Outcome) (e : Engine) : Run :=
  match o with
  | .value v =>
    e.withSession doc fun s =>
      let (applied, e) := (editor doc).applyWorkspaceEdit s.document.uri v.json e
      e.finish (.ofExcept (applied.map .flag))
  | .failure f =>
    if f.isExchange then
      (e.showMessage doc "error" ("Rename failed: " ++ renameReason f)).answer (.flag false)
    else e.fail f
  | .cancelled => e.finish .cancelled

/-- Renames the symbol at a position and carries out the edits that the server sends. -/
def rename (doc : Nat) (pos newName current : Json) (e : Engine) : Run :=
  e.ifRenamable doc (.flag false) fun s =>
    match newName.chars "strip" with
    | .error f => e.fail f
    | .ok name =>
      let name := Text.trim name
      if name.isEmpty then (e.showMessage doc "error" emptyName).answer (.flag false)
      else if current.same (.text name) then e.answer (.flag false)
      else
        let params := s.document.positionParams pos ++ [("newName", .text name)]
        andThen (e.request (.str "textDocument/rename") (.obj params) 0) (.renameAnswered doc)
          (renameAnswered doc)

/-- The target of a renaming is known, or there is none. -/
def renameTargeted (doc : Nat) (pos newName : Json) : Outcome → Engine → Run
  | .value (.target t), e => e.rename doc pos newName t.placeholder
  | .value _, e => e.answer (.flag false)
  | o, e => e.finish o

/-- Asks what can be renamed at a position, then renames it. -/
def requestRename (doc : Nat) (pos newName : Json) (e : Engine) : Run :=
  andThen (e.prepareRename doc pos) (.renameTargeted doc pos newName)
    (renameTargeted doc pos newName)

end LanguageClient.Engine
