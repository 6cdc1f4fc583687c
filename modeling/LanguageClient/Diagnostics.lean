import LanguageClient.Edit

/-!
Diagnostics placed in the text, with the code actions offered for them.
-/

namespace LanguageClient

/-- How a severity is called in the editor; a missing or unknown one is an error. -/
def severityName (severity : Json) : Except Failure String := do
  match (← severity.asKey).equalNumber? with
  | some 2 => return "warning"
  | some 3 | some 4 => return "info"
  | _ => return "error"

namespace OfferedAction

/-- The name of an action: its command's title, or else its own. -/
def title (action : Json) : Except Failure Json := do
  match ← action.get "command" with
  | .obj ms =>
    let own ← (Json.obj ms).get "title"
    if own.truthy then return own
    action.getOr "title" (.str "")
  | _ => action.getOr "title" (.str "")

/-- Offers an action. -/
def ofAction (action : Json) : Except Failure OfferedAction := do
  return ⟨← title action, action⟩

/-- Carries out an action: its edit is applied to the document shown. Commands run on the server's
    side, so there is nothing to execute here. -/
def apply {σ : Type} (offer : OfferedAction) (ed : Editor σ) (uri : String) (s : σ) :
    Except Failure Bool × σ :=
  match offer.action.get "edit", offer.action.get "command" with
  | .error e, _ | _, .error e => (.error e, s)
  | .ok edit, .ok command =>
    let (applied, s) :=
      if edit.truthy then ed.applyWorkspaceEdit uri edit s else (.ok false, s)
    match applied with
    | .error e => (.error e, s)
    | .ok applied =>
      if command.truthy then
        (.ok applied, ed.record .info ("code action command not executed: " ++ command.shown) s)
      else (.ok applied, s)

end OfferedAction

namespace PresentedDiagnostic

/-- Places one diagnostic in a text. `fallback` is the source of a diagnostic that names none. -/
def place (b : Buffer) (fallback : Json) (diagnostic actions : Json) :
    Except Failure PresentedDiagnostic := do
  let (start, stop) ← resolveRange b (← diagnostic.require "range")
  let severity ← severityName (← diagnostic.get "severity")
  let message ← diagnostic.getOr "message" (.str "")
  let source := (← diagnostic.get "source").orElse fallback
  let code ← diagnostic.get "code"
  let actions ← (actions.orElse (.arr [])).items
  return { start, stop, severity, message, source, code, actions := ← actions.mapM OfferedAction.ofAction }

/-- Places diagnostics in a text, each with the actions found for it. -/
def placeAll (b : Buffer) (fallback : Json) (diagnostics actions : List Json) :
    Except Failure (List PresentedDiagnostic) :=
  (diagnostics.zip actions).mapM fun (d, a) => place b fallback d a

end PresentedDiagnostic

/-- What is said when the code actions of a diagnostic could not be had. -/
def actionsFailed (diagnostic : Json) (e : Failure) : Except Failure String := do
  let message ← diagnostic.getOr "message" (.str "")
  return "code actions failed for " ++ String.ofList message.display ++ ": " ++ e.message

end LanguageClient
