import LanguageClient.Json.Access
import LanguageClient.Markdown.Html
import LanguageClient.Text.Blank

/-!
Documentation as servers send it: a text, a text with a kind (plain or Markdown), a code sample with
its language, or a list of these. It is flattened to the text to show. Markdown becomes HTML only
where HTML is allowed; elsewhere its source is shown.
-/

namespace LanguageClient

/-- A text with a kind. -/
def isMarkup (contents : Json) : Bool := (contents.member? "kind").isSome

/-- A Markdown text as HTML. -/
def renderMarkdown : Json → Except Failure Json
  | .str s => .ok (.str (Markdown.toHtml s))
  | v =>
    .error (.wrongKind ("Input data should be a string, not <class '" ++ v.kind.label ++ "'>"))

/-- A code sample as a Markdown text. -/
def fenced (language value : Json) : Json :=
  .str ("```" ++ language.shown ++ "\n" ++ value.shown ++ "\n```")

/-- The text of an object, by its members. -/
def formatObject (allowHtml : Bool) (ms : Members) : Except Failure Json :=
  match Members.get? "kind" ms, Members.get? "value" ms with
  | some kind, value =>
    let value := value.getD (.str "")
    if kind.same (.str "markdown") && allowHtml then renderMarkdown value else .ok value
  | none, some value =>
    if allowHtml then renderMarkdown (fenced ((Members.get? "language" ms).getD (.str "")) value)
    else .ok value
  | none, none => .ok (.str "")

mutual

/-- The text to show. -/
def formatContents (allowHtml : Bool) : Json → Except Failure Json
  | .arr xs => (formatAll allowHtml xs).map .str
  | .str s => .ok (.str s)
  | .obj ms => formatObject allowHtml ms
  | _ => .ok (.str "")

/-- The texts of a list, each followed by an empty line. -/
def formatAll (allowHtml : Bool) : List Json → Except Failure String
  | [] => .ok ""
  | x :: xs => do
    let text ← formatContents allowHtml x
    return text.shown ++ "\n\n" ++ (← formatAll allowHtml xs)

end

/-- White space and back quotes only, such as an empty code fence. -/
def isEmptyText (s : List Char) : Bool := s.all (fun c => Text.isBlank c || c == '\x60')

mutual

/-- Is there nothing worth showing? -/
def isEmptyDocumentation : Json → Bool
  | .null => true
  | .arr xs => allEmptyDocumentation xs
  | .str s => isEmptyText s.toList
  | .obj ms =>
    match Members.get? "value" ms with
    | some (.str s) => isEmptyText s.toList
    | _ => false
  | _ => false

def allEmptyDocumentation : List Json → Bool
  | [] => true
  | x :: xs => isEmptyDocumentation x && allEmptyDocumentation xs

end

end LanguageClient
