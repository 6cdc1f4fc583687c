import LanguageClient.Json.Access

/-!
What the client tells the server about itself when the connection is opened.
-/

namespace LanguageClient

/-- An object. -/
def object (members : Members) : Json := .obj members

/-- A list of texts. -/
def texts (ss : List String) : Json := .arr (ss.map .str)

/-- Documentation is understood as Markdown and as plain text. -/
def documentFormats : Json := texts ["markdown", "plaintext"]

/-- A jump to a place, which may be sent as a link. -/
def jumpSupport : Json := object [("dynamicRegistration", .bool true), ("linkSupport", .bool true)]

/-- The capabilities that this client has unless its user says otherwise. -/
def defaultCapabilities : Json :=
  object [
    ("textDocument", object [
      ("hover", object [("dynamicRegistration", .bool true), ("contentFormat", documentFormats)]),
      ("moniker", object []),
      ("synchronization", object [
        ("dynamicRegistration", .bool true),
        ("willSave", .bool false),
        ("didSave", .bool false),
        ("willSaveWaitUntil", .bool false)]),
      ("codeAction", object [
        ("dynamicRegistration", .bool true),
        ("codeActionLiteralSupport", object [
          ("codeActionKind", object [
            ("valueSet", texts ["", "quickfix", "refactor", "refactor.extract", "refactor.inline",
              "refactor.rewrite", "source", "source.organizeImports"])])]),
        ("resolveSupport", object [("properties", texts ["edit"])])]),
      ("completion", object [
        ("dynamicRegistration", .bool true),
        ("completionItem", object [
          ("snippetSupport", .bool false),
          ("commitCharactersSupport", .bool true),
          ("documentationFormat", documentFormats),
          ("deprecatedSupport", .bool false),
          ("preselectSupport", .bool false)]),
        ("contextSupport", .bool false)]),
      ("signatureHelp", object [
        ("dynamicRegistration", .bool true),
        ("signatureInformation", object [("documentationFormat", documentFormats)])]),
      ("declaration", jumpSupport),
      ("definition", jumpSupport),
      ("typeDefinition", jumpSupport),
      ("implementation", jumpSupport),
      ("rename", object [("dynamicRegistration", .bool true), ("prepareSupport", .bool true)])]),
    ("workspace", object [
      ("didChangeConfiguration", object [("dynamicRegistration", .bool true)])])]

/-- Where the capabilities come from. -/
inductive CapabilityChoice where
  | standard
  /-- Given in place of the standard ones. -/
  | replaced (capabilities : Json)
  /-- The standard ones with the member at a path set. All but the last key must be there. -/
  | adjusted (path : List String) (value : Json)

/-- Sets the member at a path. -/
def setAt : List String → Json → Json → Except Failure Json
  | [], value, _ => .ok value
  | [key], value, .obj ms => .ok (.obj (Members.put key value ms))
  | key :: more, value, owner => do
    let inner ← owner.require key
    let inner ← setAt more value inner
    match owner with
    | .obj ms => return .obj (Members.put key inner ms)
    | v => throw (.wrongKind ("'" ++ v.kind.label ++ "' object does not support item assignment"))

/-- The capabilities to send. -/
def CapabilityChoice.resolve : CapabilityChoice → Except Failure Json
  | .standard => .ok defaultCapabilities
  | .replaced capabilities => .ok capabilities
  | .adjusted path value => setAt path value defaultCapabilities

end LanguageClient
