import LanguageClient.Settings.Basic

/-!
Switches for the language features of a document.
-/

namespace LanguageClient

/-- The features that can be switched off. -/
inductive Feature where
  | diagnostics | hover | completion | definition | rename | codeActions | signatureHelp
  deriving DecidableEq, Repr

namespace Feature

def all : List Feature :=
  [.diagnostics, .hover, .completion, .definition, .rename, .codeActions, .signatureHelp]

/-- The name of a feature in settings and log lines. -/
def name : Feature → String
  | .diagnostics => "diagnostics"
  | .hover => "hover"
  | .completion => "completion"
  | .definition => "definition"
  | .rename => "rename"
  | .codeActions => "code_actions"
  | .signatureHelp => "signature_help"

end Feature

/-- The switches of the features. Any value that counts as present switches a feature on. -/
structure Features where
  switch : Feature → Json := fun _ => .bool true

namespace Features

/-- Is a feature on? -/
def on (f : Features) (feature : Feature) : Bool := (f.switch feature).truthy

/-- Switches a feature. -/
def set (feature : Feature) (value : Json) (f : Features) : Features where
  switch x := if x = feature then value else f.switch x

/-- Switches features by name. A name that is none of theirs is refused. -/
def override (entries : Members) (f : Features) : Except Failure Features :=
  entries.foldlM (fun f (key, value) =>
    match Feature.all.find? (fun x => x.name = key) with
    | some x => .ok (f.set x value)
    | none =>
      .error (.wrongKind ("got an unexpected keyword argument " ++ Text.quote key))) f

/-- The switches of the settings; all features are on by default. -/
def ofSettings (s : Settings) : Except Failure Features :=
  Feature.all.foldlM (fun f x => do
    return f.set x (.bool ((← s.bool? "features" x.name).getD true))) {}

end Features

end LanguageClient
