import LanguageClient.Engine.Queries

/-!
Published diagnostics. The code actions of all diagnostics are asked for at once; when they are all
there, the diagnostics are placed in the text as it then is and shown together. A diagnostic whose
actions could not be had is shown without any.
-/

namespace LanguageClient.Engine

/-- Code actions for a range. -/
def codeActions (doc : Nat) (range codes : Json) (e : Engine) : Run :=
  e.ifAvailable doc .codeActions "codeActionProvider" fun s =>
    let code : Except Failure Members :=
      if codes.truthy then do
        match ← codes.item (.int 0) with
        | .null => return []
        | code => return [("code", code)]
      else .ok []
    match code with
    | .error f => e.fail f
    | .ok code =>
      let diagnostic : Members :=
        [("range", range), ("source", .str s.document.language), ("message", .str "")] ++ code
      e.request (.str "textDocument/codeAction") (.obj [
        ("textDocument", .obj [("uri", .str s.document.uri)]), ("range", range),
        ("context", .obj [("diagnostics", .arr [.obj diagnostic])])]) 0

/-- A prepared answer is given: the text may be replaced first. -/
def givePrepared (doc : Nat) (entry : PreparedAnswer) : Outcome → Engine → Run
  | .value _, e =>
    let e := match entry.newText with
      | some text => (e.replaceText doc (.text text)).2
      | none => e
    e.finish (.ofExcept (entry.answer.map .data))
  | o, e => e.finish o

/-- The next prepared answer. -/
def fetchPrepared (doc : Nat) (range codes : Json) (e : Engine) : Run :=
  let entry := (e.preparedActions[e.actionCalls.length]?).getD {}
  let e := { e with actionCalls := e.actionCalls ++ [(range, codes)] }
  if entry.delay ≤ 0 then givePrepared doc entry (.value .nothing) e
  else andThen (e.sleep entry.delay) (.preparedActions doc entry) (givePrepared doc entry)

/-- The code actions of a diagnostic are there, or could not be had. -/
def actionsFetched (diagnostic : Json) : Outcome → Engine → Run
  | .failure f, e =>
    match actionsFailed diagnostic f with
    | .ok warning => (e.log .warning warning).answer (.data .null)
    | .error f => e.fail f
  | .value v, e => e.answer (.data v.json)
  | .cancelled, e => e.finish .cancelled

/-- Fetches the code actions of one diagnostic. -/
def fetchActions (doc : Nat) (source : ActionSource) (diagnostic : Json) (e : Engine) : Run :=
  let asked : Except Failure (Json × Json) := do
    return (← diagnostic.require "range", .arr [← diagnostic.get "code"])
  let run : Run := match asked with
    | .error f => e.fail f
    | .ok (range, codes) =>
      match source with
      | .nowhere => e.answer .nothing
      | .server => e.codeActions doc range codes
      | .prepared => e.fetchPrepared doc range codes
  andThen run (.actionsFetched diagnostic) (actionsFetched diagnostic)

/-- Are newly placed diagnostics no longer wanted? -/
def isSuperseded (doc : Nat) (superseding : Superseding) (e : Engine) : Bool × Engine :=
  match superseding with
  | .never => (false, e)
  | .said b => (b, e)
  | .after generation => e.isStale doc .diagnostics generation

/-- Shows diagnostics. -/
def showDiagnostics (doc : Nat) (superseding : Superseding) (presented : List PresentedDiagnostic)
    (e : Engine) : Engine :=
  (e.onView doc (·.setDiagnostics presented)).note (.shown doc superseding presented)

/-- Places diagnostics in the text and shows them, unless they are no longer wanted. -/
def placeDiagnostics (doc : Nat) (diagnostics actions : List Json) (fallback : Json)
    (superseding : Superseding) (e : Engine) : Run :=
  let (superseded, e) := e.isSuperseded doc superseding
  if superseded then e.answer .nothing
  else
    match PresentedDiagnostic.placeAll ⟨e.viewText doc⟩ fallback diagnostics actions with
    | .error f => e.fail f
    | .ok presented =>
      (e.showDiagnostics doc superseding presented).answer (.diagnostics presented)

/-- What a task has answered, null if it has not. -/
def answered (e : Engine) (r : Ref) : Json :=
  match e.outcome? r with
  | some (.value v) => v.json
  | _ => .null

/-- The code actions of all diagnostics are there. -/
def actionsGathered (doc : Nat) (diagnostics : List Json) (fetches : List Ref) (fallback : Json)
    (superseding : Superseding) : Outcome → Engine → Run
  | .value _, e =>
    e.placeDiagnostics doc diagnostics (fetches.map (answered e)) fallback superseding
  | o, e => e.finish o

/-- Starts a task for each of some operations. -/
def spawnAll : List Operation → Engine → List Ref × Engine
  | [], e => ([], e)
  | op :: ops, e =>
    let (r, e) := e.spawn op
    let (rs, e) := spawnAll ops e
    (r :: rs, e)

/-- Fetches the code actions of diagnostics together, then places and shows the diagnostics. -/
def present (doc : Nat) (diagnostics : List Json) (source : ActionSource) (fallback : Json)
    (superseding : Superseding) (e : Engine) : Run :=
  match source, diagnostics with
  | .nowhere, _ | _, [] =>
    e.placeDiagnostics doc diagnostics (diagnostics.map fun _ => .null) fallback superseding
  | _, _ =>
    let (fetches, e) := spawnAll (diagnostics.map (.fetchActions doc source ·)) e
    let (r, e) := e.gather fetches false
    (e, .wait r [.actionsGathered doc diagnostics fetches fallback superseding])

/-- The diagnostics of a publication for the document, none if it is for another one. -/
def published? (uri : String) (params : Json) : Except Failure Bool := do
  if !params.truthy then return false
  return (← params.get "uri").same (.str uri)

/-- Shows the diagnostics published for the document. -/
def processDiagnostics (doc : Nat) (params : Json) (e : Engine) : Run :=
  e.withSession doc fun s =>
    match published? s.document.uri params with
    | .error f => e.fail f
    | .ok false => e.answer .nothing
    | .ok true =>
      let (generation, e) := e.beginGeneration doc .diagnostics
      if !s.features.on .diagnostics then
        (e.showDiagnostics doc (.after generation) []).answer (.diagnostics [])
      else
        let diagnostics : Except Failure (List Json) := do
          ((← params.get "diagnostics").orElse (.arr [])).items
        match diagnostics with
        | .error f => e.fail f
        | .ok diagnostics =>
          (e.note (.published doc generation diagnostics)).present doc diagnostics .server
            (.str s.document.language) (.after generation)

end LanguageClient.Engine
