import LanguageClient.Engine.Sync

/-!
Questions about a place in a document: hover, completion, signature help and definition. Unsent
edits are sent first, so that the server sees the text the user sees. An answer is dropped if the
same question has been asked again meanwhile.
-/

namespace LanguageClient.Engine

/-- Begins a new generation of a question. -/
def beginGeneration (doc : Nat) (feature : Feature) (e : Engine) : Nat × Engine :=
  let generation := ((e.session? doc).map (·.generation feature)).getD 0 + 1
  let e := e.onSession doc fun s =>
    { s with generation := fun f => if f = feature then generation else s.generation f }
  (generation, e.note (.posed doc feature generation))

/-- Has the question been asked again? If so, that is recorded. -/
def isStale (doc : Nat) (feature : Feature) (generation : Nat) (e : Engine) : Bool × Engine :=
  match e.session? doc with
  | none => (false, e)
  | some s =>
    if s.staleGuard && s.generation feature ≠ generation then
      let e := e.log .debug ("discarding superseded " ++ feature.name ++ " response")
      (true, e.note (.dropped doc feature generation))
    else (false, e)

/-- Does something if a feature is available, else answers with nothing. -/
def ifAvailable (doc : Nat) (feature : Feature) (provider : String) (e : Engine)
    (f : Session → Run) : Run :=
  e.withSession doc fun s =>
    match e.available feature provider s with
    | .error x => e.fail x
    | .ok false => e.answer .nothing
    | .ok true => f s

/-- Goes on with the server's answer. A failed exchange is recorded and answered with nothing. -/
def withResult (what : String) (o : Outcome) (e : Engine) (f : Json → Run) : Run :=
  match o with
  | .value v => f v.json
  | .failure x =>
    if x.isExchange then (e.log .warning (what ++ " failed: " ++ x.message)).answer .nothing
    else e.fail x
  | .cancelled => e.finish .cancelled

/-- Ends with what a computation gives; none answers with nothing. -/
def conclude {α : Type} (wrap : α → Value) (e : Engine) : Except Failure (Option α) → Run
  | .ok (some a) => e.answer (wrap a)
  | .ok none => e.answer .nothing
  | .error f => e.fail f

/-- Sends a request that asks a question. -/
def requestFor (doc : Nat) (feature : Feature) (generation : Nat) (method : String) (params : Json)
    (e : Engine) : Run :=
  let e := if e.client.closed then e else e.note (.asked doc feature generation)
  e.request (.str method) params 0

/-- A question ends with what has come of it. -/
def endQuestion (doc : Nat) (feature : Feature) (generation : Nat) : Run → Run
  | (e, .done o) => (e.note (.answered doc feature generation o)).finish o
  | run => run

/-- Asks a question once the edits have been sent. -/
def ask (doc : Nat) (feature : Feature) (generation : Nat) (method : String)
    (params : Document → Members) (frame : Frame) (next : Outcome → Engine → Run) :
    Outcome → Engine → Run
  | .value _, e =>
    e.withSession doc fun s =>
      andThen (e.requestFor doc feature generation method (.obj (params s.document))) frame next
  | o, e => endQuestion doc feature generation (e.finish o)

/-- The answer to a question is there, or the exchange has failed. An answer in vain, and one that is no
    longer wanted, comes to nothing. -/
def questionAnswered {α : Type} (what : String) (doc : Nat) (feature : Feature) (generation : Nat)
    (vain : Json → Bool) (wrap : α → Value)
    (build : Session → Json → Engine → Except Failure (Option α)) (o : Outcome) (e : Engine) : Run :=
  endQuestion doc feature generation (withResult what o e fun result =>
    let (stale, e) := e.isStale doc feature generation
    if stale || vain result then e.answer .nothing
    else e.withSession doc fun s => e.conclude wrap (build s result e))

/-- Begins a question if its feature is available. Edits that wait to be sent are sent first. -/
def question (doc : Nat) (feature : Feature) (provider : String) (frame : Nat → Frame)
    (next : Nat → Outcome → Engine → Run) (e : Engine) : Run :=
  e.ifAvailable doc feature provider fun _ =>
    let (generation, e) := e.beginGeneration doc feature
    andThen (e.flushPending doc) (frame generation) (next generation)

/-! ### Hover -/

/-- The tooltip for an answer to a hover request. -/
def tooltip? (b : Buffer) (allowHtml : Bool) (pos result : Json) :
    Except Failure (Option Tooltip) := do
  let start ← b.resolve? pos
  let range ← result.get "range"
  let (start, stop) ←
    if range.truthy then
      pure (← b.resolve? (← range.require "start"), ← b.resolve? (← range.require "end"))
    else pure (start, none)
  match start with
  | none => return none
  | some start =>
    let contents ← result.get "contents"
    if isEmptyDocumentation contents then return none
    return some ⟨start, Json.ofOption stop, ← formatContents allowHtml contents⟩

def hoverAnswered (doc generation : Nat) (pos : Json) : Outcome → Engine → Run :=
  questionAnswered "hover" doc .hover generation (!·.truthy) .tooltip
    fun s result _ => tooltip? ⟨s.view.text⟩ s.allowHtml pos result

def hoverFlushed (doc generation : Nat) (pos : Json) : Outcome → Engine → Run :=
  ask doc .hover generation "textDocument/hover" (·.positionParams pos)
    (.hoverAnswered doc generation pos) (hoverAnswered doc generation pos)

/-- What is shown when the cursor rests on a position. -/
def hover (doc : Nat) (pos : Json) (e : Engine) : Run :=
  e.question doc .hover "hoverProvider" (.hoverFlushed doc · pos) (hoverFlushed doc · pos)

/-! ### Completion -/

/-- The candidates of an answer, which is a list of them or an object that holds one. -/
def candidates : Json → Json
  | .obj ms => Json.ofOption (Members.get? "items" ms)
  | items => items

/-- Can the server tell more about a candidate? -/
def resolvable (e : Engine) : Except Failure Bool := do
  match ← e.client.capability "completionProvider" with
  | .obj ms => return (← (Json.obj ms).get "resolveProvider").truthy
  | _ => return false

/-- The candidates to show for an answer to a completion request. -/
def completions? (s : Session) (pos result : Json) (e : Engine) :
    Except Failure (Option (CompletionResult × Bool)) := do
  let items := candidates result
  if !items.truthy then return none
  let text := s.view.text
  match ← Buffer.resolve? ⟨text⟩ pos with
  | none => return none
  | some offset =>
    let resolvable ← e.resolvable
    let result ← CompletionResult.build (← items.items) text offset s.document.language s.allowHtml
    return some (result, resolvable)

def completionAnswered (doc generation : Nat) (pos : Json) : Outcome → Engine → Run :=
  questionAnswered "completion" doc .completion generation (!·.truthy)
    (fun (r, resolvable) => .completions r resolvable) fun s result e => e.completions? s pos result

/-- Why completion is requested, as the server is told. -/
def completionContext (kind character : Json) : Json :=
  .obj (("triggerKind", kind) ::
    (match character with
      | .null => []
      | c => [("triggerCharacter", c)]))

def completionFlushed (doc generation : Nat) (pos kind character : Json) : Outcome → Engine → Run :=
  ask doc .completion generation "textDocument/completion"
    (fun d => d.positionParams pos ++ [("context", completionContext kind character)])
    (.completionAnswered doc generation pos) (completionAnswered doc generation pos)

/-- The candidates for a position. -/
def completion (doc : Nat) (pos kind character : Json) (e : Engine) : Run :=
  e.question doc .completion "completionProvider" (.completionFlushed doc · pos kind character)
    (completionFlushed doc · pos kind character)

/-- How a trigger is named to the server: its kind and its character. -/
def triggerNames : CompletionTrigger → Json × Json
  | .invoked => (.int 1, .null)
  | .character c => (.int 2, .text [c])

/-- The position and the trigger of a completion at an offset, if the text calls for one. -/
def completionCall? (text : List Char) (offset : Json) (explicit : Bool) (e : Engine) :
    Except Failure (Option (Position × CompletionTrigger)) := do
  let triggers := (← e.triggerCharacters "completionProvider").orElse (.arr [])
  let offset ← offset.offset
  match ← completionTrigger? text offset triggers explicit with
  | none => return none
  | some trigger => return some (← Buffer.position ⟨text⟩ offset, trigger)

/-- The candidates for an offset, if the text before it calls for completion. -/
def completeAt (doc : Nat) (offset : Json) (explicit : Bool) (e : Engine) : Run :=
  match e.completionCall? (e.viewText doc) offset explicit with
  | .error f => e.fail f
  | .ok none => e.answer .nothing
  | .ok (some (pos, trigger)) =>
    let (kind, character) := triggerNames trigger
    e.completion doc pos.toJson kind character

/-- Presents a candidate with what the server has told about it. -/
def presentResolved (c : Completion) (answer : Except Failure Json) (e : Engine) : Run :=
  let (documentation, warning) := c.resolvedDocumentation answer
  let e := match warning with
    | some w => e.log .warning w
    | none => e
  e.finish (.ofExcept (do return .data (← c.present (← documentation))))

/-- The server has told more about a candidate, or has failed to. -/
def completionResolved (c : Completion) (o : Outcome) (e : Engine) : Run :=
  match o with
  | .value v => e.presentResolved c (.ok v.json)
  | .failure f => e.presentResolved c (.error f)
  | .cancelled => e.finish .cancelled

/-- The documentation of a candidate, for which the server may be asked. -/
def completionInfo (c : Completion) (resolvable : Bool) (e : Engine) : Run :=
  if resolvable then
    andThen (e.request (.str "completionItem/resolve") c.item 0) (.completionResolved c)
      (completionResolved c)
  else e.finish (.ofExcept (do return .data (← c.present (← c.documentation))))

/-! ### Signature help -/

/-- The signature for an answer to a request for signature help. -/
def signature? (b : Buffer) (allowHtml : Bool) (pos result : Json) :
    Except Failure (Option SignatureView) := do
  match ← b.resolve? pos with
  | none => return none
  | some offset => SignatureView.build? result offset allowHtml

def signatureAnswered (doc generation : Nat) (pos : Json) : Outcome → Engine → Run :=
  questionAnswered "signature help" doc .signatureHelp generation (fun _ => false) .signature
    fun s result _ => signature? ⟨s.view.text⟩ s.allowHtml pos result

/-- Why signature help is requested, as the server is told. -/
def signatureContext (character : Json) : Json :=
  .obj (("isRetrigger", .bool false) ::
    (match character with
      | .null => [("triggerKind", .int 1)]
      | c => [("triggerKind", .int 2), ("triggerCharacter", c)]))

def signatureFlushed (doc generation : Nat) (pos character : Json) : Outcome → Engine → Run :=
  ask doc .signatureHelp generation "textDocument/signatureHelp"
    (fun d => d.positionParams pos ++ [("context", signatureContext character)])
    (.signatureAnswered doc generation pos) (signatureAnswered doc generation pos)

/-- The signature at a position. -/
def signatureHelp (doc : Nat) (pos character : Json) (e : Engine) : Run :=
  e.question doc .signatureHelp "signatureHelpProvider" (.signatureFlushed doc · pos character)
    (signatureFlushed doc · pos character)

/-- Tells the document's owner of something, if the owner listens. -/
def tellOwner (doc : Nat) (what : String) (v : Value) (e : Engine) : Engine :=
  e.onSession doc fun s => if s.recordsCalls then { s with calls := s.calls ++ [(what, v)] } else s

/-- The signature asked for while typing is there. -/
def signatureShown (doc : Nat) : Outcome → Engine → Run
  | .value (.signature v), e =>
    let e := e.onSession doc fun s => { s with signature := some v }
    (e.tellOwner doc "signature" (.signature v)).answer .nothing
  | .value _, e => e.answer .nothing
  | o, e => e.finish o

/-- Shows signature help while the user types. -/
def showSignature (doc : Nat) (pos character : Json) (e : Engine) : Run :=
  andThen (e.signatureHelp doc pos character) (.signatureShown doc) (signatureShown doc)

/-! ### Definition -/

/-- The first place of an answer, null if there is none. -/
def firstLocation (result : Json) : Json :=
  match result with
  | .arr (x :: _) => x
  | .arr [] => .null
  | x => x

/-- A place in a document: a location, or a link to one. -/
def locationOf (uri : String) (location : Json) : Except Failure Definition := do
  let (target, range) ←
    if ← location.holds "targetUri" then
      pure (← location.require "targetUri", ← location.require "targetRange")
    else pure (← location.require "uri", ← location.require "range")
  return ⟨target, range, !target.same (.str uri)⟩

/-- The selection of a place in the document itself. -/
def definitionSelection (b : Buffer) (range : Json) : Except Failure (Json × Json) := do
  let anchor ← b.resolveOrZero (← range.require "start")
  let head ← b.resolve? (← range.require "end")
  return (anchor, head.getD anchor)

/-- The server has said where something is defined. A place in the same document is selected. -/
def definitionAnswered (doc : Nat) (o : Outcome) (e : Engine) : Run :=
  withResult "definition" o e fun result =>
    let location := firstLocation result
    if !result.truthy || !location.truthy then e.answer .nothing
    else
      e.withSession doc fun s =>
        match locationOf s.document.uri location with
        | .error f => e.fail f
        | .ok d =>
          let told (e : Engine) : Run :=
            (e.tellOwner doc "definition" (.definition d)).answer (.definition d)
          if d.external then told e
          else
            match definitionSelection ⟨s.view.text⟩ d.range with
            | .error f => e.fail f
            | .ok (anchor, head) => told (e.onView doc (·.select anchor head))

/-- Where the thing at a position is defined. -/
def definition (doc : Nat) (pos : Json) (e : Engine) : Run :=
  e.ifAvailable doc .definition "definitionProvider" fun s =>
    andThen (e.request (.str "textDocument/definition") (.obj (s.document.positionParams pos)) 0)
      (.definitionAnswered doc) (definitionAnswered doc)

end LanguageClient.Engine
