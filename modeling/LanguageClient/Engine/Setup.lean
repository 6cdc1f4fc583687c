import LanguageClient.Engine.Run

/-!
Setting up an engine: one client with its connection, then the documents one after the other. What
is not given for a document is taken from the settings.
-/

namespace LanguageClient

/-- What a document is set up with. What is absent is taken from the settings. -/
structure SessionOptions where
  uri : String := "file:///doc"
  language : String := "python"
  text : List Char := []
  allowHtml : Bool := false
  features : Option Members := none
  syncMode : Option String := none
  delay : Option Int := none
  staleGuard : Option Bool := none
  hook : EditHook := .none
  recordsCalls : Bool := false

namespace SessionOptions

/-- How long edits are collected unless the settings say otherwise, in milliseconds. -/
def defaultDelay : Int := 500

/-- The mode of keeping in step that sends changes of ranges. Every other mode sends the whole
    text. -/
def incrementalMode : String := "incremental"

/-- The document with everything filled in. An empty mode counts as absent. -/
def session (o : SessionOptions) (s : Settings) : Except Failure Session := do
  let features ← match o.features with
    | some entries => ({} : Features).override entries
    | none => Features.ofSettings s
  let mode ← match o.syncMode.filter (· ≠ "") with
    | some mode => pure mode
    | none => pure (((← s.value? "lsp" "sync_mode").map String.ofList).getD "full")
  let delay ← match o.delay with
    | some delay => pure delay
    | none => pure ((← s.int? "lsp" "change_debounce_ms").getD defaultDelay)
  let staleGuard ← match o.staleGuard with
    | some b => pure b
    | none => pure ((← s.bool? "lsp" "stale_guard").getD true)
  return {
    document := {
      uri := o.uri
      language := o.language
      incremental := mode = incrementalMode
      text := o.text }
    view := { text := o.text }
    allowHtml := o.allowHtml
    features, delay, staleGuard
    hook := o.hook
    recordsCalls := o.recordsCalls }

end SessionOptions

namespace Engine

/-- An engine without documents. -/
def create (options : ClientOptions) (script : ServerScript) : Engine :=
  { client := { options }, channel := { script } }

/-- Adds a document and attaches it. -/
def addSession (s : Session) (e : Engine) : Engine :=
  { e with sessions := e.sessions ++ [s] }.attach (.document e.sessions.length)

/-- Adds documents in order. -/
def addSessions (settings : Settings) (options : List SessionOptions) (e : Engine) :
    Except Failure Engine :=
  options.foldlM (fun e o => do return e.addSession (← o.session settings)) e

/-- Attaches a sink. A sink of that name that has been there before is attached again. -/
def attachSink (name : String) (sink : Sink) (e : Engine) : Engine :=
  let e := if e.sinks.has name then e else { e with sinks := e.sinks.put name sink }
  e.attach (.sink name)

/-- How many jobs may run before the engine is taken to be stuck. -/
def jobBound : Nat := 100000

/-- Lets everything run that can. -/
def settled (e : Engine) : Engine := e.quiesce jobBound

/-- Moves the clock on by some milliseconds. -/
def advance (ms : Int) (e : Engine) : Engine := e.advanceTo jobBound jobBound (e.now + ms)

end Engine

end LanguageClient
