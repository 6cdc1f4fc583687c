import LanguageClient.Engine.Connection

/-!
Keeping the server's copy of a document up to date. Edits are collected for a while and then sent
together; whatever asks the server about a position sends them first. Each document has one slot for
the work that waits: new work takes the place of work that still waits, and work whose time has come
has left the slot and is not disturbed any more.
-/

namespace LanguageClient.Engine

/-! ### Delayed work -/

/-- Does work wait in the slot? -/
def slotPending (slot : Nat) (e : Engine) : Bool :=
  match e.slots.get? slot with
  | some r => !e.isSettled r
  | none => false

/-- Empties the slot and cancels the work that waits in it. Answers whether there was any. -/
def cancelSlot (slot : Nat) (e : Engine) : Bool × Engine :=
  match e.slots.get? slot with
  | none => (false, e)
  | some r =>
    let e := { e with slots := e.slots.erase slot }
    if e.isSettled r then (false, e) else (true, (e.cancel r).2)

/-- Puts work into the slot in place of what waits there. -/
def scheduleWork (slot : Nat) (delay : Int) (work : Work) (e : Engine) : Ref × Engine :=
  let (_, e) := e.cancelSlot slot
  let (r, e) := e.spawn (.debounced slot delay work)
  (r, { e with slots := e.slots.put slot r })

/-- A document's edits will be sent after its delay. -/
def scheduleFlush (doc : Nat) (e : Engine) : Ref × Engine :=
  let delay := ((e.session? doc).map (·.delay)).getD 0
  e.scheduleWork doc delay (.flush doc)

/-! ### Changes -/

/-- Changes the sync state of a document. -/
def onDocument (doc : Nat) (f : Document → Document) (e : Engine) : Engine :=
  e.onSession doc fun s => { s with document := f s.document }

/-- Can the server take changes of ranges? -/
def serverIncremental (e : Engine) : Except Failure Bool := do
  let sync ← e.client.capability "textDocumentSync"
  let kind ← match sync with
    | .obj _ => sync.get "change"
    | kind => pure kind
  return kind.equalNumber? = some 2

/-- Does the document send changes of ranges now? The server is only asked about where that
    matters. -/
def sendsRanges (d : Document) (e : Engine) : Except Failure Bool :=
  match d.unsent with
  | some (_ :: _) => if d.incremental then e.serverIncremental else .ok false
  | _ => .ok false

/-- Changes have been sent. -/
def changeSent : Outcome → Engine → Run
  | .value _, e => e.answer (.flag true)
  | o, e => e.finish o

/-- Notes the newest text of a document if one is given. -/
def retext (doc : Nat) (text : Option (List Char)) (e : Engine) : Engine :=
  match text with
  | some text => (e.note (.texted doc text)).onDocument doc (·.replaced text)
  | none => e

/-- Sends what the server has not been told yet. Nothing is sent while the connection is not ready
    or the document is not open. -/
def flush (doc : Nat) (text : Option (List Char)) (e : Engine) : Run :=
  let e := e.retext doc text
  e.withSession doc fun s =>
    let d := s.document
    if !(e.client.ready && d.opened) || d.closed then e.answer (.flag false)
    else
      match e.sendsRanges d with
      | .error f => e.fail f
      | .ok ranges =>
        let (changes, d) := d.beginFlush ranges
        let e := e.onDocument doc fun _ => d
        andThen (e.notifyFor doc "textDocument/didChange" (d.changeParams changes)) .changeSent
          changeSent

/-- Sends edits that wait to be sent, if there are any. -/
def flushPending (doc : Nat) (e : Engine) : Run :=
  match e.cancelSlot doc with
  | (true, e) => e.flush doc none
  | (false, e) => e.answer (.flag false)

/-- Notes the newest text of a document, and the batch that made it if it is known; it will be sent
    after a while. -/
def scheduleChange (doc : Nat) (text : List Char) (changes : Option (List Change)) (e : Engine) :
    Ref × Engine :=
  let e := e.note (.texted doc text)
  let e := match e.session? doc with
    | none => e
    | some s =>
      let (fits, d) := s.document.edited text changes
      let e := e.onDocument doc fun _ => d
      if fits then e
      else e.log .debug "edit batch does not match the synced text, sending full text"
  e.scheduleFlush doc

/-! ### Opening and closing -/

/-- The server has been told of the document with a text. An edit made meanwhile will be sent. -/
def noteOpened (doc : Nat) (sent : List Char) (e : Engine) : Engine :=
  let e := e.onDocument doc fun d => { d with opened := true }.resync sent
  match e.session? doc with
  | none => e
  | some s =>
    if s.document.text ≠ sent then ((e.onDocument doc (·.forget)).scheduleFlush doc).2 else e

/-- The message that opens a document has been sent, or has failed to be. -/
def openSent (doc : Nat) (sent : List Char) : Outcome → Engine → Run
  | .value _, e =>
    let e := e.noteOpened doc sent
    e.withSession doc fun s =>
      (e.log .debug ("opened " ++ s.document.uri)).answer (.flag true)
  | o, e => e.finish o

/-- The handshake is over. -/
def readyToOpen (doc : Nat) (o : Outcome) (e : Engine) : Run :=
  e.withSession doc fun s =>
    match o with
    | .value _ =>
      if s.document.closed then e.answer (.flag false)
      else
        andThen (e.notifyFor doc "textDocument/didOpen" s.document.openParams)
          (.openSent doc s.document.text) (openSent doc s.document.text)
    | .failure f =>
      if f.isExchange then
        (e.log .error ("cannot open " ++ s.document.uri ++ ": " ++ f.message)).answer (.flag false)
      else e.fail f
    | .cancelled => e.finish .cancelled

/-- Gives a document that is to be opened a text if there is one for it. -/
def preset (doc : Nat) (text : Option (List Char)) (e : Engine) : Engine :=
  match text with
  | some text => (e.note (.texted doc text)).onDocument doc fun d => { d with text }
  | none => e

/-- Waits for the handshake, then tells the server of the document. -/
def openDocument (doc : Nat) (text : Option (List Char)) (e : Engine) : Run :=
  (e.preset doc text).awaitHandshake (.readyToOpen doc) (readyToOpen doc)

/-- Cancels what waits for a document and detaches it. -/
def closeSession (doc : Nat) (e : Engine) : Engine :=
  match e.session? doc with
  | none => e
  | some s =>
    if s.document.closed then e
    else
      let e := e.onDocument doc fun d => { d with closed := true }
      let (_, e) := e.cancelSlot doc
      let e := s.background.foldl (fun e r => (e.cancel r).2) e
      e.detach (.document doc)

/-- Waits until the document's own tasks have ended. -/
def drain (doc : Nat) (e : Engine) : Run :=
  e.withSession doc fun s =>
    if s.background.isEmpty then e.answer .nothing
    else
      let (r, e) := e.gather s.background true
      (e, .wait r [.drained doc])

/-- The tasks that were waited for have ended; there may be new ones. -/
def drained (doc : Nat) : Outcome → Engine → Run
  | .value _, e => e.drain doc
  | o, e => e.finish o

/-! ### The slot's work -/

/-- The work has been done. A failure is only recorded. -/
def workDone : Outcome → Engine → Run
  | .value _, e => e.answer .nothing
  | .failure f, e =>
    (e.log .error ("debounced task failed: " ++ f.message)).answer .nothing
  | .cancelled, e => e.finish .cancelled

/-- A rehearsed piece of work ends. -/
def rehearsed (name : String) (fails : Option Failure) : Outcome → Engine → Run
  | .value _, e =>
    match fails with
    | some f => e.fail f
    | none =>
      { e with rehearsals := e.rehearsals ++ [(name, "end", e.now)] }.answer .nothing
  | o, e => e.finish o

/-- Does the work of a slot. -/
def doWork (work : Work) (e : Engine) : Run :=
  match work with
  | .flush doc => e.flush doc none
  | .rehearsal name takes fails =>
    let e := { e with rehearsals := e.rehearsals ++ [(name, "start", e.now)] }
    if takes ≤ 0 then rehearsed name fails (.value .nothing) e
    else andThen (e.sleep takes) (.rehearsed name fails) (rehearsed name fails)

/-- The delay is over: the work leaves the slot and begins. -/
def delayOver (slot : Nat) (work : Work) : Outcome → Engine → Run
  | .value _, e =>
    andThen ({ e with slots := e.slots.erase slot }.doWork work) .workDone workDone
  | o, e => e.finish o

/-- Waits, then does the work. -/
def debounced (slot : Nat) (delay : Int) (work : Work) (e : Engine) : Run :=
  andThen (e.sleep delay) (.delayOver slot work) (delayOver slot work)

/-! ### The editor of a document -/

/-- Is a feature switched on, the connection ready and the server able? -/
def available (feature : Feature) (provider : String) (s : Session) (e : Engine) :
    Except Failure Bool :=
  if !s.features.on feature || !e.client.ready then .ok false
  else do return (← e.client.capability provider).truthy

/-- The characters that the server wants to be told of. -/
def triggerCharacters (provider : String) (e : Engine) : Except Failure Json := do
  match ← e.client.capability provider with
  | .obj ms => (Json.obj ms).get "triggerCharacters"
  | _ => return .null

/-- The changes of a batch that has to be known. -/
def knownBatch : Option (List Change) → Except Failure (List Change)
  | some changes => .ok changes
  | none => .error (.wrongKind "'NoneType' object is not iterable")

/-- The position at which typing opens signature help, and the character that opens it. What was
    typed has to be known if the help is available. -/
def signatureCall? (text : List Char) (changes : Option (List Change)) (s : Session) (e : Engine) :
    Except Failure (Option (Position × Json)) := do
  if !(← e.available .signatureHelp "signatureHelpProvider" s) then return none
  let triggers ← e.triggerCharacters "signatureHelpProvider"
  match ← signatureTrigger? (← knownBatch changes) triggers with
  | none => return none
  | some (offset, character) => return some (← Buffer.position ⟨text⟩ offset, character)

/-- The text of a document was edited: the change will be sent, and typing may open signature
    help. -/
def viewChanged (doc : Nat) (text : List Char) (changes : Option (List Change)) (e : Engine) :
    Except Failure (Option Ref) × Engine :=
  let (_, e) := e.scheduleChange doc text changes
  match e.session? doc with
  | none => (.ok none, e)
  | some s =>
    match e.signatureCall? text changes s with
    | .error f => (.error f, e)
    | .ok none => (.ok none, e)
    | .ok (some (pos, character)) =>
      let (r, e) := e.spawnFor doc (.showSignature doc pos.toJson character)
      (.ok (some r), e)

/-- Calls what follows the edits of a document. -/
def runHook (doc : Nat) (hook : EditHook) (text : List Char) (changes : List Change) (e : Engine) :
    Except Failure Unit × Engine :=
  match hook with
  | .none => (.ok (), e)
  | .scheduleChange => (.ok (), (e.scheduleChange doc text (some changes)).2)
  | .viewChanged =>
    let (r, e) := e.viewChanged doc text (some changes)
    (r.map fun _ => (), e)

/-- Changes the view of a document. -/
def onView (doc : Nat) (f : View → View) (e : Engine) : Engine :=
  e.onSession doc fun s => { s with view := f s.view }

/-- Carries out a batch on the text of a document, and then calls what follows its edits. -/
def editView (doc : Nat) (changes : List SentChange) (e : Engine) :
    Except Failure Unit × Engine :=
  match e.session? doc with
  | none => (.ok (), e)
  | some s =>
    match s.view.prepare changes with
    | .error f => (.error f, e)
    | .ok (typed, text) => (e.onView doc fun v => { v with text }).runHook doc s.hook text typed

/-- Replaces the whole text of a document. -/
def replaceText (doc : Nat) (text : Json) (e : Engine) : Except Failure Unit × Engine :=
  match e.session? doc with
  | none => (.ok (), e)
  | some s => e.editView doc (s.view.replacement text)

/-- Shows a message and records it. -/
def showMessage (doc : Nat) (level message : String) (e : Engine) : Engine :=
  (e.onView doc (·.addMessage level message)).log (messageLevel level) message

/-- The text shown of a document. -/
def viewText (doc : Nat) (e : Engine) : List Char := ((e.session? doc).map (·.view.text)).getD []

/-- A document seen as an editor. -/
def editor (doc : Nat) : Editor Engine where
  text e := e.viewText doc
  applyChanges changes e := e.editView doc changes
  select anchor head e := e.onView doc (·.select anchor head)
  showMessage level message e := e.showMessage doc level message
  record level message e := e.log level message

end LanguageClient.Engine
