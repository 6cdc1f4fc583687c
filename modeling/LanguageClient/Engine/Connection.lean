import LanguageClient.Engine.Exchange
import LanguageClient.Text.Blank

/-!
The life of a connection: the handshake, the reader that handles what arrives, and closing.

    start ──▶ reader           one message after the other until the stream ends
          └─▶ handshake        initialize, answer, initialized ──▶ ready
-/

namespace LanguageClient.Engine

/-! ### The handshake -/

/-- The server has been told that the handshake is over: requests may be sent. -/
def handshakeAnnounced (result : Json) : Outcome → Engine → Run
  | .value _, e =>
    let e := e.onClient fun c => { c with ready := true }
    let line : Except Failure String := do
      let info := (← (result.orElse (.obj [])).get "serverInfo").orElse (.obj [])
      let name ← info.getOr "name" (.str "unknown")
      let version ← info.getOr "version" (.str "")
      let text := "language server ready: " ++ name.shown ++ " " ++ version.shown
      return String.ofList (Text.trimEnd text.toList)
    match line with
    | .ok line => (e.log .info line).answer .nothing
    | .error f => e.fail f
  | o, e => e.finish o

/-- The server has answered the handshake. -/
def handshakeAnswered : Outcome → Engine → Run
  | .value v, e =>
    let result := v.json
    match (result.orElse (.obj [])).get "capabilities" with
    | .error f => e.fail f
    | .ok capabilities =>
      let capabilities := capabilities.orElse (.obj [])
      let e := (e.onClient fun c => { c with capabilities }).note (.agreed capabilities)
      andThen (e.notify (.str "initialized") (.obj [])) (.handshakeAnnounced result)
        (handshakeAnnounced result)
  | o, e => e.finish o

/-- Opens the connection. -/
def handshake (e : Engine) : Run :=
  let options := e.client.options
  match options.initializeParams with
  | .error f => e.fail f
  | .ok params =>
    andThen (e.request (.str "initialize") params (options.limit * options.handshakeFactor))
      .handshakeAnswered handshakeAnswered

/-- Records a failed handshake. -/
def handshakeOver (source : Ref) (e : Engine) : Engine :=
  match e.outcome? source with
  | some (.failure f) => e.log .error ("initialize failed: " ++ f.message)
  | _ => e

/-- Starts the reader, unless that has been done. -/
def startReader (e : Engine) : Engine :=
  match e.client.reader with
  | some _ => e
  | none =>
    let (r, e) := e.spawn .read
    e.onClient fun c => { c with reader := some r }

/-- Starts the handshake, unless that has been done. -/
def startHandshake (e : Engine) : Ref × Engine :=
  match e.client.handshake with
  | some r => (r, e)
  | none =>
    let (r, e) := e.spawn .handshake
    let e := e.onClient fun c => { c with handshake := some r }
    (r, e.listen r .handshakeOver)

/-- Starts the reader and the handshake. -/
def start (e : Engine) : Ref × Engine := e.startReader.startHandshake

/-- How the handshake came out. One that has not ended counts as cancelled. -/
def handshakeOutcome (e : Engine) : Outcome := (e.client.handshake.bind e.outcome?).getD .cancelled

/-- Goes on with the outcome of the handshake, for which a frame waits if need be. Whoever stops
    waiting does not stop the handshake. -/
def awaitHandshake (frame : Frame) (next : Outcome → Engine → Run) (e : Engine) : Run :=
  let (r, e) := e.start
  if e.isSettled r then next e.handshakeOutcome e
  else
    let (n, e) := e.newPromise .nap
    (e.listen r (.release n), .wait (.nap n) [frame])

/-- Goes on with the outcome of the handshake after a wait, which may have been cancelled. -/
def handshakeAwaited (next : Outcome → Engine → Run) : Outcome → Engine → Run
  | .cancelled, e => next .cancelled e
  | _, e => next e.handshakeOutcome e

/-- Waits for the end of the handshake. -/
def waitReady (e : Engine) : Run := e.awaitHandshake .handshakeAwaited fun o e => e.finish o

/-! ### Closing -/

/-- Fails every request that still waits. -/
def failPending (f : Failure) (e : Engine) : Engine :=
  e.client.pending.foldl (fun e (_, answer) => e.settle answer (.failure f)) e

/-- Closes the connection. One that lingers is closed at once for whoever sends, but it is waited for
    until it is let go. -/
def disconnect (e : Engine) : Run :=
  if e.channel.closed then e.answer .nothing
  else if e.channel.lingering then
    let (n, e) := e.newPromise .closure
    (e.onChannel fun c => { c with closed := true, closure := some n },
      .wait (.closure n) [.lingered])
  else e.closeChannel.answer .nothing

/-- The connection has been let go, which ends the stream of arrivals, or the wait was cancelled. -/
def lingered : Outcome → Engine → Run
  | .value _, e => (e.arrive .eof).answer .nothing
  | o, e => e.finish o

/-- The reader has ended, or whoever waits for its end was cancelled. A failure of the reader is passed
    on to whoever waits, and then every request has failed already. -/
def readerJoined (o : Outcome) (e : Engine) : Run :=
  match o, e.client.reader.bind e.outcome? with
  | .value _, some (.failure f) | .failure _, some (.failure f) => (e.note .closingEnded).fail f
  | _, _ =>
    ((e.failPending (.transportClosed "transport closed")).note .closingEnded).answer .nothing

/-- The connection is closed: the reader is stopped and waited for. -/
def hungUp : Outcome → Engine → Run
  | .value _, e =>
    match e.client.reader with
    | none => readerJoined (.value .nothing) e
    | some r =>
      let (_, e) := e.cancel r
      match e.outcome? r with
      | some o => readerJoined o e
      | none => (e, .wait r [.readerJoined])
  | o, e => e.finish o

/-- Closes the client: the connection is closed, the reader is stopped, and every request fails that
    still waits. -/
def close (e : Engine) : Run :=
  if e.client.closed then e.answer .nothing
  else
    let e := e.onClient fun c => { c with closed := true, ready := false }
    andThen e.disconnect .hungUp hungUp

/-! ### Subscribers -/

def attach (x : Subscriber) (e : Engine) : Engine :=
  (e.onClient fun c => { c with subscribers := (c.subscribers.attach x).2 }).note
    (.registered (.attach x))

/-- Detaches a subscriber. When the last one leaves, the connection may be closed. -/
def detach (x : Subscriber) (e : Engine) : Engine :=
  let (removed, subscribers) := e.client.subscribers.detach x
  let e := (e.onClient fun c => { c with subscribers }).note (.registered (.detach x))
  if removed && e.client.options.autoClose.truthy && subscribers.isEmpty && !e.client.closed then
    ((e.log .debug "last document detached, closing transport").spawn .close).2
  else e

/-- Carries out a call that attaches or detaches. -/
def register : Registration Subscriber → Engine → Engine
  | .attach x, e => e.attach x
  | .detach x, e => e.detach x

/-! ### What arrives -/

/-- Starts a task that belongs to a document. -/
def spawnFor (doc : Nat) (op : Operation) (e : Engine) : Ref × Engine :=
  let (r, e) := e.spawn op
  let e := e.onSession doc fun s => { s with background := s.background ++ [r] }
  (r, e.listen r (.backgroundOver doc))

/-- A task that belongs to a document has ended. -/
def backgroundOver (doc : Nat) (source : Ref) (e : Engine) : Engine :=
  let e := e.onSession doc fun s => { s with background := s.background.filter (· ≠ source) }
  match e.outcome? source, e.session? doc with
  | some (.failure f), some s =>
    e.log .error (s.document.uri ++ ": background task failed: " ++ f.message)
  | _, _ => e

/-- A document is told of a notification. -/
def tellDocument (doc : Nat) (method params : Json) (e : Engine) : Engine :=
  if method.same (.str "textDocument/publishDiagnostics") then
    (e.spawnFor doc (.processDiagnostics doc params)).2
  else e

/-- A sink is told of a notification. It may leave, attach and detach as it likes, and it may fail. -/
def tellSink (name : String) (method params : Json) (e : Engine) : Option Failure × Engine :=
  match e.sinks.get? name with
  | none => (none, e)
  | some sink =>
    let conduct := sink.conduct sink.calls.length
    let e := { e with sinks := e.sinks.put name { sink with calls := sink.calls ++ [(method, params)] } }
    let e := if sink.leaving then e.detach (.sink name) else e
    let e := conduct.registrations.foldl (fun e r => e.register r) e
    (if sink.failing then some (.runtime "sink failure") else conduct.failure, e)

/-- Tells one subscriber of a notification. A failure is recorded and goes no further. -/
def tell (method params : Json) (e : Engine) (x : Subscriber) : Engine :=
  let e := e.note (.notified x method params)
  match x with
  | .document doc => e.tellDocument doc method params
  | .sink name =>
    match e.tellSink name method params with
    | (none, e) => e
    | (some f, e) =>
      e.log .error ("notification handler failed for " ++ method.shown ++ ": " ++ f.message)

/-- The record that a notification is worth, if any. -/
def notificationRecord (method params : Json) : Except Failure (Option (Level × String)) := do
  if method.same (.str "window/logMessage") || method.same (.str "window/showMessage") then
    let message ← (params.orElse (.obj [])).getOr "message" (.str "")
    return some (.info, "[server] " ++ message.shown)
  else
    if ← Message.isEvent method then return none
    else return some (.debug, "<-- " ++ method.shown)

/-- Tells all subscribers of a notification, as they stood when it arrived. -/
def dispatch (method params : Json) (e : Engine) : Except Failure Engine := do
  let e := match ← notificationRecord method params with
    | some (level, message) => e.log level message
    | none => e
  return e.client.subscribers.foldl (tell method params) e

/-- What is said of a response to which no request waits. -/
def unexpected (id : Json) (e : Engine) : Engine :=
  e.log .debug ("<-- response for unknown or expired id " ++ id.shown)

/-- Hands a response to the request that waits for it. -/
def resolve (id message : Json) (e : Engine) : Except Failure Engine := do
  match ← Client.requestNumber? id with
  | none => return e.unexpected id
  | some n =>
    match e.client.pending.get? n with
    | none => return e.unexpected id
    | some answer =>
      if e.isSettled answer then return e.unexpected id
      else
        match ← Client.answerOf (e.client.methodOf n id) message with
        | .ok result => return e.settle answer (.value (.data result))
        | .error f => return e.settle answer (.failure f)

/-- Handles one message. -/
def handle (message : Json) (e : Engine) : Except Failure Engine :=
  let id := Json.ofOption (message.member? "id")
  let method := Json.ofOption (message.member? "method")
  if Message.isServerRequest message then
    .ok ((e.log .debug ("<-- server request " ++ method.shown ++ ", answering null")).spawn
      (.reply id)).2
  else if Message.isResponse message then e.resolve id message
  else if Message.isNotification message then
    e.dispatch method (Json.ofOption (message.member? "params"))
  else .ok e

/-- What is said of a frame that is no message. -/
def malformed (frame : String) : String :=
  "dropping malformed frame: " ++ String.ofList (Text.quoted (frame.toList.take 200))

/-- Handles one frame. -/
def handleFrame (frame : String) (e : Engine) : Except Failure Engine := do
  match ← Message.read? frame with
  | none => return e.log .warning (malformed frame)
  | some message => e.handle message

/-- Takes note of the message that a frame holds, if it holds one. -/
def noteFrame (frame : String) (e : Engine) : Engine :=
  match Message.read? frame with
  | .ok (some message) => e.note (.taken message)
  | _ => e

/-- The stream of arrivals has ended: the connection counts as closed, and no request can be answered
    any more. -/
def shutDown (e : Engine) : Engine :=
  let reason := if e.client.closed then "transport closed" else "transport closed by server"
  let leaves := !e.client.closed
  let e := e.onClient fun c => { c with ready := false, closed := true }
  let e := if leaves && !e.channel.closed then (e.spawn .disconnect).2 else e
  (e.failPending (.transportClosed reason)).note .readerEnded

/-- The reader ends. -/
def readerEnds (o : Outcome) (e : Engine) : Run := e.shutDown.finish o

/-- The reader ends because reading or handling failed. A failure of the channel is only recorded. -/
def readerFails (f : Failure) (e : Engine) : Run :=
  if f.isChannel then
    (e.log .error ("LSP reader error: " ++ f.message)).readerEnds (.value .nothing)
  else e.readerEnds (.failure f)

/-- Handles what stands in the inbox, then waits for more. -/
def readAll : List Inbound → Engine → Run
  | [], e =>
    if e.channel.closed then e.readerEnds (.value .nothing)
    else
      let (n, e) := e.newPromise .arrival
      (e.onChannel fun c => { c with getter := some n }, .wait (.arrival n) [.received])
  | x :: rest, e =>
    let e := e.onChannel fun c => { c with inbox := rest }
    match x with
    | .eof => e.readerEnds (.value .nothing)
    | .failure f => e.readerFails f
    | .frame frame =>
      let e := e.noteFrame frame
      match e.handleFrame frame with
      | .error f => e.readerFails f
      | .ok e => readAll rest e

/-- The reader's work. -/
def read (e : Engine) : Run := readAll e.channel.inbox e

/-- Something has arrived, or the reader was cancelled. -/
def received : Outcome → Engine → Run
  | .value _, e => e.read
  | .failure f, e => e.readerFails f
  | .cancelled, e => (e.onChannel fun c => { c with getter := none }).readerEnds .cancelled

end LanguageClient.Engine
