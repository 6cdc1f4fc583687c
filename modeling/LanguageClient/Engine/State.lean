import LanguageClient.Client.Basic
import LanguageClient.Completion.Item
import LanguageClient.Diagnostics
import LanguageClient.Document
import LanguageClient.Features
import LanguageClient.Message
import LanguageClient.Signature

/-!
The state of the engine: one client, its connection, the documents it serves, and the tasks that are
under way. Tasks run one at a time; a task runs until it has to wait for something, and what it will
do then is kept as a list of frames. Everything is plain data, so every state can be looked at and
every step is a function from one state to the next.

    ready queue ──▶ task runs ──▶ ends            its promise is kept
                        │
                        └──▶ waits for a promise   its frames are kept
-/

namespace LanguageClient

/-- What is shown when the cursor rests on something. -/
structure Tooltip where
  start : Json
  /-- Null if the server gave no range. -/
  stop : Json
  content : Json

/-- Where something is defined. -/
structure Definition where
  uri : Json
  range : Json
  external : Bool

/-- What the server agreed to rename. -/
structure RenameTarget where
  start : Json
  stop : Json
  placeholder : Json
  range : Json

/-- What a finished task answers. -/
inductive Value where
  | nothing
  | flag (b : Bool)
  | data (v : Json)
  | tooltip (t : Tooltip)
  | completions (r : CompletionResult) (resolvable : Bool)
  | definition (d : Definition)
  | target (t : RenameTarget)
  | signature (s : SignatureView)
  | diagnostics (ds : List PresentedDiagnostic)

/-- How something that was waited for came out. -/
inductive Outcome where
  | value (v : Value)
  | failure (e : Failure)
  | cancelled

/-- The JSON value of an answer. -/
def Value.json : Value → Json
  | .data v => v
  | _ => .null

def Outcome.ofExcept : Except Failure Value → Outcome
  | .ok v => .value v
  | .error e => .failure e

/-- Work done after a pause: send a document's changes, or a rehearsed piece of work, which takes
    some time and may fail. -/
inductive Work where
  | flush (doc : Nat)
  | rehearsal (name : String) (takes : Int) (fails : Option Failure)

/-- Where the code actions of diagnostics come from. -/
inductive ActionSource where
  | nowhere
  | server
  /-- Prepared answers, taken one after the other. -/
  | prepared

/-- A prepared answer to a request for code actions: it comes after some milliseconds, and the text
    may be replaced first. -/
structure PreparedAnswer where
  delay : Int := 0
  newText : Option (List Char) := none
  answer : Except Failure Json := .ok .null

/-- When newly placed diagnostics are no longer wanted. -/
inductive Superseding where
  | never
  | said (b : Bool)
  /-- When diagnostics of a later generation have begun to be placed. -/
  | after (generation : Nat)

/-- What a task is started for. Documents are named by their index. -/
inductive Operation where
  | handshake
  | read
  | close
  | disconnect
  | reply (id : Json)
  | waitReady
  | request (method params : Json) (limit : Int)
  | notify (method params : Json)
  | debounced (slot : Nat) (delay : Int) (work : Work)
  | openDocument (doc : Nat) (text : Option (List Char))
  | flush (doc : Nat) (text : Option (List Char))
  | flushPending (doc : Nat)
  | drain (doc : Nat)
  | processDiagnostics (doc : Nat) (params : Json)
  | present (doc : Nat) (diagnostics : List Json) (source : ActionSource) (fallback : Json)
      (superseding : Superseding)
  | fetchActions (doc : Nat) (source : ActionSource) (diagnostic : Json)
  | codeActions (doc : Nat) (range codes : Json)
  | hover (doc : Nat) (pos : Json)
  | completion (doc : Nat) (pos kind character : Json)
  | completeAt (doc : Nat) (offset : Json) (explicit : Bool)
  | completionInfo (completion : Completion) (resolvable : Bool)
  | definition (doc : Nat) (pos : Json)
  | prepareRename (doc : Nat) (pos : Json)
  | rename (doc : Nat) (pos newName current : Json)
  | requestRename (doc : Nat) (pos newName : Json)
  | signatureHelp (doc : Nat) (pos character : Json)
  | showSignature (doc : Nat) (pos character : Json)

/-- What a message is sent for. -/
inductive Purpose where
  | request (id : Nat) (method : String) (limit : Int)
  | notify (method : String)
  /-- An answer to a request of the server. -/
  | reply (id : Json)

/-- The place where a task waits: what it will do with the outcome. -/
inductive Frame where
  | begin (op : Operation)
  /-- Waits until messages may pass, then sends one. -/
  | gate (purpose : Purpose) (message : Json)
  | requestAnswered (id : Nat) (method : String) (limit : Int) (waiter timer : Nat)
  /-- The time limit has passed and the answer is given up. -/
  | requestExpired (id : Nat) (method : String) (limit : Int)
  /-- The request was cancelled and the answer is given up. -/
  | requestAborted (id : Nat)
  | handshakeAwaited
  | handshakeAnswered
  | handshakeAnnounced (result : Json)
  | received
  /-- The connection takes its time to close. -/
  | lingered
  /-- Whoever closes the client waits for the connection to be closed. -/
  | hungUp
  | readerJoined
  | delayOver (slot : Nat) (work : Work)
  | workDone
  | rehearsed (name : String) (fails : Option Failure)
  | readyToOpen (doc : Nat)
  | openSent (doc : Nat) (sent : List Char)
  | changeSent
  | drained (doc : Nat)
  | actionsGathered (doc : Nat) (diagnostics : List Json) (fetches : List Ref) (fallback : Json)
      (superseding : Superseding)
  | actionsFetched (diagnostic : Json)
  | preparedActions (doc : Nat) (entry : PreparedAnswer)
  | hoverFlushed (doc generation : Nat) (pos : Json)
  | hoverAnswered (doc generation : Nat) (pos : Json)
  | completionFlushed (doc generation : Nat) (pos kind character : Json)
  | completionAnswered (doc generation : Nat) (pos : Json)
  | completionResolved (completion : Completion)
  | definitionAnswered (doc : Nat)
  | renamePrepared (doc : Nat) (pos : Json) (before : Buffer)
  | renameAnswered (doc : Nat)
  | renameTargeted (doc : Nat) (pos newName : Json)
  | signatureFlushed (doc generation : Nat) (pos character : Json)
  | signatureAnswered (doc generation : Nat) (pos : Json)
  | signatureShown (doc : Nat)

/-- Who is told when a promise is settled. -/
inductive Listener where
  /-- Lets a task go on. -/
  | wake (task : Nat)
  /-- Ends a pause. -/
  | release (nap : Nat)
  | handshakeOver
  | backgroundOver (doc : Nat)
  /-- One of the tasks of a group has ended. -/
  | memberOver (group : Nat)
  deriving DecidableEq, Repr

/-- Something that will be known later. -/
structure Promise where
  outcome : Option Outcome := none
  listeners : List Listener := []

/-- A task under way: where it stands, and what it waits for. -/
structure Task where
  frames : List Frame
  waiting : Option Ref := none
  cancelRequested : Bool := false

/-- Tasks that are waited for together. A tolerant group waits for all of them, whatever their
    outcome; another group ends at the first failure. -/
structure Group where
  members : List Ref
  tolerant : Bool
  finished : Nat := 0
  cancelRequested : Bool := false

/-- What a timer does. -/
inductive Alarm where
  /-- Ends a pause. -/
  | release (nap : Nat)
  /-- A message from the server arrives. -/
  | deliver (frame : String)

structure Timer where
  id : Nat
  due : Int
  alarm : Alarm

/-- What is to be run next. -/
inductive Job where
  | step (task : Nat)
  | call (listener : Listener) (source : Ref)
  | ring (alarm : Alarm)

/-- What arrives from the server: a message, the end of the stream, or a failure of reading. -/
inductive Inbound where
  | frame (text : String)
  | eof
  | failure (e : Failure)

/-- A prepared reply of a server: its own members, and after how many milliseconds it comes. -/
inductive Reply where
  | silence
  | message (members : Members) (delay : Int)

/-- The prepared behaviour of a server: for each method the replies in turn, the last of which is
    repeated. -/
structure ServerScript where
  capabilities : Json
  replies : Table String (List Reply) := []

/-- The connection to a server in memory. -/
structure Channel where
  script : ServerScript
  closed : Bool := false
  inbox : List Inbound := []
  /-- The number of the next arrival, while the reader waits for it. -/
  getter : Option Nat := none
  /-- While set, messages wait before they are sent. -/
  blocked : Bool := false
  gateWaiters : List Nat := []
  /-- While set, every message fails to be sent. -/
  sendFailure : Option Failure := none
  /-- While set, closing takes until the connection is let go. -/
  lingering : Bool := false
  /-- The number of the end of closing, while that is waited for. -/
  closure : Option Nat := none
  sent : List Json := []

/-- What a document does when its text is edited. -/
inductive EditHook where
  | none
  | scheduleChange
  | viewChanged
  deriving DecidableEq, Repr

/-- A document with its editor and its features. -/
structure Session where
  document : Document
  view : View
  allowHtml : Bool := false
  features : Features := {}
  /-- How long edits are collected before they are sent, in milliseconds. -/
  delay : Int := 500
  staleGuard : Bool := true
  signature : Option SignatureView := none
  generation : Feature → Nat := fun _ => 0
  background : List Ref := []
  hook : EditHook := .none
  recordsCalls : Bool := false
  calls : List (String × Value) := []

/-- What a sink does when it is told of a notification: it attaches and detaches, and then may
    fail. -/
structure Conduct where
  registrations : List (Registration Subscriber) := []
  failure : Option Failure := none

/-- Something that records the notifications it is told of. It may leave, or fail, each time it is
    told; what else it does depends on how often it has been told before. -/
structure Sink where
  failing : Bool := false
  leaving : Bool := false
  conduct : Nat → Conduct := fun _ => {}
  calls : List (Json × Json) := []

/-- Something that has happened between the client and the server. -/
inductive Event where
  /-- A message was handed over to be sent. -/
  | handed (message : Json)
  /-- The message that is handed over next speaks for a document. -/
  | told (doc : Nat) (message : Json)
  /-- A message of the server was taken up. -/
  | taken (message : Json)
  /-- A request was begun. -/
  | called (id : Nat) (method : String)
  /-- A request ended. -/
  | returned (id : Nat) (o : Outcome)
  /-- The server has said what it can do. -/
  | agreed (capabilities : Json)
  /-- Something was attached or detached. -/
  | registered (r : Registration Subscriber)
  /-- A subscriber is told of a notification. -/
  | notified (x : Subscriber) (method params : Json)
  /-- A document was given a text. -/
  | texted (doc : Nat) (text : List Char)
  /-- A question about a document was begun, or the placing of its diagnostics. -/
  | posed (doc : Nat) (feature : Feature) (generation : Nat)
  /-- The request that is begun next asks a question. -/
  | asked (doc : Nat) (feature : Feature) (generation : Nat)
  /-- A question ended. -/
  | answered (doc : Nat) (feature : Feature) (generation : Nat) (o : Outcome)
  /-- What came of a question was dropped. -/
  | dropped (doc : Nat) (feature : Feature) (generation : Nat)
  /-- Diagnostics were published for a document. -/
  | published (doc generation : Nat) (diagnostics : List Json)
  /-- Diagnostics were shown. -/
  | shown (doc : Nat) (superseding : Superseding) (diagnostics : List PresentedDiagnostic)
  /-- The reader has come to its end. -/
  | readerEnded
  /-- Whoever closed the client has come to an end. -/
  | closingEnded

/-- The state of the engine. -/
structure Engine where
  client : Client
  channel : Channel
  sessions : List Session := []
  sinks : Table String Sink := []
  journal : Journal := []
  now : Int := 0
  nextRef : Nat := 0
  ready : List Job := []
  timers : List Timer := []
  promises : Table Ref Promise := []
  tasks : Table Nat Task := []
  groups : Table Nat Group := []
  /-- The delayed work of each document, by its index. -/
  slots : Table Nat Ref := []
  /-- Rehearsed work: name, what happened, when. -/
  rehearsals : List (String × String × Int) := []
  /-- Prepared answers to requests for code actions, and the requests made so far. -/
  preparedActions : List PreparedAnswer := []
  actionCalls : List (Json × Json) := []
  /-- What has happened so far, oldest first. -/
  history : List Event := []

/-- What a task does when it runs: it ends, waits for a promise, or lets the others go first. -/
inductive Progress where
  | done (o : Outcome)
  | wait (promise : Ref) (frames : List Frame)
  | pause (frames : List Frame)

/-- A run of a task up to the next place where it waits. -/
abbrev Run := Engine × Progress

end LanguageClient
