import LanguageClient.Client.Capabilities
import LanguageClient.Registry
import LanguageClient.Settings.Basic

/-!
The client's side of one connection: what it was set up with, whether the handshake is done, which
requests are waiting for an answer, and who is told of notifications.

    request  ──▶  pending  ──response──▶  answered
                     │
                     └─ time limit, cancellation, closing ──▶  failed
-/

namespace LanguageClient

/-- Names something that will be known later, by what it is and a number. -/
inductive Ref where
  /-- The end of a task. -/
  | task (n : Nat)
  /-- The end of the tasks of a group. -/
  | group (n : Nat)
  /-- The answer to a request, by the request's id. -/
  | answer (id : Nat)
  /-- The end of a pause. -/
  | nap (n : Nat)
  /-- The opening of the gate for one message. -/
  | gate (n : Nat)
  /-- The next arrival. -/
  | arrival (n : Nat)
  /-- The end of closing the connection. -/
  | closure (n : Nat)
  deriving DecidableEq, Repr

/-- What a client is set up with. -/
structure ClientOptions where
  rootUri : Json := .null
  workspaceFolders : Json := .null
  capabilities : CapabilityChoice := .standard
  initializationOptions : Json := .null
  /-- Time limit of a request in milliseconds. -/
  timeout : Json
  /-- By how much the limit of the handshake is longer. -/
  handshakeFactor : Int
  /-- If it counts as present, the connection is closed when the last document is detached. -/
  autoClose : Json

namespace ClientOptions

def defaultTimeout : Int := 10000

def defaultHandshakeFactor : Int := 3

/-- Fills in what was not given from the settings. A time limit of zero counts as not given. -/
def ofSettings (s : Settings) (rootUri workspaceFolders : Json) (capabilities : CapabilityChoice)
    (initializationOptions timeout autoClose : Json) : Except Failure ClientOptions := do
  let timeout ←
    if timeout.truthy then pure timeout
    else pure (.int ((← s.int? "lsp" "request_timeout_ms").getD defaultTimeout))
  let handshakeFactor :=
    (← s.int? "lsp" "initialize_timeout_factor").getD defaultHandshakeFactor
  let autoClose ← match autoClose with
    | .null => pure (.bool ((← s.bool? "lsp" "auto_close").getD false))
    | given => pure given
  return ⟨rootUri, workspaceFolders, capabilities, initializationOptions, timeout, handshakeFactor,
    autoClose⟩

/-- The time limit of a request as a number of milliseconds. -/
def limit (o : ClientOptions) : Int := o.timeout.number?.getD defaultTimeout

/-- What the client sends to open the connection. -/
def initializeParams (o : ClientOptions) : Except Failure Json := do
  return .obj [("capabilities", ← o.capabilities.resolve),
    ("initializationOptions", o.initializationOptions), ("processId", .null),
    ("rootUri", o.rootUri), ("workspaceFolders", o.workspaceFolders)]

end ClientOptions

/-- Who is told of the server's notifications. -/
inductive Subscriber where
  | document (index : Nat)
  | sink (name : String)
  deriving DecidableEq, Repr

/-- The client's side of a connection. -/
structure Client where
  options : ClientOptions
  ready : Bool := false
  closed : Bool := false
  /-- What the server can do, null before the handshake. -/
  capabilities : Json := .null
  /-- The id of the newest request. -/
  lastId : Nat := 0
  /-- The requests that wait, and what will be their answer. -/
  pending : Table Nat Ref := []
  /-- The methods of the requests that wait. -/
  methods : Table Nat String := []
  subscribers : Registry Subscriber := []
  handshake : Option Ref := none
  reader : Option Ref := none

namespace Client

/-- Gives a new request its id and notes that it waits. -/
def enroll (method : String) (c : Client) : Nat × Client :=
  let id := c.lastId + 1
  (id, { c with
    lastId := id
    pending := c.pending.put id (.answer id)
    methods := c.methods.put id method })

/-- Forgets a request that no longer waits. -/
def discharge (id : Nat) (c : Client) : Client :=
  { c with pending := c.pending.erase id, methods := c.methods.erase id }

/-- The number that an id is equal to, if it is a number of a request at all. -/
def requestNumber? (id : Json) : Except Failure (Option Nat) := do
  match (← id.asKey).equalNumber? with
  | some n => return if 0 ≤ n then some n.toNat else none
  | none => return none

/-- The method of a request that waits; without a note of it, the id as it was sent. -/
def methodOf (number : Nat) (id : Json) (c : Client) : String :=
  (c.methods.get? number).getD id.shown

/-- A member of what the server can do. -/
def capability (key : String) (c : Client) : Except Failure Json :=
  (c.capabilities.orElse (.obj [])).get key

/-- The answer that a response carries: a result, or the server's error. -/
def answerOf (method : String) (message : Json) : Except Failure (Except Failure Json) := do
  match message.member? "error" with
  | none | some .null => return .ok (Json.ofOption (message.member? "result"))
  | some error =>
    let code ← error.getOr "code" (.int 0)
    let text ← error.getOr "message" (.str "Unknown error")
    let data ← error.get "data"
    return .error (.refused method code text data)

end Client

end LanguageClient
