import LanguageClient.Json.Access
import LanguageClient.Json.Parser
import LanguageClient.Json.Printer
import LanguageClient.Text.Integer

/-!
Messages between client and server (JSON-RPC 2.0), and the methods that this client uses.
-/

namespace LanguageClient.Message

def version : Json := .str "2.0"

/-- A request, which is to be answered under its id. -/
def request (id method params : Json) : Json :=
  .obj [("jsonrpc", version), ("id", id), ("method", method), ("params", params)]

/-- A notification, which is not answered. -/
def notification (method params : Json) : Json :=
  .obj [("jsonrpc", version), ("method", method), ("params", params)]

/-- The answer to a request. -/
def response (id result : Json) : Json :=
  .obj [("jsonrpc", version), ("id", id), ("result", result)]

/-- How much of a message is read. -/
def limits : Json.ReadLimits := ⟨990, Text.digitLimit⟩

/-- What is said of a message that is nested too deep. -/
def tooDeep (kind : Json.Kind) : String :=
  "maximum recursion depth exceeded while decoding a JSON "
    ++ (if kind = .obj then "object" else "array") ++ " from a unicode string"

/-- Reads a message. Anything but an object is none; what goes beyond the limits is a failure. -/
def read? (frame : String) : Except Failure (Option Json) :=
  match Json.read limits frame.toList with
  | .ok (.obj ms) => .ok (some (.obj ms))
  | .ok _ | .error .grammar => .ok none
  | .error (.depth kind) => .error (.tooDeep (tooDeep kind))
  | .error (.digits count) => .error (.invalid (Text.tooManyDigits count))

/-- Does the message carry an id? -/
def hasId (m : Json) : Bool :=
  match m.member? "id" with
  | none | some .null => false
  | some _ => true

def hasMethod (m : Json) : Bool := (m.member? "method").isSome

/-- A request from the server carries a method and an id. -/
def isServerRequest (m : Json) : Bool := hasMethod m && hasId m

/-- A response carries an id only. -/
def isResponse (m : Json) : Bool := !hasMethod m && hasId m

/-- A notification carries a method only. -/
def isNotification (m : Json) : Bool := hasMethod m && !hasId m

/-- The requests that this client sends. -/
def requestMethods : List String :=
  ["initialize", "textDocument/hover", "textDocument/completion", "completionItem/resolve",
    "textDocument/definition", "textDocument/codeAction", "textDocument/rename",
    "textDocument/prepareRename", "textDocument/signatureHelp"]

/-- The notifications that this client sends. -/
def notifyMethods : List String :=
  ["initialized", "textDocument/didOpen", "textDocument/didChange"]

/-- The notifications from the server that documents understand. -/
def eventMethods : List String := ["textDocument/publishDiagnostics"]

/-- The name of a method that is a request of this client. Others are refused. -/
def requestMethod (method : Json) : Except Failure String := do
  match ← method.asKey with
  | .str name => if requestMethods.contains name then return name
  | _ => pure ()
  throw (.unknownMethod ("Unsupported request method: " ++ method.shown))

/-- The name of a method that is a notification of this client. Others are refused. -/
def notifyMethod (method : Json) : Except Failure String := do
  match ← method.asKey with
  | .str name => if notifyMethods.contains name then return name
  | _ => pure ()
  throw (.unknownMethod ("Unsupported notification method: " ++ method.shown))

/-- Is the method a notification that documents understand? -/
def isEvent (method : Json) : Except Failure Bool := do
  match ← method.asKey with
  | .str name => return eventMethods.contains name
  | _ => return false

end LanguageClient.Message
