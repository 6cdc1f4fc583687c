import LanguageClient.Json.Display

/-!
Why an operation failed. Messages from a language server are arbitrary JSON values, so reading one
can fail in a few ways (a missing member, a value of the wrong kind); the other causes come from
the connection and from the server's own error answers.
-/

namespace LanguageClient

/-- What is wrong with a settings file or with a value in it. -/
inductive SettingFault where
  /-- A line that is neither a section, an option nor a continuation. -/
  | unreadable
  /-- An option before the first section. -/
  | noSection
  | repeatedSection
  | repeatedOption
  /-- A reference to an option that is not there. -/
  | missingReference
  /-- References nested too deep. -/
  | depth
  /-- A percent sign that starts no reference. -/
  | badReference
  deriving DecidableEq, Repr

/-- The cause of a failure. -/
inductive Failure where
  /-- An object lacks a member that is needed. -/
  | missing (key : Json)
  /-- A member of an object, or an operation of a text, was asked of a value of another kind. -/
  | noSuchOperation (found : Json.Kind) (operation : String)
  /-- A value of the wrong kind stands where a number, a text or a list is needed. -/
  | wrongKind (detail : String)
  /-- An index lies outside a list or a text. -/
  | outOfRange (detail : String)
  /-- A value of the right kind that makes no sense. -/
  | invalid (message : String)
  /-- Bytes that are no text. -/
  | undecodable (detail : String)
  /-- No answer came within the limit, given in milliseconds. -/
  | timedOut (method : String) (limit : Int)
  /-- The server answered a request with an error. -/
  | refused (method : String) (code message data : Json)
  /-- The connection is, or became, closed. -/
  | transportClosed (message : String)
  /-- The method is none that this client uses. -/
  | unknownMethod (message : String)
  /-- The operating system reported an error. -/
  | system (message : String)
  /-- The operating system reported that a connection broke. -/
  | connection (message : String)
  /-- A fault of the environment. -/
  | runtime (message : String)
  /-- Something is nested too deep to be read. -/
  | tooDeep (message : String)
  /-- A fault in the settings. -/
  | setting (fault : SettingFault)
  deriving Repr, Inhabited

/-- How a kind of value is called in messages. -/
def Json.Kind.label : Json.Kind → String
  | .null => "NoneType"
  | .bool => "bool"
  | .int => "int"
  | .float => "float"
  | .str => "str"
  | .arr => "list"
  | .obj => "dict"

/-- The text of a fault in the settings. -/
def SettingFault.message : SettingFault → String
  | .unreadable => "Source contains parsing errors"
  | .noSection => "File contains no section headers."
  | .repeatedSection => "section already exists"
  | .repeatedOption => "option already exists"
  | .missingReference => "Bad value substitution"
  | .depth => "Recursion limit exceeded in value substitution"
  | .badReference => "'%' must be followed by '%' or '('"

namespace Failure

/-- The text of a failure, as log lines and messages to the user show it. -/
def message : Failure → String
  | .missing key => String.ofList key.display
  | .noSuchOperation found operation =>
    "'" ++ found.label ++ "' object has no attribute '" ++ operation ++ "'"
  | .wrongKind detail => detail
  | .outOfRange detail => detail
  | .invalid message => message
  | .undecodable detail => detail
  | .timedOut method limit =>
    "LSP request timed out after " ++ toString limit ++ "ms: " ++ method
  | .refused method code message _ =>
    "LSP error " ++ code.shown ++ " in " ++ method ++ ": " ++ message.shown
  | .transportClosed message => message
  | .unknownMethod message => message
  | .system message => message
  | .connection message => message
  | .runtime message => message
  | .tooDeep message => message
  | .setting fault => fault.message

/-- Failures of the exchange with the server: the client's callers are prepared for these. -/
def isExchange : Failure → Bool
  | .timedOut .. | .refused .. | .transportClosed _ | .unknownMethod _ => true
  | _ => false

/-- Failures that say a value makes no sense: an editor that refuses a batch reports one. -/
def isInvalid : Failure → Bool
  | .invalid _ | .undecodable _ | .unknownMethod _ => true
  | _ => false

/-- The server's refusals of requests. -/
def isRefusal : Failure → Bool
  | .refused .. => true
  | _ => false

/-- Failures of the channel itself. -/
def isChannel : Failure → Bool
  | .transportClosed _ | .system _ | .connection _ | .runtime _ | .tooDeep _ | .timedOut .. => true
  | _ => false

end Failure

end LanguageClient
