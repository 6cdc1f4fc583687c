import LanguageClient.Engine.Loop

/-!
The connection in memory and the prepared server at its other end. A request is answered as the
script says, at once or after a delay; what the server sends stands in the inbox until it is read.
-/

namespace LanguageClient

/-- What a server answers that knows nothing of a method. -/
def Reply.unknownMethod (method : String) : Reply :=
  .message [("error", .obj [("code", .int (-32601)),
    ("message", .str ("Method not found: " ++ method))])] 0

/-- What a server answers to a method that is not in its script: it takes part in the handshake and
    knows no other method. -/
def ServerScript.unscripted (s : ServerScript) (method : String) : Reply :=
  if method = "initialize" then .message [("result", .obj [("capabilities", s.capabilities)])] 0
  else .unknownMethod method

/-- The reply that the script has for a method, and the script afterwards. The last reply is
    repeated; a method without replies is unknown. -/
def ServerScript.next (s : ServerScript) (method : String) : Reply × ServerScript :=
  match s.replies.get? method with
  | none => (s.unscripted method, s)
  | some [] => (.unknownMethod method, s)
  | some [last] => (last, s)
  | some (reply :: more) => (reply, { s with replies := s.replies.put method more })

namespace Engine

/-- Changes the connection. -/
def onChannel (f : Channel → Channel) (e : Engine) : Engine := { e with channel := f e.channel }

/-- Puts something into the inbox and wakes the reader. -/
def arrive (x : Inbound) (e : Engine) : Engine :=
  let getter := e.channel.getter
  let e := e.onChannel fun c => { c with inbox := c.inbox ++ [x], getter := none }
  match getter with
  | some n => e.settle (.arrival n) (.value .nothing)
  | none => e

/-- The server gets a message. It answers requests. -/
def serverGets (message : Json) (e : Engine) : Engine :=
  match message.member? "method", message.member? "id" with
  | some (.str method), some id =>
    let (reply, script) := e.channel.script.next method
    let e := e.onChannel fun c => { c with script }
    match reply with
    | .silence => e
    | .message members delay =>
      let frame := (Json.obj ([("jsonrpc", Message.version), ("id", id)] ++ members)).toText
      if delay ≤ 0 then e.arrive (.frame frame) else (e.setTimer delay (.deliver frame)).2
  | _, _ => e

/-- Hands a message to the connection, which may refuse it. -/
def transmit (message : Json) (e : Engine) : Except Failure Unit × Engine :=
  if e.channel.closed then (.error (.transportClosed "memory transport closed"), e)
  else
    match e.channel.sendFailure with
    | some f => (.error f, e)
    | none =>
      (.ok (), (e.onChannel fun c => { c with sent := c.sent ++ [message] }).serverGets message)

/-- Holds up messages. -/
def block (e : Engine) : Engine := e.onChannel fun c => { c with blocked := true }

/-- Lets the messages pass that were held up. -/
def unblock (e : Engine) : Engine :=
  let waiters := e.channel.gateWaiters
  let e := e.onChannel fun c => { c with blocked := false, gateWaiters := [] }
  waiters.foldl (fun e n => e.settle (.gate n) (.value .nothing)) e

/-- Closes the connection, which ends the stream of arrivals. -/
def closeChannel (e : Engine) : Engine :=
  if e.channel.closed then e
  else (e.onChannel fun c => { c with closed := true }).arrive .eof

/-- From now on closing the connection takes its time. -/
def linger (e : Engine) : Engine := e.onChannel fun c => { c with lingering := true }

/-- Lets a connection go that is being closed. -/
def letGo (e : Engine) : Engine :=
  match e.channel.closure with
  | some n =>
    (e.onChannel fun c => { c with closure := none }).settle (.closure n) (.value .nothing)
  | none => e

end Engine

end LanguageClient
