import LanguageClient.Engine.Channel

/-!
Requests and notifications. A request waits for its answer no longer than its time limit; however
it ends, it is taken off the list of those that wait. A notification is sent and forgotten: a failure
to send it is only recorded.

    request ──▶ gate ──▶ sent ──▶ answered ──▶ ended
                  │        │          │
                  └────────┴──────────┴── failed, cancelled, out of time
-/

namespace LanguageClient.Engine

/-- Changes the client. -/
def onClient (f : Client → Client) (e : Engine) : Engine := { e with client := f e.client }

/-! ### Waiting for an answer -/

/-- Begins a request under a new id. -/
def enroll (method : String) (e : Engine) : Nat × Engine :=
  let (id, client) := e.client.enroll method
  (id, ({ e with client }.promise (.answer id)).note (.called id method))

/-- Ends a request. -/
def endRequest (id : Nat) (o : Outcome) (e : Engine) : Run :=
  ((e.onClient (·.discharge id)).note (.returned id o)).finish o

/-- Gives up an answer and waits until that has been noticed. -/
def abandon (id : Nat) (frame : Frame) (e : Engine) : Run :=
  let (n, e) := e.newPromise .nap
  let e := e.listen (.answer id) (.release n)
  (e.settle (.answer id) .cancelled, .wait (.nap n) [frame])

/-- Waits for the answer to a request that has been sent. -/
def awaitAnswer (id : Nat) (method : String) (limit : Int) (e : Engine) : Run :=
  if limit ≤ 0 then
    match e.outcome? (.answer id) with
    | some o => e.endRequest id o
    | none => e.abandon id (.requestExpired id method limit)
  else
    let (waiter, e) := e.newPromise .nap
    let (timer, e) := e.setTimer limit (.release waiter)
    (e.listen (.answer id) (.release waiter),
      .wait (.nap waiter) [.requestAnswered id method limit waiter timer])

/-- The wait for an answer is over: it is there, the time limit has passed, or the request was
    cancelled. An answer that is there counts even then. -/
def requestAnswered (id : Nat) (method : String) (limit : Int) (waiter timer : Nat) (o : Outcome)
    (e : Engine) : Run :=
  let e := e.dropTimer timer
  match e.outcome? (.answer id), o with
  | some o, _ => e.endRequest id o
  | none, .cancelled => (e.unlisten (.answer id) (.release waiter)).abandon id (.requestAborted id)
  | none, _ =>
    (e.unlisten (.answer id) (.release waiter)).abandon id (.requestExpired id method limit)

/-- An answer has been given up because the time limit has passed. -/
def requestExpired (id : Nat) (method : String) (limit : Int) : Outcome → Engine → Run
  | .cancelled, e => e.endRequest id .cancelled
  | _, e => e.endRequest id (.failure (.timedOut method limit))

/-! ### Sending -/

/-- A failure to send a request counts as a closed connection. -/
def sendFailure (method : String) : Failure → Failure
  | .transportClosed m => .transportClosed m
  | f =>
    if f.isChannel then .transportClosed ("failed to send " ++ method ++ ": " ++ f.message) else f

/-- A message has been sent, or has failed to be. -/
def passed : Purpose → Except Failure Unit → Engine → Run
  | .request id method limit, .ok (), e =>
    (e.log .debug ("--> " ++ method ++ " (" ++ toString id ++ ")")).awaitAnswer id method limit
  | .request id method _, .error f, e => e.endRequest id (.failure (sendFailure method f))
  | .notify method, .ok (), e => (e.log .debug ("--> " ++ method)).answer .nothing
  | .notify method, .error f, e =>
    if f.isChannel then
      (e.log .error ("failed to send " ++ method ++ ": " ++ f.message)).answer .nothing
    else e.fail f
  | .reply _, .ok (), e => e.answer .nothing
  | .reply id, .error f, e =>
    if f.isChannel then
      (e.log .error ("failed to answer server request " ++ id.shown ++ ": " ++ f.message)).answer
        .nothing
    else e.fail f

/-- Lets a message pass. While messages are held up, waits first. -/
def pass (purpose : Purpose) (message : Json) (e : Engine) : Run :=
  if e.channel.blocked then
    let (n, e) := e.newPromise .gate
    (e.onChannel fun c => { c with gateWaiters := c.gateWaiters ++ [n] },
      .wait (.gate n) [.gate purpose message])
  else
    let (result, e) := e.transmit message
    passed purpose result e

/-- Sends a message. -/
def send (purpose : Purpose) (message : Json) (e : Engine) : Run :=
  (e.note (.handed message)).pass purpose message

/-- The sender of a message was cancelled before the message could pass. -/
def withdrawn : Purpose → Engine → Run
  | .request id _ _, e => e.endRequest id .cancelled
  | _, e => e.finish .cancelled

/-- The gate has opened for a message, or the sender was cancelled. -/
def gateOpened (purpose : Purpose) (message : Json) : Outcome → Engine → Run
  | .cancelled, e => withdrawn purpose e
  | _, e => e.pass purpose message

/-- Sends a request and waits for its answer. A limit of zero stands for the client's own. -/
def request (method params : Json) (limit : Int) (e : Engine) : Run :=
  match Message.requestMethod method with
  | .error f => e.fail f
  | .ok name =>
    if e.client.closed then
      e.fail (.transportClosed ("transport closed, cannot send " ++ name))
    else
      let limit := if limit = 0 then e.client.options.limit else limit
      let (id, e) := e.enroll name
      e.send (.request id name limit) (Message.request (.nat id) method params)

/-- Sends a notification. On a closed connection it is dropped. -/
def notify (method params : Json) (e : Engine) : Run :=
  match Message.notifyMethod method with
  | .error f => e.fail f
  | .ok name =>
    if e.client.closed then
      (e.log .warning ("transport closed, dropping notification " ++ name)).answer .nothing
    else e.send (.notify name) (Message.notification method params)

/-- Sends a notification that speaks for a document. -/
def notifyFor (doc : Nat) (method : String) (params : Json) (e : Engine) : Run :=
  let message := Message.notification (.str method) params
  let e := if e.client.closed then e else e.note (.told doc message)
  e.notify (.str method) params

/-- Answers a request of the server with nothing. -/
def reply (id : Json) (e : Engine) : Run := e.send (.reply id) (Message.response id .null)

end LanguageClient.Engine
