import LanguageClient.Engine.State

/-!
Promises, tasks, groups and timers. What is ready to run stands in a queue, first come first served.
Settling a promise puts those who wait for it at the end of the queue.
-/

namespace LanguageClient.Engine

/-! ### The journal -/

def log (level : Level) (message : String) (e : Engine) : Engine :=
  { e with journal := e.journal.write level message }

/-- Adds to what has happened. -/
def note (event : Event) (e : Engine) : Engine := { e with history := e.history ++ [event] }

/-! ### Promises -/

/-- Puts a job at the end of the queue. -/
def enqueue (job : Job) (e : Engine) : Engine := { e with ready := e.ready ++ [job] }

/-- Promises something. -/
def promise (r : Ref) (e : Engine) : Engine := { e with promises := e.promises.put r {} }

/-- A new promise of some kind, and its number. -/
def newPromise (kind : Nat → Ref) (e : Engine) : Nat × Engine :=
  (e.nextRef, { e with nextRef := e.nextRef + 1 }.promise (kind e.nextRef))

/-- How a promise came out, if it is settled. -/
def outcome? (r : Ref) (e : Engine) : Option Outcome := (e.promises.get? r).bind (·.outcome)

def isSettled (r : Ref) (e : Engine) : Bool := (e.outcome? r).isSome

/-- Settles a promise that is still open, and puts its listeners in the queue. -/
def settle (r : Ref) (o : Outcome) (e : Engine) : Engine :=
  match e.promises.get? r with
  | some ⟨none, listeners⟩ =>
    { e with
      promises := e.promises.put r ⟨some o, []⟩
      ready := e.ready ++ listeners.map (Job.call · r) }
  | _ => e

/-- Tells a listener when a promise is settled, also if it already is. -/
def listen (r : Ref) (l : Listener) (e : Engine) : Engine :=
  match e.promises.get? r with
  | some ⟨none, listeners⟩ => { e with promises := e.promises.put r ⟨none, listeners ++ [l]⟩ }
  | some ⟨some _, _⟩ => e.enqueue (.call l r)
  | none => e

/-- Tells a listener no more. -/
def unlisten (r : Ref) (l : Listener) (e : Engine) : Engine :=
  { e with promises := e.promises.update r fun p =>
      { p with listeners := p.listeners.filter (· ≠ l) } }

/-! ### Timers -/

/-- Sets a timer that rings after some milliseconds. -/
def setTimer (after : Int) (alarm : Alarm) (e : Engine) : Nat × Engine :=
  (e.nextRef, { e with
    nextRef := e.nextRef + 1
    timers := e.timers ++ [⟨e.nextRef, e.now + after, alarm⟩] })

def dropTimer (id : Nat) (e : Engine) : Engine :=
  { e with timers := e.timers.filter (·.id ≠ id) }

/-! ### Tasks -/

/-- Starts a task, which first runs when its turn comes. -/
def spawn (op : Operation) (e : Engine) : Ref × Engine :=
  let (n, e) := e.newPromise .task
  (.task n, { e with tasks := e.tasks.put n { frames := [.begin op] } }.enqueue (.step n))

/-- Asks a task to stop where it stands. -/
def requestCancel (n : Nat) (e : Engine) : Engine :=
  { e with tasks := e.tasks.update n fun t => { t with cancelRequested := true } }

/-- Cancels a promise, a task or a group, and says whether there was anything to cancel. A task that
    waits is cancelled through what it waits for. The bound limits how far this is followed. -/
def cancelWithin : Nat → Ref → Engine → Bool × Engine
  | 0, _, e => (false, e)
  | bound + 1, r, e =>
    if e.isSettled r then (false, e)
    else
      match r with
      | .task n =>
        match (e.tasks.get? n).bind (·.waiting) with
        | none => (true, e.requestCancel n)
        | some p =>
          match cancelWithin bound p e with
          | (true, e) => (true, e)
          | (false, e) => (true, e.requestCancel n)
      | .group n =>
        let (any, e) := (((e.groups.get? n).map (·.members)).getD []).foldl (fun (any, e) m =>
          let (hit, e) := cancelWithin bound m e
          (any || hit, e)) (false, e)
        (any, if any then
            { e with groups := e.groups.update n fun g => { g with cancelRequested := true } }
          else e)
      | r => (true, e.settle r .cancelled)

def cancel (r : Ref) (e : Engine) : Bool × Engine := cancelWithin (e.nextRef + 1) r e

/-- Waits for tasks together. -/
def gather (members : List Ref) (tolerant : Bool) (e : Engine) : Ref × Engine :=
  let (n, e) := e.newPromise .group
  let e := { e with groups := e.groups.put n { members, tolerant } }
  (.group n, members.foldl (fun e m => e.listen m (.memberOver n)) e)

/-- One task of a group has ended. -/
def memberOver (n : Nat) (source : Ref) (e : Engine) : Engine :=
  match e.groups.get? n with
  | none => e
  | some group =>
    let finished := group.finished + 1
    let e := { e with groups := e.groups.put n { group with finished } }
    if e.isSettled (.group n) then e
    else
      match group.tolerant, e.outcome? source with
      | false, some .cancelled => e.settle (.group n) .cancelled
      | false, some (.failure f) => e.settle (.group n) (.failure f)
      | _, _ =>
        if finished < group.members.length then e
        else if group.cancelRequested then e.settle (.group n) .cancelled
        else e.settle (.group n) (.value .nothing)

/-! ### Runs -/

/-- Goes on with an outcome that is there, or leaves a frame where the task waits. -/
def andThen (run : Run) (frame : Frame) (next : Outcome → Engine → Run) : Run :=
  match run with
  | (e, .done o) => next o e
  | (e, .wait p frames) => (e, .wait p (frames ++ [frame]))
  | (e, .pause frames) => (e, .pause (frames ++ [frame]))

/-- Ends with an answer. -/
def answer (v : Value) (e : Engine) : Run := (e, .done (.value v))

/-- Ends with a failure. -/
def fail (f : Failure) (e : Engine) : Run := (e, .done (.failure f))

/-- Ends as something else did. -/
def finish (o : Outcome) (e : Engine) : Run := (e, .done o)

/-- Waits some milliseconds; without any, only lets the others go first. -/
def sleep (ms : Int) (e : Engine) : Run :=
  if ms ≤ 0 then (e, .pause [])
  else
    let (n, e) := e.newPromise .nap
    let (_, e) := e.setTimer ms (.release n)
    (e, .wait (.nap n) [])

/-! ### Documents -/

/-- A document by its index. -/
def session? (doc : Nat) (e : Engine) : Option Session := e.sessions[doc]?

/-- Changes a document. -/
def onSession (doc : Nat) (f : Session → Session) (e : Engine) : Engine :=
  { e with sessions := e.sessions.modify doc f }

/-- Does something with a document, which has to be there. -/
def withSession (doc : Nat) (e : Engine) (f : Session → Run) : Run :=
  match e.session? doc with
  | some s => f s
  | none => e.fail (.outOfRange "list index out of range")

end LanguageClient.Engine
