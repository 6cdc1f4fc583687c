import LanguageClient.Engine.Publish
import LanguageClient.Engine.Rename

/-!
Running the engine: the first job of the queue is run until the queue is empty, and timers ring when
the clock is moved on.
-/

namespace LanguageClient.Engine

/-- Begins an operation. -/
def perform : Operation → Engine → Run
  | .handshake, e => e.handshake
  | .read, e => e.read
  | .close, e => e.close
  | .disconnect, e => e.disconnect
  | .reply id, e => e.reply id
  | .waitReady, e => e.waitReady
  | .request method params limit, e => e.request method params limit
  | .notify method params, e => e.notify method params
  | .debounced slot delay work, e => e.debounced slot delay work
  | .openDocument doc text, e => e.openDocument doc text
  | .flush doc text, e => e.flush doc text
  | .flushPending doc, e => e.flushPending doc
  | .drain doc, e => e.drain doc
  | .processDiagnostics doc params, e => e.processDiagnostics doc params
  | .present doc diagnostics source fallback superseding, e =>
    e.present doc diagnostics source fallback superseding
  | .fetchActions doc source diagnostic, e => e.fetchActions doc source diagnostic
  | .codeActions doc range codes, e => e.codeActions doc range codes
  | .hover doc pos, e => e.hover doc pos
  | .completion doc pos kind character, e => e.completion doc pos kind character
  | .completeAt doc offset explicit, e => e.completeAt doc offset explicit
  | .completionInfo c resolvable, e => e.completionInfo c resolvable
  | .definition doc pos, e => e.definition doc pos
  | .prepareRename doc pos, e => e.prepareRename doc pos
  | .rename doc pos newName current, e => e.rename doc pos newName current
  | .requestRename doc pos newName, e => e.requestRename doc pos newName
  | .signatureHelp doc pos character, e => e.signatureHelp doc pos character
  | .showSignature doc pos character, e => e.showSignature doc pos character

/-- Goes on at a frame with the outcome that was waited for. -/
def resume : Frame → Outcome → Engine → Run
  | .begin _, .cancelled, e => e.finish .cancelled
  | .begin op, _, e => e.perform op
  | .gate purpose message, o, e => gateOpened purpose message o e
  | .requestAnswered id method limit waiter timer, o, e =>
    requestAnswered id method limit waiter timer o e
  | .requestExpired id method limit, o, e => requestExpired id method limit o e
  | .requestAborted id, _, e => e.endRequest id .cancelled
  | .handshakeAwaited, o, e => handshakeAwaited (fun o e => e.finish o) o e
  | .handshakeAnswered, o, e => handshakeAnswered o e
  | .handshakeAnnounced result, o, e => handshakeAnnounced result o e
  | .received, o, e => received o e
  | .lingered, o, e => lingered o e
  | .hungUp, o, e => hungUp o e
  | .readerJoined, o, e => readerJoined o e
  | .delayOver slot work, o, e => delayOver slot work o e
  | .workDone, o, e => workDone o e
  | .rehearsed name fails, o, e => rehearsed name fails o e
  | .readyToOpen doc, o, e => handshakeAwaited (readyToOpen doc) o e
  | .openSent doc sent, o, e => openSent doc sent o e
  | .changeSent, o, e => changeSent o e
  | .drained doc, o, e => drained doc o e
  | .actionsGathered doc diagnostics fetches fallback superseding, o, e =>
    actionsGathered doc diagnostics fetches fallback superseding o e
  | .actionsFetched diagnostic, o, e => actionsFetched diagnostic o e
  | .preparedActions doc entry, o, e => givePrepared doc entry o e
  | .hoverFlushed doc generation pos, o, e => hoverFlushed doc generation pos o e
  | .hoverAnswered doc generation pos, o, e => hoverAnswered doc generation pos o e
  | .completionFlushed doc generation pos kind character, o, e =>
    completionFlushed doc generation pos kind character o e
  | .completionAnswered doc generation pos, o, e => completionAnswered doc generation pos o e
  | .completionResolved c, o, e => completionResolved c o e
  | .definitionAnswered doc, o, e => definitionAnswered doc o e
  | .renamePrepared doc pos b, o, e => renamePrepared doc pos b o e
  | .renameAnswered doc, o, e => renameAnswered doc o e
  | .renameTargeted doc pos newName, o, e => renameTargeted doc pos newName o e
  | .signatureFlushed doc generation pos character, o, e =>
    signatureFlushed doc generation pos character o e
  | .signatureAnswered doc generation pos, o, e => signatureAnswered doc generation pos o e
  | .signatureShown doc, o, e => signatureShown doc o e

/-- Hands an outcome to the innermost frame, and each result to the next frame out, until the task
    waits again or ends. -/
def unwind : List Frame → Outcome → Engine → Run
  | [], o, e => e.finish o
  | frame :: outer, o, e =>
    match resume frame o e with
    | (e, .done o) => unwind outer o e
    | (e, .wait p frames) => (e, .wait p (frames ++ outer))
    | (e, .pause frames) => (e, .pause (frames ++ outer))

/-- Keeps the frames of a task that has run, and what it waits for. -/
def keep (n : Nat) (frames : List Frame) (waiting : Option Ref) (e : Engine) : Engine :=
  let stop := ((e.tasks.get? n).map (·.cancelRequested)).getD false
  { e with tasks := e.tasks.put n { frames, waiting, cancelRequested := stop } }

/-- A task that has to wait is told when it can go on. If it was asked to stop meanwhile, what it
    waits for is cancelled. -/
def park (n : Nat) (p : Ref) (frames : List Frame) (e : Engine) : Engine :=
  let stop := ((e.tasks.get? n).map (·.cancelRequested)).getD false
  let e := (e.keep n frames (some p)).listen p (.wake n)
  if stop then
    match e.cancel p with
    | (true, e) =>
      { e with tasks := e.tasks.update n fun t => { t with cancelRequested := false } }
    | (false, e) => e
  else e

/-- Runs a task with an outcome until it waits again or ends. While it runs it has no frames. -/
def runTask (n : Nat) (task : Task) (o : Outcome) (e : Engine) : Engine :=
  let o := if task.cancelRequested then .cancelled else o
  let e := { e with tasks := e.tasks.put n { frames := [] } }
  match unwind task.frames o e with
  | (e, .done o) => { e with tasks := e.tasks.erase n }.settle (.task n) o
  | (e, .wait p frames) => e.park n p frames
  | (e, .pause frames) => (e.keep n frames none).enqueue (.step n)

/-- Lets a task go on that waits for the given promise, or for its turn if none is given. -/
def resumeTask (n : Nat) (source : Option Ref) (e : Engine) : Engine :=
  match e.tasks.get? n with
  | none => e
  | some task =>
    if task.waiting = source then
      e.runTask n task ((source.bind e.outcome?).getD (.value .nothing))
    else e

/-- Tells a listener that a promise is settled. -/
def call (l : Listener) (source : Ref) (e : Engine) : Engine :=
  match l with
  | .wake n => e.resumeTask n (some source)
  | .release n => e.settle (.nap n) (.value .nothing)
  | .handshakeOver => e.handshakeOver source
  | .backgroundOver doc => e.backgroundOver doc source
  | .memberOver n => e.memberOver n source

/-- Runs a job. -/
def runJob (job : Job) (e : Engine) : Engine :=
  match job with
  | .step n => e.resumeTask n none
  | .call l source => e.call l source
  | .ring (.release n) => e.settle (.nap n) (.value .nothing)
  | .ring (.deliver frame) => e.arrive (.frame frame)

/-- Runs jobs until none is ready, but no more than the bound says. -/
def quiesce : Nat → Engine → Engine
  | 0, e => e
  | bound + 1, e =>
    match e.ready with
    | [] => e
    | job :: rest => quiesce bound ({ e with ready := rest }.runJob job)

/-- The earliest time at which a timer rings. -/
def nextDue? (e : Engine) : Option Int :=
  e.timers.foldl (fun best t =>
    match best with
    | none => some t.due
    | some b => some (min b t.due)) none

/-- Moves the clock to a time and lets the timers ring that are due then, in the order in which they
    were set. -/
def ringAt (time : Int) (e : Engine) : Engine :=
  let (due, later) := e.timers.partition (·.due ≤ time)
  { e with now := time, timers := later, ready := e.ready ++ due.map (Job.ring ·.alarm) }

/-- Moves the clock on to a time, from one ringing of timers to the next. After each, everything runs
    that can. -/
def advanceTo (jobs : Nat) : Nat → Int → Engine → Engine
  | 0, time, e => { e with now := time }
  | bound + 1, time, e =>
    match e.nextDue? with
    | none => { e with now := time }
    | some due =>
      if time < due then { e with now := time }
      else advanceTo jobs bound time ((e.ringAt due).quiesce jobs)

end LanguageClient.Engine
