import LanguageClient.Framing
import LanguageClient.Transport.Basic
import LanguageClient.Transport.Directory

/-!
A server that runs as a process of its own. Messages are written to its standard input and read from
its standard output, each with a header that gives its size. Closing asks the process to end, and
ends it by force if it has not done so in time.
-/

namespace LanguageClient.Transport

open Framing (Bytes)

/-- The server's process. -/
structure Program where
  /-- What is still to be read, one piece per read. An empty piece stands for the end. -/
  output : List Bytes := []
  exitCode : Option Int := none
  /-- Goes on when asked to end. -/
  stubborn : Bool := false
  /-- What follows each writing. -/
  writeFailure : Option Failure := none

namespace Program

/-- How many bytes are read at once. -/
def readSize : Nat := 4096

/-- Cuts bytes into pieces that can be read at once. -/
def cutPieces (bs : Bytes) : List Bytes :=
  if bs.length ≤ readSize then [bs]
  else bs.take readSize :: cutPieces (bs.drop readSize)
termination_by bs.length
decreasing_by simp only [List.length_drop, readSize] at *; omega

end Program

/-- A transport to a server's process. -/
structure Pipe where
  command : List String
  directory : Option String
  /-- How long the process may take to end, in milliseconds. -/
  patience : Int
  /-- The process that starting gives. -/
  program : Program
  process : Option Program := none
  kept : Bytes := []
  frames : List (List Char) := []
  closed : Bool := false
  now : Int := 0
  trace : Trace Bytes := {}

namespace Pipe

/-- Starts the process, unless it runs. -/
def start (p : Pipe) : Pipe :=
  match p.process with
  | some _ => p
  | none =>
    let command := String.intercalate " " p.command
    let directory := p.directory.getD "None"
    { p with
      process := some p.program
      trace := (p.trace.did ("exec " ++ command ++ " cwd=" ++ directory)).told
        ("started language server: " ++ command) }

/-- What a failure of writing means to the sender. -/
def writeFailure : Failure → Failure
  | .connection message | .transportClosed message =>
    .transportClosed ("language server stdin closed: " ++ message)
  | f => f

/-- Writes a frame. -/
def send (frame : List Char) (p : Pipe) : Except Failure Unit × Pipe :=
  match p.closed, p.process with
  | false, some process =>
    let p := { p with trace := p.trace.wrote (Framing.encode frame) }
    match process.writeFailure with
    | some f => (.error (writeFailure f), p)
    | none => (.ok (), p)
  | _, _ => (.error (.transportClosed "language server process not running"), p)

/-- Reads until there is a frame, and gives the frame, the frames after it, the bytes kept and what
    is still to be read. -/
def readFrame (kept : Bytes) :
    List Bytes → Except Failure (Option (List Char)) × List (List Char) × Bytes × List Bytes
  | [] => (.ok none, [], kept, [])
  | [] :: rest => (.ok none, [], kept, rest)
  | piece :: rest =>
    let run := Framing.feed kept piece
    match run.ending, run.messages with
    | .failed f, _ => (.error f, [], run.left, rest)
    | _, frame :: more => (.ok (some frame), more, run.left, rest)
    | _, [] => readFrame run.left rest

/-- The next frame, none at the end of the output. -/
def receive (p : Pipe) : Except Failure (Option (List Char)) × Pipe :=
  match p.frames with
  | frame :: more => (.ok (some frame), { p with frames := more })
  | [] =>
    match p.closed, p.process with
    | false, some process =>
      let (result, frames, kept, output) := readFrame p.kept process.output
      (result, { p with frames, kept, process := some { process with output } })
    | _, _ => (.ok none, p)

/-- Ends a process that still runs, by force if it does not end in time. Gives its exit code. -/
def stop (process : Program) (p : Pipe) : Int × Pipe :=
  match process.exitCode with
  | some code => (code, p)
  | none =>
    let p := { p with trace := p.trace.did "terminate" }
    if process.stubborn || p.patience ≤ 0 then
      let now := p.now + max 0 p.patience
      (-9, { p with now, trace := p.trace.did ("kill at " ++ toString now) })
    else (-15, p)

/-- Closes the transport and ends the process. -/
def close (p : Pipe) : Pipe :=
  if p.closed then p
  else
    let p := { p with closed := true }
    match p.process with
    | none => p
    | some process =>
      let (code, p) := stop process { p with trace := p.trace.did "stdin closed" }
      { p with
        process := none
        kept := []
        frames := []
        trace := p.trace.told ("language server exited with code " ++ toString code) }

end Pipe

end LanguageClient.Transport
