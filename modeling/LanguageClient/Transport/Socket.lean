import LanguageClient.Framing
import LanguageClient.Transport.Basic

/-!
A server that is reached through a socket. Each message is a frame of its own.
-/

namespace LanguageClient.Transport

/-- What arrives through a socket: a text, or bytes that should be one. -/
inductive SocketFrame where
  | text (content : List Char)
  | bytes (content : Framing.Bytes)

/-- The text of a frame. -/
def SocketFrame.decode : SocketFrame → Except Failure (List Char)
  | .text content => .ok content
  | .bytes content =>
    match Framing.decodeText? content with
    | some content => .ok content
    | none => .error (.undecodable "invalid UTF-8")

/-- The other end of a socket. -/
structure Peer where
  frames : List SocketFrame := []
  /-- Takes no more frames. -/
  hungUp : Bool := false

/-- A transport through a socket. -/
structure Socket where
  uri : String
  /-- The peer that connecting gives. -/
  server : Peer
  connection : Option Peer := none
  closed : Bool := false
  trace : Trace (List Char) := {}

namespace Socket

/-- Connects, unless there is a connection. -/
def start (s : Socket) : Socket :=
  match s.connection with
  | some _ => s
  | none =>
    { s with
      connection := some s.server
      trace := (s.trace.did ("connect " ++ s.uri)).told
        ("connected to language server at " ++ s.uri) }

/-- Sends a frame. -/
def send (frame : List Char) (s : Socket) : Except Failure Unit × Socket :=
  match s.closed, s.connection with
  | false, some peer =>
    if peer.hungUp then
      (.error (.transportClosed
        "language server connection closed: no close frame received or sent"), s)
    else (.ok (), { s with trace := s.trace.wrote frame })
  | _, _ => (.error (.transportClosed "language server connection not open"), s)

/-- The next frame, none after the last one. -/
def receive (s : Socket) : Except Failure (Option (List Char)) × Socket :=
  match s.closed, s.connection with
  | false, some peer =>
    match peer.frames with
    | [] => (.ok none, s)
    | frame :: rest =>
      (frame.decode.map some, { s with connection := some { peer with frames := rest } })
  | _, _ => (.ok none, s)

/-- Closes the connection. -/
def close (s : Socket) : Socket :=
  if s.closed then s
  else
    let s := { s with closed := true }
    match s.connection with
    | none => s
    | some _ =>
      { s with
        connection := none
        trace := (s.trace.did "closed").told ("closed connection to " ++ s.uri) }

end Socket

end LanguageClient.Transport
