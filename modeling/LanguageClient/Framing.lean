import LanguageClient.Failure
import LanguageClient.Text.Integer
import LanguageClient.Text.Slice

/-!
Messages on a stream of bytes. Each message is preceded by a block of header lines that ends with an
empty line; the line `Content-Length` gives the size of the message in bytes.

    Content-Length: 17 ␍␊ ␍␊ {"jsonrpc":"2.0"}

A block without that line is dropped and the next one is looked for. Bytes are kept until a whole
message is there, so it does not matter how the stream is cut.
-/

namespace LanguageClient.Framing

/-- Bytes of a stream. -/
abbrev Bytes := List UInt8

/-- A text as bytes (UTF-8). -/
def encodeText (s : List Char) : Bytes := s.flatMap String.utf8EncodeChar

/-- The text of bytes (UTF-8), if they are a text. -/
def decodeText? (bs : Bytes) : Option (List Char) := bs.toByteArray.utf8Decode?.map Array.toList

/-- A character below U+0080 as a byte. -/
def byteOf (c : Char) : UInt8 := c.toNat.toUInt8

/-- The header block of a message of the given size. -/
def header (size : Nat) : Bytes :=
  ("Content-Length: " ++ toString size ++ "\r\n\r\n").toList.map byteOf

/-- A message with its header block. -/
def encode (s : List Char) : Bytes :=
  let body := encodeText s
  header body.length ++ body

/-- The bytes before the first empty line, and those after it. -/
def splitHeader? : Bytes → Option (Bytes × Bytes)
  | [] => none
  | 13 :: 10 :: 13 :: 10 :: rest => some ([], rest)
  | b :: rest => (splitHeader? rest).map fun (h, r) => (b :: h, r)

/-- Header bytes as characters; what is not ASCII becomes the replacement mark. -/
def headerText (bs : Bytes) : List Char :=
  bs.map fun b => if b < 128 then Char.ofNat b.toNat else Char.ofNat 0xFFFD

/-- The lines of a header block. -/
def headerLines : List Char → List (List Char)
  | [] => [[]]
  | '\r' :: '\n' :: rest => [] :: headerLines rest
  | c :: rest =>
    match headerLines rest with
    | line :: lines => (c :: line) :: lines
    | [] => [[c]]

/-- What follows the name and colon of a `Content-Length` line, in any case of letters. -/
def lengthField? (line : List Char) : Option (List Char) :=
  let name := "content-length:".toList
  if name.isPrefixOf (line.map Char.toLower) then some (line.drop name.length) else none

/-- The size that a header block gives: none if it has no such line, a failure if the first such
    line gives no whole number. -/
def contentLength (block : Bytes) : Except Failure (Option Int) :=
  match (headerLines (headerText block)).findSome? lengthField? with
  | none => .ok none
  | some field =>
    let field := Text.trim field
    match Text.readInteger field with
    | .ok n => .ok (some n)
    | .error message => .error (.invalid message)

theorem splitHeader?_length {bs h r : Bytes} (e : splitHeader? bs = some (h, r)) :
    bs.length = h.length + 4 + r.length := by
  fun_induction splitHeader? bs generalizing h r with
  | case1 => simp at e
  | case2 rest => simp_all; omega
  | case3 b rest _ ih =>
    simp only [Option.map_eq_some_iff, Prod.mk.injEq, Prod.exists] at e
    obtain ⟨h', r', he, rfl, rfl⟩ := e
    have := ih he
    simp; omega

/-- What stands at the front of a stream once blocks without a size are dropped. -/
inductive Front where
  /-- No complete header block. -/
  | noHeader
  /-- A block that gives a size: the block, the size, and the bytes after the block. -/
  | sized (block : Bytes) (size : Int) (rest : Bytes)
  /-- A block whose size is no number. -/
  | bad (cause : Failure)

/-- Drops blocks without a size. The bytes that remain start with what the front describes. -/
def dropJunk (bs : Bytes) : Front × Bytes :=
  match h : splitHeader? bs with
  | none => (.noHeader, bs)
  | some (block, rest) =>
    match contentLength block with
    | .error e => (.bad e, bs)
    | .ok (some size) => (.sized block size rest, bs)
    | .ok none =>
      have : rest.length < bs.length := by have := splitHeader?_length h; omega
      dropJunk rest
termination_by bs.length

/-- The result of trying to cut one message off the front. -/
inductive Cut where
  /-- More bytes are needed. -/
  | waiting
  /-- A message, and the bytes after it. -/
  | message (text : List Char) (rest : Bytes)
  | failed (cause : Failure)

/-- Where a message of a sized block lies in the stream: its bytes and those after it. With a size
    below zero the end is counted as for any cut, so the rest may reach back into the block. -/
def bodyOf (bs block : Bytes) (size : Int) (rest : Bytes) : Bytes × Bytes :=
  if 0 ≤ size then (rest.take size.toNat, rest.drop size.toNat)
  else
    let start : Int := block.length + 4
    (Text.slice bs start (start + size), Text.sliceFrom bs (start + size))

/-- Tries to cut one message off the front, and gives the bytes left if none is cut. -/
def cut (bs : Bytes) : Cut × Bytes :=
  match dropJunk bs with
  | (.noHeader, kept) => (.waiting, kept)
  | (.bad e, kept) => (.failed e, kept)
  | (.sized block size rest, kept) =>
    if (rest.length : Int) < size then (.waiting, kept)
    else
      let (body, after) := bodyOf kept block size rest
      match decodeText? body with
      | some text => (.message text after, after)
      | none => (.failed (.undecodable "invalid UTF-8"), kept)

/-- How a run of cuts ended. -/
inductive Ending where
  /-- More bytes are needed. -/
  | waiting
  | failed (cause : Failure)
  /-- A block with a size below zero was cut off without using up any bytes, so the same message
      would be cut off again and again. -/
  | endless

/-- The messages cut off in a row, the ending and the bytes left. -/
structure Run where
  messages : List (List Char)
  ending : Ending
  left : Bytes

/-- Cuts off messages as long as there are any. -/
def cutAll (bs : Bytes) : Run :=
  match cut bs with
  | (.waiting, kept) => ⟨[], .waiting, kept⟩
  | (.failed e, kept) => ⟨[], .failed e, kept⟩
  | (.message text rest, _) =>
    if rest.length < bs.length then
      let run := cutAll rest
      { run with messages := text :: run.messages }
    else ⟨[text], .endless, rest⟩
termination_by bs.length

/-- Adds bytes to those kept from before and cuts off the messages that are then complete. -/
def feed (kept bs : Bytes) : Run := cutAll (kept ++ bs)

end LanguageClient.Framing
