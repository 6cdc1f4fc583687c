import LanguageClient.Markdown.Escape
import LanguageClient.Markdown.Punycode
import LanguageClient.Text.Blank
import LanguageClient.Text.Lower
import LanguageClient.Text.Slice

/-!
Addresses of links: taken apart so far that the name of a host can be written in ASCII, put together
again, and with every character that does not belong into an address replaced by its bytes.

    http: // user @ host : port /path?query#fragment
    scheme                      tail
-/

namespace LanguageClient.Markdown

/-- An address in its parts. -/
structure Url where
  /-- With its colon. -/
  scheme : List Char := []
  slashes : Bool := false
  user : List Char := []
  host : List Char := []
  port : List Char := []
  tail : List Char := []
  deriving DecidableEq, Repr

namespace Url

/-! ### Taking apart -/

/-- The scheme at the front, with its colon. -/
def schemeOf (s : List Char) : List Char :=
  let name := s.takeWhile fun c => isAlnum c || c == '.' || c == '+' || c == '-'
  match name, s.drop name.length with
  | _ :: _, ':' :: _ => name ++ [':']
  | _, _ => []

/-- Schemes whose addresses have no host. -/
def isHostless (scheme : List Char) : Bool := scheme = "javascript:".toList

/-- Schemes whose host follows two slashes. -/
def isSlashed (scheme : List Char) : Bool :=
  ["http:", "https:", "ftp:", "gopher:", "file:"].contains (String.ofList scheme)

/-- Ends the part that may hold a user and a host. -/
def endsAuthority (c : Char) : Bool := c == '/' || c == '?' || c == '#'

/-- Cannot be in the name of a host. -/
def endsHost (c : Char) : Bool :=
  endsAuthority c || "%;'\x7b\x7d|\\^\x60<>\" \r\n\t".toList.contains c

/-- Takes the user off the front: what stands before the last `@` of the authority. -/
def splitUser (s : List Char) : List Char × List Char :=
  let authority := s.takeWhile (!endsAuthority ·)
  let host := (authority.reverse.takeWhile (· ≠ '@')).reverse
  if host.length < authority.length then
    let user := authority.take (authority.length - host.length - 1)
    (user, s.drop (user.length + 1))
  else ([], s)

/-- Takes the host with its port off the front. A last colon is left. -/
def splitHost (s : List Char) : List Char × List Char :=
  let host := s.takeWhile (!endsHost ·)
  let host := if host.getLast? = some ':' then host.dropLast else host
  (host, s.drop host.length)

/-- Takes the port off the end of a host. -/
def splitPort (s : List Char) : List Char × List Char :=
  let digits := (s.reverse.takeWhile Char.isDigit).reverse
  let before := s.take (s.length - digits.length)
  if before.getLast? = some ':' then (before.dropLast, digits) else (s, [])

/-- Can be in a label of a host. -/
def isLabelChar (c : Char) : Bool := isAlnum c || c == '+' || c == '_' || c == '-'

/-- How long a label may be. -/
def labelLimit : Nat := 63

/-- A label that may stand in a host; characters beyond ASCII are written in ASCII later. -/
def isLabel (s : List Char) : Bool :=
  s.length ≤ labelLimit && s.all fun c => isLabelChar c || 127 < c.toNat

/-- The labels of a host up to the first that is none, and what remains of the host from there. -/
def splitLabels : List (List Char) → List (List Char) × Option (List (List Char))
  | [] => ([], none)
  | label :: rest =>
    if isLabel label then
      let (valid, others) := splitLabels rest
      (label :: valid, others)
    else
      let start := (label.takeWhile isLabelChar).take labelLimit
      ([start], some (label.drop start.length :: rest))

/-- The name of a host in brackets is a number. -/
def isNumbered (host : List Char) : Bool := host.head? = some '[' && host.getLast? = some ']'

/-- A host and what follows it, once what is no host has been given back. -/
def checkHost (host tail : List Char) : List Char × List Char :=
  if isNumbered host then ((host.drop 1).dropLast, tail)
  else
    match splitLabels (Text.split '.' host) with
    | (_, none) => (host, tail)
    | (valid, some others) => (['.'].intercalate valid, ['.'].intercalate others ++ tail)

/-- How long the name of a host may be. -/
def hostLimit : Nat := 255

/-- The parts of an address. -/
def parse (s : List Char) : Url :=
  let s := Text.trim s
  let scheme := schemeOf s
  let rest := s.drop scheme.length
  let hostless := isHostless scheme
  let slashes := "//".toList.isPrefixOf rest && !hostless
  let rest := if slashes then rest.drop 2 else rest
  if !hostless && (slashes || (!scheme.isEmpty && !isSlashed scheme)) then
    let (user, rest) := splitUser rest
    let (authority, rest) := splitHost rest
    let (host, port) := splitPort authority
    let (host, tail) := checkHost host rest
    let host := if hostLimit < host.length then [] else host
    { scheme, slashes, user, host, port, tail }
  else { scheme, slashes, tail := rest }

/-! ### Putting together -/

/-- The text of an address. -/
def format (u : Url) : List Char :=
  u.scheme ++ (if u.slashes then ['/', '/'] else [])
    ++ (if u.user.isEmpty then [] else u.user ++ ['@'])
    ++ (if u.host.contains ':' then '[' :: u.host ++ [']'] else u.host)
    ++ (if u.port.isEmpty then [] else ':' :: u.port) ++ u.tail

/-- Schemes whose hosts are written in ASCII. -/
def namesHost (scheme : List Char) : Bool :=
  ["", "http:", "https:", "mailto:"].contains (String.ofList scheme)

/-- The labels of a host; some scripts have a full stop of their own. -/
def labels (host : List Char) : List (List Char) :=
  Text.split '.' (host.map fun c => if c = '。' || c = '．' || c = '｡' then '.' else c)

/-- The mark of a label written in ASCII. -/
def labelMark : List Char := "xn--".toList

/-- A host in ASCII. -/
def asciiHost (host : List Char) : List Char :=
  ['.'].intercalate ((labels host).map fun label =>
    if label.any (0x7E < ·.toNat) then labelMark ++ Punycode.encode label else label)

/-- A host as it is shown. If a label cannot be read, the host stays as it is. -/
def shownHost (host : List Char) : List Char :=
  let read := (labels host).mapM fun label =>
    if labelMark.isPrefixOf label then Punycode.decode? (Text.lower (label.drop labelMark.length))
    else some label
  match read with
  | some labels => ['.'].intercalate labels
  | none => host

/-- Rewrites the host of an address whose scheme names one. -/
def onHost (f : List Char → List Char) (u : Url) : Url :=
  if !u.host.isEmpty && namesHost u.scheme then { u with host := f u.host } else u

/-! ### Bytes -/

/-- A hexadecimal digit. -/
def hexDigit (n : Nat) : Char := if n < 10 then Char.ofNat (0x30 + n) else Char.ofNat (0x41 + n - 10)

/-- A byte by its number. -/
def byteText (b : UInt8) : List Char := ['%', hexDigit (b.toNat / 16), hexDigit (b.toNat % 16)]

/-- Stands for itself in an address. -/
def isPlain (c : Char) : Bool := isAlnum c || ";/?:@&=+$,-_.!~*'()#".toList.contains c

/-- Is the text the number of a byte? -/
def isByte (a b : Char) : Bool := (digit? 16 a).isSome && (digit? 16 b).isSome

/-- Replaces what cannot stand in an address by its bytes. Bytes that are already written by their
    numbers stay. -/
def encode : List Char → List Char
  | '%' :: a :: b :: rest =>
    if isByte a b then '%' :: a :: b :: encode rest else "%25".toList ++ encode (a :: b :: rest)
  | c :: rest =>
    (if isPlain c then [c] else (String.utf8EncodeChar c).flatMap byteText) ++ encode rest
  | [] => []

/-- The bytes at the front that are written by their numbers. -/
def leadingBytes : List Char → List UInt8
  | '%' :: a :: b :: rest =>
    match digit? 16 a, digit? 16 b with
    | some x, some y => (x * 16 + y).toUInt8 :: leadingBytes rest
    | _, _ => []
  | _ => []

/-- How many bytes a character has whose first byte is given. -/
def sequenceLength (b : UInt8) : Nat :=
  if b &&& 0xE0 = 0xC0 then 2 else if b &&& 0xF0 = 0xE0 then 3 else if b &&& 0xF8 = 0xF0 then 4
  else 1

/-- The text of bytes. Bytes that are no character become replacement marks, and characters with a
    meaning in an address stay numbers. -/
def bytesText : Nat → List UInt8 → List Char
  | 0, _ | _, [] => []
  | bound + 1, b :: rest =>
    if b < 128 then
      let c := Char.ofNat b.toNat
      (if ";/?:@&=+$,#%".toList.contains c then byteText b else [c]) ++ bytesText bound rest
    else
      let size := sequenceLength b
      let sequence := b :: rest.take (size - 1)
      if 1 < size && sequence.length = size && sequence.tail.all (· &&& 0xC0 = 0x80) then
        let text := match sequence.toByteArray.utf8Decode? with
          | some text => text.toList
          | none => List.replicate size (Char.ofNat 0xFFFD)
        text ++ bytesText bound (rest.drop (size - 1))
      else Char.ofNat 0xFFFD :: bytesText bound rest

/-- Replaces bytes written by their numbers by the characters they are; `skip` characters are still
    to be passed over. -/
def decodeFrom (skip : Nat) : List Char → List Char
  | [] => []
  | c :: rest =>
    match skip with
    | n + 1 => decodeFrom n rest
    | 0 =>
      match leadingBytes (c :: rest) with
      | [] => c :: decodeFrom 0 rest
      | bytes => bytesText bytes.length bytes ++ decodeFrom (3 * bytes.length - 1) rest

/-! ### Addresses of links -/

/-- An address as a link has it. The brackets around the number of a host are no bytes. -/
def normalize (s : List Char) : List Char :=
  let u := (parse s).onHost asciiHost
  if u.host.contains ':' then
    encode (format { u with host := [], port := [], tail := [] })
      ++ '[' :: encode u.host ++ ']' :: encode (format { port := u.port, tail := u.tail })
  else encode u.format

/-- An address as it is shown. -/
def shown (s : List Char) : List Char := decodeFrom 0 ((parse s).onHost shownHost).format

/-- Is an address one that a link may have? Scripts and local files are refused, and data other than
    images. -/
def isAllowed (s : List Char) : Bool :=
  let s := Text.lower (Text.trim s)
  let starts (word : String) : Bool := word.toList.isPrefixOf s
  if ["vbscript:", "javascript:", "file:", "data:"].any starts then
    ["data:image/gif;", "data:image/png;", "data:image/jpeg;", "data:image/webp;"].any starts
  else true

end Url

end LanguageClient.Markdown
