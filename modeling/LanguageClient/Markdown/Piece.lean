import LanguageClient.Markdown.Tag
import LanguageClient.Markdown.Target

/-!
Pieces of running text that hold no others: code, addresses in angle brackets, HTML and character
references. Each function takes its piece off the front of a text and gives the rest.
-/

namespace LanguageClient.Markdown

/-- Code between two runs of back quotes of the same length, and what follows it. -/
def codeEnd? (length : Nat) : Nat → List Char → Option (List Char × List Char)
  | 0, _ | _, [] => none
  | bound + 1, c :: rest =>
    if c = '\x60' then
      let run := (c :: rest).takeWhile (· == '\x60')
      let after := (c :: rest).drop run.length
      if run.length = length then some ([], after)
      else (codeEnd? length bound after).map fun (code, more) => (run ++ code, more)
    else (codeEnd? length bound rest).map fun (code, more) => (c :: code, more)

/-- The text of code: line feeds are blanks, and one blank on both sides does not count unless there
    are only blanks. -/
def codeText (s : List Char) : List Char :=
  let s := s.map fun c => if c = '\n' then ' ' else c
  if s.head? = some ' ' && s.getLast? = some ' ' && !s.all (· == ' ') then (s.drop 1).dropLast
  else s

/-- Back quotes at the front: the run, and the code if it is closed. -/
def takeCode (s : List Char) : List Char × Option (List Char × List Char) :=
  let run := s.takeWhile (· == '\x60')
  let rest := s.drop run.length
  (run, codeEnd? run.length rest.length rest)

/-- Takes off a final line feed. -/
def dropFinalFeed (s : List Char) : List Char := if s.getLast? = some '\n' then s.dropLast else s

/-- An address with a scheme. -/
def isAddress (s : List Char) : Bool :=
  match s with
  | c :: rest =>
    let scheme := rest.takeWhile fun c => isAlnum c || c == '+' || c == '.' || c == '-'
    match rest.drop scheme.length with
    | ':' :: tail =>
      c.isAlpha && 1 ≤ scheme.length && scheme.length ≤ 31
        && (dropFinalFeed tail).all fun c => 0x20 < c.toNat && c != '<' && c != '>'
    | _ => false
  | [] => false

/-- A label of a mail host. -/
def isMailLabel (s : List Char) : Bool :=
  1 ≤ s.length && s.length ≤ 63 && s.all (fun c => isAlnum c || c == '-')
    && s.head?.any isAlnum && s.getLast?.any isAlnum

/-- A mail address. -/
def isMail (s : List Char) : Bool :=
  let user := s.takeWhile fun c =>
    isAlnum c || ".!#$%&'*+/=?^_\x60\x7b|\x7d~-".toList.contains c
  match s.drop user.length with
  | '@' :: host => !user.isEmpty && (Text.split '.' (dropFinalFeed host)).all isMailLabel
  | _ => false

/-- The link of an address in angle brackets: the target, the text shown and what follows. -/
def autolink? : List Char → Option (Target × List Char × List Char)
  | '<' :: s =>
    let inside := s.takeWhile fun c => c != '<' && c != '>'
    match s.drop inside.length with
    | '>' :: rest =>
      let address := if isAddress inside then some inside
        else if isMail inside then some ("mailto:".toList ++ inside) else none
      match address.map Url.normalize with
      | some address =>
        if Url.isAllowed address then some (⟨address, []⟩, Url.shown inside, rest) else none
      | none => none
    | _ => none
  | _ => none

/-- HTML at the front of a text. -/
def inlineHtml? (s : List Char) : Option (List Char × List Char) :=
  if 2 < s.length then Tag.inline? s else none

/-- A character reference at the front of a text. -/
def reference? : List Char → Option (List Char × List Char)
  | '&' :: s => do
    let (name, rest) ← referenceName? s
    return (← referenceText? name, rest)
  | _ => none

end LanguageClient.Markdown
