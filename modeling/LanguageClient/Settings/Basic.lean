import LanguageClient.Failure
import LanguageClient.Table
import LanguageClient.Text.Integer
import LanguageClient.Text.Lower

/-!
Settings: sections of options, and default options that every section shows unless it has its own.
Names of options are compared in lower case, names of sections as they are.

A value may refer to another option of its section by `%(name)s`; `%%` stands for a percent sign.
References are followed when a value is read, at most ten deep.

While a file is read, an option holds the lines of its value. They are joined to a text when the
file has been read to its end; if the reading was given up, they stay lines, and the option has no
value that could be asked for.
-/

namespace LanguageClient

/-- What is stored for an option. -/
inductive Stored where
  | text (value : List Char)
  /-- The lines of a value whose file has not been read to its end. -/
  | lines (lines : List (List Char))
  deriving DecidableEq, Repr

namespace Stored

/-- Adds a line to a value that is being read. -/
def addLine (line : List Char) : Stored → Stored
  | .lines ls => .lines (ls ++ [line])
  | v => v

/-- The value once its file has been read. White space at its end is dropped. -/
def joined : Stored → Stored
  | .lines ls => .text (Text.trimEnd (['\n'].intercalate ls))
  | v => v

end Stored

/-- Options by their names in lower case. -/
abbrev Options := Table (List Char) Stored

/-- All settings. -/
structure Settings where
  defaults : Options := []
  sections : Table String Options := []

namespace Settings

/-- The name of the default section. -/
def defaultName : String := "DEFAULT"

/-- What a value is made of: characters, and references to other options. -/
inductive Piece where
  | char (c : Char)
  | reference (name : List Char)
  /-- A percent sign that starts no reference. -/
  | bad
  deriving DecidableEq, Repr

/-- Where the walk over a value stands. -/
inductive Scan where
  | plain
  | percent
  | name (sofar : List Char)

/-- The pieces of a value, up to the first fault. -/
def pieces : Scan → List Char → List Piece
  | .plain, [] => []
  | .plain, '%' :: rest => pieces .percent rest
  | .plain, c :: rest => .char c :: pieces .plain rest
  | .percent, '%' :: rest => .char '%' :: pieces .plain rest
  | .percent, '(' :: rest => pieces (.name []) rest
  | .percent, _ => [.bad]
  | .name [], ')' :: _ => [.bad]
  | .name sofar, ')' :: 's' :: rest => .reference sofar.reverse :: pieces .plain rest
  | .name _, ')' :: _ => [.bad]
  | .name _, [] => [.bad]
  | .name sofar, c :: rest => pieces (.name (c :: sofar)) rest

/-- How deep references may be nested. -/
def maxDepth : Nat := 10

/-- A text made of parts; none if one of them is no text. -/
abbrev Expansion := Option (List Char)

/-- Puts two parts together. -/
def Expansion.append (a b : Expansion) : Expansion := do return (← a) ++ (← b)

/-- The text of pieces, each reference replaced as `follow` says. -/
def joinPieces (follow : List Char → Except Failure Expansion) :
    List Piece → Except Failure Expansion
  | [] => .ok (some [])
  | .char c :: rest => do return (← joinPieces follow rest).map (c :: ·)
  | .bad :: _ => .error (.setting .badReference)
  | .reference name :: rest => do return (← follow name).append (← joinPieces follow rest)

/-- What is said when the value of an option is asked for and is no text. -/
def unfinished : Failure := .noSuchOperation .arr "find"

/-- The text of a value with its references followed, at most `depth` deep. Lines that are referred
    to are taken as they are, unless one of them is a percent sign that would have to be followed. -/
def expand (options : Options) : Nat → Stored → Except Failure Expansion
  | 0, _ => .error (.setting .depth)
  | _ + 1, .lines _ => .error unfinished
  | depth + 1, .text value =>
    joinPieces (fun name =>
      match options.get? (Text.lower name) with
      | none => .error (.setting .missingReference)
      | some (.text v) => if v.contains '%' then expand options depth (.text v) else .ok (some v)
      | some (.lines ls) => if ls.contains ['%'] then expand options depth (.lines ls) else .ok none)
      (pieces .plain value)

/-- The options that a section shows, or none if there is no such section. -/
def optionsOf? (s : Settings) (name : String) : Option Options :=
  match s.sections.get? name with
  | some own => some (own ++ s.defaults)
  | none => if name = defaultName then some s.defaults else none

/-- The value of an option, or none if it is not set. -/
def value? (s : Settings) (name key : String) : Except Failure (Option (List Char)) :=
  match s.optionsOf? name with
  | none => .ok none
  | some options =>
    match options.get? (Text.lower key.toList) with
    | none => .ok none
    | some v => do
      match ← expand options maxDepth v with
      | some value => return some value
      | none => throw (.wrongKind "sequence item 0: expected str instance, list found")

/-- The value of an option as a whole number, or none if it is not set. -/
def int? (s : Settings) (name key : String) : Except Failure (Option Int) := do
  match ← s.value? name key with
  | none => return none
  | some v =>
    match Text.readInteger v with
    | .ok n => return some n
    | .error message => throw (.invalid message)

/-- The words that switch something on. -/
def affirmative : List String := ["true", "1", "yes", "on"]

/-- The value of an option as a switch, or none if it is not set. -/
def bool? (s : Settings) (name key : String) : Except Failure (Option Bool) := do
  match ← s.value? name key with
  | none => return none
  | some v => return some (affirmative.contains (String.ofList (Text.lower (Text.trim v))))

/-- Removes doubled percent signs. -/
def dropDoubled : List Char → List Char
  | '%' :: '%' :: rest => dropDoubled rest
  | c :: rest => c :: dropDoubled rest
  | [] => []

/-- The length of a reference at the front of a text. -/
def referenceLength? (s : List Char) : Option Nat :=
  match s with
  | '%' :: '(' :: rest =>
    let name := rest.takeWhile (· ≠ ')')
    match name, rest.drop name.length with
    | _ :: _, ')' :: 's' :: _ => some (name.length + 4)
    | _, _ => none
  | _ => none

/-- Removes references; `skip` characters of one are still to be passed over. -/
def dropReferences (skip : Nat) : List Char → List Char
  | [] => []
  | c :: rest =>
    match skip with
    | n + 1 => dropReferences n rest
    | 0 =>
      match referenceLength? (c :: rest) with
      | some n => dropReferences (n - 1) rest
      | none => c :: dropReferences 0 rest

/-- Refuses a value with a percent sign that starts no reference. -/
def checkValue (value : List Char) : Except Failure Unit :=
  match (dropReferences 0 (dropDoubled value)).findIdx? (· == '%') with
  | none => .ok ()
  | some i =>
    .error (.invalid ("invalid interpolation syntax in " ++ String.ofList (Text.quoted value)
      ++ " at position " ++ toString i))

/-- Adds an empty section if it is not there. -/
def addSection (name : String) (s : Settings) : Settings :=
  if s.sections.has name then s else { s with sections := s.sections.put name [] }

/-- Changes the options of a section; the section without a name is the default one. -/
def onOptions (name : String) (f : Options → Options) (s : Settings) : Settings :=
  if name = "" ∨ name = defaultName then { s with defaults := f s.defaults }
  else { s with sections := s.sections.update name f }

/-- Writes an option of a section. -/
def write (name : String) (key : List Char) (value : Stored) (s : Settings) : Settings :=
  s.onOptions name (Table.put key value)

/-- Sets an option. A new section is added even if the value is then refused. -/
def set (name key : String) (value : List Char) (s : Settings) : Except Failure Unit × Settings :=
  if name = defaultName then (.error (.invalid ("Invalid section name: " ++ Text.quote name)), s)
  else
    let s := s.addSection name
    match checkValue value with
    | .error e => (.error e, s)
    | .ok () => (.ok (), s.write name (Text.lower key.toList) (.text value))

end Settings

end LanguageClient
