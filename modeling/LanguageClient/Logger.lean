import LanguageClient.Log
import LanguageClient.Settings.Basic
import LanguageClient.Text.CellWidth
import LanguageClient.Text.Emoji
import LanguageClient.Text.Split

/-!
The logger: every record is printed to a console and, if that is wanted, also to a file. Each starts
with a time, the logger's label and its level. Emoji may be written by name, characters that would
move the cursor are left out, and tabs are printed as spaces.
-/

namespace LanguageClient

/-- A logger with what it has printed. -/
structure Logger where
  label : String
  console : List Char := []
  /-- What the file holds, if one was made. -/
  file : Option (List Char) := none
  /-- Is the file open? -/
  filing : Bool := false

namespace Logger

/-- The label unless the settings say otherwise. -/
def defaultLabel : String := "editor-lsp"

/-- A new logger. An empty label counts as absent. -/
def create (s : Settings) (label : Option String) (toFile : Option Bool) :
    Except Failure Logger := do
  let label ← match label.filter (· ≠ "") with
    | some label => pure label
    | none => pure (((← s.value? "logging" "prefix").map String.ofList).getD defaultLabel)
  let toFile ← match toFile with
    | some b => pure b
    | none => pure ((← s.bool? "logging" "log_to_file").getD false)
  return { label, file := if toFile then some [] else none, filing := toFile }

/-- The name of the file. -/
def fileName (l : Logger) : String := l.label ++ ".log"

/-- Stands for the time of a record. -/
def timeMark : List Char := "[TIME]".toList

/-- How many columns the time of a record takes: a date and a time of day in brackets. -/
def timeWidth : Nat := "[0000-00-00 00:00:00]".length

/-- Characters that move the cursor are not printed. -/
def isPrinted (c : Char) : Bool :=
  !([0x07, 0x08, 0x0b, 0x0c, 0x0d].contains c.toNat)

/-- The lines of a text whose first line follows the time of a record, as they are printed. -/
def printedLines (text : List Char) : List (List Char) :=
  match Text.split '\n' text with
  | [] => []
  | first :: more => Text.expandTabs timeWidth first :: more.map (Text.expandTabs 0)

/-- A record as it is printed. -/
def format (level : Level) (message : String) (l : Logger) : List Char :=
  let text := (" [" ++ l.label ++ "] " ++ level.label ++ ": " ++ message).toList
  timeMark ++ ['\n'].intercalate (printedLines ((Text.replaceEmoji text).filter isPrinted)) ++ ['\n']

/-- Writes a record. -/
def write (level : Level) (message : String) (l : Logger) : Logger :=
  let printed := l.format level message
  { l with
    console := l.console ++ printed
    file := if l.filing then l.file.map (· ++ printed) else l.file }

/-- Closes the file. -/
def close (l : Logger) : Logger := { l with filing := false }

/-- Records the begin and the end of a call. -/
def traceCall (name description result : String) (l : Logger) : Logger :=
  (l.write .debug ("[start] " ++ name ++ " - " ++ description)).write .debug
    ("[end] " ++ name ++ " -> " ++ result)

/-- The lines of what was printed. -/
def lines (printed : List Char) : List (List Char) := (Text.split '\n' printed).dropLast

end Logger

end LanguageClient
