import LanguageClient.Settings.Basic

/-!
Reading a settings file.

    [section]
    option = value          ; a colon will do instead of the equals sign
        goes on here        ; deeper indentation continues the value

Lines that start with `#` or `;` are comments. A section or an option may stand only once in a file.
Lines that make no sense are passed over, and the fault is reported at the end. Any other fault ends
the reading where it stands: what was read before is kept, but its values remain lines.
-/

namespace LanguageClient.Settings

/-- The lines of a text, ended by LF, CR or CR LF. -/
def textLines : List Char → List (List Char)
  | [] => [[]]
  | '\r' :: '\n' :: rest => [] :: textLines rest
  | c :: rest =>
    if c = '\r' ∨ c = '\n' then [] :: textLines rest
    else
      match textLines rest with
      | line :: lines => (c :: line) :: lines
      | [] => [[c]]

/-- The name between square brackets at the front of a line, up to the last closing one. -/
def sectionName? (line : List Char) : Option (List Char) :=
  match line with
  | '[' :: rest =>
    match rest.reverse.dropWhile (· ≠ ']') with
    | ']' :: c :: more => some (c :: more).reverse
    | _ => none
  | _ => none

/-- The name and the value around the first equals sign or colon. -/
def option? (line : List Char) : Option (List Char × List Char) :=
  let isMark (c : Char) : Bool := c == '=' || c == ':'
  match line.dropWhile (fun c => !isMark c) with
  | _ :: value => some (Text.trimEnd (line.takeWhile (fun c => !isMark c)), Text.trim value)
  | [] => none

/-- The settings with every value joined that is still lines. -/
def joined (s : Settings) : Settings :=
  let options (o : Options) : Options := o.map fun (key, value) => (key, value.joined)
  { defaults := options s.defaults, sections := s.sections.map fun (name, o) => (name, options o) }

/-- How far the reading of a file has come. -/
structure Reading where
  settings : Settings
  /-- The section being read. -/
  «section» : Option String := none
  /-- The section and the name of the option being read. -/
  option : Option (String × List Char) := none
  /-- Indentation of the last line that was no continuation. -/
  indent : Nat := 0
  seenSections : List String := []
  seenOptions : List (String × List Char) := []
  unreadable : Bool := false

namespace Reading

/-- Adds a line to the value being read. -/
def addLine (line : List Char) (r : Reading) : Reading :=
  match r.option with
  | some (owner, key) =>
    { r with settings := r.settings.onOptions owner (Table.update key (Stored.addLine line)) }
  | none => r

/-- Is a value being read to which lines can be added? An option without a name takes none. -/
def inValue (r : Reading) : Bool :=
  match r.option with
  | some (_, key) => !key.isEmpty
  | none => false

/-- Starts a section. -/
def startSection (name : String) (r : Reading) : Except SettingFault Reading :=
  if r.seenSections.contains name then .error .repeatedSection
  else if name = defaultName then .ok { r with «section» := some name, option := none }
  else
    .ok { r with
      settings := r.settings.addSection name
      «section» := some name
      option := none
      seenSections := name :: r.seenSections }

/-- Starts an option of a section. -/
def startOption (owner : String) (line : List Char) (r : Reading) : Except SettingFault Reading :=
  match option? line with
  | none => .ok { r with unreadable := true }
  | some (name, value) =>
    let key := Text.lower name
    if r.seenOptions.contains (owner, key) then .error .repeatedOption
    else
      .ok { r with
        settings := r.settings.write owner key (.lines [value])
        option := some (owner, key)
        seenOptions := (owner, key) :: r.seenOptions
        unreadable := r.unreadable || name.isEmpty }

/-- Reads one line. -/
def line (s : List Char) (r : Reading) : Except SettingFault Reading :=
  let body := Text.trim s
  match body with
  | [] => .ok (if r.inValue then r.addLine [] else r)
  | c :: _ =>
    if c = '#' ∨ c = ';' then .ok r
    else
      let indent := (s.takeWhile Text.isBlank).length
      if r.inValue && r.indent < indent then .ok (r.addLine body)
      else
        let r := { r with indent }
        match sectionName? body, r.section with
        | some name, _ => r.startSection (String.ofList name)
        | none, none => .error .noSection
        | none, some owner => r.startOption owner body

/-- Reads lines. At the end of the file the values are joined; a fault before that stops the
    reading. -/
def lines : List (List Char) → Reading → Option SettingFault × Settings
  | [], r => (if r.unreadable then some .unreadable else none, r.settings.joined)
  | s :: rest, r =>
    match r.line s with
    | .error fault => (some fault, r.settings)
    | .ok r => lines rest r

end Reading

/-- Reads a settings file on top of the settings there are. -/
def load (text : List Char) (s : Settings) : Except Failure Unit × Settings :=
  let (fault, s) := Reading.lines (textLines text) { settings := s }
  (match fault with
    | some fault => .error (.setting fault)
    | none => .ok (), s)

end LanguageClient.Settings
