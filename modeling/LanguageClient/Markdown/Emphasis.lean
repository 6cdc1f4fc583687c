import LanguageClient.Text.Punctuation
import LanguageClient.Text.Ranges

/-!
Emphasis. A run of stars or underscores can open or close emphasis, depending on the characters
beside it. Closing marks look back for the nearest opening mark that fits them; marks between a pair
are not looked at again. Two pairs that stand directly inside each other are strong emphasis.

    ** a *b* c **      the outer marks pair twice, so they are strong
-/

namespace LanguageClient.Markdown

/-- White space as far as emphasis is concerned. -/
def gapRanges : Text.Ranges :=
  [(9, 13), (32, 32), (160, 160), (5760, 5760), (8192, 8202), (8239, 8239), (8287, 8287),
   (12288, 12288)]

/-- What a run of marks can do. -/
structure Flanks where
  opens : Bool
  closes : Bool
  deriving DecidableEq, Repr

/-- What a run between two characters can do. Underscores inside a word do nothing; stars do. -/
def flanks (mark before after : Char) : Flanks :=
  let gapBefore := gapRanges.has before
  let gapAfter := gapRanges.has after
  let pointBefore := Text.isPunctuation before
  let pointAfter := Text.isPunctuation after
  let left := !gapAfter && (!pointAfter || gapBefore || pointBefore)
  let right := !gapBefore && (!pointBefore || gapAfter || pointAfter)
  let inWords := mark == '*'
  { opens := left && (inWords || !right || pointBefore)
    closes := right && (inWords || !left || pointAfter) }

/-- One mark of a run. -/
structure Delimiter where
  mark : Char
  /-- The length of its run. -/
  run : Nat
  /-- Where it stands among the pieces of the text. -/
  at' : Nat
  opens : Bool
  closes : Bool
  /-- The mark that closes what it opens. -/
  partner : Option Nat := none
  deriving DecidableEq, Repr

/-- The marks of a text while they are paired. `jumps` says how many marks before one are not looked
    at again; `floors` how far back it was looked in vain, for each kind of closing mark. -/
structure Pairing where
  marks : Array Delimiter
  jumps : Array Nat
  floors : List ((Char × Nat) × Int) := []
  /-- The first mark of the run that is being passed. -/
  header : Nat := 0
  /-- Where the mark before stands, none if a new run begins in any case. -/
  previous : Option Nat := none

namespace Pairing

/-- Two marks that can both open and close do not fit if their runs add up to a multiple of three,
    unless both runs are. -/
def fits (opening closing : Delimiter) : Bool :=
  !((opening.closes || closing.opens) && (opening.run + closing.run) % 3 == 0
    && (opening.run % 3 != 0 || closing.run % 3 != 0))

/-- Looks back from an index for a mark that a closing mark fits. -/
def search (p : Pairing) (closing : Delimiter) (floor : Int) : Nat → Int → Option Nat
  | 0, _ => none
  | bound + 1, i =>
    if i ≤ floor || i < 0 then none
    else
      match p.marks[i.toNat]?, p.jumps[i.toNat]? with
      | some m, some jump =>
        if m.mark == closing.mark && m.opens && m.partner.isNone && fits m closing then some i.toNat
        else search p closing floor bound (i - jump - 1)
      | _, _ => none

/-- The kind of a closing mark, as far as looking back is concerned. -/
def kindOf (m : Delimiter) : Char × Nat := (m.mark, (if m.opens then 3 else 0) + m.run % 3)

/-- Pairs two marks. -/
def pair (opening closing : Nat) (p : Pairing) : Pairing :=
  let lastJump :=
    match opening with
    | 0 => 0
    | before + 1 =>
      match p.marks[before]?, p.jumps[before]? with
      | some m, some jump => if m.opens then 0 else jump + 1
      | _, _ => 0
  { p with
    marks := (p.marks.modify closing ({ · with opens := false })).modify opening
      ({ · with partner := some closing, closes := false })
    jumps := (p.jumps.setIfInBounds closing (closing - opening + lastJump)).setIfInBounds opening
      lastJump
    previous := none }

/-- Passes the mark at an index. -/
def pass (p : Pairing) (i : Nat) : Pairing :=
  match p.marks[i]? with
  | none => p
  | some m =>
    let sameRun := match p.marks[p.header]?, p.previous with
      | some h, some before => h.mark == m.mark && before + 1 == m.at'
      | _, _ => false
    let p := { p with
      jumps := p.jumps.push 0
      header := if sameRun then p.header else i
      previous := some m.at' }
    if !m.closes then p
    else
      let floor := (p.floors.lookup (kindOf m)).getD (-1)
      let start : Int := p.header - (p.jumps[p.header]?.getD 0 : Nat) - 1
      match p.search m floor (i + 1) start with
      | some opening => p.pair opening i
      | none => { p with floors := (kindOf m, start) :: p.floors }

/-- Pairs the marks of a text. -/
def run (marks : Array Delimiter) : Array Delimiter :=
  ((List.range marks.size).foldl pass { marks, jumps := #[] }).marks

end Pairing

/-- What becomes of a mark. -/
inductive MarkRole where
  | text
  | opens (strong : Bool)
  | closes (strong : Bool)
  /-- The second mark of strong emphasis. -/
  | nothing
  deriving DecidableEq, Repr

/-- Does the pair of a mark stand directly inside another one, opened by the mark before it? -/
def isDouble (marks : Array Delimiter) (i closing : Nat) : Bool :=
  let answer : Option Bool := do
    let outer ← if i = 0 then none else marks[i - 1]?
    let opening ← marks[i]?
    let inner ← marks[closing]?
    let last ← marks[closing + 1]?
    return outer.partner = some (closing + 1) && outer.mark == opening.mark
      && outer.at' + 1 == opening.at' && last.at' == inner.at' + 1
  answer.getD false

/-- The role of each mark by its index. Marks are looked at from the last to the first, and `i` is
    the number of those left; `skip` says that the next one belongs to strong emphasis. -/
def markRoles (marks : Array Delimiter) (skip : Bool) : Nat → List (Nat × MarkRole)
  | 0 => []
  | i + 1 =>
    match skip, (marks[i]?).bind (·.partner) with
    | true, _ | _, none => markRoles marks false i
    | false, some closing =>
      if isDouble marks i closing then
        (i, .opens true) :: (closing, .closes true) :: (i - 1, .nothing) :: (closing + 1, .nothing)
          :: markRoles marks true i
      else (i, .opens false) :: (closing, .closes false) :: markRoles marks false i

/-- The role of each place at which a mark stands. -/
def rolesByPlace (marks : Array Delimiter) : List (Nat × MarkRole) :=
  let paired := Pairing.run marks
  (markRoles paired false paired.size).filterMap fun (i, role) =>
    (paired[i]?).map fun m => (m.at', role)

end LanguageClient.Markdown
