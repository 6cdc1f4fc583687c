import LanguageClient.Change
import LanguageClient.Json.Order

/-!
Changes as they were sent: nothing is known yet of their offsets and of what they insert. A batch is
first checked against the length of the text; only then has each change to be one of whole offsets
and of a text.
-/

namespace LanguageClient

/-- A change whose parts have not been looked at. -/
structure SentChange where
  start : Json
  stop : Json
  insert : Json

namespace SentChange

/-- Is the first number less than the second? -/
def below (a b : Json) : Bool :=
  match a.binary?, b.binary? with
  | some x, some y => x.less y
  | _, _ => false

/-- Higher start first; of two that start together, the one that ends later. -/
def later (a b : SentChange) : Bool :=
  below b.start a.start || (b.start.same a.start && below b.stop a.stop)

/-- A batch from the highest offset down; changes at the same place keep their order. -/
def descending (changes : List SentChange) : List SentChange := sortStable later changes

/-- Does the change lie inside a text of the given length? -/
def inBounds (length : Nat) (c : SentChange) : Except Failure Bool := do
  if !(← (Json.int 0).atMost c.start) then return false
  if !(← c.start.atMost c.stop) then return false
  c.stop.atMost (.nat length)

/-- Refuses a batch if one of its changes lies outside the text. -/
def checkBounds (length : Nat) : List SentChange → Except Failure Unit
  | [] => .ok ()
  | c :: rest => do
    if ← c.inBounds length then checkBounds length rest
    else throw (.invalid (outsideMessage length c.start.shown c.stop.shown))

/-- The change, once its offsets are whole numbers and what it inserts is a text. -/
def typed (c : SentChange) : Except Failure Change := do
  return ⟨← c.start.offset, ← c.stop.offset, ← c.insert.joined⟩

/-- The changes of a batch that lies inside a text of the given length. -/
def checked (length : Nat) (changes : List SentChange) : Except Failure (List Change) := do
  checkBounds length changes
  changes.mapM typed

end SentChange

end LanguageClient
