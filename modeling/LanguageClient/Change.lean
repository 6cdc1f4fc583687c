import LanguageClient.Order
import LanguageClient.Failure

/-!
Changes to a text. A batch of changes refers to the text before the batch, and is applied from the
highest offset down, so that the offsets of the changes still to come stay valid.

    text      a b c d e f          changes  [1,2) ↦ X,  [4,6) ↦ YZ
    step 1    a b c d Y Z
    step 2    a X c d Y Z
-/

namespace LanguageClient

/-- Replaces the characters from `start` up to `stop` by a text. -/
structure Change where
  start : Int
  stop : Int
  insert : List Char
  deriving DecidableEq, Repr

namespace Change

/-- Does the change lie inside a text of the given length? -/
def inBounds (length : Nat) (c : Change) : Bool :=
  0 ≤ c.start && c.start ≤ c.stop && c.stop ≤ length

/-- Higher start first; of two that start together, the one that ends later. -/
def later (a b : Change) : Bool := pairBefore (b.start, b.stop) (a.start, a.stop)

/-- Lower start first; of two that start together, the one that ends earlier. -/
def earlier (a b : Change) : Bool := pairBefore (a.start, a.stop) (b.start, b.stop)

end Change

/-- A batch from the highest offset down; changes at the same place keep their order. -/
def descending (changes : List Change) : List Change := sortStable Change.later changes

/-- A batch from the lowest offset up; changes at the same place keep their order. -/
def ascending (changes : List Change) : List Change := sortStable Change.earlier changes

/-- Carries out one change. -/
def splice (text : List Char) (c : Change) : List Char :=
  text.take c.start.toNat ++ c.insert ++ text.drop c.stop.toNat

/-- What is said of a change that lies outside a text. -/
def outsideMessage (length : Nat) (start stop : String) : String :=
  "change " ++ start ++ ".." ++ stop ++ " outside text of length " ++ toString length

/-- Refuses a batch if one of its changes lies outside the text. -/
def checkBounds (length : Nat) (changes : List Change) : Except Failure Unit :=
  match changes.find? (fun c => !c.inBounds length) with
  | some c => .error (.invalid (outsideMessage length (toString c.start) (toString c.stop)))
  | none => .ok ()

/-- The text after a batch of changes, all relative to the text before it. -/
def applyChanges (text : List Char) (changes : List Change) : Except Failure (List Char) :=
  match checkBounds text.length changes with
  | .error e => .error e
  | .ok () => .ok ((descending changes).foldl splice text)

/-- By how much a change lengthens the text. -/
def Change.growth (c : Change) : Int := c.insert.length - (c.stop - c.start)

/-- Where an offset ends up after a batch of changes, all relative to the text before it. -/
def shiftOffset (offset : Int) (changes : List Change) : Int :=
  changes.foldl (fun at' c => if c.stop ≤ offset then at' + c.growth else at') offset

end LanguageClient
