/-!
Cuts of a text by offsets that need not lie inside it. A negative offset counts from the end, and
whatever still lies outside is moved to the nearest end.
-/

namespace LanguageClient.Text

/-- The place that an offset denotes in something of the given length. -/
def clampIndex (length : Nat) (i : Int) : Nat :=
  if i < 0 then (i + length).toNat else min i.toNat length

/-- The part from `start` up to `stop`. -/
def slice {α : Type} (xs : List α) (start stop : Int) : List α :=
  let a := clampIndex xs.length start
  let b := clampIndex xs.length stop
  (xs.drop a).take (b - a)

/-- The part from `start` to the end. -/
def sliceFrom {α : Type} (xs : List α) (start : Int) : List α :=
  xs.drop (clampIndex xs.length start)

/-- The part before `stop`. -/
def sliceTo {α : Type} (xs : List α) (stop : Int) : List α :=
  xs.take (clampIndex xs.length stop)

/-- The item at an index; a negative index counts from the end. -/
def item? {α : Type} (xs : List α) (i : Int) : Option α :=
  if i < 0 then (if 0 ≤ i + xs.length then xs[(i + xs.length).toNat]? else none) else xs[i.toNat]?

/-- Offset of the first occurrence of a word in a text. -/
def find? (word : List Char) : List Char → Option Nat
  | [] => if word = [] then some 0 else none
  | c :: rest => if word.isPrefixOf (c :: rest) then some 0 else (find? word rest).map (· + 1)

/-- Does the word occur in the text? -/
def contains (word s : List Char) : Bool := (find? word s).isSome

end LanguageClient.Text
