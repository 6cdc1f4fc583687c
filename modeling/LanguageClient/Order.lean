/-!
Sorting that keeps the order of equals. Change batches, completion candidates and signature
triggers are all ranked this way: what the order does not tell apart stays as it came.
-/

namespace LanguageClient

/-- Puts an item in front of the first one that it does not come after. -/
def insertStable {α : Type} (before : α → α → Bool) (x : α) : List α → List α
  | [] => [x]
  | y :: ys => if before y x then y :: insertStable before x ys else x :: y :: ys

/-- Sorts by a strict order, keeping the order of items that it does not tell apart. -/
def sortStable {α : Type} (before : α → α → Bool) : List α → List α
  | [] => []
  | x :: xs => insertStable before x (sortStable before xs)

/-- Strict order of pairs of numbers, first component first. -/
def pairBefore (a b : Int × Int) : Bool := a.1 < b.1 || (a.1 == b.1 && a.2 < b.2)

/-- Strict order of texts by code point. -/
def textBefore : List Char → List Char → Bool
  | _, [] => false
  | [], _ :: _ => true
  | a :: as, b :: bs =>
    if a.toNat < b.toNat then true else if b.toNat < a.toNat then false else textBefore as bs

end LanguageClient
