import LanguageClient.Json.Access
import LanguageClient.Order

/-!
Order and arithmetic of JSON values. Numbers are compared exactly, whether they are whole or not;
texts and lists are compared from the front. Values of different kinds have no order.
-/

namespace LanguageClient.Json

/-- What is said of two values that a relation does not hold between. -/
def unordered (relation : String) (a b : Json) : Failure :=
  .wrongKind ("'" ++ relation ++ "' not supported between instances of '" ++ a.kind.label ++ "' and '"
    ++ b.kind.label ++ "'")

mutual

/-- Is the first value less than the second? -/
def less : Json → Json → Except Failure Bool
  | .str a, .str b => .ok (textBefore a.toList b.toList)
  | .arr a, .arr b => lessItems a b
  | a, b =>
    match a.binary?, b.binary? with
    | some x, some y => .ok (x.less y)
    | _, _ => .error (unordered "<" a b)

/-- The first items that differ decide; a list is less than a longer one that begins with it. -/
def lessItems : List Json → List Json → Except Failure Bool
  | _, [] => .ok false
  | [], _ :: _ => .ok true
  | x :: xs, y :: ys => if x.same y then lessItems xs ys else less x y

end

/-- Is the first number at most the second? -/
def atMost (a b : Json) : Except Failure Bool :=
  match a.binary?, b.binary? with
  | some x, some y => .ok (x.less y || x.equal y)
  | _, _ => .error (unordered "<=" a b)

/-- What is said of two values that cannot be added or subtracted. -/
def unsupported (operation : String) (a b : Json) : Failure :=
  .wrongKind ("unsupported operand type(s) for " ++ operation ++ ": '" ++ a.kind.label ++ "' and '"
    ++ b.kind.label ++ "'")

/-- The sum of two numbers. It is whole if both are. -/
def plus (a b : Json) : Except Failure Json :=
  match a.number?, b.number?, a.binary?, b.binary? with
  | some m, some n, _, _ => .ok (.int (m + n))
  | _, _, some x, some y => .ok (.float (x.add y))
  | _, _, _, _ => .error (unsupported "+" a b)

/-- The difference of two numbers. It is whole if both are. -/
def minus (a b : Json) : Except Failure Json :=
  match a.number?, b.number?, a.binary?, b.binary? with
  | some m, some n, _, _ => .ok (.int (m - n))
  | _, _, some x, some y => .ok (.float (x.add y.neg))
  | _, _, _, _ => .error (unsupported "-" a b)

end LanguageClient.Json
