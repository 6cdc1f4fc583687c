import LanguageClient.Json.Binary64

/-!
JSON values. Objects keep their members in the order in which they were first written, because a
language server's answers and the texts sent to it both depend on that order. A key that is written
again keeps its place and takes the new value.
-/

namespace LanguageClient

/-- A JSON value. Integers have any size; numbers with a fraction or an exponent are binary
    floating-point numbers. -/
inductive Json where
  | null
  | bool (value : Bool)
  | int (value : Int)
  | float (value : Binary64)
  | str (value : String)
  | arr (items : List Json)
  | obj (members : List (String × Json))
  deriving Repr, Inhabited

/-- The members of an object, in order. -/
abbrev Members := List (String × Json)

namespace Members

/-- The value under a key. -/
def get? (key : String) : Members → Option Json
  | [] => none
  | (k, v) :: rest => if k = key then some v else get? key rest

/-- Writes a member: an old key keeps its place, a new one goes to the end. -/
def put (key : String) (value : Json) : Members → Members
  | [] => [(key, value)]
  | (k, v) :: rest => if k = key then (k, value) :: rest else (k, v) :: put key value rest

/-- The members that remain after writing them all in turn. -/
def ofList (entries : Members) : Members := entries.foldl (fun ms (k, v) => put k v ms) []

end Members

namespace Json

/-- The kinds of JSON values. -/
inductive Kind where
  | null | bool | int | float | str | arr | obj
  deriving DecidableEq, Repr

def kind : Json → Kind
  | .null => .null
  | .bool _ => .bool
  | .int _ => .int
  | .float _ => .float
  | .str _ => .str
  | .arr _ => .arr
  | .obj _ => .obj

/-- A value that counts as present: neither null, false, zero nor empty. -/
def truthy : Json → Bool
  | .null => false
  | .bool b => b
  | .int n => n ≠ 0
  | .float x => !x.isZero
  | .str s => s ≠ ""
  | .arr xs => !xs.isEmpty
  | .obj ms => !ms.isEmpty

/-- The value itself if it counts as present, else the other one. -/
def orElse (v other : Json) : Json := if v.truthy then v else other

/-- The member of an object; other values have none. -/
def member? (key : String) : Json → Option Json
  | .obj ms => Members.get? key ms
  | _ => none

/-- A text as a JSON value. -/
def text (s : List Char) : Json := .str (String.ofList s)

/-- A natural number as a JSON value. -/
def nat (n : Nat) : Json := .int n

/-- The value of an optional one, null standing for none. -/
def ofOption : Option Json → Json
  | some v => v
  | none => .null

/-- The number a value stands for where a whole number is expected: truth values count as one and
    zero. -/
def number? : Json → Option Int
  | .int n => some n
  | .bool b => some (if b then 1 else 0)
  | _ => none

/-- The number a value stands for, exactly. -/
def binary? : Json → Option Binary64
  | .float x => some x
  | v => v.number?.map .ofInt

/-- The whole number that a value equals. -/
def equalNumber? : Json → Option Int
  | .float (.finite negative m e) =>
    let (n, d) := Binary64.fraction negative m e
    if n % d = 0 then some (n / d) else none
  | v => v.number?

mutual

/-- Equality of values. Numbers are equal by their values, truth values equal the numbers one and
    zero, and the order of an object's members does not matter. -/
def same : Json → Json → Bool
  | .null, .null => true
  | .str a, .str b => a == b
  | .bool a, .bool b => a == b
  | .int a, .int b => a == b
  | .arr a, .arr b => sameItems a b
  | .obj a, .obj b => a.length == b.length && sameMembers a b
  | a, b =>
    match a.binary?, b.binary? with
    | some x, some y => x.equal y
    | _, _ => false

def sameItems : List Json → List Json → Bool
  | [], [] => true
  | x :: xs, y :: ys => same x y && sameItems xs ys
  | _, _ => false

/-- Is every member of the first object in the second one, with the same value? -/
def sameMembers : Members → Members → Bool
  | [], _ => true
  | (k, v) :: rest, other =>
    (match Members.get? k other with
      | some w => same v w
      | none => false) && sameMembers rest other

end

end Json

end LanguageClient
