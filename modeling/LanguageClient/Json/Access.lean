import LanguageClient.Failure
import LanguageClient.Text.Slice

/-!
Reading JSON values whose shape is not known in advance. Every reader names the failure that a
value of the wrong shape causes.
-/

namespace LanguageClient.Json

/-- The member of an object, null if it is not there. -/
def get (key : String) : Json → Except Failure Json
  | .obj ms => .ok ((Members.get? key ms).getD .null)
  | v => .error (.noSuchOperation v.kind "get")

/-- The member of an object, or a value to use if it is not there. -/
def getOr (v : Json) (key : String) (default : Json) : Except Failure Json :=
  match v with
  | .obj ms => .ok ((Members.get? key ms).getD default)
  | v => .error (.noSuchOperation v.kind "get")

/-- The member of an object, which has to be there. -/
def require (key : String) : Json → Except Failure Json
  | .obj ms =>
    match Members.get? key ms with
    | some v => .ok v
    | none => .error (.missing (.str key))
  | .arr _ => .error (.wrongKind "list indices must be integers or slices, not str")
  | .str _ => .error (.wrongKind "string indices must be integers, not 'str'")
  | v => .error (.wrongKind ("'" ++ v.kind.label ++ "' object is not subscriptable"))

/-- Is the word a key of the object, an item of the list or a part of the text? -/
def holds (word : String) : Json → Except Failure Bool
  | .obj ms => .ok (Members.get? word ms).isSome
  | .arr xs => .ok (xs.any (same (.str word)))
  | .str s => .ok (Text.contains word.toList s.toList)
  | v => .error (.wrongKind ("argument of type '" ++ v.kind.label ++ "' is not iterable"))

/-- The items one by one: of a list its items, of a text its characters, of an object its keys. -/
def items : Json → Except Failure (List Json)
  | .arr xs => .ok xs
  | .str s => .ok (s.toList.map fun c => text [c])
  | .obj ms => .ok (ms.map fun (k, _) => .str k)
  | v => .error (.wrongKind ("'" ++ v.kind.label ++ "' object is not iterable"))

/-- The characters of a text that is asked to do a text's operation. -/
def chars (operation : String) : Json → Except Failure (List Char)
  | .str s => .ok s.toList
  | v => .error (.noSuchOperation v.kind operation)

/-- The characters of a value that is joined to a text. -/
def joined : Json → Except Failure (List Char)
  | .str s => .ok s.toList
  | v =>
    .error (.wrongKind ("can only concatenate str (not \"" ++ v.kind.label ++ "\") to str"))

/-- The number of items of a value that has some. -/
def count : Json → Except Failure Nat
  | .arr xs => .ok xs.length
  | .obj ms => .ok ms.length
  | .str s => .ok s.length
  | v => .error (.wrongKind ("object of type '" ++ v.kind.label ++ "' has no len()"))

/-- The item at an index, which has to be a whole number. An object has no such key. -/
def item (v index : Json) : Except Failure Json :=
  match v with
  | .arr xs =>
    match index.number? with
    | none => .error (.wrongKind ("list indices must be integers or slices, not " ++ index.kind.label))
    | some i =>
      match Text.item? xs i with
      | some v => .ok v
      | none => .error (.outOfRange "list index out of range")
  | .str s =>
    match index.number? with
    | none => .error (.wrongKind ("string indices must be integers, not '" ++ index.kind.label ++ "'"))
    | some i =>
      match Text.item? s.toList i with
      | some c => .ok (text [c])
      | none => .error (.outOfRange "string index out of range")
  | .obj _ => .error (.missing index)
  | v => .error (.wrongKind ("'" ++ v.kind.label ++ "' object is not subscriptable"))

/-- The whole number of a value that says where to cut a text. -/
def offset (v : Json) : Except Failure Int :=
  match v.number? with
  | some n => .ok n
  | none => .error (.wrongKind "slice indices must be integers or None or have an __index__ method")

/-- A value that can be a key of a table: any but lists and objects. -/
def asKey : Json → Except Failure Json
  | .arr _ => .error (.wrongKind "unhashable type: 'list'")
  | .obj _ => .error (.wrongKind "unhashable type: 'dict'")
  | v => .ok v

end LanguageClient.Json
